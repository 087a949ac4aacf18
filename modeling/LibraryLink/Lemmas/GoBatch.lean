import LibraryLink.GoBatch

/-!
# Helpers for `Theorems/GoBatch.lean`: the two programs

The client's operations are writes and flushes, the last of them a flush, and after them reads only. Those of the receiver are
taken request by request: what it has handed on after `k` of them, and what it has still to read.
-/

namespace LibraryLink.Go.Batch

open Duplex

/-! ## Lists in two parts -/

/-- Where a list is cut in two ways, one cut comes first. -/
theorem cut_cases {α : Type} {a b c d : List α} (h : a ++ b = c ++ d) :
    (∃ x, a = c ++ x ∧ d = x ++ b) ∨ ∃ x, c = a ++ x ∧ b = x ++ d := by
  rcases List.append_eq_append_iff.mp h with ⟨x, hc, hb⟩ | ⟨x, ha, hd⟩
  · exact Or.inr ⟨x, hc, hb⟩
  · exact Or.inl ⟨x, ha, hd⟩

/-- An operation is a read. -/
def IsRead (op : Op) : Prop := ∃ n, op = .read n

/-- A read in a list that begins without reads comes after the beginning. -/
theorem cut_of_read {done ops before after : List Op} {n : Nat} (hbefore : ∀ op ∈ before, ¬IsRead op)
    (h : done ++ .read n :: ops = before ++ after) : ∃ x, done = before ++ x ∧ after = x ++ .read n :: ops := by
  rcases cut_cases h with hx | ⟨x, hbefore', hx⟩
  · exact hx
  · cases x with
    | nil => exact ⟨[], by simpa using hbefore'.symm, hx.symm⟩
    | cons op x =>
      obtain ⟨rfl, -⟩ := List.cons.inj hx
      exact absurd ⟨n, rfl⟩ (hbefore _ (by simp [hbefore']))

/-! ## The client -/

/-- The bytes of the requests from the one after the `k`-th on, and of the frame that ends the batch. -/
def rest (messages : List Message) (k : Nat) : Nat := ((messages.drop k).map fun m => 8 + m.bytes.length).sum + 8

theorem framingOps_no_read (buffering : Bool) (ops : List FramingOp) : ∀ op ∈ framingOps buffering ops, ¬IsRead op := by
  induction ops generalizing buffering with
  | nil => exact nofun
  | cons op ops ih =>
    cases op with
    | request message =>
      intro op hop
      rcases List.mem_append.mp hop with hop | hop
      · rintro ⟨n, rfl⟩
        cases buffering <;> simp [write] at hop
      · exact ih _ op hop
    | buffering value =>
      intro op hop
      rcases List.mem_append.mp hop with hop | hop
      · rintro ⟨n, rfl⟩
        cases value <;> simp [write] at hop
      · exact ih _ op hop

/-- The requests of a batch, as operations on the output stream. -/
theorem framingOps_requests (messages : List Message) (ops : List FramingOp) :
    framingOps true (messages.map .request ++ ops) =
      (messages.flatMap fun m => write true m.bytes.length) ++ framingOps true ops := by
  induction messages with
  | nil => rfl
  | cons message messages ih =>
    rw [List.map_cons, List.cons_append, framingOps, ih, List.flatMap_cons, List.append_assoc]

/-- The operations that write the batch end in a flush. -/
theorem framingOps_batch (messages : List Message) :
    framingOps false (batch messages) =
      write true 0 ++ [.flush] ++ (messages.flatMap fun m => write true m.bytes.length) ++ write false 0 ++ [.flush] := by
  rw [batch, framingOps, framingOps_requests]
  simp [framingOps, List.append_assoc]

theorem sent_framingOps_batch (messages : List Message) : sent (framingOps false (batch messages)) = rest messages 0 + 8 := by
  have hrequests : sent (messages.flatMap fun m => write true m.bytes.length) =
      (messages.map fun m => 8 + m.bytes.length).sum := by
    induction messages with
    | nil => rfl
    | cons message messages ih =>
      rw [List.flatMap_cons, sent_append, ih, List.map_cons, List.sum_cons]
      congr 1
      simp only [write, if_true, List.append_nil, sent_cons, sent_nil, Op.sent]
      omega
  rw [framingOps_batch, sent_append, sent_append, sent_append, sent_append, hrequests]
  simp only [write, if_true, sent_append, sent_cons, sent_nil, Op.sent, rest, List.drop_zero, Bool.false_eq_true, if_false]
  omega

/-- Operations without a read take nothing. -/
theorem taken_of_no_read {ops : List Op} (h : ∀ op ∈ ops, ¬IsRead op) : taken ops = 0 := by
  induction ops with
  | nil => rfl
  | cons op ops ih =>
    rw [taken_cons, ih fun op' hop' => h op' (List.mem_cons_of_mem _ hop')]
    cases op with
    | read n => exact absurd ⟨n, rfl⟩ (h _ List.mem_cons_self)
    | _ => rfl

/-- The client reads as many bytes as there are in the responses. -/
theorem taken_readResponses (messages : List Message) :
    taken (messages.flatMap fun _ => readResponse) = 10 * messages.length ∧
      sent (messages.flatMap fun _ => readResponse) = 0 ∧ ∀ op ∈ messages.flatMap fun _ => readResponse, IsRead op := by
  refine ⟨?_, ?_, ?_⟩
  · induction messages with
    | nil => rfl
    | cons message messages ih =>
      rw [List.flatMap_cons, taken_append, ih, List.length_cons]
      simp only [readResponse, taken_cons, taken_nil, Op.taken]
      omega
  · induction messages with
    | nil => rfl
    | cons message messages ih =>
      rw [List.flatMap_cons, sent_append, ih]
      rfl
  · intro op hop
    obtain ⟨message, -, hop⟩ := List.mem_flatMap.mp hop
    unfold readResponse at hop
    rcases List.mem_cons.mp hop with rfl | hop
    · exact ⟨_, rfl⟩
    · rcases List.mem_cons.mp hop with rfl | hop
      · exact ⟨_, rfl⟩
      · rw [List.mem_singleton.mp hop]
        exact ⟨_, rfl⟩

/-- A client that reads has written out the whole batch. -/
theorem client_reads {β : Buffering} {messages : List Message} {s : Side} {n : Nat} {ops : List Op}
    (h : s.Inv β (sendRequests messages)) (hops : s.ops = .read n :: ops) :
    s.buffered = 0 ∧ sent s.ops = 0 ∧ β.handed s.done = rest messages 0 + 8 := by
  have hprogram := h.program
  rw [hops] at hprogram
  obtain ⟨x, hdone, hreads⟩ := cut_of_read (framingOps_no_read false (batch messages)) hprogram
  obtain ⟨-, hsent, hall⟩ := taken_readResponses messages
  rw [hreads] at hsent hall
  have hafter : β.after s.done = β.after (framingOps false (batch messages)) := by
    rw [hdone, Buffering.after_append]
    exact β.foldl_perform_reads (fun op hop => hall op (List.mem_append_left _ hop)) _
  have hzero : (β.after (framingOps false (batch messages))).1 = 0 := by
    rw [framingOps_batch, Buffering.after_concat]
    rfl
  have htotal := β.after_total (framingOps false (batch messages))
  unfold Buffering.handed at htotal ⊢
  rw [hzero, sent_framingOps_batch] at htotal
  refine ⟨?_, ?_, ?_⟩
  · rw [← h.buffered, hafter, hzero]
  · rw [hops]
    rw [sent_append] at hsent
    omega
  · rw [hafter]
    omega

/-! ## The receiver -/

/-- What the receiver writes for a request. -/
def answer : List Op := [.write 4, .write 4, .write 2]

/-- What the receiver does with a request of a batch. -/
def serve (message : Message) : List Op := [.read 4, .read 4, .read message.bytes.length] ++ answer

/-- What the writer holds and what it has handed on after some more answers. -/
def answered (β : Buffering) (k : Nat) (w : Nat × Nat) : Nat × Nat := (answer.foldl β.perform)^[k] w

/-- The bytes that the receiver's writer has handed on after the answers to `k` requests. -/
def pushed (β : Buffering) (k : Nat) : Nat := (answered β k (0, 0)).2

theorem handler_requests (messages : List Message) (frames : List Frame) :
    handler true ((messages.map FramingOp.request).map FramingOp.frame ++ frames) =
      messages.flatMap serve ++ handler true frames := by
  induction messages with
  | nil => rfl
  | cons message messages ih =>
    rw [List.map_cons, List.map_cons, List.cons_append, handler]
    simp only [FramingOp.frame, ih]
    simp [serve, answer]

/-- The receiver's operations, once it has read that a batch begins. -/
def serveBatch (messages : List Message) : List Op := messages.flatMap serve ++ [.read 4, .read 4, .flush, .read 4]

theorem handler_batch (messages : List Message) :
    handler false ((batch messages).map FramingOp.frame) = [.read 4, .read 4] ++ serveBatch messages := by
  rw [batch, List.map_cons, List.map_append, handler]
  simp only [FramingOp.frame, if_true]
  rw [handler_requests]
  rfl

theorem taken_serve (message : Message) : taken (serve message) = 8 + message.bytes.length ∧ sent (serve message) = 10 := by
  constructor
  · simp only [serve, answer, List.cons_append, List.nil_append, taken_cons, taken_nil, Op.taken]
    omega
  · rfl

theorem taken_serveBatch (messages : List Message) :
    taken (serveBatch messages) = rest messages 0 + 4 ∧ sent (serveBatch messages) = 10 * messages.length := by
  unfold serveBatch rest
  induction messages with
  | nil => exact ⟨rfl, rfl⟩
  | cons message messages ih =>
    obtain ⟨h, h'⟩ := taken_serve message
    rw [List.flatMap_cons, List.append_assoc, taken_append, sent_append, ih.1, ih.2, h, h', List.length_cons, List.drop_zero,
      List.drop_zero, List.map_cons, List.sum_cons]
    omega

theorem rest_cons (message : Message) (messages : List Message) (k : Nat) : rest (message :: messages) (k + 1) = rest messages k :=
  rfl

/-- The writer after the answers to the requests of a list. -/
theorem foldl_perform_serve (β : Buffering) (messages : List Message) (w : Nat × Nat) :
    (messages.flatMap serve).foldl β.perform w = answered β messages.length w := by
  induction messages generalizing w with
  | nil => rfl
  | cons message messages ih =>
    rw [List.flatMap_cons, List.foldl_append, ih, List.length_cons]
    rfl

/-- What is left of operations takes no more than all of them. -/
theorem taken_le_of_append {done ops all : List Op} (h : done ++ ops = all) : taken ops ≤ taken all := by
  rw [← h, taken_append]
  exact Nat.le_add_left _ _

/-- What is done of reads hands nothing on. -/
theorem foldl_perform_of_reads (β : Buffering) {done ops reads : List Op} (hreads : ∀ op ∈ reads, IsRead op)
    (h : reads = done ++ ops) (w : Nat × Nat) : done.foldl β.perform w = w :=
  β.foldl_perform_reads (fun op hop => hreads op (h ▸ List.mem_append_left _ hop)) w

/-- Wherever the receiver stands in a batch, either it has nothing more to read than the next frame, or for some number of
requests it has handed on no more than after so many answers and has to read no more than after so many requests. -/
theorem serveBatch_position (β : Buffering) {messages : List Message} {done ops : List Op} (w : Nat × Nat)
    (h : done ++ ops = serveBatch messages) :
    taken ops ≤ 4 ∨
      ∃ k ≤ messages.length, (done.foldl β.perform w).2 ≤ (answered β k w).2 ∧ taken ops ≤ rest messages k + 4 := by
  have htaken := taken_le_of_append h
  rw [(taken_serveBatch messages).1] at htaken
  induction messages generalizing done w with
  | nil =>
    -- The frame that ends the batch: two reads, and after them a flush.
    have h' : done ++ ops = [.read 4, .read 4] ++ [.flush, .read 4] := h
    rcases cut_cases h' with ⟨x, -, hx⟩ | ⟨x, hx, -⟩
    · exact Or.inl (taken_le_of_append hx.symm)
    · refine Or.inr ⟨0, Nat.le_refl _, ?_, htaken⟩
      rw [foldl_perform_of_reads β (by simp [IsRead]) hx]
      exact Nat.le_refl _
  | cons message messages ih =>
    have h' : done ++ ops = serve message ++ serveBatch messages := by
      rw [h]
      simp [serveBatch]
    rcases cut_cases h' with ⟨x, rfl, hx⟩ | ⟨x, hx, rfl⟩
    · have htaken' := taken_le_of_append hx.symm
      rw [(taken_serveBatch messages).1] at htaken'
      rcases ih (answer.foldl β.perform w) hx.symm htaken' with h4 | ⟨k, hk, hhanded, hle⟩
      · exact Or.inl h4
      · refine Or.inr ⟨k + 1, Nat.succ_le_succ hk, ?_, hle⟩
        rw [List.foldl_append]
        exact hhanded
    · rcases cut_cases hx.symm with ⟨y, -, hy⟩ | ⟨y, hy, -⟩
      · -- In the answer: this request is read.
        refine Or.inr ⟨1, Nat.succ_le_succ (Nat.zero_le _), ?_, ?_⟩
        · have hmono := β.le_foldl_perform x (done.foldl β.perform w)
          rw [← List.foldl_append, ← hx] at hmono
          exact hmono
        · have hanswer : taken x ≤ 0 := taken_le_of_append hy.symm
          rw [taken_append, (taken_serveBatch messages).1, rest_cons]
          omega
      · refine Or.inr ⟨0, Nat.zero_le _, ?_, htaken⟩
        rw [foldl_perform_of_reads β (by simp [IsRead]) hy]
        exact Nat.le_refl _

/-- Wherever the receiver stands, it has handed on nothing, or stands as in the rule above. -/
theorem handler_position (β : Buffering) {messages : List Message} {done ops : List Op}
    (h : done ++ ops = handler false ((batch messages).map FramingOp.frame)) :
    β.handed done = 0 ∨ taken ops ≤ 4 ∨
      ∃ k ≤ messages.length, β.handed done ≤ pushed β k ∧ taken ops ≤ rest messages k + 4 := by
  rw [handler_batch] at h
  unfold Buffering.handed Buffering.after
  rcases cut_cases h with ⟨x, rfl, hx⟩ | ⟨x, hx, -⟩
  · rw [List.foldl_append]
    exact Or.inr (serveBatch_position β (0, 0) hx.symm)
  · left
    rw [foldl_perform_of_reads β (by simp [IsRead]) hx]

/-- A receiver that reads the last bytes it can has flushed its writer. -/
theorem handler_waits {β : Buffering} {messages : List Message} {s : Side} {n : Nat} {ops : List Op}
    (h : s.Inv β (handler false ((batch messages).map FramingOp.frame))) (hops : s.ops = .read n :: ops) (hlast : taken ops < 4) :
    n = 4 ∧ ops = [] ∧ β.handed s.done = 10 * messages.length := by
  have hprogram := h.program
  rw [hops, handler_batch, serveBatch] at hprogram
  have hcut : s.done ++ .read n :: ops =
      ([.read 4, .read 4] ++ messages.flatMap serve ++ [.read 4, .read 4] ++ [.flush]) ++ [.read 4] := by
    rw [hprogram]
    simp
  obtain ⟨hdone, hread⟩ : s.done = [.read 4, .read 4] ++ messages.flatMap serve ++ [.read 4, .read 4] ++ [.flush] ∧
      Op.read n :: ops = [.read 4] := by
    rcases cut_cases hcut with ⟨x, hx, hread⟩ | ⟨x, hx, hread⟩
    · cases x with
      | nil => exact ⟨by rw [hx, List.append_nil], hread.symm⟩
      | cons op x => simp at hread
    · cases x with
      | nil => exact ⟨by rw [hx, List.append_nil], hread⟩
      | cons op x =>
        rw [List.cons_append] at hread
        rw [(List.cons.inj hread).2, taken_append] at hlast
        simp only [taken_cons, taken_nil, Op.taken] at hlast
        omega
  obtain ⟨hn, rfl⟩ := List.cons.inj hread
  have htotal := h.total
  have hbuffered : s.buffered = 0 := by
    rw [← h.buffered, hdone, Buffering.after_concat]
    rfl
  rw [hbuffered, hops, handler_batch, sent_append, (taken_serveBatch messages).2] at htotal
  simp only [sent_cons, sent_nil, Op.sent] at htotal
  exact ⟨Op.read.inj hn, rfl, by omega⟩

/-- The receiver's operations up to the answer to the `k`-th request, and those after it. -/
theorem handler_split (β : Buffering) {messages : List Message} {k : Nat} (hk : k ≤ messages.length) :
    ∃ before after, handler false ((batch messages).map FramingOp.frame) = before ++ after ∧ β.handed before = pushed β k ∧
      taken after = rest messages k + 4 := by
  refine ⟨[.read 4, .read 4] ++ (messages.take k).flatMap serve, serveBatch (messages.drop k), ?_, ?_, ?_⟩
  · rw [handler_batch, serveBatch, serveBatch, List.append_assoc, ← List.append_assoc (List.flatMap serve _),
      ← List.flatMap_append, List.take_append_drop]
  · unfold Buffering.handed
    rw [Buffering.after_append, foldl_perform_serve, List.length_take, Nat.min_eq_left hk]
    rfl
  · rw [(taken_serveBatch _).1]
    rfl

/-- A receiver that has handed on less than after `k` answers has still to read the rest of the batch after `k` requests. -/
theorem handler_before (β : Buffering) {messages : List Message} {k : Nat} (hk : k ≤ messages.length) {done ops : List Op}
    (h : done ++ ops = handler false ((batch messages).map FramingOp.frame)) (hlt : β.handed done < pushed β k) :
    ∃ op between after, ops = op :: between ++ after ∧ taken after = rest messages k + 4 := by
  obtain ⟨before, after, hsplit, hhanded, htaken⟩ := handler_split β hk
  rw [hsplit] at h
  rcases cut_cases h with ⟨x, rfl, -⟩ | ⟨x, rfl, hops⟩
  · have := β.handed_le_append before x
    omega
  · cases x with
    | nil =>
      rw [List.append_nil] at hhanded
      omega
    | cons op between => exact ⟨op, between, after, hops, htaken⟩

end LibraryLink.Go.Batch
