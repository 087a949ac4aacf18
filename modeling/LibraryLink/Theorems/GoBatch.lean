import LibraryLink.Lemmas.GoBatch

/-!
# When a batch gets stuck

The client reads no response before it has written the whole batch, the receiver reads no request before it has written the
responses that do not fit its buffer any more. So both block once the receiver has to push more than the direction to the client
holds, while the client has more left to write than the direction to the receiver holds; and only then.
-/

namespace LibraryLink.Go.Batch

open Duplex Relation

variable {sizes : Sizes} {messages : List Message} {c : Conn}

/-- `sendRequests` has not returned, and both sides are blocked. -/
def Stuck (sizes : Sizes) (c : Conn) : Prop := c.left.Running ∧ BothBlocked sizes.link c

/-- After some number of requests the receiver has had to push more bytes than the direction to the client holds, and the rest of
the batch is more than the direction to the receiver holds. -/
def Overfull (sizes : Sizes) (messages : List Message) : Prop :=
  ∃ k ≤ messages.length, sizes.toClient < pushed sizes.link.right k ∧ sizes.toReceiver < rest messages k

/-- What the client writes in all. -/
theorem sent_sendRequests (messages : List Message) :
    sent (sendRequests messages) = rest messages 0 + 8 ∧ taken (sendRequests messages) = 10 * messages.length := by
  obtain ⟨htaken, hsent, -⟩ := taken_readResponses messages
  rw [sendRequests, sent_append, taken_append, sent_framingOps_batch, hsent, htaken,
    taken_of_no_read (framingOps_no_read false (batch messages))]
  exact ⟨rfl, Nat.zero_add _⟩

/-- What the receiver reads in all, with the next frame's length. -/
theorem taken_handler (messages : List Message) :
    taken (handler false ((batch messages).map FramingOp.frame)) = rest messages 0 + 8 + 4 := by
  rw [handler_batch, taken_append, (taken_serveBatch messages).1]
  simp only [taken_cons, taken_nil, Op.taken]
  omega

/-- The invariant of a call. -/
abbrev CallInv (sizes : Sizes) (messages : List Message) (c : Conn) : Prop :=
  Inv sizes.link (sendRequests messages) (handler false ((batch messages).map FramingOp.frame)) c

/-- The two sides never wait for each other's bytes. -/
theorem not_both_read (h : CallInv sizes messages c) {n m : Nat} {ops ops' : List Op} (hl : c.left.ops = .read n :: ops)
    (hr : c.right.ops = .read m :: ops') (hn : c.left.got < n) (hm : c.right.got < m) (hsl : c.left.sending = 0)
    (hsr : c.right.sending = 0) (hal : c.left.ahead = 0) (har : c.right.ahead = 0) (hcl : c.toLeft = 0) (hcr : c.toRight = 0) :
    False := by
  obtain ⟨-, -, hhanded⟩ := client_reads h.left hl
  have hrightward := h.rightward
  have hleftward := h.leftward
  unfold Carried at hrightward hleftward
  have htaken := h.right.taken
  have htaken' := h.left.taken
  rw [hr, taken_handler, taken_cons, Op.taken] at htaken
  rw [hl, (sent_sendRequests messages).2, taken_cons, Op.taken] at htaken'
  rw [show sizes.link.left.handed c.left.done = _ from hhanded] at hrightward
  obtain ⟨rfl, rfl, hall⟩ := handler_waits h.right hr (by omega)
  rw [show sizes.link.right.handed c.right.done = _ from hall] at hleftward
  omega

/-- Where both sides are blocked the batch is overfull. -/
theorem overfull_of_blocked (h : CallInv sizes messages c) (hblocked : BothBlocked sizes.link c) : Overfull sizes messages := by
  obtain ⟨⟨-, hl⟩, -, hr⟩ := hblocked
  have hpos := sizes.toReceiver_pos
  have hpos' := sizes.toClient_pos
  have hl' : sizes.link.rightward = sizes.toReceiver := rfl
  have hr' : sizes.link.leftward = sizes.toClient := rfl
  rcases hl with ⟨hsl, hfull⟩ | ⟨hsl, hal, hcl, -, n, ops, hopsl, hn⟩
  · rcases hr with ⟨hsr, hfull'⟩ | ⟨-, -, hcr, -⟩
    · have hrightward := h.rightward
      have hleftward := h.leftward
      unfold Carried at hrightward hleftward
      have htotal := h.left.total
      have htaken := h.right.taken
      rw [(sent_sendRequests messages).1] at htotal
      rw [taken_handler] at htaken
      rcases handler_position sizes.link.right h.right.program with hzero | hlast | ⟨k, hk, hhanded, hle⟩
      · omega
      · omega
      · exact ⟨k, hk, by omega, by omega⟩
    · omega
  · rcases hr with ⟨-, hfull'⟩ | ⟨hsr, har, hcr, -, m, ops', hopsr, hm⟩
    · omega
    · exact (not_both_read h hopsl hopsr hn hm hsl hsr hal har hcl hcr).elim

/-- A client with nothing left to write or flush either reads, having written out the whole batch, or has done everything. -/
theorem client_through (h : CallInv sizes messages c) (hwrite : ∀ n ops, c.left.ops ≠ .write n :: ops)
    (hflush : ∀ ops, c.left.ops ≠ .flush :: ops) (hidle : taken c.left.done = 0) (hsome : messages ≠ []) :
    sizes.link.left.handed c.left.done = rest messages 0 + 8 := by
  cases hops : c.left.ops with
  | nil =>
    have htaken := h.left.taken
    rw [hops, hidle, (sent_sendRequests messages).2] at htaken
    have := List.length_pos_iff.mpr hsome
    simp only [taken_nil] at htaken
    omega
  | cons op ops =>
    cases op with
    | write n => exact absurd hops (hwrite n ops)
    | flush => exact absurd hops (hflush ops)
    | read n => exact (client_reads h.left hops).2.2

/-- At the end of the schedule that reads nothing ahead the client of an overfull batch is sending: if it were not, it would have
written everything, so that the receiver would be past the request whose response does not fit. -/
theorem sending_of_overfull (h : Overfull sizes messages) (hinv : CallInv sizes messages c) (hlazily : Lazily sizes.link c)
    (hfinal : Runs.Final (Lazy sizes.link) c)
    (hright : c.right.Blocked sizes.link.right sizes.link.leftward c.toRight c.toLeft) : c.left.sending ≠ 0 := by
  intro hsending
  obtain ⟨k, hk, hpushed, hrest⟩ := h
  obtain ⟨⟨hfailed, -⟩, ⟨hahead, hgot, htaken⟩, hbegun, hneeded⟩ := id hlazily
  have hsome : messages ≠ [] := by
    rintro rfl
    obtain rfl := Nat.le_zero.mp hk
    exact Nat.not_lt_zero _ hpushed
  have hrightward := hinv.rightward
  unfold Carried at hrightward
  have htotal := hinv.left.total
  have htakenr := hinv.right.taken
  rw [(sent_sendRequests messages).1] at htotal
  rw [taken_handler] at htakenr
  have htoRight : c.toRight ≤ sizes.toReceiver := hinv.toRight
  have hleftward : sizes.link.leftward = sizes.toClient := rfl
  have hhanded := client_through hinv (fun n ops hops => hfinal _ (.write c n ops hfailed hsending hops))
    (fun ops hops => hfinal _ (.flush c ops hfailed hsending hops)) htaken hsome
  obtain ⟨-, ⟨hpos, hfull⟩ | ⟨hzero, hahead', hi, -, n, ops, hops, hn⟩⟩ := hright
  · -- The receiver is blocked by what it sends.
    obtain ⟨hgot', d, op, hdone, hle⟩ := hbegun hpos
    have hprogram := hinv.right.program
    rw [hdone, List.append_assoc] at hprogram
    obtain ⟨op', between, after, hcut, hafter⟩ := handler_before sizes.link.right hk hprogram (by omega)
    simp only [List.cons_append, List.nil_append, List.cons.injEq] at hcut
    have hahead' : c.right.ahead = 0 := by
      rcases hneeded with ⟨-, -, h⟩ | h | ⟨-, h, -⟩ <;> omega
    rw [hcut.2, taken_append] at htakenr
    omega
  · -- The receiver waits for the next frame.
    have hle := hlazily.handed hinv hzero
    obtain ⟨op', between, after, hcut, hafter⟩ := handler_before sizes.link.right hk hinv.right.program (by omega)
    have hlast : taken ops < 4 := by
      rw [hops, taken_cons, Op.taken] at htakenr
      omega
    obtain ⟨rfl, rfl, -⟩ := handler_waits hinv.right hops hlast
    have hfour : taken c.right.ops = 4 := by
      rw [hops]
      rfl
    have := taken_le_of_append hcut.symm
    omega

/-- Where the batch is overfull, the schedule that reads nothing ahead ends with both sides blocked. -/
theorem blocked_of_overfull (h : Overfull sizes messages) :
    ∃ c, ReflTransGen (Step sizes.link) (call messages) c ∧ BothBlocked sizes.link c := by
  obtain ⟨c, hrun, hinv, hlazily, hfinal⟩ := exists_lazily sizes.link rfl (sendRequests messages)
    (handler false ((batch messages).map FramingOp.frame))
  -- The receiver is blocked: it has a frame left to read, and no step.
  have htotal := hinv.left.total
  have htaken := hinv.right.taken
  have hrightward := hinv.rightward
  unfold Carried at hrightward
  rw [(sent_sendRequests messages).1] at htotal
  rw [taken_handler] at htaken
  have hrunning : c.right.Running := by
    refine ⟨hlazily.failed.2, Or.inr fun hnil => ?_⟩
    rw [hnil, taken_nil] at htaken
    omega
  have hright : c.right.Blocked sizes.link.right sizes.link.leftward c.toRight c.toLeft :=
    (Side.blocked_iff hinv.right.fits).mpr ⟨hrunning, fun s i o hs => hfinal _ (.right c s i o hs)⟩
  have hsending := sending_of_overfull h hinv hlazily hfinal hright
  refine ⟨c, hrun, ⟨hlazily.failed.1, Or.inl ⟨by omega, ?_⟩⟩, hright⟩
  by_contra hroom
  exact hfinal _ (.send c hlazily.failed.1 hright (by omega) (by omega))

/-- The call of `sendRequests` can get stuck exactly when the batch is overfull. -/
theorem stuck_iff (sizes : Sizes) (messages : List Message) :
    (∃ c, ReflTransGen (Step sizes.link) (call messages) c ∧ Stuck sizes c) ↔ Overfull sizes messages := by
  constructor
  · rintro ⟨c, hrun, -, hblocked⟩
    exact overfull_of_blocked (Inv.run hrun) hblocked
  · intro h
    obtain ⟨c, hrun, hblocked⟩ := blocked_of_overfull h
    exact ⟨c, hrun, hblocked.1.still.1, hblocked⟩

/-! ## What has to be pushed -/

/-- After a write the buffer is neither empty nor over its size, and only full buffers were handed on. -/
def Filled (size : Nat) (w : Nat × Nat) : Prop := 0 < w.1 ∧ w.1 ≤ size ∧ size ∣ w.2

/-- A write that is not larger than the buffer fills it up, and hands on a full buffer where it does not fit. -/
theorem filled_write {size reader n : Nat} (hn : 0 < n) (hle : n ≤ size) {w : Nat × Nat}
    (h : w = (0, 0) ∨ Filled size w) : Filled size ((goStreams size reader).perform w (.write n)) := by
  obtain ⟨b, handed⟩ := w
  obtain ⟨hb, hdvd⟩ : b ≤ size ∧ size ∣ handed := by
    rcases h with h | ⟨-, hb, hdvd⟩
    · obtain ⟨rfl, rfl⟩ := Prod.mk.inj h
      exact ⟨Nat.zero_le _, dvd_zero _⟩
    · exact ⟨hb, hdvd⟩
  unfold Buffering.perform goStreams Filled
  simp only
  split
  · exact ⟨Nat.add_pos_right _ hn, by omega, hdvd⟩
  · have hb0 : b ≠ 0 := by omega
    have hsmall : n - (size - b) ≤ size := by omega
    rw [if_neg hb0, if_pos hsmall]
    refine ⟨by omega, hsmall, ?_⟩
    rw [Nat.add_sub_cancel' hb]
    exact (Nat.dvd_add_right hdvd).mpr (Nat.dvd_refl _)

/-- A response fills the buffer up, part by part. -/
theorem filled_answer {size : Nat} (hsize : 4 ≤ size) (reader : Nat) {w : Nat × Nat} (h : w = (0, 0) ∨ Filled size w) :
    Filled size (answer.foldl (goStreams size reader).perform w) := by
  have h₁ : Filled size ((goStreams size reader).perform w (.write 4)) := filled_write (by omega) hsize h
  have h₂ : Filled size ((goStreams size reader).perform _ (.write 4)) := filled_write (by omega) hsize (Or.inr h₁)
  exact filled_write (by omega) (by omega) (Or.inr h₂)

/-- After `k` responses, `10 * k` bytes are held or handed on. -/
theorem answered_total (β : Buffering) (k : Nat) : (answered β k (0, 0)).1 + pushed β k = 10 * k := by
  unfold pushed answered
  induction k with
  | zero => rfl
  | succ k ih =>
    rw [Function.iterate_succ_apply']
    generalize (answer.foldl β.perform)^[k] (0, 0) = w at ih
    have h₁ := β.conserves w.1 4
    have h₂ := β.conserves (β.write w.1 4).1 4
    have h₃ := β.conserves (β.write (β.write w.1 4).1 4).1 2
    simp only [answer, List.foldl_cons, List.foldl_nil, Buffering.perform]
    omega

/-- A buffer that the parts of a response fit is filled and handed on again and again: of the `10 * k` bytes of `k` responses, the
receiver has to push all the full buffers before the last byte. -/
theorem pushed_eq {size : Nat} (hsize : 4 ≤ size) (reader k : Nat) :
    pushed (goStreams size reader) k = size * ((10 * k - 1) / size) := by
  cases k with
  | zero =>
    rw [Nat.mul_zero, Nat.zero_sub, Nat.zero_div, Nat.mul_zero]
    rfl
  | succ k =>
    have hfilled : Filled size (answered (goStreams size reader) (k + 1) (0, 0)) := by
      induction k with
      | zero => exact filled_answer hsize reader (Or.inl rfl)
      | succ k ih =>
        rw [answered, Function.iterate_succ_apply']
        exact filled_answer hsize reader (Or.inr ih)
    have htotal := answered_total (goStreams size reader) (k + 1)
    obtain ⟨hpos, hle, q, hq⟩ := hfilled
    have hpushed : pushed (goStreams size reader) (k + 1) = size * q := hq
    rw [hpushed] at htotal ⊢
    congr 1
    symm
    refine Nat.div_eq_of_lt_le ?_ ?_
    · rw [Nat.mul_comm q]
      omega
    · rw [Nat.mul_comm (q + 1), Nat.mul_succ size q]
      omega

/-- Buffers of 16 KiB, and directions that hold 4 KiB. -/
def fourKilobytes : Sizes where
  toReceiver := 4096
  toClient := 4096
  outputStream := bufferSize
  inputStream := bufferSize
  bufferedWriter := writerSize
  bufferedReader := 16 * 1024
  toReceiver_pos := by decide
  toClient_pos := by decide
  outputStream_pos := by decide
  inputStream_pos := by decide
  bufferedWriter_pos := by decide
  bufferedReader_pos := by decide

/-- A batch of 2100 requests of two bytes each can get stuck there. -/
theorem stuck_batch :
    ∃ c, ReflTransGen (Step fourKilobytes.link) (call (List.replicate 2100 ⟨[16, 0], by decide⟩)) c ∧ Stuck fourKilobytes c := by
  have h : Overfull fourKilobytes (List.replicate 2100 ⟨[16, 0], by decide⟩) := by
    refine ⟨1639, ?_, ?_, ?_⟩
    · rw [List.length_replicate]
      decide
    · show 4096 < pushed (goStreams writerSize (16 * 1024)) 1639
      rw [pushed_eq (by decide)]
      decide
    · unfold rest
      rw [List.drop_replicate, List.map_replicate, List.sum_replicate]
      decide
  obtain ⟨c, hrun, hblocked⟩ := blocked_of_overfull h
  exact ⟨c, hrun, hblocked.1.still.1, hblocked⟩

end LibraryLink.Go.Batch
