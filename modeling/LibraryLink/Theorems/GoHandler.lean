import LibraryLink.GoHandler
import LibraryLink.General.Runs
import LibraryLink.Lemmas.SkipExchange

/-!
# What the Go handler makes of a Kotlin stream

One pass through the loop of `handler` takes one frame from the connection, however the connection cuts it, and answers it if it is a
request (`AtHead.pass`). So at every loop head the handler has answered the requests it has seen, each once, and a handler that does
not buffer owes the connection nothing. That goes on to the end of the stream unless `Unmarshal` panics or uses up the stack
(`answers_iff`).
-/

namespace LibraryLink

/-- The tag and the payload of a frame, as the handler sees them. -/
def Frame.recognised (f : Frame) : Nat × List UInt8 := (f.tag.code, f.message.bytes)

namespace Go

open Relation ByteSource

variable {σ : Type} [ByteSource σ] {stack : Stack}

/-- The response frames for the frames seen: one for each request. -/
def responsesTo (seen : List (Nat × List UInt8)) : List UInt8 :=
  (List.replicate (seen.countP (fun f => f.1 = Tag.request.code)) responseFrame).flatten

theorem responsesTo_snoc (seen : List (Nat × List UInt8)) (f : Nat × List UInt8) :
    responsesTo (seen ++ [f]) = responsesTo seen ++ if f.1 = Tag.request.code then responseFrame else [] := by
  unfold responsesTo
  rw [List.countP_append, List.countP_singleton, List.replicate_add, List.flatten_append]
  by_cases h : f.1 = Tag.request.code <;> simp [h]

/-- A number of four bytes at the front of the stream. -/
theorem readNumBytes_number (reader : σ) (n : Nat) (tail : List UInt8) (hn : n < 256 ^ 4)
    (h : rest reader = toByteArray n ++ tail) :
    ∃ b reader', readNumBytes reader 4 = (b, false, reader') ∧ LittleEndian.decode b = n ∧ rest reader' = tail := by
  obtain ⟨r, hr, hd⟩ := readNumBytes_eq reader 4 (by simp [h])
  refine ⟨_, r, hr, ?_, ?_⟩
  · rw [h, List.take_left' (length_toByteArray n), toByteArray, LittleEndian.decode_encode_of_lt hn]
  · rw [hd, h, List.drop_left' (length_toByteArray n)]

/-- A payload at the front of the stream. -/
theorem readNumBytes_payload (reader : σ) (p tail : List UInt8) (h : rest reader = p ++ tail) :
    ∃ reader', readNumBytes reader p.length = (p, false, reader') ∧ rest reader' = tail := by
  obtain ⟨r, hr, hd⟩ := readNumBytes_eq reader p.length (by simp [h])
  exact ⟨r, by rw [hr, h, List.take_left], by rw [hd, h, List.drop_left]⟩

/-! ## What the writer holds back -/

/-- Some operation is as `P` says of the operations before it, and no `STOP_BUFFERING` comes after it. -/
def Since (P : List FramingOp → FramingOp → Prop) (ops : List FramingOp) : Prop :=
  ∃ before op after, ops = before ++ op :: after ∧ P before op ∧ FramingOp.buffering false ∉ after

/-- The last assignment to `buffering` was of true. -/
def Buffered : List FramingOp → Prop := Since fun _ op => op = .buffering true

/-- A request that came while `buffering` was set is not followed by a `STOP_BUFFERING`. -/
def HeldBack : List FramingOp → Prop := Since fun before op => (∃ message, op = .request message) ∧ Buffered before

theorem not_since_nil (P : List FramingOp → FramingOp → Prop) : ¬ Since P [] := by
  rintro ⟨before, op, after, h, -⟩
  exact List.append_ne_nil_of_right_ne_nil before (List.cons_ne_nil op after) h.symm

/-- With one more operation at the end, it is this one, or one before it and this one does not stop the buffering. -/
theorem since_snoc (P : List FramingOp → FramingOp → Prop) (ops : List FramingOp) (last : FramingOp) :
    Since P (ops ++ [last]) ↔ P ops last ∨ (last ≠ .buffering false ∧ Since P ops) := by
  constructor
  · rintro ⟨before, op, after, h, hp, hstop⟩
    rcases List.eq_nil_or_concat after with rfl | ⟨after, op', rfl⟩
    · obtain ⟨rfl, hlast⟩ := List.append_inj' h rfl
      obtain rfl := (List.cons.inj hlast).1
      exact Or.inl hp
    · rw [List.concat_eq_append] at h hstop
      rw [← List.cons_append, ← List.append_assoc] at h
      obtain ⟨rfl, hlast⟩ := List.append_inj' h rfl
      obtain rfl := (List.cons.inj hlast).1
      rw [List.mem_append, List.mem_singleton, not_or] at hstop
      exact Or.inr ⟨Ne.symm hstop.2, before, op, after, rfl, hp, hstop.1⟩
  · rintro (hp | ⟨hlast, before, op, after, rfl, hp, hstop⟩)
    · exact ⟨ops, last, [], rfl, hp, List.not_mem_nil⟩
    · refine ⟨before, op, after ++ [last], by rw [List.append_assoc, List.cons_append], hp, ?_⟩
      rw [List.mem_append, List.mem_singleton, not_or]
      exact ⟨hstop, Ne.symm hlast⟩

/-- What is held back came while `buffering` was set, and it is still set. -/
theorem HeldBack.buffered {ops : List FramingOp} (h : HeldBack ops) : Buffered ops := by
  obtain ⟨before, op, after, rfl, ⟨⟨message, rfl⟩, before', op', after', rfl, rfl, hstop'⟩, hstop⟩ := h
  refine ⟨before', .buffering true, after' ++ .request message :: after, by rw [List.append_assoc, List.cons_append], rfl, ?_⟩
  rw [List.mem_append, List.mem_cons]
  rintro (h | h | h)
  · exact hstop' h
  · cases h
  · exact hstop h

/-- `buffering` is set after `START_BUFFERING`. -/
theorem buffered_start (ops : List FramingOp) : Buffered (ops ++ [.buffering true]) := (since_snoc _ _ _).mpr (Or.inl rfl)

/-- It is not set after `STOP_BUFFERING`. -/
theorem not_buffered_stop (ops : List FramingOp) : ¬ Buffered (ops ++ [.buffering false]) := by
  rw [Buffered, since_snoc]
  rintro (hop | ⟨hop, -⟩)
  · cases hop
  · exact hop rfl

/-- After a request it is what it was. -/
theorem buffered_request_iff (ops : List FramingOp) (message : Message) :
    Buffered (ops ++ [.request message]) ↔ Buffered ops := by
  rw [Buffered, since_snoc]
  constructor
  · rintro (hop | ⟨-, hb⟩)
    · cases hop
    · exact hb
  · exact fun hb => Or.inr ⟨FramingOp.noConfusion, hb⟩

/-- `START_BUFFERING` leaves what is held back. -/
theorem heldBack_start_iff (ops : List FramingOp) : HeldBack (ops ++ [.buffering true]) ↔ HeldBack ops := by
  rw [HeldBack, since_snoc]
  constructor
  · rintro (⟨⟨message, hop⟩, -⟩ | ⟨-, hheld⟩)
    · cases hop
    · exact hheld
  · intro hheld
    exact Or.inr ⟨fun hop => Bool.noConfusion (FramingOp.buffering.inj hop), hheld⟩

/-- After `STOP_BUFFERING` nothing is held back. -/
theorem not_heldBack_stop (ops : List FramingOp) : ¬ HeldBack (ops ++ [.buffering false]) := by
  rw [HeldBack, since_snoc]
  rintro (⟨⟨message, hop⟩, -⟩ | ⟨hop, -⟩)
  · cases hop
  · exact hop rfl

/-- After a request something is held back when `buffering` is set. -/
theorem heldBack_request_iff (ops : List FramingOp) (message : Message) :
    HeldBack (ops ++ [.request message]) ↔ Buffered ops := by
  rw [HeldBack, since_snoc]
  constructor
  · rintro (⟨-, hb⟩ | ⟨-, hback⟩)
    · exact hb
    · exact HeldBack.buffered hback
  · exact fun hb => Or.inl ⟨⟨message, rfl⟩, hb⟩

/-! ## One pass -/

/-- The payload of each request is one on which `Unmarshal` does not panic, and whose groups are not nested more deeply than the stack
holds. -/
def Readable (stack : Stack) (ops : List FramingOp) : Prop :=
  ∀ message, FramingOp.request message ∈ ops → MethodCallRequest.unmarshal stack message.bytes ≠ .error .panic ∧
    MethodCallRequest.unmarshal stack message.bytes ≠ .error .stackOverflow

theorem readProtobuf_ne_none_iff {request : Request} {data : List UInt8} :
    readProtobuf stack request data ≠ none ↔
      MethodCallRequest.unmarshal stack data ≠ .error .panic ∧ MethodCallRequest.unmarshal stack data ≠ .error .stackOverflow := by
  unfold readProtobuf
  split <;> simp_all

/-- What holds at a loop head of a handler that has gone through the frames of some operations and has a stream to come. -/
structure AtHead (done : List FramingOp) (stream : List UInt8) (h : Handler σ) : Prop where
  rest_eq : rest h.bufferedReader = stream
  seen_eq : h.seen = done.map (·.frame.recognised)
  answered : h.bufferedWriter.all = responsesTo h.seen
  buffering_iff : h.buffering = true ↔ Buffered done
  held_iff : h.bufferedWriter.buf ≠ [] ↔ HeldBack done

/-- The handler starts at a loop head. -/
theorem AtHead.start {stream : List UInt8} (reader : σ) (h : rest reader = stream) : AtHead [] stream (Handler.start reader) :=
  ⟨h, rfl, rfl, iff_of_false Bool.false_ne_true (not_since_nil _), iff_of_false (fun h => h rfl) (not_since_nil _)⟩

/-- What is written for a response: all of it is in the writer, and some of it is held back. -/
theorem write_response (w : Writer) :
    (((w.write (toByteArray 2)).write (toByteArray 1)).write [0x10, 0x00]).all = w.all ++ responseFrame ∧
      (((w.write (toByteArray 2)).write (toByteArray 1)).write [0x10, 0x00]).buf ≠ [] := by
  refine ⟨?_, Writer.buf_write_ne_nil _ (List.cons_ne_nil _ _) (by decide)⟩
  rw [Writer.all_write, Writer.all_write, Writer.all_write, responseFrame, List.append_assoc, List.append_assoc,
    List.append_assoc]

/-- The handler at a loop head, after a tag that is read as that of a control frame. -/
theorem AtHead.control {done : List FramingOp} {stream tail b₁ b₂ : List UInt8} {err : Bool} {h : Handler σ} {r₁ r₂ : σ}
    {value : Bool} (hi : AtHead done stream h) (e₁ : readNumBytes h.bufferedReader 4 = (b₁, false, r₁))
    (e₂ : readNumBytes r₁ 4 = (b₂, err, r₂))
    (htag : LittleEndian.decode b₂ = (FramingOp.buffering value).frame.tag.code) (hrest : rest r₂ = tail) :
    ∃ h', handlerPass stack h = .ok h' ∧ AtHead (done ++ [.buffering value]) tail h' := by
  have hseen : h.seen ++ [(LittleEndian.decode b₂, [])] = (done ++ [FramingOp.buffering value]).map (·.frame.recognised) := by
    rw [hi.seen_eq, htag, List.map_append]
    rfl
  have hnone : responsesTo (h.seen ++ [(LittleEndian.decode b₂, [])]) = responsesTo h.seen := by
    rw [responsesTo_snoc, htag]
    cases value <;> exact List.append_nil _
  cases value with
  | true =>
    refine ⟨{ h with bufferedReader := r₂, buffering := true, seen := h.seen ++ [(LittleEndian.decode b₂, [])] }, ?_,
      hrest, hseen, hi.answered.trans hnone.symm, ?_, ?_⟩
    · rw [handlerPass, e₁]
      simp only [e₂]
      rw [if_pos (show LittleEndian.decode b₂ = Tag.startBuffering.code from htag)]
    · exact iff_of_true rfl (buffered_start done)
    · exact hi.held_iff.trans (heldBack_start_iff done).symm
  | false =>
    refine ⟨{ bufferedReader := r₂, bufferedWriter := h.bufferedWriter.flush, buffering := false,
              seen := h.seen ++ [(LittleEndian.decode b₂, [])] }, ?_, hrest, hseen, ?_, ?_, ?_⟩
    · rw [handlerPass, e₁]
      simp only [e₂]
      rw [if_neg (by rw [htag]; decide), if_pos (show LittleEndian.decode b₂ = Tag.stopBuffering.code from htag)]
    · exact (Writer.all_flush _).trans (hi.answered.trans hnone.symm)
    · exact iff_of_false Bool.false_ne_true (not_buffered_stop done)
    · exact iff_of_false (fun hbuf => hbuf rfl) (not_heldBack_stop done)

/-- A pass that reads the tag of a request: `readProtobuf` panics on the payload, or it is answered. -/
theorem handlerPass_request {b₁ b₂ payload : List UInt8} {err₂ err₃ : Bool} {h : Handler σ} {r₁ r₂ r₃ : σ}
    (e₁ : readNumBytes h.bufferedReader 4 = (b₁, false, r₁)) (e₂ : readNumBytes r₁ 4 = (b₂, err₂, r₂))
    (htag : LittleEndian.decode b₂ = Tag.request.code)
    (e₃ : readNumBytes r₂ (LittleEndian.decode b₁) = (payload, err₃, r₃)) :
    (readProtobuf stack {} payload = none ∧ handlerPass stack h = .error .panicked) ∨
      (readProtobuf stack {} payload ≠ none ∧ ∃ h', handlerPass stack h = .ok h' ∧ h'.bufferedReader = r₃ ∧
        h'.seen = h.seen ++ [(Tag.request.code, payload)] ∧ h'.buffering = h.buffering ∧
        h'.bufferedWriter.all = h.bufferedWriter.all ++ responseFrame ∧
        (h'.bufferedWriter.buf ≠ [] ↔ h.buffering = true)) := by
  let w := ((h.bufferedWriter.write (toByteArray 2)).write (toByteArray 1)).write [0x10, 0x00]
  have hpass : handlerPass stack h = (readProtobuf stack {} payload).elim (.error .panicked) fun _ =>
      .ok { h with bufferedReader := r₃, bufferedWriter := if h.buffering then w else w.flush,
                   seen := h.seen ++ [(LittleEndian.decode b₂, payload)] } := by
    rw [handlerPass, e₁]
    simp only [e₂]
    rewrite [if_neg (by rw [htag]; decide), if_neg (by rw [htag]; decide), e₃]
    cases readProtobuf stack {} payload with
    | none => rfl
    | some request => rfl
  obtain ⟨hall, hbuf⟩ := write_response h.bufferedWriter
  rw [hpass, htag]
  cases hproto : readProtobuf stack {} payload with
  | none => exact Or.inl ⟨rfl, rfl⟩
  | some request =>
    refine Or.inr ⟨Option.some_ne_none request, _, rfl, rfl, rfl, rfl, ?_, ?_⟩
    · cases h.buffering with
      | true => exact hall
      | false => exact (Writer.all_flush _).trans hall
    · cases h.buffering with
      | true => exact iff_of_true hbuf rfl
      | false => exact iff_of_false (fun h => h rfl) Bool.false_ne_true

/-- A pass takes the frame of an operation and nothing of what follows it, unless it is a request that cannot be read. -/
theorem AtHead.pass {done : List FramingOp} {op : FramingOp} {tail : List UInt8} {h : Handler σ}
    (hi : AtHead done (op.frame.encode ++ tail) h) :
    (¬ Readable stack [op] ∧ handlerPass stack h = .error .panicked) ∨
      (Readable stack [op] ∧ ∃ h', handlerPass stack h = .ok h' ∧ AtHead (done ++ [op]) tail h') := by
  have hlen : op.frame.message.bytes.length < 256 ^ 4 := Nat.lt_trans op.frame.message.size_lt (by decide)
  have htag : op.frame.tag.code < 256 ^ 4 := Nat.lt_trans op.frame.tag.code_lt (by decide)
  have hr := hi.rest_eq
  rw [Frame.encode, List.append_assoc, List.append_assoc] at hr
  obtain ⟨b₁, r₁, e₁, d₁, hr₁⟩ := readNumBytes_number _ _ _ hlen hr
  obtain ⟨b₂, r₂, e₂, d₂, hr₂⟩ := readNumBytes_number _ _ _ htag hr₁
  obtain ⟨r₃, e₃, hr₃⟩ := readNumBytes_payload _ _ _ hr₂
  cases op with
  | buffering value =>
    refine Or.inr ⟨fun message hm => ?_, hi.control e₁ e₂ d₂ hr₂⟩
    cases List.mem_singleton.mp hm
  | request message =>
    rw [← d₁] at e₃
    rcases handlerPass_request e₁ e₂ d₂ e₃ with ⟨hnone, hpanic⟩ | ⟨hsome, h', hpass, hreader, hseen, hbuffering, hall, hheld⟩
    · refine Or.inl ⟨fun hreadable => ?_, hpanic⟩
      exact readProtobuf_ne_none_iff.mpr (hreadable message (List.mem_singleton.mpr rfl)) hnone
    · refine Or.inr ⟨fun m hm => ?_, h', hpass, ?_, ?_, ?_, ?_, ?_⟩
      · obtain rfl := FramingOp.request.inj (List.mem_singleton.mp hm)
        exact readProtobuf_ne_none_iff.mp hsome
      · rw [hreader, hr₃]
      · rw [hseen, hi.seen_eq, List.map_append]
        rfl
      · rw [hall, hseen, hi.answered, responsesTo_snoc, if_pos rfl]
      · rw [hbuffering, hi.buffering_iff, buffered_request_iff]
      · rw [hheld, hi.buffering_iff, heldBack_request_iff]

/-- Where the stream has no whole length the handler returns. -/
theorem handlerPass_short {h : Handler σ} (hshort : (rest h.bufferedReader).length < 4) : handlerPass stack h = .error .returned := by
  obtain ⟨r, hr, -⟩ := readNumBytes_short h.bufferedReader 4 hshort
  rw [handlerPass, hr]

/-! ## Runs -/

/-- Operations are readable when the first is and the others are. -/
theorem readable_cons (op : FramingOp) (ops : List FramingOp) : Readable stack (op :: ops) ↔ Readable stack [op] ∧ Readable stack ops := by
  unfold Readable
  simp only [List.mem_cons, List.not_mem_nil, or_false]
  exact ⟨fun h => ⟨fun m hm => h m (Or.inl hm), fun m hm => h m (Or.inr hm)⟩,
    fun h m hm => hm.elim (h.1 m) (h.2 m)⟩

/-- From a loop head the handler goes through the frames of some operations, unless it panics at one of them. -/
theorem AtHead.run {done todo : List FramingOp} {tail : List UInt8} {h : Handler σ}
    (hi : AtHead done (encodeAll (todo.map FramingOp.frame) ++ tail) h) :
    ∃ h', ReflTransGen (Pass stack) h h' ∧
      ((¬ Readable stack todo ∧ handlerPass stack h' = .error .panicked) ∨ (Readable stack todo ∧ AtHead (done ++ todo) tail h')) := by
  induction todo generalizing done h with
  | nil =>
    rw [List.append_nil]
    exact ⟨h, .refl, Or.inr ⟨fun _ hm => absurd hm List.not_mem_nil, hi⟩⟩
  | cons op todo ih =>
    rw [List.map_cons, encodeAll_cons, List.append_assoc] at hi
    rcases hi.pass with ⟨hnot, hpanic⟩ | ⟨hreadable, h₁, hpass, hi₁⟩
    · exact ⟨h, .refl, Or.inl ⟨fun hall => hnot ((readable_cons op todo).mp hall).1, hpanic⟩⟩
    · obtain ⟨h', hrun, hend⟩ := ih hi₁
      refine ⟨h', .head hpass hrun, ?_⟩
      rw [← List.append_cons] at hend
      rw [readable_cons]
      exact hend.imp (fun ⟨hnot, hpanic⟩ => ⟨fun hall => hnot hall.2, hpanic⟩) fun ⟨hall, hhead⟩ => ⟨⟨hreadable, hall⟩, hhead⟩

/-- The handler takes its passes in one way, so it ends in one way. -/
theorem ended_unique {h h₁ h₂ : Handler σ} {e₁ e₂ : Ended} (hrun₁ : ReflTransGen (Pass stack) h h₁) (hend₁ : handlerPass stack h₁ = .error e₁)
    (hrun₂ : ReflTransGen (Pass stack) h h₂) (hend₂ : handlerPass stack h₂ = .error e₂) : h₁ = h₂ := by
  have hdet : ∀ a b c : Handler σ, True → Pass stack a b → Pass stack a c → b = c := by
    intro a b c _ hb hc
    rw [Pass, hb] at hc
    exact Except.ok.inj hc
  have hfinal : Runs.Final (Pass stack) h₂ := by
    intro b hb
    rw [Pass, hend₂] at hb
    cases hb
  rcases ReflTransGen.cases_head (Runs.reaches_final (fun _ _ _ _ => trivial) hdet hrun₁ hrun₂ trivial hfinal) with
    heq | ⟨c, hc, -⟩
  · exact heq
  · rw [Pass, hend₁] at hc
    cases hc

/-- At a loop head of a handler whose connection carries the frames of some operations, it has gone through the first of them. -/
theorem AtHead.reached {ops : List FramingOp} {start h : Handler σ}
    (hstart : AtHead [] (encodeAll (ops.map FramingOp.frame)) start) (hrun : ReflTransGen (Pass stack) start h) :
    ∃ done todo, ops = done ++ todo ∧ AtHead done (encodeAll (todo.map FramingOp.frame)) h := by
  have hstep : ∀ a b : Handler σ,
      (∃ done todo, ops = done ++ todo ∧ AtHead done (encodeAll (todo.map FramingOp.frame)) a) → Pass stack a b →
      ∃ done todo, ops = done ++ todo ∧ AtHead done (encodeAll (todo.map FramingOp.frame)) b := by
    rintro a b ⟨done, todo, hops, hi⟩ hpass
    cases todo with
    | nil =>
      rw [Pass, handlerPass_short (by rw [hi.rest_eq]; decide)] at hpass
      cases hpass
    | cons op todo =>
      rw [List.map_cons, encodeAll_cons] at hi
      rcases hi.pass with ⟨-, hpanic⟩ | ⟨-, h', hpass', hi'⟩
      · rw [Pass, hpanic] at hpass
        cases hpass
      · rw [Pass, hpass'] at hpass
        obtain rfl := Except.ok.inj hpass
        exact ⟨done ++ [op], todo, by rw [hops, List.append_cons], hi'⟩
  exact Runs.invariant hstep hrun ⟨[], ops, rfl, hstart⟩

/-- The handler goes through all frames of the operations, with their payloads, and returns; at every loop head it has written one
response frame for each request seen and nothing else; and all of that has been sent whenever `buffering` is not set. -/
def Answers (stack : Stack) (ops : List FramingOp) (conn : Chunks) : Prop :=
  (∃ h, ReflTransGen (Pass stack) (Handler.start conn) h ∧ h.seen = ops.map (·.frame.recognised) ∧ handlerPass stack h = .error .returned) ∧
    ∀ h, ReflTransGen (Pass stack) (Handler.start conn) h →
      h.seen <+: ops.map (·.frame.recognised) ∧
      h.bufferedWriter.all = responsesTo h.seen ∧
      (h.buffering = false → h.bufferedWriter.conn = h.bufferedWriter.all)

/-- A handler whose connection carries the frames of some operations starts at a loop head. -/
theorem AtHead.ofChunks {ops : List FramingOp} {conn : Chunks}
    (hconn : conn.bytes = (ops.foldl SimpleBinaryFraming.perform {}).stream) :
    AtHead [] (encodeAll (ops.map FramingOp.frame)) (Handler.start conn) := by
  refine AtHead.start conn ?_
  show conn.bytes = _
  rw [hconn, SimpleBinaryFraming.stream_foldl_perform]
  rfl

/-- A handler that panics at one of the requests does not get to the end. -/
theorem not_answers_of_unreadable {ops : List FramingOp} {conn : Chunks}
    (hconn : conn.bytes = (ops.foldl SimpleBinaryFraming.perform {}).stream) (hnot : ¬ Readable stack ops) : ¬ Answers stack ops conn := by
  rintro ⟨⟨h, hrun, -, hend⟩, -⟩
  have hstart := AtHead.ofChunks hconn
  rw [← List.append_nil (encodeAll _)] at hstart
  obtain ⟨h', hrun', ⟨-, hpanic⟩ | ⟨hreadable, -⟩⟩ := hstart.run
  · obtain rfl := ended_unique hrun hend hrun' hpanic
    rw [hend] at hpanic
    cases hpanic
  · exact hnot hreadable

/-- A handler that panics at none of the requests answers them. -/
theorem answers_of_readable {ops : List FramingOp} {conn : Chunks}
    (hconn : conn.bytes = (ops.foldl SimpleBinaryFraming.perform {}).stream) (hreadable : Readable stack ops) : Answers stack ops conn := by
  have hstart := AtHead.ofChunks hconn
  refine ⟨?_, fun h hrun => ?_⟩
  · have hrun := hstart
    rw [← List.append_nil (encodeAll _)] at hrun
    obtain ⟨h, hrun, ⟨hnot, -⟩ | ⟨-, hi⟩⟩ := hrun.run
    · exact absurd hreadable hnot
    · exact ⟨h, hrun, hi.seen_eq, handlerPass_short (by rw [hi.rest_eq]; decide)⟩
  · obtain ⟨done, todo, hops, hi⟩ := hstart.reached hrun
    refine ⟨⟨todo.map (·.frame.recognised), by rw [hi.seen_eq, hops, List.map_append]⟩, hi.answered, fun hb => ?_⟩
    have hnil : h.bufferedWriter.buf = [] := by
      by_contra hne
      have hset := hi.buffering_iff.mpr (HeldBack.buffered (hi.held_iff.mp hne))
      rw [hb] at hset
      cases hset
    rw [Writer.all, hnil, List.append_nil]

/-- On a connection that delivers, in any pieces, what a `SimpleBinaryFraming` wrote, the handler answers exactly when `Unmarshal` does
not panic on the payload of any request, and no payload nests groups more deeply than the stack holds. -/
theorem answers_iff (stack : Stack) (ops : List FramingOp) (conn : Chunks)
    (hconn : conn.bytes = (ops.foldl SimpleBinaryFraming.perform {}).stream) : Answers stack ops conn ↔ Readable stack ops := by
  constructor
  · intro hanswers
    by_contra hnot
    exact not_answers_of_unreadable hconn hnot hanswers
  · exact answers_of_readable hconn

/-- The theorem at a request, a buffered empty request and the end of buffering, delivered in two chunks. -/
theorem answers_iff_example :
    Answers .million [.request ⟨[10, 0], by decide⟩, .buffering true, .request .empty, .buffering false]
      ⟨[[2, 0, 0, 0, 0, 0], [0, 0, 10, 0, 0, 0, 0, 0, 6, 0, 0, 0, 0, 0, 0, 0, 0, 0, 0, 0, 0, 0, 0, 0, 7, 0, 0, 0]], by decide⟩ :=
  (answers_iff _ _ _ (by decide)).mpr (by
    unfold Readable
    simp only [List.mem_cons, List.not_mem_nil, or_false, reduceCtorEq, false_or, FramingOp.request.injEq]
    rintro message (rfl | rfl)
    · decide +kernel
    · decide)

/-- The payload of a request whose method name has the length 2^63 - 1: its end, as an index, is negative. -/
def overlong : Message := ⟨[0x0a, 0xff, 0xff, 0xff, 0xff, 0xff, 0xff, 0xff, 0xff, 0x7f], by decide⟩

/-- A request with this payload is not answered. -/
theorem not_answers :
    ¬ Answers .million [.request overlong]
      ⟨[[10, 0, 0, 0, 0, 0, 0, 0, 0x0a, 0xff, 0xff, 0xff, 0xff, 0xff, 0xff, 0xff, 0xff, 0x7f]], by decide⟩ :=
  not_answers_of_unreadable (by decide) fun hreadable => (hreadable overlong (List.mem_singleton.mpr rfl)).1 (by decide +kernel)

/-- The payload of a request in which groups are opened one in another. -/
def groups (n : Nat) (hn : n < 2 ^ 31) : Message := ⟨List.replicate n 0x43, by rwa [List.length_replicate]⟩

theorem unmarshal_groups {n : Nat} (h : stack.request < n) :
    MethodCallRequest.unmarshal stack (List.replicate n 0x43) = .error .stackOverflow := by
  obtain ⟨n, rfl⟩ : ∃ m, n = m + 1 := ⟨n - 1, by omega⟩
  have hpass : ∀ l m, unmarshalPass stack.request (MethodCallRequest.generated stack) l m (List.replicate (n + 1) 0x43) =
      .error .stackOverflow := by
    intro l m
    unfold unmarshalPass
    rw [List.replicate_succ, readVarint_group, ← List.replicate_succ, skipExchange_groups h]
    rfl
  unfold MethodCallRequest.unmarshal unmarshal
  rw [List.length_replicate, List.replicate_succ, unmarshalLoop, ← List.replicate_succ, hpass]
  · rfl
  · exact List.cons_ne_nil _ _

/-- Nor is one with this payload, whatever stack there is, if there are more groups than it holds. -/
theorem not_answers_groups {n : Nat} (hn : n < 2 ^ 31) (h : stack.request < n) {conn : Chunks}
    (hconn : conn.bytes = ([FramingOp.request (groups n hn)].foldl SimpleBinaryFraming.perform {}).stream) :
    ¬ Answers stack [.request (groups n hn)] conn :=
  not_answers_of_unreadable hconn fun hreadable =>
    (hreadable (groups n hn) (List.mem_singleton.mpr rfl)).2 (unmarshal_groups h)

end Go

end LibraryLink
