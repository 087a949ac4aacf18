import LibraryLink.Theorems.GoHandler

/-!
# What the Go handler makes of a stream that ends too early

The handler returns where it finds no whole length, but not where it finds no whole tag or payload: it goes on with the zeros of the
buffer. So a frame that is cut off in its payload is answered like a request, and so is a control frame whose tag is missing, zero
being the code of REQUEST (`ends_of_harmful`). A tag of which the first byte is there is read right.
-/

namespace LibraryLink.Go

open Relation ByteSource

variable {σ : Type} [ByteSource σ] {stack : Stack}

/-! ## Where a stream is cut -/

/-- The operations whose frames are in the first `cut` bytes, and the one whose frame is there in part, with how much of it. -/
def cutAt : Nat → List FramingOp → List FramingOp × Option (FramingOp × Nat)
  | _, [] => ([], none)
  | cut, op :: ops =>
    let length := op.frame.encode.length
    if length ≤ cut then (op :: (cutAt (cut - length) ops).1, (cutAt (cut - length) ops).2)
    else if cut = 0 then ([], none)
    else ([], some (op, cut))

/-- The operations whose frames are in the first `cut` bytes. -/
def complete (cut : Nat) (ops : List FramingOp) : List FramingOp := (cutAt cut ops).1

/-- The operation whose frame is in the first `cut` bytes in part, with how much of it. -/
def incomplete (cut : Nat) (ops : List FramingOp) : Option (FramingOp × Nat) := (cutAt cut ops).2

/-- The bytes that there are of a frame. -/
def remainder : Option (FramingOp × Nat) → List UInt8
  | none => []
  | some (op, size) => op.frame.encode.take size

/-- The stream up to where it is cut is the whole frames and what there is of the next one. -/
theorem take_encodeAll (cut : Nat) (ops : List FramingOp) :
    (encodeAll (ops.map FramingOp.frame)).take cut =
      encodeAll ((complete cut ops).map FramingOp.frame) ++ remainder (incomplete cut ops) := by
  induction ops generalizing cut with
  | nil => exact List.take_nil
  | cons op ops ih =>
    rw [List.map_cons, encodeAll_cons, List.take_append]
    unfold complete incomplete at *
    rw [cutAt]
    split
    · rename_i hle
      rw [List.take_of_length_le hle, ih, List.map_cons, encodeAll_cons, List.append_assoc]
    · rename_i hlt
      have hzero : cut - op.frame.encode.length = 0 := by omega
      rw [hzero, List.take_zero, List.append_nil]
      split
      · rename_i hcut
        rw [hcut]
        rfl
      · rfl

/-- Something is missing of a frame that is not whole. -/
theorem incomplete_lt {cut : Nat} {ops : List FramingOp} {op : FramingOp} {size : Nat}
    (h : incomplete cut ops = some (op, size)) : size < op.frame.encode.length := by
  induction ops generalizing cut with
  | nil => cases h
  | cons op' ops ih =>
    unfold incomplete at *
    rw [cutAt] at h
    split at h
    · exact ih h
    · rename_i hlt
      split at h
      · cases h
      · rename_i hcut
        cases h
        omega

/-- The stream ends between two frames, in a length, or in the tag of a control frame after its first byte. -/
def Harmless : Option (FramingOp × Nat) → Prop
  | none => True
  | some (.request _, size) => size < 4
  | some (.buffering _, size) => size ≠ 4

/-- The operation whose tag is recognised although its frame is not whole. -/
def recognisedPart : Option (FramingOp × Nat) → List FramingOp
  | some (op, size) => if 5 ≤ size then [op] else []
  | none => []

/-! ## Reading at the end of the stream -/

/-- A number that is cut off: what is missing of it is read as zeros. -/
theorem readNumBytes_cutNumber (reader : σ) (n size : Nat) (tail : List UInt8) (h : rest reader = (toByteArray n ++ tail).take size) :
    ∃ b err reader', readNumBytes reader 4 = (b, err, reader') ∧ LittleEndian.decode b = n % 256 ^ min size 4 ∧
      rest reader' = tail.take (size - 4) := by
  have hn := length_toByteArray n
  rw [List.take_append, hn] at h
  by_cases hsize : 4 ≤ size
  · rw [List.take_of_length_le (by omega)] at h
    obtain ⟨r, hr, hd⟩ := readNumBytes_eq reader 4 (by rw [h, List.length_append, hn]; omega)
    refine ⟨_, _, r, hr, ?_, ?_⟩
    · rw [h, List.take_left' hn, toByteArray, LittleEndian.decode_encode, Nat.min_eq_right hsize]
    · rw [hd, h, List.drop_left' hn]
  · have hzero : size - 4 = 0 := by omega
    rw [hzero, List.take_zero, List.append_nil] at h
    obtain ⟨r, hr, hd⟩ := readNumBytes_short reader 4 (by rw [h, List.length_take]; omega)
    refine ⟨_, _, r, hr, ?_, ?_⟩
    · rw [LittleEndian.decode_append_zeros, h, toByteArray, LittleEndian.decode_take_encode]
    · rw [hd, hzero, List.take_zero]

/-- A read of no fewer bytes than there are leaves none. -/
theorem readNumBytes_rest (reader : σ) (num : Nat) (h : (rest reader).length ≤ num) :
    ∃ b err reader', readNumBytes reader num = (b, err, reader') ∧ rest reader' = [] := by
  rcases Nat.lt_or_eq_of_le h with hlt | heq
  · obtain ⟨r, hr, hd⟩ := readNumBytes_short reader num hlt
    exact ⟨_, _, r, hr, hd⟩
  · obtain ⟨r, hr, hd⟩ := readNumBytes_eq reader num (Nat.le_of_eq heq.symm)
    exact ⟨_, _, r, hr, by rw [hd, List.drop_of_length_le h]⟩

/-- The length and the tag of a frame that is cut off after its length. -/
theorem read_header {h : Handler σ} {f : Frame} {size : Nat} (hsize : 4 ≤ size)
    (hrest : rest h.bufferedReader = f.encode.take size) :
    ∃ b₁ r₁ b₂ err r₂, readNumBytes h.bufferedReader 4 = (b₁, false, r₁) ∧ readNumBytes r₁ 4 = (b₂, err, r₂) ∧
      LittleEndian.decode b₁ = f.message.bytes.length ∧ LittleEndian.decode b₂ = f.tag.code % 256 ^ min (size - 4) 4 ∧
      rest r₂ = f.message.bytes.take (size - 8) := by
  have hlen : f.message.bytes.length < 256 ^ 4 := Nat.lt_trans f.message.size_lt (by decide)
  rw [Frame.encode, List.append_assoc, List.take_append, length_toByteArray,
    List.take_of_length_le (by rwa [length_toByteArray])] at hrest
  obtain ⟨b₁, r₁, e₁, d₁, hr₁⟩ := readNumBytes_number _ _ _ hlen hrest
  obtain ⟨b₂, err, r₂, e₂, d₂, hr₂⟩ := readNumBytes_cutNumber _ _ _ _ hr₁
  exact ⟨b₁, r₁, b₂, err, r₂, e₁, e₂, d₁, d₂, by rw [hr₂, Nat.sub_sub]⟩

/-! ## How the handler ends -/

/-- A frame that is cut off where its tag is read as that of a request: the handler panics, or answers it and returns. -/
theorem ends_as_request {h : Handler σ} {f : Frame} {size : Nat} (hsize : 4 ≤ size)
    (hrest : rest h.bufferedReader = f.encode.take size) (htag : f.tag.code % 256 ^ min (size - 4) 4 = Tag.request.code) :
    ∃ h', ReflTransGen (Pass stack) h h' ∧ (handlerPass stack h' = .error .panicked ∨
      (handlerPass stack h' = .error .returned ∧ h'.bufferedWriter.all = h.bufferedWriter.all ++ responseFrame)) := by
  obtain ⟨b₁, r₁, b₂, err, r₂, e₁, e₂, d₁, d₂, hr₂⟩ := read_header hsize hrest
  have hpayload : (rest r₂).length ≤ LittleEndian.decode b₁ := by
    rw [hr₂, d₁, List.length_take]
    omega
  obtain ⟨payload, err₃, r₃, e₃, hr₃⟩ := readNumBytes_rest r₂ _ hpayload
  rcases handlerPass_request e₁ e₂ (d₂.trans htag) e₃ with ⟨-, hpanic⟩ | ⟨-, h', hpass, hreader, -, -, hall, -⟩
  · exact ⟨h, .refl, Or.inl hpanic⟩
  · refine ⟨h', .single hpass, Or.inr ⟨handlerPass_short ?_, hall⟩⟩
    rw [hreader, hr₃]
    decide

/-- A frame that is cut off where that does harm: the handler panics, or has written a response too many when it returns. -/
theorem ends_of_harmful {done : List FramingOp} {part : Option (FramingOp × Nat)} {h : Handler σ}
    (hi : AtHead done (remainder part) h) (hharm : ¬ Harmless part) :
    ∃ h', ReflTransGen (Pass stack) h h' ∧ (handlerPass stack h' = .error .panicked ∨ (handlerPass stack h' = .error .returned ∧
      h'.bufferedWriter.all = responsesTo (done.map (·.frame.recognised)) ++ responseFrame)) := by
  rw [← hi.seen_eq, ← hi.answered]
  rcases part with _ | ⟨op, size⟩
  · exact absurd trivial hharm
  · cases op with
    | request message => exact ends_as_request (Nat.le_of_not_lt hharm) hi.rest_eq (Nat.zero_mod _)
    | buffering value =>
      have hfour : size = 4 := Classical.not_not.mp hharm
      exact ends_as_request (Nat.le_of_eq hfour.symm) hi.rest_eq (by rw [hfour]; exact Nat.mod_one _)

/-- A frame that is cut off where that does no harm: the handler returns, with nothing written for it. -/
theorem ends_of_harmless {done : List FramingOp} {part : Option (FramingOp × Nat)} {h : Handler σ}
    (hi : AtHead done (remainder part) h)
    (hsize : ∀ op size, part = some (op, size) → size < op.frame.encode.length) (hharmless : Harmless part) :
    ∃ h' stream, ReflTransGen (Pass stack) h h' ∧ handlerPass stack h' = .error .returned ∧ AtHead (done ++ recognisedPart part) stream h' ∧
      h'.bufferedWriter.all = responsesTo (done.map (·.frame.recognised)) := by
  have hnow : (remainder part).length < 4 → recognisedPart part = [] →
      ∃ h' stream, ReflTransGen (Pass stack) h h' ∧ handlerPass stack h' = .error .returned ∧
        AtHead (done ++ recognisedPart part) stream h' ∧ h'.bufferedWriter.all = responsesTo (done.map (·.frame.recognised)) := by
    intro hshort hpart
    refine ⟨h, remainder part, .refl, handlerPass_short (by rwa [hi.rest_eq]), ?_, by rw [hi.answered, hi.seen_eq]⟩
    rw [hpart, List.append_nil]
    exact hi
  rcases part with _ | ⟨op, size⟩
  · exact hnow (Nat.zero_lt_succ 3) rfl
  · have hlt := hsize op size rfl
    cases op with
    | request message =>
      have hshort : size < 4 := hharmless
      exact hnow (by rw [remainder, List.length_take]; omega) (if_neg (by omega))
    | buffering value =>
      have hne : size ≠ 4 := hharmless
      have hcode : (FramingOp.buffering value).frame.tag.code < 256 := Tag.code_lt _
      have hempty : (FramingOp.buffering value).frame.message.bytes = [] := rfl
      rw [Frame.length_encode, hempty, List.length_nil] at hlt
      rcases Nat.lt_or_gt_of_ne hne with hshort | hlong
      · exact hnow (by rw [remainder, List.length_take]; omega) (if_neg (by omega))
      · obtain ⟨b₁, r₁, b₂, err, r₂, e₁, e₂, d₁, d₂, hr₂⟩ := read_header (Nat.le_of_lt hlong) hi.rest_eq
        have hpow : 256 ≤ 256 ^ min (size - 4) 4 := Nat.le_self_pow (by omega) 256
        rw [Nat.mod_eq_of_lt (Nat.lt_of_lt_of_le hcode hpow)] at d₂
        rw [hempty, List.take_nil] at hr₂
        obtain ⟨h', hpass, hi'⟩ := hi.control e₁ e₂ d₂ hr₂
        refine ⟨h', [], .single hpass, handlerPass_short (by rw [hi'.rest_eq]; decide), ?_, ?_⟩
        · rw [recognisedPart, if_pos (show 5 ≤ size from hlong)]
          exact hi'
        · rw [hi'.answered, hi'.seen_eq, List.map_append, List.map_singleton, responsesTo_snoc, if_neg, List.append_nil]
          cases value <;> decide

/-! ## Streams that end anywhere -/

/-- The handler returns, and has written one response frame for each request whose frame is whole, and nothing else. -/
def AnswersComplete (stack : Stack) (ops : List FramingOp) (cut : Nat) (conn : Chunks) : Prop :=
  ∃ h, ReflTransGen (Pass stack) (Handler.start conn) h ∧ handlerPass stack h = .error .returned ∧
    h.bufferedWriter.all = responsesTo ((complete cut ops).map (·.frame.recognised))

/-- And all of that has reached the connection. -/
def DeliversComplete (stack : Stack) (ops : List FramingOp) (cut : Nat) (conn : Chunks) : Prop :=
  ∃ h, ReflTransGen (Pass stack) (Handler.start conn) h ∧ handlerPass stack h = .error .returned ∧
    h.bufferedWriter.all = responsesTo ((complete cut ops).map (·.frame.recognised)) ∧
    h.bufferedWriter.conn = h.bufferedWriter.all

/-- How the handler ends on a stream that is cut off: it panics at a whole request, or at the end of the stream it goes wrong, or it
returns with what the operations it has recognised leave in its writer. -/
theorem ends (stack : Stack) (ops : List FramingOp) (cut : Nat) (conn : Chunks)
    (hconn : conn.bytes = (encodeAll (ops.map FramingOp.frame)).take cut) :
    ∃ h, ReflTransGen (Pass stack) (Handler.start conn) h ∧
      ((¬ (Readable stack (complete cut ops) ∧ Harmless (incomplete cut ops)) ∧ (handlerPass stack h = .error .panicked ∨
          (handlerPass stack h = .error .returned ∧ h.bufferedWriter.all =
            responsesTo ((complete cut ops).map (·.frame.recognised)) ++ responseFrame))) ∨
        ((Readable stack (complete cut ops) ∧ Harmless (incomplete cut ops)) ∧ handlerPass stack h = .error .returned ∧
          h.bufferedWriter.all = responsesTo ((complete cut ops).map (·.frame.recognised)) ∧
          (h.bufferedWriter.buf ≠ [] ↔ HeldBack (complete cut ops ++ recognisedPart (incomplete cut ops))))) := by
  have hstart : AtHead [] (encodeAll ((complete cut ops).map FramingOp.frame) ++ remainder (incomplete cut ops))
      (Handler.start conn) := AtHead.start conn (hconn.trans (take_encodeAll cut ops))
  have hsize : ∀ op size, incomplete cut ops = some (op, size) → size < op.frame.encode.length :=
    fun op size h => incomplete_lt h
  obtain ⟨h, hrun, ⟨hnot, hpanic⟩ | ⟨hreadable, hi⟩⟩ := hstart.run
  · exact ⟨h, hrun, Or.inl ⟨fun hboth => hnot hboth.1, Or.inl hpanic⟩⟩
  · rw [List.nil_append] at hi
    by_cases hharmless : Harmless (incomplete cut ops)
    · obtain ⟨h', stream, hrun', hend, hi', hall⟩ := ends_of_harmless hi hsize hharmless
      exact ⟨h', hrun.trans hrun', Or.inr ⟨⟨hreadable, hharmless⟩, hend, hall, hi'.held_iff⟩⟩
    · obtain ⟨h', hrun', hend⟩ := ends_of_harmful hi hharmless
      exact ⟨h', hrun.trans hrun', Or.inl ⟨fun hboth => hharmless hboth.2, hend⟩⟩

/-- A response too many is one too many. -/
theorem responses_ne_append (responses : List UInt8) : responses ++ responseFrame ≠ responses := by
  intro h
  have hlength := congrArg List.length h
  rw [List.length_append, show responseFrame.length = 10 from rfl] at hlength
  omega

/-- The bytes of a writer have reached the connection when it holds none back. -/
theorem Writer.conn_eq_all_iff (w : Writer) : w.conn = w.all ↔ w.buf = [] := by
  rw [Writer.all, List.self_eq_append_right]

/-- Where a whole request cannot be read or the cut does harm, the handler does not end with the right responses. -/
theorem not_answersComplete_of_harm {ops : List FramingOp} {cut : Nat} {conn : Chunks}
    (hconn : conn.bytes = (encodeAll (ops.map FramingOp.frame)).take cut)
    (hnot : ¬ (Readable stack (complete cut ops) ∧ Harmless (incomplete cut ops))) : ¬ AnswersComplete stack ops cut conn := by
  rintro ⟨h', hrun', hend', hall'⟩
  obtain ⟨h, hrun, ⟨-, hpanic | ⟨hend, hall⟩⟩ | ⟨hboth, -⟩⟩ := ends stack ops cut conn hconn
  · obtain rfl := ended_unique hrun' hend' hrun hpanic
    rw [hend'] at hpanic
    cases hpanic
  · obtain rfl := ended_unique hrun' hend' hrun hend
    exact responses_ne_append _ (hall.symm.trans hall')
  · exact hnot hboth

/-- On a stream that is cut off anywhere, and delivered in any pieces, the handler answers the whole requests and nothing else exactly
when it can read their payloads and the cut does no harm; and all its answers arrive when, besides, none of these requests is held
back. -/
theorem answersComplete_iff (stack : Stack) (ops : List FramingOp) (cut : Nat) (conn : Chunks)
    (hconn : conn.bytes = (encodeAll (ops.map FramingOp.frame)).take cut) :
    (AnswersComplete stack ops cut conn ↔ Readable stack (complete cut ops) ∧ Harmless (incomplete cut ops)) ∧
      (DeliversComplete stack ops cut conn ↔ (Readable stack (complete cut ops) ∧ Harmless (incomplete cut ops)) ∧
        ¬ HeldBack (complete cut ops ++ recognisedPart (incomplete cut ops))) := by
  by_cases hboth : Readable stack (complete cut ops) ∧ Harmless (incomplete cut ops)
  · obtain ⟨h, hrun, ⟨hnot, -⟩ | ⟨-, hend, hall, hheld⟩⟩ := ends stack ops cut conn hconn
    · exact absurd hboth hnot
    refine ⟨iff_of_true ⟨h, hrun, hend, hall⟩ hboth, ?_, ?_⟩
    · rintro ⟨h', hrun', hend', -, hconn'⟩
      obtain rfl := ended_unique hrun' hend' hrun hend
      exact ⟨hboth, fun hback => hheld.mpr hback ((Writer.conn_eq_all_iff _).mp hconn')⟩
    · rintro ⟨-, hnotHeld⟩
      have hnil : h.bufferedWriter.buf = [] := by
        by_contra hne
        exact hnotHeld (hheld.mp hne)
      exact ⟨h, hrun, hend, hall, (Writer.conn_eq_all_iff _).mpr hnil⟩
  · have hanswers := not_answersComplete_of_harm hconn hboth
    have hdelivers : ¬ DeliversComplete stack ops cut conn :=
      fun ⟨h', hrun', hend', hall', _⟩ => hanswers ⟨h', hrun', hend', hall'⟩
    exact ⟨iff_of_false hanswers hboth, iff_of_false hdelivers fun h => hboth h.1⟩

/-- The theorem at an empty request that is whole, and a second one that is cut off in its length. -/
theorem answersComplete_iff_length :
    AnswersComplete .million [.request .empty, .request .empty] 10 ⟨[[0, 0, 0, 0, 0, 0, 0, 0, 0, 0]], by decide⟩ :=
  (answersComplete_iff _ _ 10 _ (by decide)).1.mpr ⟨by
    show Readable .million [.request .empty]
    intro message hm
    obtain rfl := FramingOp.request.inj (List.mem_singleton.mp hm)
    decide, show 2 < 4 by decide⟩

/-- A request of two bytes of which only one has arrived is answered. -/
theorem not_answersComplete :
    ¬ AnswersComplete .million [.request ⟨[10, 0], by decide⟩] 9 ⟨[[2, 0, 0, 0, 0, 0, 0, 0, 10]], by decide⟩ :=
  not_answersComplete_of_harm (by decide) fun hboth => absurd hboth.2 (show ¬ 9 < 4 by decide)

end LibraryLink.Go
