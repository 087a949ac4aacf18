import LibraryLink.CppFraming

/-!
# Helpers for `Theorems/CppFraming.lean`: what one `read_frame` returns

A call of `read_frame` on a stream that begins with a frame returns that frame only when what its short reads lost were zero
bytes (`LosesOnlyZeros`); the lost bytes then stand before the next frame (`leftover`). A frame that stands behind at least one
such byte is never returned (`readFrame_shifted_ne`).
-/

namespace LibraryLink.Cpp

/-- The number of bytes of a frame that the three read calls of `read_frame` leave in the stream. -/
def leftover (f : Frame) (c : Cuts) : Nat :=
  8 + f.message.bytes.length - (min 4 (c.size 0) + min 4 (c.size 1) + min f.message.bytes.length (c.size 2))

/-- The three read calls of a frame give all the bytes they are asked for. -/
def ReadsWhole (f : Frame) (c : Cuts) : Prop :=
  4 ≤ c.size 0 ∧ 4 ≤ c.size 1 ∧ f.message.bytes.length ≤ c.size 2

/-- The bytes that the three read calls of a frame leave out, or take from the wrong place, are zero like the buffers they are
missing from: either the header is read whole and only zero bytes at the end of the payload are left out, or the payload is
zero throughout, the bytes left out of the length are zero, and so is the tag unless it stands where it is expected. -/
def LosesOnlyZeros (f : Frame) (c : Cuts) : Prop :=
  (4 ≤ c.size 0 ∧ 4 ≤ c.size 1 ∧ ∀ b ∈ f.message.bytes.drop (c.size 2), b = 0) ∨
    ((∀ b ∈ f.message.bytes, b = 0) ∧ f.message.bytes.length < 256 ^ min 4 (c.size 0) ∧ (4 ≤ c.size 0 ∨ f.tag = .request))

theorem ReadsWhole.losesOnlyZeros {f : Frame} {c : Cuts} (h : ReadsWhole f c) : LosesOnlyZeros f c :=
  Or.inl ⟨h.1, h.2.1, by simp [List.drop_of_length_le h.2.2]⟩

/-- Nothing is left over exactly when the three read calls are whole. -/
theorem leftover_eq_zero_iff (f : Frame) (c : Cuts) : leftover f c = 0 ↔ ReadsWhole f c := by
  unfold leftover ReadsWhole
  omega

namespace ReadFrameAux

/-- The three parts of a frame, the length under four bytes of a JVM size and the tag under one. -/
theorem length_lt (f : Frame) : f.message.bytes.length < 256 ^ 4 :=
  Nat.lt_trans f.message.size_lt (by decide)

/-- `read_frame` on a stream that holds more than two numbers, when the length read is not zero. -/
theorem readFrame_eq (bytes : List UInt8) (c : Cuts) (hb : min 4 (c.size 0) + min 4 (c.size 1) < bytes.length)
    (hv : LittleEndian.decode (bytes.take (min 4 (c.size 0))) ≠ 0) :
    readFrame ⟨bytes, c⟩ =
      let length := LittleEndian.decode (bytes.take (min 4 (c.size 0)))
      let tagBytes := bytes.drop (min 4 (c.size 0))
      let dataBytes := tagBytes.drop (min 4 (c.size 1))
      .ok (⟨length, LittleEndian.decode (tagBytes.take (min 4 (c.size 1))),
          filled length (dataBytes.take (min length (c.size 2)))⟩,
        ⟨dataBytes.drop (min length (c.size 2)), c.drop 3⟩) := by
  have h0 : bytes ≠ [] := List.ne_nil_of_length_pos (by omega)
  have h1 : bytes.drop (min 4 (c.size 0)) ≠ [] := List.ne_nil_of_length_pos (by rw [List.length_drop]; omega)
  have h2 : (bytes.drop (min 4 (c.size 0))).drop (min 4 (c.size 1)) ≠ [] :=
    List.ne_nil_of_length_pos (by rw [List.length_drop, List.length_drop]; omega)
  have e1 := readValue_eq bytes c h0
  have e2 := readValue_eq _ (c.drop 1) h1
  have e3 := readBlock_eq _ (c.drop 2) _ h2 hv
  simp only [Cuts.size_drop, Cuts.drop_drop, Nat.zero_add, Nat.reduceAdd] at e2 e3
  simp only [readFrame, e1, e2, e3, bind, Except.bind, pure, Except.pure]

/-- A length that reads as zero makes `read_frame` report a closed connection, whatever the tag reads as. -/
theorem readFrame_of_zero (bytes : List UInt8) (c : Cuts)
    (hv : LittleEndian.decode (bytes.take (min 4 (c.size 0))) = 0) : readFrame ⟨bytes, c⟩ = .error connectionClosed := by
  by_cases h0 : bytes = []
  · subst h0
    simp [readFrame, readValue_nil, bind, Except.bind]
  · have e1 := readValue_eq bytes c h0
    rw [hv] at e1
    by_cases h1 : bytes.drop (min 4 (c.size 0)) = []
    · rw [h1] at e1
      simp only [readFrame, e1, readValue_nil, bind, Except.bind]
    · have e2 := readValue_eq _ (c.drop 1) h1
      simp only [readFrame, e1, e2, readBlock_zero, bind, Except.bind]

/-- A payload that is read `a` bytes too early, those bytes being zero, and read right, is zero: every byte of it repeats the
byte `a` places before it. -/
theorem zeros_of_shifted {a d : Nat} {p rest : List UInt8} (ha : 0 < a)
    (h : filled p.length ((List.replicate a 0 ++ (p ++ rest)).take d) = p) :
    ∀ (n : Nat) (b : UInt8), p[n]? = some b → b = 0 := by
  intro n
  induction n using Nat.strong_induction_on with
  | _ n ih =>
    intro b hb
    have hn : n < p.length := (List.getElem?_eq_some_iff.mp hb).1
    have hb' := hb
    rw [← h, filled, List.getElem?_append] at hb'
    split at hb'
    · rename_i hlt
      rw [List.getElem?_take_of_lt (by rw [List.length_take] at hlt; omega), List.getElem?_append] at hb'
      split at hb'
      · simpa using (List.getElem?_eq_some_iff.mp hb').2.symm
      · rename_i hna
        rw [List.length_replicate] at hna hb'
        rw [List.getElem?_append_left (by omega)] at hb'
        exact ih (n - a) (by omega) b hb'
    · simpa using (List.getElem?_eq_some_iff.mp hb').2.symm

/-- A payload of zero bytes. -/
theorem eq_replicate {p : List UInt8} (h : ∀ b ∈ p, b = 0) : p = List.replicate p.length 0 :=
  List.eq_replicate_of_mem h

/-- What is read of a payload that stands behind `a` zero bytes is that payload exactly when the bytes lost are zero: those at
its end when it stands where it is expected, all of it otherwise. -/
theorem filled_eq_iff (a d : Nat) (p rest : List UInt8) (hd : d ≤ p.length) :
    filled p.length ((List.replicate a 0 ++ (p ++ rest)).take d) = p ↔
      if a = 0 then ∀ b ∈ p.drop d, b = 0 else ∀ b ∈ p, b = 0 := by
  split
  · rename_i ha
    subst ha
    rw [List.replicate_zero, List.nil_append, List.take_append_of_le_length hd, filled, List.length_take,
      Nat.min_eq_left hd]
    constructor
    · intro h b hb
      have hdrop : p.drop d = List.replicate (p.length - d) 0 := by
        conv_lhs => rw [← h]
        rw [List.drop_append_of_le_length (by rw [List.length_take]; omega)]
        simp
      rw [hdrop] at hb
      exact List.eq_of_mem_replicate hb
    · intro h
      have := eq_replicate h
      rw [List.length_drop] at this
      rw [← this, List.take_append_drop]
  · rename_i ha
    constructor
    · intro h b hb
      obtain ⟨n, hn⟩ := List.getElem?_of_mem hb
      exact zeros_of_shifted (Nat.pos_of_ne_zero ha) h n b hn
    · intro h
      have hp := eq_replicate h
      generalize p.length = n at hp hd ⊢
      subst hp
      rw [← List.append_assoc, List.replicate_append_replicate, List.take_append_of_le_length (by simp; omega),
        List.take_replicate, filled, List.length_replicate, List.replicate_append_replicate]
      congr 1
      omega

/-- The bytes left of such a payload are zero, and stand before what follows it. -/
theorem drop_of_zeros (a d : Nat) (p rest : List UInt8) (hd : d ≤ p.length)
    (h : if a = 0 then ∀ b ∈ p.drop d, b = 0 else ∀ b ∈ p, b = 0) :
    (List.replicate a 0 ++ (p ++ rest)).drop d = List.replicate (a + p.length - d) 0 ++ rest := by
  split at h
  · rename_i ha
    subst ha
    have := eq_replicate h
    rw [List.length_drop] at this
    rw [List.replicate_zero, List.nil_append, List.drop_append_of_le_length hd, this, Nat.zero_add]
  · have hp := eq_replicate h
    generalize p.length = n at hp hd ⊢
    subst hp
    rw [← List.append_assoc, List.replicate_append_replicate, List.drop_append_of_le_length (by simp; omega),
      List.drop_replicate]

/-- The bytes a number's reader leaves of it when the number read is the number written. -/
theorem drop_encode_of_lt {w n j : Nat} (h : n < 256 ^ j) :
    (LittleEndian.encode w n).drop j = List.replicate (w - j) 0 := by
  rw [LittleEndian.drop_encode, Nat.div_eq_of_lt h, LittleEndian.encode_zero]

/-- The length of a frame is read right when the bytes of it that are left out are zero. -/
theorem length_read (f : Frame) (rest : List UInt8) (j : Nat) (hj : j ≤ 4) :
    LittleEndian.decode ((f.encode ++ rest).take j) = f.message.bytes.length ↔ f.message.bytes.length < 256 ^ j := by
  rw [Frame.encode, List.append_assoc, List.append_assoc, List.take_append_of_le_length (by simpa using hj), toByteArray,
    LittleEndian.decode_take_encode, Nat.min_eq_left hj]
  exact ⟨fun h => h ▸ Nat.mod_lt _ (Nat.pow_pos (by decide)), Nat.mod_eq_of_lt⟩

/-- What is left of a frame when `j` bytes of its length, the others being zero, have been read. -/
theorem drop_length (f : Frame) (rest : List UInt8) (j : Nat) (hj : j ≤ 4) (h : f.message.bytes.length < 256 ^ j) :
    (f.encode ++ rest).drop j =
      (List.replicate (4 - j) 0 ++ LittleEndian.encode 4 f.tag.code) ++ (f.message.bytes ++ rest) := by
  rw [Frame.encode, List.append_assoc, List.append_assoc, List.drop_append_of_le_length (by simpa using hj), toByteArray,
    drop_encode_of_lt h]
  simp [toByteArray]

/-- The tag behind `4 - j` zero bytes is read right when there are none of them or the tag is zero. -/
theorem tag_read (t : Tag) (rest : List UInt8) (j i : Nat) (hj : j ≤ 4) (hi : i ≤ 4) (hpos : 0 < i) :
    LittleEndian.decode (((List.replicate (4 - j) 0 ++ LittleEndian.encode 4 t.code) ++ rest).take i) = t.code ↔
      j = 4 ∨ t = .request := by
  rw [List.take_append_of_le_length (by simp; omega)]
  constructor
  · intro h
    rcases Nat.lt_or_ge j 4 with hlt | hge
    · have h0 := LittleEndian.decode_shifted_eq_self (by omega) h
      exact Or.inr (Tag.code_injective h0)
    · exact Or.inl (by omega)
  · rintro (rfl | rfl)
    · have hlt : t.code < 256 ^ min i 4 := Nat.lt_of_lt_of_le t.code_lt (Nat.le_self_pow (by omega) 256)
      rw [Nat.sub_self, List.replicate_zero, List.nil_append, LittleEndian.decode_take_encode, Nat.mod_eq_of_lt hlt]
    · rw [Tag.code, LittleEndian.encode_zero, List.replicate_append_replicate, List.take_replicate,
        LittleEndian.decode_replicate_zero]

/-- What is left of the tag, the length having been read right, when it was read right: zero bytes. -/
theorem drop_tag (t : Tag) (rest : List UInt8) (j i : Nat) (hj : j ≤ 4) (hi : i ≤ 4) (hpos : 0 < i)
    (h : j = 4 ∨ t = .request) :
    ((List.replicate (4 - j) 0 ++ LittleEndian.encode 4 t.code) ++ rest).drop i =
      List.replicate (8 - j - i) 0 ++ rest := by
  rw [List.drop_append_of_le_length (by simp; omega)]
  congr 1
  rcases h with rfl | rfl
  · have hlt : t.code < 256 ^ i := Nat.lt_of_lt_of_le t.code_lt (Nat.le_self_pow (by omega) 256)
    rw [Nat.sub_self, List.replicate_zero, List.nil_append, drop_encode_of_lt hlt]
  · rw [Tag.code, LittleEndian.encode_zero, List.replicate_append_replicate, List.drop_replicate]
    congr 1
    omega

/-- `LosesOnlyZeros` in the order in which `read_frame` reads: the length, the tag, and the payload behind the zero bytes that
the first two leave. -/
theorem losesOnlyZeros_iff (f : Frame) (c : Cuts) :
    LosesOnlyZeros f c ↔
      f.message.bytes.length < 256 ^ min 4 (c.size 0) ∧ (min 4 (c.size 0) = 4 ∨ f.tag = .request) ∧
        if 8 - min 4 (c.size 0) - min 4 (c.size 1) = 0
        then ∀ b ∈ f.message.bytes.drop (min f.message.bytes.length (c.size 2)), b = 0
        else ∀ b ∈ f.message.bytes, b = 0 := by
  have hlen := length_lt f
  have hdrop : f.message.bytes.drop (min f.message.bytes.length (c.size 2)) = f.message.bytes.drop (c.size 2) := by
    rcases Nat.le_total f.message.bytes.length (c.size 2) with h | h
    · rw [Nat.min_eq_left h, List.drop_length, List.drop_of_length_le h]
    · rw [Nat.min_eq_right h]
  have hmin : min 4 (c.size 0) = 4 ↔ 4 ≤ c.size 0 := by omega
  have hall : (∀ b ∈ f.message.bytes, b = 0) → ∀ b ∈ f.message.bytes.drop (c.size 2), b = 0 :=
    fun h b hb => h b (List.mem_of_mem_drop hb)
  rw [hdrop, LosesOnlyZeros, hmin]
  split
  · rename_i h
    have h0 : 4 ≤ c.size 0 := by omega
    have h1 : 4 ≤ c.size 1 := by omega
    rw [Nat.min_eq_left h0]
    tauto
  · rename_i h
    have h01 : ¬(4 ≤ c.size 0 ∧ 4 ≤ c.size 1) := by omega
    tauto

end ReadFrameAux

open ReadFrameAux

/-- One call of `read_frame` on a stream that begins with a frame returns the frame exactly when its payload is not empty and
the short reads lose only zero bytes; what they leave of the frame are zero bytes before the rest of the stream. -/
theorem readFrame_expected_iff (f : Frame) (rest : List UInt8) (c : Cuts) (fd : Cut) :
    readFrame ⟨f.encode ++ rest, c⟩ = .ok (expected f, fd) ↔
      f.message.bytes ≠ [] ∧ LosesOnlyZeros f c ∧ fd = ⟨List.replicate (leftover f c) 0 ++ rest, c.drop 3⟩ := by
  have hj : min 4 (c.size 0) ≤ 4 := Nat.min_le_left _ _
  have hi : min 4 (c.size 1) ≤ 4 := Nat.min_le_left _ _
  have hipos : 0 < min 4 (c.size 1) := by have := c.pos 1; omega
  have hd : min f.message.bytes.length (c.size 2) ≤ f.message.bytes.length := Nat.min_le_left _ _
  rw [losesOnlyZeros_iff]
  -- A length that is read as zero ends in a closed connection, so only a length that is read right is left to consider.
  by_cases hv : LittleEndian.decode ((f.encode ++ rest).take (min 4 (c.size 0))) = 0
  · rw [readFrame_of_zero _ _ hv]
    refine iff_of_false nofun fun ⟨hne, ⟨hlt, _⟩, _⟩ => hne ?_
    rw [(length_read f rest _ hj).mpr hlt] at hv
    exact List.eq_nil_of_length_eq_zero hv
  · have hsize : min 4 (c.size 0) + min 4 (c.size 1) < (f.encode ++ rest).length := by
      rw [List.length_append, Frame.length_encode]
      by_contra hle
      have hrest : f.message.bytes = [] ∧ rest = [] := by
        constructor <;> apply List.eq_nil_of_length_eq_zero <;> omega
      apply hv
      rw [(length_read f rest _ hj).mpr] <;> simp [hrest.1]
    rw [readFrame_eq _ _ hsize hv, Except.ok.injEq, Prod.mk.injEq, expected, ChannelRequest.mk.injEq]
    by_cases hlt : f.message.bytes.length < 256 ^ min 4 (c.size 0)
    · have hlength := (length_read f rest _ hj).mpr hlt
      have hne : f.message.bytes ≠ [] := fun h => hv (by rw [hlength, h]; rfl)
      simp only [hlength, drop_length f rest _ hj hlt]
      by_cases ht : min 4 (c.size 0) = 4 ∨ f.tag = .request
      · rw [drop_tag _ _ _ _ hj hi hipos ht, (tag_read _ _ _ _ hj hi hipos).mpr ht, filled_eq_iff _ _ _ _ hd]
        have hleft : ∀ h, (List.replicate (8 - min 4 (c.size 0) - min 4 (c.size 1)) 0 ++ (f.message.bytes ++ rest)).drop
            (min f.message.bytes.length (c.size 2)) = List.replicate (leftover f c) 0 ++ rest := fun h => by
          rw [drop_of_zeros _ _ _ _ hd h, leftover]
          congr 2
          omega
        constructor
        · rintro ⟨⟨-, -, h⟩, rfl⟩
          exact ⟨hne, ⟨hlt, ht, h⟩, by rw [hleft h]⟩
        · rintro ⟨-, ⟨-, -, h⟩, rfl⟩
          exact ⟨⟨trivial, rfl, h⟩, by rw [hleft h]⟩
      · rw [tag_read _ _ _ _ hj hi hipos]
        tauto
    · rw [length_read f rest _ hj]
      tauto

/-- A frame with a payload that stands behind zero bytes is not returned: its length is read too early. -/
theorem readFrame_shifted_ne (k : Nat) (f : Frame) (rest : List UInt8) (c : Cuts) (fd : Cut) (hk : 0 < k) :
    readFrame ⟨List.replicate k 0 ++ (f.encode ++ rest), c⟩ ≠ .ok (expected f, fd) := by
  intro h
  by_cases hv : LittleEndian.decode ((List.replicate k 0 ++ (f.encode ++ rest)).take (min 4 (c.size 0))) = 0
  · rw [readFrame_of_zero _ _ hv] at h
    nomatch h
  · have hsize : min 4 (c.size 0) + min 4 (c.size 1) < (List.replicate k (0 : UInt8) ++ (f.encode ++ rest)).length := by
      rw [List.length_append, List.length_append, Frame.length_encode, List.length_replicate]
      omega
    rw [readFrame_eq _ _ hsize hv] at h
    have hlength := congrArg (fun r => r.1.length) (Except.ok.inj h)
    have hread : LittleEndian.decode ((List.replicate k 0 ++ LittleEndian.encode 4 f.message.bytes.length).take
        (min 4 (c.size 0))) = f.message.bytes.length := by
      have htake : ∀ tail : List UInt8, ((List.replicate k 0 ++ LittleEndian.encode 4 f.message.bytes.length) ++ tail).take
          (min 4 (c.size 0)) = (List.replicate k 0 ++ LittleEndian.encode 4 f.message.bytes.length).take (min 4 (c.size 0)) :=
        fun _ => List.take_append_of_le_length
          (by rw [List.length_append, List.length_replicate, LittleEndian.length_encode]; omega)
      rw [← htake (toByteArray f.tag.code ++ f.message.bytes ++ rest)]
      simpa [Frame.encode, toByteArray, expected] using hlength
    have h0 := LittleEndian.decode_shifted_eq_self hk hread
    apply hv
    exact hlength.trans h0

/-- A stream of zero bytes is taken for a closed connection. -/
theorem readFrame_zeros (k : Nat) (c : Cuts) : readFrame ⟨List.replicate k 0, c⟩ = .error connectionClosed := by
  apply readFrame_of_zero
  rw [List.take_replicate, LittleEndian.decode_replicate_zero]

end LibraryLink.Cpp
