import LibraryLink.KotlinFraming
import LibraryLink.WebSocketBridge
import LibraryLink.General.Outcome

/-!
# The Kotlin side returns no frame that was not sent

Each array of a frame is returned whole or not at all, so what `read` returns is the frame that the stream begins with, and what it
leaves is the remainder of the stream (`read_writeFrame`). A call that does not find a whole frame throws.
-/

namespace LibraryLink.Kotlin

open Outcome WebSocket

/-- The bytes that `write_frame` writes for some frames, each a tag and a payload. -/
def written (frames : List (Tag × Payload)) : List UInt8 := frames.flatMap fun f => Cpp.writeFrame f.1.code f.2.bytes

/-- What `read` has to return for a frame. -/
def returned (f : Tag × Payload) : Tag × List UInt8 := (f.1, f.2.bytes)

/-- The frame at a place is in the first `cut` bytes of the stream, its length is an `Int`, and the three calls that read it are not
partial. -/
def WholeAt (frames : List (Tag × Payload)) (cut : Nat) (c : Cuts) (i : Nat) : Prop :=
  ∃ f, frames[i]? = some f ∧ (written (frames.take (i + 1))).length ≤ cut ∧ f.2.bytes.length < 2 ^ 31 ∧
    4 ≤ c.size (3 * i) ∧ 4 ≤ c.size (3 * i + 1) ∧ f.2.bytes.length ≤ c.size (3 * i + 2)

/-! ## One frame -/

/-- An array that stands at the beginning of a stream that may be cut off is read only if it is not cut. -/
theorem readByteArray_append {part rest : List UInt8} {cut : Nat} {c : Cuts} {p : List UInt8 × Cut}
    (h : readByteArray part.length ⟨(part ++ rest).take cut, c⟩ = .ok p) :
    part.length ≤ cut ∧ part.length ≤ c.size 0 ∧ p = (part, ⟨rest.take (cut - part.length), c.drop 1⟩) := by
  obtain ⟨hbytes, hsize, rfl⟩ := readByteArray_eq_ok.mp h
  simp only [List.length_take] at hbytes
  have hcut : part.length ≤ cut := by omega
  refine ⟨hcut, hsize, ?_⟩
  rw [List.take_append, List.take_of_length_le hcut, List.take_left, List.drop_left]

/-- Four bytes of a number are read as the number, taken as signed. -/
theorem toInt_encode {n : Nat} (hn : n < 2 ^ 32) : toInt (LittleEndian.encode 4 n) = (n : Int).bmod (2 ^ 32) := by
  have hwidth : n < 256 ^ 4 := hn
  show (LittleEndian.decode (LittleEndian.encode 4 n) : Int).bmod (2 ^ 32) = _
  rw [LittleEndian.decode_encode_of_lt hwidth]

/-- A number below 2^31 is read as it was written. -/
theorem toInt_encode_of_lt {n : Nat} (hn : n < 2 ^ 31) : toInt (LittleEndian.encode 4 n) = n := by
  have hlow : -((2 ^ 32 / 2 : Nat) : Int) ≤ n := by omega
  have hhigh : (n : Int) < (2 ^ 32 + 1) / 2 := by omega
  exact (toInt_encode (Nat.lt_trans hn (by decide))).trans (Int.bmod_eq_of_le hlow hhigh)

/-- A length that is not negative as an `Int` is below 2^31. -/
theorem lt_of_toInt_nonneg {n : Nat} (hn : n < 2 ^ 32) (h : 0 ≤ toInt (LittleEndian.encode 4 n)) : n < 2 ^ 31 := by
  have hbmod := toInt_encode hn
  simp only [Int.bmod] at hbmod
  split at hbmod <;> omega

/-- The code of a tag is read as it was written. -/
theorem toInt_code (t : Tag) : toInt (LittleEndian.encode 4 t.code) = t.code :=
  toInt_encode_of_lt (Nat.lt_trans t.code_lt (by decide))

/-- What `read` returns from a stream that begins with a frame is this frame, which was not cut. -/
theorem read_writeFrame {t : Tag} {payload : Payload} {rest : List UInt8} {cut : Nat} {c : Cuts}
    {p : (Tag × List UInt8) × Cut} (h : read ⟨(Cpp.writeFrame t.code payload.bytes ++ rest).take cut, c⟩ = .ok p) :
    (8 + payload.bytes.length ≤ cut ∧ payload.bytes.length < 2 ^ 31 ∧
      4 ≤ c.size 0 ∧ 4 ≤ c.size 1 ∧ payload.bytes.length ≤ c.size 2) ∧
    p = ((t, payload.bytes), ⟨rest.take (cut - (8 + payload.bytes.length)), c.drop 3⟩) := by
  unfold read at h
  rw [Cpp.writeFrame, List.append_assoc, List.append_assoc] at h
  have hfour : ∀ n, ((LittleEndian.encode 4 n).length : Int) = 4 := fun n => by rw [LittleEndian.length_encode]; rfl
  obtain ⟨p₁, h₁, h⟩ := bind_eq_ok.mp h
  rw [← hfour payload.bytes.length] at h₁
  obtain ⟨hcut₁, hsize₁, rfl⟩ := readByteArray_append h₁
  obtain ⟨p₂, h₂, h⟩ := bind_eq_ok.mp h
  rw [← hfour t.code] at h₂
  obtain ⟨hcut₂, hsize₂, rfl⟩ := readByteArray_append h₂
  obtain ⟨tag, htag, h⟩ := bind_eq_ok.mp h
  rw [toInt_code, Tag.valueFrom_code] at htag
  cases htag
  obtain ⟨p₃, h₃, h⟩ := bind_eq_ok.mp h
  have hnonneg : 0 ≤ toInt (LittleEndian.encode 4 payload.bytes.length) := by
    by_contra hneg
    rw [readByteArray, if_pos (by omega)] at h₃
    cases h₃
  have hlt := lt_of_toInt_nonneg payload.size_lt hnonneg
  rw [toInt_encode_of_lt hlt] at h₃
  obtain ⟨hcut₃, hsize₃, rfl⟩ := readByteArray_append h₃
  cases h
  simp only [LittleEndian.length_encode, Cuts.size_drop, Cuts.drop_drop] at *
  refine ⟨⟨by omega, hlt, hsize₁, hsize₂, hsize₃⟩, ?_⟩
  rw [show cut - 4 - 4 - payload.bytes.length = cut - (8 + payload.bytes.length) by omega]

/-- At the end of the stream `read` throws. -/
theorem read_nil (c : Cuts) : ∃ e, read ⟨[], c⟩ = .error e := ⟨_, rfl⟩

/-! ## All frames -/

/-- A frame after the first is whole when it is in what the first leaves. -/
theorem WholeAt.succ {f : Tag × Payload} {frames : List (Tag × Payload)} {cut : Nat} {c : Cuts} {i : Nat}
    (hcut : 8 + f.2.bytes.length ≤ cut) (h : WholeAt frames (cut - (8 + f.2.bytes.length)) (c.drop 3) i) :
    WholeAt (f :: frames) cut c (i + 1) := by
  obtain ⟨g, hg, hwritten, hlt, h₁, h₂, h₃⟩ := h
  refine ⟨g, hg, ?_, hlt, h₁, h₂, h₃⟩
  rw [List.take_succ_cons, written, List.flatMap_cons, List.length_append, ← written]
  simp only [Cpp.writeFrame, List.length_append, LittleEndian.length_encode]
  omega

/-- Successive calls of `read` on what C++ wrote, cut off anywhere and read in any pieces, return frames from the first on, each of
them whole; and only an exception ends them. -/
theorem readAll_written (frames : List (Tag × Payload)) (cut : Nat) (c : Cuts) (n : Nat) :
    (readAll n ⟨(written frames).take cut, c⟩).1 <+: frames.map returned ∧
    (∀ i < (readAll n ⟨(written frames).take cut, c⟩).1.length, WholeAt frames cut c i) ∧
    ((readAll n ⟨(written frames).take cut, c⟩).1.length = n ∨ (readAll n ⟨(written frames).take cut, c⟩).2 ≠ none) := by
  induction n generalizing frames cut c with
  | zero => exact ⟨List.nil_prefix, fun i hi => absurd hi (Nat.not_lt_zero i), Or.inl rfl⟩
  | succ n ih =>
    cases hread : read ⟨(written frames).take cut, c⟩ with
    | error e =>
      simp only [readAll, hread]
      exact ⟨List.nil_prefix, fun i hi => absurd hi (Nat.not_lt_zero i), Or.inr (Option.some_ne_none e)⟩
    | ok p =>
      cases frames with
      | nil =>
        obtain ⟨e, he⟩ := read_nil c
        rw [written, List.flatMap_nil, List.take_nil, he] at hread
        cases hread
      | cons f frames =>
        have hframe := hread
        rw [written, List.flatMap_cons, ← written] at hframe
        obtain ⟨⟨hcut, hlt, h₁, h₂, h₃⟩, rfl⟩ := read_writeFrame hframe
        obtain ⟨hbegins, hwhole, hend⟩ := ih frames (cut - (8 + f.2.bytes.length)) (c.drop 3)
        simp only [readAll, hread]
        refine ⟨List.cons_prefix_cons.mpr ⟨rfl, hbegins⟩, ?_, ?_⟩
        · intro i hi
          cases i with
          | zero =>
            refine ⟨f, rfl, ?_, hlt, h₁, h₂, h₃⟩
            simp only [List.take_succ_cons, List.take_zero, written, List.flatMap_cons, List.flatMap_nil, List.append_nil,
              Cpp.writeFrame, List.length_append, LittleEndian.length_encode]
            omega
          | succ i => exact (hwhole i (Nat.lt_of_succ_lt_succ hi)).succ hcut
        · rw [List.length_cons]
          exact hend.imp_left (congrArg (· + 1))

end LibraryLink.Kotlin
