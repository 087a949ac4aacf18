import Mathlib.Data.List.Basic

/-!
# Sources of bytes that deliver in pieces

A read call on a stream socket gives some bytes of those asked for. `ByteSource` is what a reader may rely on: what a read
gives and what it leaves are the stream, it gives no more than was asked for, and it gives something while there is something.
Two sources: `Cut`, which fixes in advance how many bytes each call may give, and `Chunks`, the stream as it arrived in pieces.
-/

/-- A source of bytes: a read call and the bytes still to come, with what a reader may rely on. -/
class ByteSource (σ : Type) where
  /-- Ask for at most so many bytes. -/
  read : σ → Nat → List UInt8 × σ
  /-- The bytes not yet given. -/
  rest : σ → List UInt8
  rest_eq : ∀ s n, rest s = (read s n).1 ++ rest (read s n).2
  length_le : ∀ s n, (read s n).1.length ≤ n
  progress : ∀ s n, 0 < n → rest s ≠ [] → (read s n).1 ≠ []

namespace ByteSource

variable {σ : Type} [ByteSource σ]

/-- What a read gives is the beginning of the stream. -/
theorem read_fst (s : σ) (n : Nat) : (read s n).1 = (rest s).take (read s n).1.length := by
  conv_rhs => rw [rest_eq s n]
  simp

/-- What a read leaves is the remainder of the stream. -/
theorem rest_read (s : σ) (n : Nat) : rest (read s n).2 = (rest s).drop (read s n).1.length := by
  conv_rhs => rw [rest_eq s n]
  simp

/-- At the end of the stream a read gives nothing. -/
theorem read_nil {s : σ} (h : rest s = []) (n : Nat) : (read s n).1 = [] ∧ rest (read s n).2 = [] := by
  have := rest_eq s n
  rw [h] at this
  exact List.append_eq_nil_iff.mp this.symm

end ByteSource

/-! ## A source cut by a script of sizes -/

/-- The most bytes each successive read call may give, never none. -/
structure Cuts where
  size : Nat → Nat
  pos : ∀ i, 0 < size i

/-- The sizes left after the first `k` calls. -/
def Cuts.drop (c : Cuts) (k : Nat) : Cuts := ⟨fun i => c.size (i + k), fun i => c.pos (i + k)⟩

@[simp] theorem Cuts.size_drop (c : Cuts) (k i : Nat) : (c.drop k).size i = c.size (i + k) := rfl

@[simp] theorem Cuts.drop_drop (c : Cuts) (j k : Nat) : (c.drop j).drop k = c.drop (j + k) := by
  simp [Cuts.drop, Nat.add_comm, Nat.add_left_comm]

/-- The sizes of calls that never cut below `n` bytes. -/
def Cuts.const (n : Nat) (h : 0 < n) : Cuts := ⟨fun _ => n, fun _ => h⟩

/-- A stream and the sizes at which its read calls cut it. -/
structure Cut where
  bytes : List UInt8
  cuts : Cuts

namespace Cut

/-- A read call gives as many bytes as were asked for, as its size allows and as there are. -/
def read (s : Cut) (n : Nat) : List UInt8 × Cut :=
  (s.bytes.take (min n (s.cuts.size 0)), ⟨s.bytes.drop (min n (s.cuts.size 0)), s.cuts.drop 1⟩)

/-- A read call that gives all that was asked for: there are as many bytes, and its size allows them. -/
theorem length_read_eq_iff (s : Cut) (n : Nat) : (s.read n).1.length = n ↔ n ≤ s.bytes.length ∧ n ≤ s.cuts.size 0 := by
  simp only [read, List.length_take]
  omega

instance : ByteSource Cut where
  read := read
  rest s := s.bytes
  rest_eq s n := (List.take_append_drop _ _).symm
  length_le s n := by simp only [read, List.length_take]; omega
  progress s n hn h := by
    have := s.cuts.pos 0
    simp only [read, ne_eq, List.take_eq_nil_iff, h, or_false]
    omega

end Cut

/-! ## A source that arrives in chunks -/

/-- A stream as it arrives: one chunk after the other, none of them empty. -/
structure Chunks where
  chunks : List (List UInt8)
  nonempty : ∀ c ∈ chunks, c ≠ []

namespace Chunks

/-- The whole stream. -/
def bytes (s : Chunks) : List UInt8 := s.chunks.flatten

/-- A read call gives bytes of the first chunk only; the part of the chunk that was not asked for stays. -/
def read (s : Chunks) (n : Nat) : List UInt8 × Chunks :=
  match h : s.chunks with
  | [] => ([], s)
  | c :: cs =>
    if hn : n < c.length then
      (c.take n, ⟨c.drop n :: cs, fun d hd => by
        rcases List.mem_cons.mp hd with rfl | hd
        · simpa using hn
        · exact s.nonempty d (by simp [h, hd])⟩)
    else (c, ⟨cs, fun d hd => s.nonempty d (by simp [h, hd])⟩)

/-- What a read of a stream with a first chunk gives and leaves. -/
theorem read_cons {s : Chunks} {c : List UInt8} {cs : List (List UInt8)} (h : s.chunks = c :: cs) (n : Nat) :
    (s.read n).1 = c.take n ∧ (s.read n).2.bytes = c.drop n ++ cs.flatten := by
  unfold read
  split
  · simp_all
  · rename_i c' cs' h'
    obtain ⟨rfl, rfl⟩ := List.cons.inj (h.symm.trans h')
    split
    · simp [bytes]
    · rename_i hn
      have hn := Nat.not_lt.mp hn
      simp [bytes, List.take_of_length_le hn, List.drop_of_length_le hn]

instance : ByteSource Chunks where
  read := read
  rest := bytes
  rest_eq s n := by
    cases h : s.chunks with
    | nil => unfold read; split <;> simp_all
    | cons c cs =>
      obtain ⟨h1, h2⟩ := read_cons h n
      rw [h1, h2, ← List.append_assoc, List.take_append_drop, bytes, h, List.flatten_cons]
  length_le s n := by
    cases h : s.chunks with
    | nil => unfold read; split <;> simp_all
    | cons c cs =>
      rw [(read_cons h n).1, List.length_take]
      exact Nat.min_le_left _ _
  progress s n hn hs := by
    cases h : s.chunks with
    | nil => simp [bytes, h] at hs
    | cons c cs =>
      have := s.nonempty c (by simp [h])
      rw [(read_cons h n).1]
      simp only [ne_eq, List.take_eq_nil_iff, this, or_false]
      omega

end Chunks
