import Mathlib.Data.List.Basic

/-!
# Writing into a slice

A slice has its length from the start. A writer has the slice and an index into it, writes from there on, and moves the index; it fails
where the index is out of range. What writers write, one after the other, is what they write alone.
-/

namespace SliceWriter

/-- A slice, and the index at which it is written next. -/
structure Cursor where
  data : List UInt8
  i : Nat
  deriving DecidableEq, Repr

/-- `data[i] = b; i++` -/
def Cursor.put (b : UInt8) (c : Cursor) : Option Cursor := if c.i < c.data.length then some ⟨c.data.set c.i b, c.i + 1⟩ else none

/-- `i += copy(data[i:], src)`, which copies what there is room for. -/
def Cursor.copy (src : List UInt8) (c : Cursor) : Option Cursor :=
  if c.i ≤ c.data.length then
    let n := min (c.data.length - c.i) src.length
    some ⟨c.data.take c.i ++ src.take n ++ c.data.drop (c.i + n), c.i + n⟩
  else none

/-- `n := f(data[i:]); i += n`, for a function that writes the slice it is given. -/
def Cursor.slice (f : List UInt8 → Option (List UInt8 × Nat)) (c : Cursor) : Option Cursor :=
  if c.i ≤ c.data.length then (f (c.data.drop c.i)).map fun out => ⟨c.data.take c.i ++ out.1, c.i + out.2⟩ else none

/-- A writer, if a condition holds. -/
def Cursor.when (p : Prop) [Decidable p] (f : Cursor → Option Cursor) (c : Cursor) : Option Cursor := if p then f c else some c

/-- A writer from the start of a slice: the slice afterwards, and the index. -/
def run (f : Cursor → Option Cursor) (data : List UInt8) : Option (List UInt8 × Nat) := (f ⟨data, 0⟩).map fun c => (c.data, c.i)

/-- A writer writes these bytes, where there is room for them, and nothing else. -/
def Writes (f : Cursor → Option Cursor) (b : List UInt8) : Prop :=
  ∀ front room back : List UInt8, room.length = b.length →
    f ⟨front ++ (room ++ back), front.length⟩ = some ⟨front ++ (b ++ back), front.length + b.length⟩

/-- A function writes these bytes at the start of a slice. -/
def Fills (f : List UInt8 → Option (List UInt8 × Nat)) (b : List UInt8) : Prop :=
  ∀ room back : List UInt8, room.length = b.length → f (room ++ back) = some (b ++ back, b.length)

theorem writes_some : Writes some [] := by
  intro front room back hroom
  obtain rfl := List.eq_nil_of_length_eq_zero hroom
  rfl

theorem writes_put (b : UInt8) : Writes (Cursor.put b) [b] := by
  intro front room back hroom
  obtain ⟨r, rfl⟩ := List.length_eq_one_iff.mp hroom
  simp [Cursor.put]

theorem writes_copy (src : List UInt8) : Writes (Cursor.copy src) src := by
  intro front room back hroom
  simp [Cursor.copy, List.drop_append, hroom]

/-- One writer after the other. -/
theorem Writes.bind {f g : Cursor → Option Cursor} {a b : List UInt8} (hf : Writes f a) (hg : Writes g b) :
    Writes (fun c => f c >>= g) (a ++ b) := by
  intro front room back hroom
  have hlength : (room.take a.length).length = a.length ∧ (room.drop a.length).length = b.length := by
    rw [List.length_append] at hroom
    rw [List.length_take, List.length_drop]
    omega
  have hfirst := hf front (room.take a.length) (room.drop a.length ++ back) hlength.1
  have hsecond := hg (front ++ a) (room.drop a.length) back hlength.2
  rw [← List.append_assoc (room.take a.length), List.take_append_drop] at hfirst
  rw [List.append_assoc, List.length_append] at hsecond
  simp only [hfirst, Option.bind_eq_bind, Option.bind_some, hsecond]
  simp [Nat.add_assoc]

theorem Writes.when {p : Prop} [Decidable p] {f : Cursor → Option Cursor} {b : List UInt8} (hf : p → Writes f b) :
    Writes (Cursor.when p f) (if p then b else []) := by
  unfold Cursor.when
  split
  · exact hf ‹p›
  · exact writes_some

/-- A writer for each element of a list. -/
theorem writes_foldlM {α : Type*} {f : α → Cursor → Option Cursor} {b : α → List UInt8} {l : List α}
    (h : ∀ x ∈ l, Writes (f x) (b x)) : Writes (fun c => l.foldlM (fun c x => f x c) c) (l.flatMap b) := by
  induction l with
  | nil => exact writes_some
  | cons x l ih =>
    obtain ⟨hx, hl⟩ := List.forall_mem_cons.mp h
    simp only [List.foldlM_cons, List.flatMap_cons]
    exact hx.bind (ih hl)

theorem Writes.run {f : Cursor → Option Cursor} {b : List UInt8} (hf : Writes f b) : Fills (run f) b := by
  intro room back hroom
  have h := hf [] room back hroom
  simp only [List.nil_append, List.length_nil, Nat.zero_add] at h
  simp [SliceWriter.run, h]

theorem Fills.slice {f : List UInt8 → Option (List UInt8 × Nat)} {b : List UInt8} (hf : Fills f b) : Writes (Cursor.slice f) b := by
  intro front room back hroom
  simp [Cursor.slice, hf room back hroom]

/-- A slice of the right length is written whole. -/
theorem Fills.eq {f : List UInt8 → Option (List UInt8 × Nat)} {b room : List UInt8} (hf : Fills f b) (hroom : room.length = b.length) :
    f room = some (b, b.length) := by
  have h := hf room [] hroom
  rwa [List.append_nil, List.append_nil] at h

end SliceWriter
