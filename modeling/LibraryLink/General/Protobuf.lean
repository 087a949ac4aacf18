import LibraryLink.General.LittleEndian

/-!
# The wire format of protobuf

A message as the list of its fields, and the bytes of one. What a program reads them with is its own.
-/

namespace Protobuf

/-- A number in groups of seven bits, the lowest first; the highest bit of a byte says that another one follows. -/
def varint (n : Nat) : List UInt8 := if n < 128 then [UInt8.ofNat n] else UInt8.ofNat (128 + n % 128) :: varint (n / 128)

theorem varint_of_lt {n : Nat} (h : n < 128) : varint n = [UInt8.ofNat n] := by
  rw [varint, if_pos h]

theorem varint_of_le {n : Nat} (h : 128 ≤ n) : varint n = UInt8.ofNat (128 + n % 128) :: varint (n / 128) := by
  rw [varint, if_neg (Nat.not_lt.mpr h)]

/-- A number takes a byte at least. -/
theorem length_varint_pos (n : Nat) : 0 < (varint n).length := by
  by_cases h : n < 128
  · simp [varint_of_lt h]
  · simp [varint_of_le (Nat.not_lt.mp h)]

/-- A number of so many groups takes no more bytes. -/
theorem length_varint_le {k n : Nat} (h : n < 128 ^ (k + 1)) : (varint n).length ≤ k + 1 := by
  induction k generalizing n with
  | zero => rw [varint_of_lt h, List.length_singleton]
  | succ k ih =>
    by_cases hn : n < 128
    · rw [varint_of_lt hn, List.length_singleton]
      omega
    · have hrest : n / 128 < 128 ^ (k + 1) := by
        rw [Nat.div_lt_iff_lt_mul (by decide), ← Nat.pow_succ]
        exact h
      rw [varint_of_le (Nat.le_of_not_lt hn), List.length_cons]
      exact Nat.succ_le_succ (ih hrest)

/-- What a field holds; groups are left out. -/
inductive Value where
  | varint (n : Nat)
  | fixed64 (n : Nat)
  | bytes (b : List UInt8)
  | fixed32 (n : Nat)

/-- The wire type of a value. -/
def Value.wireType : Value → Nat
  | .varint _ => 0
  | .fixed64 _ => 1
  | .bytes _ => 2
  | .fixed32 _ => 5

/-- The bytes of a value. -/
def Value.encode : Value → List UInt8
  | .varint n => Protobuf.varint n
  | .fixed64 n => LittleEndian.encode 8 n
  | .bytes b => Protobuf.varint b.length ++ b
  | .fixed32 n => LittleEndian.encode 4 n

/-- A field of a message. -/
structure Field where
  number : Nat
  value : Value

/-- The bytes of a field: its number and wire type, and the value. -/
def Field.encode (f : Field) : List UInt8 := varint (8 * f.number + f.value.wireType) ++ f.value.encode

/-- The bytes of a message. -/
def encode (fields : List Field) : List UInt8 := fields.flatMap Field.encode

@[simp] theorem encode_nil : encode [] = [] := rfl

@[simp] theorem encode_cons (f : Field) (fields : List Field) : encode (f :: fields) = f.encode ++ encode fields := rfl

theorem encode_append (fields fields' : List Field) : encode (fields ++ fields') = encode fields ++ encode fields' :=
  List.flatMap_append

/-- A field is longer than what it holds. -/
theorem Field.length_encode_bytes (number : Nat) (b : List UInt8) : b.length + 2 ≤ (Field.encode ⟨number, .bytes b⟩).length := by
  have hkey := length_varint_pos (8 * number + 2)
  have hlength := length_varint_pos b.length
  show _ ≤ (varint (8 * number + 2) ++ (varint b.length ++ b)).length
  rw [List.length_append, List.length_append]
  omega

/-- A field is at most five bytes longer than what it holds. -/
theorem Field.length_encode_bytes_le {number : Nat} (hnumber : number < 15) {b : List UInt8} (hb : b.length < 2 ^ 28) :
    (Field.encode ⟨number, .bytes b⟩).length ≤ b.length + 5 := by
  have hkey : (varint (8 * number + 2)).length ≤ 1 := length_varint_le (by omega)
  have hlength : (varint b.length).length ≤ 4 := length_varint_le hb
  show (varint (8 * number + 2) ++ (varint b.length ++ b)).length ≤ _
  rw [List.length_append, List.length_append]
  omega

/-- Fields of at most so many bytes. -/
theorem length_encode_le {fields : List Field} {n : Nat} (h : ∀ f ∈ fields, f.encode.length ≤ n) :
    (encode fields).length ≤ fields.length * n := by
  induction fields with
  | nil => simp
  | cons f fields ih =>
    obtain ⟨hf, hfields⟩ := List.forall_mem_cons.mp h
    have hrest := ih hfields
    rw [encode_cons, List.length_append, List.length_cons, Nat.succ_mul]
    omega

/-- Only a message without fields has no bytes. -/
theorem encode_eq_nil_iff {fields : List Field} : encode fields = [] ↔ fields = [] := by
  cases fields with
  | nil => simp
  | cons f fields =>
    have hkey := length_varint_pos (8 * f.number + f.value.wireType)
    have hne : varint (8 * f.number + f.value.wireType) ≠ [] := List.ne_nil_of_length_pos hkey
    simp [Field.encode, hne]

/-! ## Fields that are left out -/

/-- A string in UTF-8. -/
def utf8 (s : String) : List UInt8 := s.toList.flatMap String.utf8EncodeChar

/-- A string, left out if it is empty. -/
def stringField (number : Nat) (s : String) : List Field := if s = "" then [] else [⟨number, .bytes (utf8 s)⟩]

/-- A truth value, left out if it is false. -/
def boolField (number : Nat) (b : Bool) : List Field := if b then [⟨number, .varint 1⟩] else []

@[simp] theorem stringField_eq_nil_iff {number : Nat} {s : String} : stringField number s = [] ↔ s = "" := by
  simp [stringField]

@[simp] theorem boolField_eq_nil_iff {number : Nat} {b : Bool} : boolField number b = [] ↔ b = false := by
  simp [boolField]

@[simp] theorem utf8_eq_nil_iff {s : String} : utf8 s = [] ↔ s = "" := by
  unfold utf8
  rw [List.flatMap_eq_nil_iff]
  constructor
  · intro h
    refine String.toList_inj.mp (List.eq_nil_iff_forall_not_mem.mpr ?_)
    intro c hc
    exact String.utf8EncodeChar_ne_nil (h c hc)
  · rintro rfl
    simp

end Protobuf
