import LibraryLink.CppMessages
import Mathlib.Data.List.Forall2

/-!
# Helpers for `Theorems/CppMessages.lean`

For each message: its size is that of the bytes of its fields, its serialization is these bytes, and its parser takes them into a
message as `MergeFrom` takes the message itself.
-/

namespace LibraryLink.Cpp.Messages

open Protobuf (Field WireReader Absorbs Absorbs1 Padded varint boolField)

/-! ## Sizes -/

theorem length_varint_tag {number wire : Nat} (h : 8 * number + wire < 128) : (varint (8 * number + wire)).length = 1 := by
  rw [Protobuf.varint_of_lt h, List.length_singleton]

theorem le_lengthDelimitedSize (n : Nat) : n ≤ lengthDelimitedSize n := Nat.le_add_right _ _

/-- A field with a string or a message. -/
theorem length_encode_bytes {number : Nat} (hnumber : number < 16) {b : List UInt8} (hb : b.length < 2 ^ 31) :
    (Field.encode ⟨number, .bytes b⟩).length = 1 + lengthDelimitedSize b.length := by
  have hmod : b.length % 2 ^ 32 = b.length := Nat.mod_eq_of_lt (by omega)
  have htag : (varint (8 * number + 2)).length = 1 := length_varint_tag (by omega)
  simp only [Field.encode, Protobuf.Value.encode, Protobuf.Value.wireType, List.length_append, htag, lengthDelimitedSize, hmod]
  omega

theorem length_encode_fixed64 {number : Nat} (hnumber : number < 15) (n : Nat) :
    (Field.encode ⟨number, .fixed64 n⟩).length = 1 + 8 := by
  have htag : (varint (8 * number + 1)).length = 1 := length_varint_tag (by omega)
  simp only [Field.encode, Protobuf.Value.encode, Protobuf.Value.wireType, List.length_append, htag, LittleEndian.length_encode]

theorem length_bytesField {number : Nat} (hnumber : number < 16) {s : List UInt8} (hs : stringFieldSize s < 2 ^ 31) :
    (Protobuf.encode (bytesField number s)).length = stringFieldSize s := by
  unfold bytesField stringFieldSize at *
  split
  · rfl
  · rename_i hne
    rw [if_neg hne] at hs
    have hle := le_lengthDelimitedSize s.length
    simp [length_encode_bytes hnumber (show s.length < 2 ^ 31 by omega)]

theorem length_enumField {number : Nat} (hnumber : number < 16) (v : BitVec 32) :
    (Protobuf.encode (enumField number v)).length = enumFieldSize v := by
  have htag : (varint (8 * number + 0)).length = 1 := length_varint_tag (by omega)
  unfold enumField enumFieldSize
  split
  · rw [Protobuf.encode_cons, Protobuf.encode_nil, List.append_nil, Field.encode, List.length_append]
    exact congrArg (· + enumSize v) htag
  · rfl

/-- A field with a truth value. -/
theorem length_encode_bool {number : Nat} (hnumber : number < 16) (b : Bool) :
    (Field.encode ⟨number, .varint b.toNat⟩).length = 1 + 1 := by
  have htag : (varint (8 * number + 0)).length = 1 := length_varint_tag (by omega)
  have hone : (varint b.toNat).length = 1 := by
    rw [Protobuf.varint_of_lt (Nat.lt_trans b.toNat_lt (by decide)), List.length_singleton]
  simp only [Field.encode, Protobuf.Value.wireType, Protobuf.Value.encode, List.length_append, htag, hone]

theorem length_boolField {number : Nat} (hnumber : number < 16) (b : Bool) :
    (Protobuf.encode (boolField number b)).length = boolFieldSize b := by
  cases b with
  | false => rfl
  | true =>
    have h := length_encode_bool hnumber true
    simpa [boolField, boolFieldSize] using h

theorem Value.length_fields {m : Value} (h : m.byteSizeLong < 2 ^ 31) : (Protobuf.encode m.fields).length = m.byteSizeLong := by
  cases m with
  | notSet => rfl
  | stringValue s =>
    have hle := le_lengthDelimitedSize s.length
    simp only [byteSizeLong] at h
    simp [fields, byteSizeLong, length_encode_bytes (show 2 < 16 by decide) (show s.length < 2 ^ 31 by omega)]
  | intValue n => simp [fields, byteSizeLong, length_encode_fixed64]
  | uintValue n => simp [fields, byteSizeLong, length_encode_fixed64]

/-- Where the whole is below a bound, the message inside is. -/
theorem lt_of_inner {size : Nat} (h : 1 + lengthDelimitedSize size < 2 ^ 31) : size < 2 ^ 31 := by
  have hle := le_lengthDelimitedSize size
  omega

theorem Argument.length_fields {m : Argument} (h : m.byteSizeLong < 2 ^ 31) :
    (Protobuf.encode m.fields).length = m.byteSizeLong := by
  obtain ⟨type, value, key⟩ := m
  simp only [byteSizeLong] at h ⊢
  have hkey := length_bytesField (show 4 < 16 by decide) (show stringFieldSize key < 2 ^ 31 by omega)
  simp only [fields, Protobuf.encode_append, List.length_append, hkey, length_enumField (show 1 < 16 by decide)]
  cases value with
  | none => simp [Nat.add_comm]
  | some v =>
    simp only [Option.elim_some] at h
    have hlt : v.byteSizeLong < 2 ^ 31 := lt_of_inner (by omega)
    have hv := v.length_fields hlt
    have hfield := length_encode_bytes (show 3 < 16 by decide) (hv.symm ▸ hlt)
    rw [hv] at hfield
    simp only [Option.map_some, Option.toList_some, Protobuf.encode_cons, Protobuf.encode_nil, List.append_nil, hfield,
      Option.elim_some]
    omega

theorem argsSize_cons (a : Argument) (args : List Argument) :
    argsSize (a :: args) = 1 + lengthDelimitedSize a.byteSizeLong + argsSize args := by
  simp only [argsSize, List.length_cons, List.map_cons, List.sum_cons]
  omega

/-- The arguments of a message. -/
theorem length_args {number : Nat} (hnumber : number < 16) {args : List Argument} (h : argsSize args < 2 ^ 31) :
    (Protobuf.encode (args.map (Argument.field number))).length = argsSize args := by
  induction args with
  | nil => rfl
  | cons a args ih =>
    have hcons := argsSize_cons a args
    have hle := le_lengthDelimitedSize a.byteSizeLong
    have ha := a.length_fields (by omega)
    rw [List.map_cons, Protobuf.encode_cons, List.length_append, ih (by omega), hcons]
    simp only [Argument.field]
    rw [length_encode_bytes hnumber (by omega), ha]

theorem MethodCallRequest.length_fields {m : MethodCallRequest} (h : m.byteSizeLong < 2 ^ 31) :
    (Protobuf.encode m.fields).length = m.byteSizeLong := by
  unfold byteSizeLong at h
  have hargs := length_args (show 3 < 16 by decide) (show argsSize m.arg < 2 ^ 31 by omega)
  have hname := length_bytesField (show 1 < 16 by decide) (show stringFieldSize m.methodName < 2 ^ 31 by omega)
  have hid := length_bytesField (show 2 < 16 by decide) (show stringFieldSize m.objectId < 2 ^ 31 by omega)
  have htype := length_bytesField (show 8 < 16 by decide) (show stringFieldSize m.type < 2 ^ 31 by omega)
  simp only [fields, Protobuf.encode_append, List.length_append, hargs, hname, hid, htype,
    length_boolField (show 4 < 16 by decide), length_boolField (show 5 < 16 by decide), length_boolField (show 6 < 16 by decide),
    byteSizeLong]
  omega

theorem ImportRequest.length_fields {m : ImportRequest} (h : m.byteSizeLong < 2 ^ 31) :
    (Protobuf.encode m.fields).length = m.byteSizeLong :=
  length_bytesField (by decide) h

theorem ConstructorRequest.length_fields {m : ConstructorRequest} (h : m.byteSizeLong < 2 ^ 31) :
    (Protobuf.encode m.fields).length = m.byteSizeLong := by
  unfold byteSizeLong at h
  have hargs := length_args (show 2 < 16 by decide) (show argsSize m.arg < 2 ^ 31 by omega)
  have hname := length_bytesField (show 1 < 16 by decide) (show stringFieldSize m.className < 2 ^ 31 by omega)
  simp only [fields, Protobuf.encode_append, List.length_append, hargs, hname, byteSizeLong]
  omega

/-! ## Serialization -/

/-- A message is written as the field it is where the size it knows is that of its bytes. -/
theorem writeMessage_eq {number size : Nat} {bytes : List UInt8} (hsize : bytes.length = size) (hlt : size < 2 ^ 31) :
    writeMessage number size bytes = Field.encode ⟨number, .bytes bytes⟩ := by
  have hmod : size % 2 ^ 32 = bytes.length := by rw [hsize, Nat.mod_eq_of_lt (by omega)]
  rw [writeMessage, hmod]
  rfl

theorem writeStringField_eq (number : Nat) (s : List UInt8) :
    writeStringField number s = Protobuf.encode (bytesField number s) := by
  unfold writeStringField bytesField
  split
  · rfl
  · simp [writeString]

theorem writeBoolField_eq (number : Nat) (b : Bool) : writeBoolField number b = Protobuf.encode (boolField number b) := by
  cases b with
  | false => rfl
  | true => simp [writeBoolField, writeBool, boolField]

theorem Value.serialize_eq (m : Value) : m.serializeWithCachedSizes = Protobuf.encode m.fields := by
  cases m <;> simp [serializeWithCachedSizes, fields, writeString]

theorem writeEnumField_eq (number : Nat) (v : BitVec 32) : writeEnumField number v = Protobuf.encode (enumField number v) := by
  unfold writeEnumField enumField
  split
  · simp [writeEnum]
  · rfl

theorem Argument.serialize_eq {m : Argument} (h : m.byteSizeLong < 2 ^ 31) :
    m.serializeWithCachedSizes = Protobuf.encode m.fields := by
  obtain ⟨type, value, key⟩ := m
  simp only [byteSizeLong] at h
  simp only [serializeWithCachedSizes, fields, Protobuf.encode_append, writeEnumField_eq, writeStringField_eq]
  congr 2
  cases value with
  | none => rfl
  | some v =>
    simp only [Option.elim_some] at h
    have hlt : v.byteSizeLong < 2 ^ 31 := lt_of_inner (by omega)
    simp [v.serialize_eq, writeMessage_eq (v.length_fields hlt) hlt]

theorem writeArgs_eq {number : Nat} {args : List Argument} (h : argsSize args < 2 ^ 31) :
    writeArgs number args = Protobuf.encode (args.map (Argument.field number)) := by
  induction args with
  | nil => rfl
  | cons a args ih =>
    have hcons := argsSize_cons a args
    have hle := le_lengthDelimitedSize a.byteSizeLong
    have ha := a.length_fields (by omega)
    rw [List.map_cons, Protobuf.encode_cons, ← ih (by omega), writeArgs, List.flatMap_cons, a.serialize_eq (by omega),
      writeMessage_eq ha (by omega)]
    rfl

theorem MethodCallRequest.serialize_eq {m : MethodCallRequest} (h : m.byteSizeLong < 2 ^ 31) :
    m.serializeWithCachedSizes = Protobuf.encode m.fields := by
  unfold byteSizeLong at h
  simp only [serializeWithCachedSizes, fields, Protobuf.encode_append, writeStringField_eq, writeBoolField_eq,
    writeArgs_eq (show argsSize m.arg < 2 ^ 31 by omega)]

theorem ImportRequest.serialize_eq (m : ImportRequest) : m.serializeWithCachedSizes = Protobuf.encode m.fields :=
  writeStringField_eq 1 m.importedName

theorem ConstructorRequest.serialize_eq {m : ConstructorRequest} (h : m.byteSizeLong < 2 ^ 31) :
    m.serializeWithCachedSizes = Protobuf.encode m.fields := by
  unfold byteSizeLong at h
  simp only [serializeWithCachedSizes, fields, Protobuf.encode_append, writeStringField_eq,
    writeArgs_eq (show argsSize m.arg < 2 ^ 31 by omega)]

theorem RequestCase.length_field {c : RequestCase} (h : c.size < 2 ^ 31) : c.field.encode.length = c.size := by
  cases c with
  | methodCall r =>
    have hlt := lt_of_inner h
    have hr := r.length_fields hlt
    rw [field, length_encode_bytes (by decide) (hr.symm ▸ hlt), hr, size]
  | importation r =>
    have hlt := lt_of_inner h
    have hr := r.length_fields hlt
    rw [field, length_encode_bytes (by decide) (hr.symm ▸ hlt), hr, size]
  | constructor r =>
    have hlt := lt_of_inner h
    have hr := r.length_fields hlt
    rw [field, length_encode_bytes (by decide) (hr.symm ▸ hlt), hr, size]
  | eval b => exact length_encode_bool (by decide) b
  | dynamicInherit b => exact length_encode_bool (by decide) b

theorem RequestCase.serialize_eq {c : RequestCase} (h : c.size < 2 ^ 31) : c.serializeWithCachedSizes = c.field.encode := by
  cases c with
  | methodCall r =>
    have hlt := lt_of_inner h
    rw [serializeWithCachedSizes, r.serialize_eq hlt, writeMessage_eq (r.length_fields hlt) hlt, field]
  | importation r =>
    have hlt := lt_of_inner h
    rw [serializeWithCachedSizes, r.serialize_eq, writeMessage_eq (r.length_fields hlt) hlt, field]
  | constructor r =>
    have hlt := lt_of_inner h
    rw [serializeWithCachedSizes, r.serialize_eq hlt, writeMessage_eq (r.length_fields hlt) hlt, field]
  | eval b => rfl
  | dynamicInherit b => rfl

theorem Request.length_fields {m : Request} (h : m.byteSizeLong < 2 ^ 31) :
    (Protobuf.encode m.fields).length = m.byteSizeLong := by
  obtain ⟨request, assignedId⟩ := m
  simp only [byteSizeLong] at h ⊢
  have hid := length_bytesField (show 7 < 16 by decide) (show stringFieldSize assignedId < 2 ^ 31 by omega)
  simp only [fields, Protobuf.encode_append, List.length_append, hid]
  cases request with
  | none => simp
  | some c =>
    simp only [Option.elim_some] at h
    have hc := c.length_field (by omega)
    simp [hc, Nat.add_comm]

theorem Request.serialize_eq {m : Request} (h : m.byteSizeLong < 2 ^ 31) :
    m.serializeWithCachedSizes = Protobuf.encode m.fields := by
  obtain ⟨request, assignedId⟩ := m
  simp only [byteSizeLong] at h
  simp only [serializeWithCachedSizes, fields, Protobuf.encode_append, writeStringField_eq]
  congr 1
  cases request with
  | none => rfl
  | some c =>
    simp only [Option.elim_some] at h
    simp [c.serialize_eq (by omega)]

theorem Result.length_field {c : Result} (h : c.size < 2 ^ 31) : c.field.encode.length = c.size := by
  cases c with
  | returnValue v =>
    have hlt := lt_of_inner h
    have hv := v.length_fields hlt
    rw [field, length_encode_bytes (by decide) (hv.symm ▸ hlt), hv, size]
  | exceptionMessage s => exact length_encode_bytes (by decide) (lt_of_inner h)

theorem Result.serialize_eq {c : Result} (h : c.size < 2 ^ 31) : c.serializeWithCachedSizes = c.field.encode := by
  cases c with
  | returnValue v =>
    have hlt := lt_of_inner h
    rw [serializeWithCachedSizes, v.serialize_eq, writeMessage_eq (v.length_fields hlt) hlt, field]
  | exceptionMessage s => rfl

theorem ChannelResponse.length_fields {m : ChannelResponse} (h : m.byteSizeLong < 2 ^ 31) :
    (Protobuf.encode m.fields).length = m.byteSizeLong := by
  obtain ⟨result, assignedId⟩ := m
  simp only [byteSizeLong] at h ⊢
  have hid := length_bytesField (show 7 < 16 by decide) (show stringFieldSize assignedId < 2 ^ 31 by omega)
  simp only [fields, Protobuf.encode_append, List.length_append, hid]
  cases result with
  | none => simp
  | some c =>
    simp only [Option.elim_some] at h
    have hc := c.length_field (by omega)
    simp [hc, Nat.add_comm]

theorem ChannelResponse.serialize_eq {m : ChannelResponse} (h : m.byteSizeLong < 2 ^ 31) :
    m.serializeWithCachedSizes = Protobuf.encode m.fields := by
  obtain ⟨result, assignedId⟩ := m
  simp only [byteSizeLong] at h
  simp only [serializeWithCachedSizes, fields, Protobuf.encode_append, writeStringField_eq]
  congr 1
  cases result with
  | none => rfl
  | some c =>
    simp only [Option.elim_some] at h
    simp [c.serialize_eq (by omega)]

/-! ## Strings in UTF-8 -/

/-- Bytes that are a string in UTF-8. -/
def IsUtf8 (b : List UInt8) : Prop := ∃ s, b = Protobuf.utf8 s

theorem isUtf8_nil : IsUtf8 [] := ⟨"", rfl⟩

/-- The string of a value is in UTF-8. -/
def Value.Utf8 : Value → Prop
  | .stringValue s => IsUtf8 s
  | _ => True

/-- The strings of an argument are in UTF-8. -/
structure Argument.Utf8 (m : Argument) : Prop where
  value : ∀ v, m.value = some v → v.Utf8
  key : IsUtf8 m.key

/-- The strings of a method call are in UTF-8. -/
structure MethodCallRequest.Utf8 (m : MethodCallRequest) : Prop where
  methodName : IsUtf8 m.methodName
  objectId : IsUtf8 m.objectId
  type : IsUtf8 m.type
  arg : ∀ a ∈ m.arg, a.Utf8

/-- The strings of a constructor's request are in UTF-8. -/
structure ConstructorRequest.Utf8 (m : ConstructorRequest) : Prop where
  className : IsUtf8 m.className
  arg : ∀ a ∈ m.arg, a.Utf8

/-- The strings of a case of `oneof request` are in UTF-8. -/
def RequestCase.Utf8 : RequestCase → Prop
  | .methodCall r => r.Utf8
  | .importation r => IsUtf8 r.importedName
  | .constructor r => r.Utf8
  | _ => True

/-- The strings of a request are in UTF-8. -/
structure Request.Utf8 (m : Request) : Prop where
  request : ∀ c, m.request = some c → c.Utf8
  assignedId : IsUtf8 m.assignedId

/-- The strings of a case of `oneof result` are in UTF-8. -/
def Result.Utf8 : Result → Prop
  | .returnValue v => v.Utf8
  | .exceptionMessage s => IsUtf8 s

/-- The strings of a response are in UTF-8. -/
structure ChannelResponse.Utf8 (m : ChannelResponse) : Prop where
  result : ∀ c, m.result = some c → c.Utf8
  assignedId : IsUtf8 m.assignedId

/-! ## Parsing -/

theorem verifyUtf8 {w : WireReader} (hw : w.Lawful) {b : List UInt8} (h : IsUtf8 b) : w.verifyUtf8 b = true := by
  obtain ⟨s, rfl⟩ := h
  exact hw.utf8 s

section Fields

variable {w : WireReader} {M : Type} {cases : Nat → Option (Protobuf.Case M)} {number : Nat}

/-- A string field that may be left out. -/
theorem absorbs_bytesField (hw : w.Lawful) (hpos : 0 < number) (hlt : number < 16) {get : M → List UInt8}
    {set : M → List UInt8 → M} (hcase : cases number = some (Protobuf.stringCase w (8 * number + 2) get set)) {s : List UInt8}
    (hs : ∀ f ∈ bytesField number s, f.Fits) (hutf8 : IsUtf8 s) (m : M) (hset : set m (get m) = m) :
    Absorbs w cases (bytesField number s) m (set m (mergeString (get m) s)) := by
  unfold bytesField mergeString at *
  split
  · rw [hset]
    exact .nil m
  · rename_i hne
    rw [if_neg hne, List.forall_mem_singleton] at hs
    exact .single (Protobuf.absorbs1_string hw hpos hlt hcase hs.value (verifyUtf8 hw hutf8) m)

/-- A truth value of a `oneof`, which is there whatever it is. -/
theorem absorbs1_bool (hw : w.Lawful) (hpos : 0 < number) (hlt : number < 16) {clear : M → M} {set : M → Bool → M}
    (hcase : cases number = some (Protobuf.valueCase w.readBool (8 * number + 0) clear set)) (b : Bool) (m : M) :
    Absorbs1 w cases ⟨number, .varint b.toNat⟩ m (set (clear m) b) := by
  have hb : b.toNat < 2 ^ 64 := Nat.lt_trans b.toNat_lt (by decide)
  refine Protobuf.absorbs1_value hw (.varint b.toNat) hpos hlt hcase hb ?_ m
  intro rest
  have h := hw.bool b.toNat rest hb
  cases b <;> exact h

/-- A truth value that may be left out. -/
theorem absorbs_boolField (hw : w.Lawful) (hpos : 0 < number) (hlt : number < 16) (get : M → Bool) {set : M → Bool → M}
    (hcase : cases number = some (Protobuf.valueCase w.readBool (8 * number + 0) id set)) (b : Bool) (m : M)
    (hset : set m (get m) = m) : Absorbs w cases (boolField number b) m (set m (mergeBool (get m) b)) := by
  cases b with
  | false =>
    rw [mergeBool, if_neg Bool.false_ne_true, hset]
    exact .nil m
  | true => exact .single (absorbs1_bool hw hpos hlt hcase true m)

theorem ofNat_toNat_signExtend (v : BitVec 32) : BitVec.ofNat 32 (v.signExtend 64).toNat = v := by
  refine BitVec.eq_of_getLsbD_eq ?_
  intro i hi
  rw [BitVec.ofNat_toNat, BitVec.getLsbD_setWidth, BitVec.getLsbD_signExtend]
  simp [hi, show i < 64 by omega]

/-- An enumeration that may be left out. -/
theorem absorbs_enumField (hw : w.Lawful) (hpos : 0 < number) (hlt : number < 16) (get : M → BitVec 32)
    {set : M → BitVec 32 → M} (hcase : cases number = some (Protobuf.valueCase w.readEnum (8 * number + 0) id set)) (v : BitVec 32)
    (m : M) (hset : set m (get m) = m) : Absorbs w cases (enumField number v) m (set m (if v ≠ 0 then v else get m)) := by
  unfold enumField
  split
  · refine .single (Protobuf.absorbs1_value hw (.varint (v.signExtend 64).toNat) hpos hlt hcase (v.signExtend 64).isLt ?_ m)
    intro rest
    have h := hw.enum (v.signExtend 64).toNat rest (v.signExtend 64).isLt
    rw [ofNat_toNat_signExtend] at h
    exact h
  · rw [hset]
    exact .nil m

/-- A field with a message, whose parser absorbs the fields inside. -/
theorem absorbs1_messageField (hw : w.Lawful) (hpos : 0 < number) (hlt : number < 16) {N : Type} {get : M → N} {set : M → N → M}
    {inner : Nat → Option (Protobuf.Case N)}
    (hcase : cases number = some (Protobuf.messageCase w (8 * number + 2) get set (Protobuf.merge w inner))) {fields : List Field}
    (hfits : (messageField number fields).Fits) {m : M} {n' : N} (h : Absorbs w inner fields (get m) n') :
    Absorbs1 w cases (messageField number fields) m (set m n') :=
  Protobuf.absorbs1_message hw hpos hlt hcase hfits.value (h.merge hw)

end Fields

variable {w : WireReader}

@[simp] theorem Value.mergeFrom_notSet (m : Value) : Value.mergeFrom .notSet m = m := by
  cases m <;> rfl

@[simp] theorem mergeString_nil (s : List UInt8) : mergeString [] s = s := by
  unfold mergeString
  split
  · rename_i h
    exact h.symm
  · rfl

@[simp] theorem mergeBool_false (b : Bool) : mergeBool false b = b := by
  cases b <;> rfl

theorem Value.WrittenAs.absorbs (hw : w.Lawful) {m : Value} {fields : List Field} (h : m.WrittenAs w fields) (hutf8 : m.Utf8)
    (m₀ : Value) : Absorbs w (Value.cases w) fields m₀ (m₀.mergeFrom m) := by
  have hfits := Padded.content_fits h
  refine Padded.absorbs h hw ?_
  cases m with
  | notSet => exact .nil m₀
  | stringValue s =>
    have hs := (hfits _ List.mem_cons_self).value
    exact .single (Protobuf.absorbs1_string hw (by decide) (by decide) (show Value.cases w 2 = _ from rfl) hs
      (verifyUtf8 hw hutf8) m₀)
  | intValue n =>
    refine .single (Protobuf.absorbs1_value hw (.fixed64 n.toNat) (by decide) (by decide) (show Value.cases w 3 = _ from rfl)
      n.isLt ?_ m₀)
    intro rest
    have h := hw.sfixed64 n.toNat rest n.isLt
    rw [BitVec.ofNat_toNat, BitVec.setWidth_eq] at h
    exact h
  | uintValue n =>
    refine .single (Protobuf.absorbs1_value hw (.fixed64 n.toNat) (by decide) (by decide) (show Value.cases w 5 = _ from rfl)
      n.isLt ?_ m₀)
    intro rest
    have h := hw.fixed64 n.toNat rest n.isLt
    rw [BitVec.ofNat_toNat, BitVec.setWidth_eq] at h
    exact h

theorem Argument.WrittenAs.absorbs (hw : w.Lawful) {m : Argument} {fields : List Field} (h : m.WrittenAs w fields) (hutf8 : m.Utf8)
    (m₀ : Argument) : Absorbs w (Argument.cases w) fields m₀ (m₀.mergeFrom m) := by
  obtain ⟨type, value, key⟩ := m
  obtain ⟨inner, hinner, hpadded⟩ := h
  have hfits := hpadded.content_fits
  simp only [List.forall_mem_append] at hfits
  obtain ⟨⟨-, hvalue⟩, hkey⟩ := hfits
  refine hpadded.absorbs hw ?_
  have htype := absorbs_enumField hw (by decide) (by decide) Argument.type (show Argument.cases w 1 = _ from rfl) type m₀ rfl
  have hkey := absorbs_bytesField hw (by decide) (by decide) (show Argument.cases w 4 = _ from rfl) hkey hutf8.key
  cases hinner with
  | none => exact (htype.append (.nil _)).append (hkey _ rfl)
  | some hv =>
    rename_i v fields
    have hv := fun m : Argument => absorbs1_messageField hw (by decide) (by decide) (show Argument.cases w 3 = _ from rfl)
      (hvalue _ List.mem_cons_self) (hv.absorbs hw (hutf8.value v rfl) m.mutableValue)
    exact (htype.append (.single (hv _))).append (hkey _ rfl)

@[simp] theorem Argument.mergeFrom_default (m : Argument) : Argument.mergeFrom {} m = m := by
  obtain ⟨type, value, key⟩ := m
  have htype : (if type ≠ 0 then type else 0) = type := by
    split
    · rfl
    · rename_i h
      exact (not_not.mp h).symm
  cases value with
  | none => simpa [mergeFrom] using htype
  | some v => simpa [mergeFrom, mutableValue] using htype

/-- The arguments of a message. -/
theorem absorbs_args (hw : w.Lawful) {M : Type} {cases : Nat → Option (Protobuf.Case M)} {number : Nat} (hpos : 0 < number)
    (hlt : number < 16) {set : M → Argument → M}
    (hcase : cases number = some (Protobuf.messageCase w (8 * number + 2) (fun _ => {}) set (Protobuf.merge w (Argument.cases w))))
    {args : List Argument} {inner : List (List Field)} (h : List.Forall₂ (Argument.WrittenAs w) args inner)
    (hfits : ∀ f ∈ inner.map (messageField number), f.Fits) (hutf8 : ∀ a ∈ args, a.Utf8) (m : M) :
    Absorbs w cases (inner.map (messageField number)) m (args.foldl set m) := by
  induction h generalizing m with
  | nil => exact .nil m
  | @cons a fields args inner ha _ ih =>
    rw [List.map_cons, List.forall_mem_cons] at hfits
    obtain ⟨hutf8, hutf8s⟩ := List.forall_mem_cons.mp hutf8
    have habsorbs := ha.absorbs hw hutf8 {}
    rw [Argument.mergeFrom_default] at habsorbs
    exact .cons (absorbs1_messageField hw hpos hlt hcase hfits.1 habsorbs) (ih hfits.2 hutf8s _)

theorem MethodCallRequest.foldl_addArg (args : List Argument) (m : MethodCallRequest) :
    args.foldl (fun m a => { m with arg := m.arg ++ [a] }) m = { m with arg := m.arg ++ args } := by
  induction args generalizing m with
  | nil => simp
  | cons a args ih => simp [ih]

theorem MethodCallRequest.WrittenAs.absorbs (hw : w.Lawful) {m : MethodCallRequest} {fields : List Field}
    (h : m.WrittenAs w fields) (hutf8 : m.Utf8) (m₀ : MethodCallRequest) :
    Absorbs w (MethodCallRequest.cases w) fields m₀ (m₀.mergeFrom m) := by
  obtain ⟨inner, hinner, hpadded⟩ := h
  have hfits := hpadded.content_fits
  simp only [List.forall_mem_append] at hfits
  obtain ⟨⟨⟨⟨⟨⟨hname, hid⟩, hargs⟩, -⟩, -⟩, -⟩, htype⟩ := hfits
  refine hpadded.absorbs hw ?_
  have hname := absorbs_bytesField hw (by decide) (by decide) (show MethodCallRequest.cases w 1 = _ from rfl) hname hutf8.methodName
  have hid := absorbs_bytesField hw (by decide) (by decide) (show MethodCallRequest.cases w 2 = _ from rfl) hid hutf8.objectId
  have hargs := absorbs_args hw (by decide) (by decide) (show MethodCallRequest.cases w 3 = _ from rfl) hinner hargs hutf8.arg
  have hstatic := absorbs_boolField hw (by decide) (by decide) MethodCallRequest.static
    (show MethodCallRequest.cases w 4 = _ from rfl) m.static
  have hreturn := absorbs_boolField hw (by decide) (by decide) MethodCallRequest.doGetReturnValue
    (show MethodCallRequest.cases w 5 = _ from rfl) m.doGetReturnValue
  have hproperty := absorbs_boolField hw (by decide) (by decide) MethodCallRequest.property
    (show MethodCallRequest.cases w 6 = _ from rfl) m.property
  have htype := absorbs_bytesField hw (by decide) (by decide) (show MethodCallRequest.cases w 8 = _ from rfl) htype hutf8.type
  have h := ((((((hname m₀ rfl).append (hid _ rfl)).append (hargs _)).append (hstatic _ rfl)).append (hreturn _ rfl)).append
    (hproperty _ rfl)).append (htype _ rfl)
  rw [foldl_addArg] at h
  exact h

theorem ImportRequest.WrittenAs.absorbs (hw : w.Lawful) {m : ImportRequest} {fields : List Field} (h : m.WrittenAs w fields)
    (hutf8 : IsUtf8 m.importedName) (m₀ : ImportRequest) : Absorbs w (ImportRequest.cases w) fields m₀ (m₀.mergeFrom m) :=
  Padded.absorbs h hw (absorbs_bytesField hw (by decide) (by decide) (show ImportRequest.cases w 1 = _ from rfl)
    (Padded.content_fits h) hutf8 m₀ rfl)

theorem ConstructorRequest.foldl_addArg (args : List Argument) (m : ConstructorRequest) :
    args.foldl (fun m a => { m with arg := m.arg ++ [a] }) m = { m with arg := m.arg ++ args } := by
  induction args generalizing m with
  | nil => simp
  | cons a args ih => simp [ih]

theorem ConstructorRequest.WrittenAs.absorbs (hw : w.Lawful) {m : ConstructorRequest} {fields : List Field}
    (h : m.WrittenAs w fields) (hutf8 : m.Utf8) (m₀ : ConstructorRequest) :
    Absorbs w (ConstructorRequest.cases w) fields m₀ (m₀.mergeFrom m) := by
  obtain ⟨inner, hinner, hpadded⟩ := h
  have hfits := hpadded.content_fits
  simp only [List.forall_mem_append] at hfits
  refine hpadded.absorbs hw ?_
  have hname := absorbs_bytesField hw (by decide) (by decide) (show ConstructorRequest.cases w 1 = _ from rfl) hfits.1
    hutf8.className
  have hargs := absorbs_args hw (by decide) (by decide) (show ConstructorRequest.cases w 2 = _ from rfl) hinner hfits.2 hutf8.arg
  have h := (hname m₀ rfl).append (hargs _)
  rw [foldl_addArg] at h
  exact h

theorem RequestCase.WrittenAs.absorbs1 (hw : w.Lawful) {c : RequestCase} {f : Field} (h : c.WrittenAs w f) (hfits : f.Fits)
    (hutf8 : c.Utf8) (m₀ : Request) : Absorbs1 w (Request.cases w) f m₀ (m₀.mergeFrom { request := some c }) := by
  cases h with
  | methodCall h =>
    exact absorbs1_messageField hw (by decide) (by decide) (show Request.cases w 1 = _ from rfl) hfits (h.absorbs hw hutf8 _)
  | importation h =>
    exact absorbs1_messageField hw (by decide) (by decide) (show Request.cases w 2 = _ from rfl) hfits (h.absorbs hw hutf8 _)
  | constructor h =>
    exact absorbs1_messageField hw (by decide) (by decide) (show Request.cases w 3 = _ from rfl) hfits (h.absorbs hw hutf8 _)
  | eval b => exact absorbs1_bool hw (by decide) (by decide) (show Request.cases w 4 = _ from rfl) b m₀
  | dynamicInherit b => exact absorbs1_bool hw (by decide) (by decide) (show Request.cases w 5 = _ from rfl) b m₀

theorem Request.WrittenAs.absorbs (hw : w.Lawful) {m : Request} {fields : List Field} (h : m.WrittenAs w fields) (hutf8 : m.Utf8)
    (m₀ : Request) : Absorbs w (Request.cases w) fields m₀ (m₀.mergeFrom m) := by
  obtain ⟨request, assignedId⟩ := m
  obtain ⟨inner, hinner, hpadded⟩ := h
  have hfits := hpadded.content_fits
  simp only [List.forall_mem_append] at hfits
  refine hpadded.absorbs hw ?_
  have hid := absorbs_bytesField hw (by decide) (by decide) (show Request.cases w 7 = _ from rfl) hfits.2 hutf8.assignedId
  cases hinner with
  | none => exact (Absorbs.nil m₀).append (hid _ rfl)
  | some hc =>
    have h1 := hc.absorbs1 hw (hfits.1 _ List.mem_cons_self) (hutf8.request _ rfl) m₀
    exact (Absorbs.single h1).append (hid _ rfl)

theorem Result.WrittenAs.absorbs1 (hw : w.Lawful) {c : Result} {f : Field} (h : c.WrittenAs w f) (hfits : f.Fits) (hutf8 : c.Utf8)
    (m₀ : ChannelResponse) : Absorbs1 w (ChannelResponse.cases w) f m₀ (m₀.mergeFrom { result := some c }) := by
  cases h with
  | returnValue h =>
    exact absorbs1_messageField hw (by decide) (by decide) (show ChannelResponse.cases w 1 = _ from rfl) hfits (h.absorbs hw hutf8 _)
  | exceptionMessage s =>
    exact Protobuf.absorbs1_string hw (by decide) (by decide) (show ChannelResponse.cases w 3 = _ from rfl) hfits.value
      (verifyUtf8 hw hutf8) m₀

theorem ChannelResponse.WrittenAs.absorbs (hw : w.Lawful) {m : ChannelResponse} {fields : List Field} (h : m.WrittenAs w fields)
    (hutf8 : m.Utf8) (m₀ : ChannelResponse) : Absorbs w (ChannelResponse.cases w) fields m₀ (m₀.mergeFrom m) := by
  obtain ⟨result, assignedId⟩ := m
  obtain ⟨inner, hinner, hpadded⟩ := h
  have hfits := hpadded.content_fits
  simp only [List.forall_mem_append] at hfits
  refine hpadded.absorbs hw ?_
  have hid := absorbs_bytesField hw (by decide) (by decide) (show ChannelResponse.cases w 7 = _ from rfl) hfits.2 hutf8.assignedId
  cases hinner with
  | none => exact (Absorbs.nil m₀).append (hid _ rfl)
  | some hc =>
    have h1 := hc.absorbs1 hw (hfits.1 _ List.mem_cons_self) (hutf8.result _ rfl) m₀
    exact (Absorbs.single h1).append (hid _ rfl)

/-! ## The fields of a message itself -/

/-- A field that has a case and whose number fits; it fits where its bytes do. -/
structure Expected {M : Type} (cases : Nat → Option (Protobuf.Case M)) (f : Field) : Prop where
  known : Protobuf.known cases f = true
  pos : 0 < f.number
  lt : f.number < 16
  word : ∀ n, f.value = .varint n ∨ f.value = .fixed64 n → n < 2 ^ 64
  long : ∀ n, f.value ≠ .fixed32 n

/-- The bytes of a field are among those of the message. -/
theorem length_encode_le_of_mem {fields : List Field} {f : Field} (hf : f ∈ fields) :
    f.encode.length ≤ (Protobuf.encode fields).length := by
  obtain ⟨before, behind, rfl⟩ := List.append_of_mem hf
  rw [Protobuf.encode_append, Protobuf.encode_cons, List.length_append, List.length_append]
  omega

/-- Expected fields that take less than 2 GiB. -/
theorem padded_self {M : Type} {cases : Nat → Option (Protobuf.Case M)} {fields : List Field} (h : ∀ f ∈ fields, Expected cases f)
    (hlength : (Protobuf.encode fields).length < 2 ^ 31) : Padded cases fields fields := by
  refine Padded.self ?_ fun f hf => (h f hf).known
  intro f hf
  have hlt := (h f hf).lt
  refine ⟨(h f hf).pos, by omega, ?_⟩
  have hword := (h f hf).word
  have hle := length_encode_le_of_mem hf
  obtain ⟨number, value⟩ := f
  cases value with
  | varint n => exact hword n (.inl rfl)
  | fixed64 n => exact hword n (.inr rfl)
  | bytes b =>
    have hb := Protobuf.Field.length_encode_bytes number b
    show b.length < 2 ^ 31
    omega
  | fixed32 n => exact absurd rfl ((h _ hf).long n)

section Expected

variable {M : Type} {cases : Nat → Option (Protobuf.Case M)} {number : Nat}

theorem expected_bytes (hpos : 0 < number) (hlt : number < 16) (b : List UInt8)
    (hknown : Protobuf.known cases ⟨number, .bytes b⟩ = true) : Expected cases ⟨number, .bytes b⟩ :=
  ⟨hknown, hpos, hlt, fun _ h => (by rcases h with h | h <;> cases h), nofun⟩

theorem expected_varint (hpos : 0 < number) (hlt : number < 16) {n : Nat} (hn : n < 2 ^ 64)
    (hknown : Protobuf.known cases ⟨number, .varint n⟩ = true) : Expected cases ⟨number, .varint n⟩ :=
  ⟨hknown, hpos, hlt, fun m h => (by rcases h with h | h <;> cases h; exact hn), nofun⟩

theorem expected_fixed64 (hpos : 0 < number) (hlt : number < 16) {n : Nat} (hn : n < 2 ^ 64)
    (hknown : Protobuf.known cases ⟨number, .fixed64 n⟩ = true) : Expected cases ⟨number, .fixed64 n⟩ :=
  ⟨hknown, hpos, hlt, fun m h => (by rcases h with h | h <;> cases h; exact hn), nofun⟩

theorem expected_bytesField {s : List UInt8} (h : Expected cases ⟨number, .bytes s⟩) :
    ∀ f ∈ bytesField number s, Expected cases f := by
  unfold bytesField
  split
  · exact List.forall_mem_nil _
  · exact List.forall_mem_singleton.mpr h

theorem expected_boolField {b : Bool} (h : Expected cases ⟨number, .varint 1⟩) : ∀ f ∈ boolField number b, Expected cases f := by
  unfold boolField
  split
  · exact List.forall_mem_singleton.mpr h
  · exact List.forall_mem_nil _

end Expected

theorem Value.writtenAs (m : Value) (h : (Protobuf.encode m.fields).length < 2 ^ 31) : m.WrittenAs w m.fields := by
  refine padded_self ?_ h
  cases m with
  | notSet => exact List.forall_mem_nil _
  | stringValue s => exact List.forall_mem_singleton.mpr (expected_bytes (by decide) (by decide) s rfl)
  | intValue n => exact List.forall_mem_singleton.mpr (expected_fixed64 (by decide) (by decide) n.isLt rfl)
  | uintValue n => exact List.forall_mem_singleton.mpr (expected_fixed64 (by decide) (by decide) n.isLt rfl)

/-- A message inside a message has fewer bytes. -/
theorem length_of_messageField (number : Nat) {n : Nat} {inner content : List Field} (hmem : messageField number inner ∈ content)
    (h : (Protobuf.encode content).length < n) : (Protobuf.encode inner).length < n := by
  have hle := length_encode_le_of_mem hmem
  have hb := Protobuf.Field.length_encode_bytes number (Protobuf.encode inner)
  unfold messageField at hle
  omega

theorem Argument.writtenAs (m : Argument) (h : (Protobuf.encode m.fields).length < 2 ^ 31) : m.WrittenAs w m.fields := by
  obtain ⟨type, value, key⟩ := m
  have hcontent : fields ⟨type, value, key⟩ =
      enumField 1 type ++ ((value.map Value.fields).map (messageField 3)).toList ++ bytesField 4 key := by
    cases value <;> rfl
  refine ⟨value.map Value.fields, ?_, ?_⟩
  · cases value with
    | none => exact .none
    | some v =>
      have hmem : messageField 3 v.fields ∈ fields ⟨type, some v, key⟩ := by
        rw [hcontent]
        simp
      exact .some (v.writtenAs (length_of_messageField 3 hmem h))
  · rw [← hcontent]
    refine padded_self ?_ h
    rw [hcontent]
    simp only [List.forall_mem_append]
    refine ⟨⟨?_, ?_⟩, expected_bytesField (expected_bytes (by decide) (by decide) key rfl)⟩
    · unfold enumField
      split
      · exact List.forall_mem_singleton.mpr (expected_varint (by decide) (by decide) (type.signExtend 64).isLt rfl)
      · exact List.forall_mem_nil _
    · cases value with
      | none => exact List.forall_mem_nil _
      | some v => exact List.forall_mem_singleton.mpr (expected_bytes (by decide) (by decide) _ rfl)

/-- The arguments of a message. -/
theorem writtenAs_args (number : Nat) {args : List Argument} {content : List Field}
    (hmem : ∀ a ∈ args, a.field number ∈ content) (h : (Protobuf.encode content).length < 2 ^ 31) :
    List.Forall₂ (Argument.WrittenAs w) args (args.map Argument.fields) := by
  refine List.forall₂_map_right_iff.mpr (List.forall₂_same.mpr ?_)
  intro a ha
  exact a.writtenAs (length_of_messageField number (hmem a ha) h)

theorem expected_args {M : Type} {cases : Nat → Option (Protobuf.Case M)} {number : Nat} (hpos : 0 < number) (hlt : number < 16)
    (hknown : ∀ b, Protobuf.known cases ⟨number, .bytes b⟩ = true) (args : List Argument) :
    ∀ f ∈ args.map (Argument.field number), Expected cases f := by
  refine List.forall_mem_map.mpr ?_
  intro a _
  exact expected_bytes hpos hlt _ (hknown _)

theorem MethodCallRequest.writtenAs (m : MethodCallRequest) (h : (Protobuf.encode m.fields).length < 2 ^ 31) :
    m.WrittenAs w m.fields := by
  refine ⟨m.arg.map Argument.fields, writtenAs_args 3 ?_ h, ?_⟩
  · intro a ha
    simp only [fields, List.mem_append]
    have := List.mem_map_of_mem (f := Argument.field 3) ha
    tauto
  · rw [List.map_map]
    refine padded_self ?_ h
    simp only [List.forall_mem_append]
    exact ⟨⟨⟨⟨⟨⟨expected_bytesField (expected_bytes (by decide) (by decide) _ rfl),
      expected_bytesField (expected_bytes (by decide) (by decide) _ rfl)⟩,
      expected_args (by decide) (by decide) (fun _ => rfl) m.arg⟩,
      expected_boolField (expected_varint (by decide) (by decide) (by decide) rfl)⟩,
      expected_boolField (expected_varint (by decide) (by decide) (by decide) rfl)⟩,
      expected_boolField (expected_varint (by decide) (by decide) (by decide) rfl)⟩,
      expected_bytesField (expected_bytes (by decide) (by decide) _ rfl)⟩

theorem ImportRequest.writtenAs (m : ImportRequest) (h : (Protobuf.encode m.fields).length < 2 ^ 31) : m.WrittenAs w m.fields :=
  padded_self (expected_bytesField (expected_bytes (by decide) (by decide) _ rfl)) h

theorem ConstructorRequest.writtenAs (m : ConstructorRequest) (h : (Protobuf.encode m.fields).length < 2 ^ 31) :
    m.WrittenAs w m.fields := by
  refine ⟨m.arg.map Argument.fields, writtenAs_args 2 ?_ h, ?_⟩
  · intro a ha
    simp only [fields, List.mem_append]
    exact .inr (List.mem_map_of_mem ha)
  · rw [List.map_map]
    refine padded_self ?_ h
    simp only [List.forall_mem_append]
    exact ⟨expected_bytesField (expected_bytes (by decide) (by decide) _ rfl),
      expected_args (by decide) (by decide) (fun _ => rfl) m.arg⟩

theorem RequestCase.writtenAs (c : RequestCase) (h : c.field.encode.length < 2 ^ 31) : c.WrittenAs w c.field := by
  have hinner : ∀ {number : Nat} {inner : List Field}, c.field = messageField number inner →
      (Protobuf.encode inner).length < 2 ^ 31 := by
    intro number inner hc
    rw [hc] at h
    refine length_of_messageField number (List.mem_singleton_self _) ?_
    rw [Protobuf.encode_cons, Protobuf.encode_nil, List.append_nil]
    exact h
  cases c with
  | methodCall r => exact .methodCall (r.writtenAs (hinner rfl))
  | importation r => exact .importation (r.writtenAs (hinner rfl))
  | constructor r => exact .constructor (r.writtenAs (hinner rfl))
  | eval b => exact .eval b
  | dynamicInherit b => exact .dynamicInherit b

theorem RequestCase.expected_field (c : RequestCase) : Expected (Request.cases w) c.field := by
  have hbool : ∀ b : Bool, b.toNat < 2 ^ 64 := fun b => Nat.lt_trans b.toNat_lt (by decide)
  cases c with
  | methodCall r => exact expected_bytes (by decide) (by decide) _ rfl
  | importation r => exact expected_bytes (by decide) (by decide) _ rfl
  | constructor r => exact expected_bytes (by decide) (by decide) _ rfl
  | eval b => exact expected_varint (by decide) (by decide) (hbool b) rfl
  | dynamicInherit b => exact expected_varint (by decide) (by decide) (hbool b) rfl

theorem Request.writtenAs (m : Request) (h : (Protobuf.encode m.fields).length < 2 ^ 31) : m.WrittenAs w m.fields := by
  obtain ⟨request, assignedId⟩ := m
  have hid : ∀ f ∈ bytesField 7 assignedId, Expected (Request.cases w) f :=
    expected_bytesField (expected_bytes (by decide) (by decide) _ rfl)
  refine ⟨request.map RequestCase.field, ?_, padded_self (List.forall_mem_append.mpr ⟨?_, hid⟩) h⟩
  · cases request with
    | none => exact .none
    | some c =>
      have hle := length_encode_le_of_mem (show c.field ∈ fields ⟨some c, assignedId⟩ from List.mem_cons_self)
      exact .some (c.writtenAs (Nat.lt_of_le_of_lt hle h))
  · cases request with
    | none => exact List.forall_mem_nil _
    | some c => exact List.forall_mem_singleton.mpr c.expected_field

theorem Result.writtenAs (c : Result) (h : c.field.encode.length < 2 ^ 31) : c.WrittenAs w c.field := by
  cases c with
  | returnValue v =>
    refine .returnValue (v.writtenAs (length_of_messageField 1 (List.mem_singleton_self (messageField 1 v.fields)) ?_))
    rw [Protobuf.encode_cons, Protobuf.encode_nil, List.append_nil]
    exact h
  | exceptionMessage s => exact .exceptionMessage s

theorem Result.expected_field (c : Result) : Expected (ChannelResponse.cases w) c.field := by
  cases c with
  | returnValue v => exact expected_bytes (by decide) (by decide) _ rfl
  | exceptionMessage s => exact expected_bytes (by decide) (by decide) _ rfl

theorem ChannelResponse.writtenAs (m : ChannelResponse) (h : (Protobuf.encode m.fields).length < 2 ^ 31) :
    m.WrittenAs w m.fields := by
  obtain ⟨result, assignedId⟩ := m
  have hid : ∀ f ∈ bytesField 7 assignedId, Expected (ChannelResponse.cases w) f :=
    expected_bytesField (expected_bytes (by decide) (by decide) _ rfl)
  refine ⟨result.map Result.field, ?_, padded_self (List.forall_mem_append.mpr ⟨?_, hid⟩) h⟩
  · cases result with
    | none => exact .none
    | some c =>
      have hle := length_encode_le_of_mem (show c.field ∈ fields ⟨some c, assignedId⟩ from List.mem_cons_self)
      exact .some (c.writtenAs (Nat.lt_of_le_of_lt hle h))
  · cases result with
    | none => exact List.forall_mem_nil _
    | some c => exact List.forall_mem_singleton.mpr c.expected_field

/-! ## Messages that fit -/

/-- A request of less than 2 GiB whose strings are in UTF-8. -/
structure Request.Sound (m : Request) : Prop where
  utf8 : m.Utf8
  size : m.byteSizeLong < 2 ^ 31

/-- A response of less than 2 GiB whose strings are in UTF-8. -/
structure ChannelResponse.Sound (m : ChannelResponse) : Prop where
  utf8 : m.Utf8
  size : m.byteSizeLong < 2 ^ 31

theorem Request.Sound.absorbs (hw : w.Lawful) {m : Request} (h : m.Sound) (m₀ : Request) :
    Absorbs w (Request.cases w) m.fields m₀ (m₀.mergeFrom m) := by
  have hsize := h.size
  rw [← m.length_fields h.size] at hsize
  exact (m.writtenAs hsize).absorbs hw h.utf8 m₀

theorem ChannelResponse.Sound.absorbs (hw : w.Lawful) {m : ChannelResponse} (h : m.Sound) (m₀ : ChannelResponse) :
    Absorbs w (ChannelResponse.cases w) m.fields m₀ (m₀.mergeFrom m) := by
  have hsize := h.size
  rw [← m.length_fields h.size] at hsize
  exact (m.writtenAs hsize).absorbs hw h.utf8 m₀

/-! ## Copies -/

@[simp] theorem MethodCallRequest.mergeFrom_default (m : MethodCallRequest) : MethodCallRequest.mergeFrom {} m = m := by
  simp [mergeFrom]

@[simp] theorem ImportRequest.mergeFrom_default (m : ImportRequest) : ImportRequest.mergeFrom {} m = m := by
  simp [mergeFrom]

@[simp] theorem ConstructorRequest.mergeFrom_default (m : ConstructorRequest) : ConstructorRequest.mergeFrom {} m = m := by
  simp [mergeFrom]

@[simp] theorem Request.mergeFrom_default (m : Request) : Request.mergeFrom {} m = m := by
  obtain ⟨request, assignedId⟩ := m
  rcases request with _ | c
  · simp [mergeFrom]
  · cases c <;> simp [mergeFrom, mutableMethodCall, mutableImportation, mutableConstructor]

@[simp] theorem ChannelResponse.mergeFrom_default (m : ChannelResponse) : ChannelResponse.mergeFrom {} m = m := by
  obtain ⟨result, assignedId⟩ := m
  rcases result with _ | c
  · simp [mergeFrom]
  · cases c <;> simp [mergeFrom, mutableReturnValue]

end LibraryLink.Cpp.Messages
