import LibraryLink.GoHandler
import LibraryLink.GoMarshal
import LibraryLink.Lemmas.SkipExchange
import LibraryLink.Theorems.GoMessages
import Mathlib.Algebra.Order.BigOperators.Group.List

/-!
# What the Go receiver marshals, it unmarshals

`Size` counts the bytes that `MarshalTo` writes, so that no write is behind the end of the slice, and `Unmarshal` reads the message
back.
-/

namespace LibraryLink.Go

open Protobuf (Field encode encode_append varint)
open SliceWriter
open Outcome

/-! ## Numbers and fields -/

theorem writes_encodeVarintExchange (v : Nat) : Writes (encodeVarintExchange v) (varint v) := by
  induction v using Protobuf.varint.induct with
  | case1 v hv =>
    have hwriter : encodeVarintExchange v = Cursor.put (UInt8.ofNat v) := by
      funext c
      rw [encodeVarintExchange, if_neg (by omega)]
    rw [hwriter, Protobuf.varint_of_lt hv]
    exact writes_put _
  | case2 v hv ih =>
    have hwriter : encodeVarintExchange v = fun c => c.put (UInt8.ofNat (128 + v % 128)) >>= encodeVarintExchange (v / 128) := by
      funext c
      rw [encodeVarintExchange, if_pos (by omega), Nat.add_comm]
    rw [hwriter, Protobuf.varint_of_le (by omega)]
    exact (writes_put _).bind ih

theorem length_varint (v : Nat) : (varint v).length = sovExchange v := by
  induction v using Protobuf.varint.induct with
  | case1 v hv => rw [Protobuf.varint_of_lt hv, sovExchange, if_pos (by omega), List.length_singleton]
  | case2 v hv ih => rw [Protobuf.varint_of_le (by omega), sovExchange, if_neg (by omega), List.length_cons, ih, Nat.add_comm]

theorem writes_marshalString {number : Nat} {tag : UInt8} (htag : varint (8 * number + 2) = [tag]) (s : List UInt8) :
    Writes (marshalString tag s) (Field.encode ⟨number, .bytes s⟩) := by
  have hencode : Field.encode ⟨number, .bytes s⟩ = [tag] ++ (varint s.length ++ s) := congrArg (· ++ (varint s.length ++ s)) htag
  rw [hencode]
  exact (writes_put tag).bind ((writes_encodeVarintExchange s.length).bind (writes_copy s))

theorem writes_marshalVarint {number : Nat} {tag : UInt8} (htag : varint (8 * number) = [tag]) (n : Int) :
    Writes (marshalVarint tag n) (Field.encode ⟨number, .varint (uint64OfInt32 n)⟩) := by
  have hencode : Field.encode ⟨number, .varint (uint64OfInt32 n)⟩ = [tag] ++ varint (uint64OfInt32 n) :=
    congrArg (· ++ varint (uint64OfInt32 n)) htag
  rw [hencode]
  exact (writes_put tag).bind (writes_encodeVarintExchange (uint64OfInt32 n))

theorem writes_marshalBool {number : Nat} {tag : UInt8} (htag : varint (8 * number) = [tag]) (b : Bool) :
    Writes (marshalBool tag b) (Field.encode ⟨number, .varint b.toNat⟩) := by
  have hencode : Field.encode ⟨number, .varint b.toNat⟩ = [tag] ++ [if b then 1 else 0] := by
    have hvalue : varint b.toNat = [if b then 1 else 0] := by cases b <;> exact Protobuf.varint_of_lt (by decide)
    rw [← hvalue]
    exact congrArg (· ++ varint b.toNat) htag
  rw [hencode]
  exact (writes_put tag).bind (writes_put _)

theorem length_string {number : Nat} {tag : UInt8} (htag : varint (8 * number + 2) = [tag]) (s : List UInt8) :
    (Field.encode ⟨number, .bytes s⟩).length = sizeString s := by
  have hencode : Field.encode ⟨number, .bytes s⟩ = [tag] ++ (varint s.length ++ s) := congrArg (· ++ (varint s.length ++ s)) htag
  rw [hencode, sizeString, List.length_append, List.length_append, length_varint, List.length_singleton]
  omega

theorem length_varintField {number : Nat} {tag : UInt8} (htag : varint (8 * number) = [tag]) (n : Nat) :
    (Field.encode ⟨number, .varint n⟩).length = 1 + sovExchange n := by
  have hencode : Field.encode ⟨number, .varint n⟩ = [tag] ++ varint n := congrArg (· ++ varint n) htag
  rw [hencode, List.length_append, length_varint, List.length_singleton]

/-! ## Messages as fields -/

/-- A field that is there if a string is not empty. -/
def stringFields (number : Nat) (s : List UInt8) : List Field := if 0 < s.length then [⟨number, .bytes s⟩] else []

/-- A field that is there if a flag is set. -/
def boolFields (number : Nat) (b : Bool) : List Field := if b = true then [⟨number, .varint b.toNat⟩] else []

def ArgumentValue.field : ArgumentValue → Field
  | .stringValue s => ⟨2, .bytes s⟩
  | .intValue n => ⟨3, .varint (uint64OfInt32 n)⟩

def RawArgument.written (m : RawArgument) : List Field :=
  (if m.type ≠ 0 then [⟨1, .varint (uint64OfInt32 m.type)⟩] else []) ++
    ((m.value.map ArgumentValue.field).toList ++ stringFields 4 m.key)

/-- The bytes of an argument: the fields, and those that were not known. -/
def RawArgument.bytes (m : RawArgument) : List UInt8 := encode m.written ++ m.unrecognized

def MethodCallRequest.written (m : MethodCallRequest) : List Field :=
  stringFields 1 m.methodName ++ (stringFields 2 m.objectID ++ (m.args.map (fun msg => ⟨3, .bytes msg.bytes⟩) ++
    (boolFields 4 m.static ++ (boolFields 5 m.doGetReturnValue ++ (boolFields 6 m.property ++ stringFields 7 m.assignedID)))))

def MethodCallRequest.bytes (m : MethodCallRequest) : List UInt8 := encode m.written ++ m.unrecognized

def ImportRequest.bytes (m : ImportRequest) : List UInt8 := encode (stringFields 1 m.importedName) ++ m.unrecognized

def ReturnValue.field : ReturnValue → Field
  | .returnValueString s => ⟨1, .bytes s⟩
  | .returnValueInt n => ⟨2, .varint (uint64OfInt32 n)⟩
  | .exceptionMessage s => ⟨3, .bytes s⟩
  | .noReturnValue b => ⟨4, .varint b.toNat⟩

def ChannelResponse.bytes (m : ChannelResponse) : List UInt8 :=
  encode (m.returnValue.map ReturnValue.field).toList ++ m.unrecognized

/-- A message whose bytes are written by its `MarshalTo`, and counted by its `Size`. -/
structure Marshals (size : Nat) (marshalTo : List UInt8 → Option (List UInt8 × Nat)) (bytes : List UInt8) : Prop where
  fills : Fills marshalTo bytes
  size : size = bytes.length

theorem Marshals.marshal_eq {size : Nat} {marshalTo : List UInt8 → Option (List UInt8 × Nat)} {bytes : List UInt8}
    (h : Marshals size marshalTo bytes) : marshal size marshalTo = some bytes := by
  have hroom : (List.replicate size (0 : UInt8)).length = bytes.length := by rw [List.length_replicate, h.size]
  simp [marshal, h.fills.eq hroom]

theorem writes_marshalUnrecognized (unrecognized : List UInt8) : Writes (marshalUnrecognized unrecognized) unrecognized := by
  have h := Writes.when (p := 0 < unrecognized.length) fun _ => writes_copy unrecognized
  split at h
  · exact h
  · rw [List.eq_nil_of_length_eq_zero (by omega : unrecognized.length = 0)] at h ⊢
    exact h

theorem writes_stringFields {number : Nat} {tag : UInt8} (htag : varint (8 * number + 2) = [tag]) (s : List UInt8) :
    Writes (Cursor.when (0 < s.length) (marshalString tag s)) (encode (stringFields number s)) := by
  have h := Writes.when (p := 0 < s.length) fun _ => writes_marshalString htag s
  unfold stringFields
  split at h
  · rw [if_pos ‹_›, Protobuf.encode_cons, Protobuf.encode_nil, List.append_nil]
    exact h
  · rw [if_neg ‹_›]
    exact h

theorem writes_boolFields {number : Nat} {tag : UInt8} (htag : varint (8 * number) = [tag]) (b : Bool) :
    Writes (Cursor.when (b = true) (marshalBool tag b)) (encode (boolFields number b)) := by
  have h := Writes.when (p := b = true) fun _ => writes_marshalBool htag b
  unfold boolFields
  split at h
  · rw [if_pos ‹_›, Protobuf.encode_cons, Protobuf.encode_nil, List.append_nil]
    exact h
  · rw [if_neg ‹_›]
    exact h

theorem length_stringFields {number : Nat} {tag : UInt8} (htag : varint (8 * number + 2) = [tag]) (s : List UInt8) :
    (encode (stringFields number s)).length = if 0 < s.length then sizeString s else 0 := by
  unfold stringFields
  split
  · rw [Protobuf.encode_cons, Protobuf.encode_nil, List.append_nil, length_string htag]
  · rfl

theorem length_boolFields {number : Nat} {tag : UInt8} (htag : varint (8 * number) = [tag]) (b : Bool) :
    (encode (boolFields number b)).length = if b then 2 else 0 := by
  cases b
  · rfl
  · have hone : sovExchange 1 = 1 := by rw [sovExchange, if_pos rfl]
    rw [boolFields, if_pos rfl, Protobuf.encode_cons, Protobuf.encode_nil, List.append_nil, length_varintField htag, Bool.toNat_true,
      hone, if_pos rfl]

/-- A message of one field. -/
theorem Marshals.single {size : Nat} {f : Cursor → Option Cursor} {field : Field} (hf : Writes f field.encode)
    (hsize : size = field.encode.length) : Marshals size (run f) (encode [field]) := by
  have hencode : encode [field] = field.encode := List.append_nil _
  exact ⟨hencode ▸ hf.run, hencode ▸ hsize⟩

theorem ArgumentValue.marshals (v : ArgumentValue) : Marshals v.size v.marshalTo (encode [v.field]) := by
  have hstring : varint (8 * 2 + 2) = [0x12] := Protobuf.varint_of_lt (by decide)
  have hint : varint (8 * 3) = [0x18] := Protobuf.varint_of_lt (by decide)
  cases v with
  | stringValue s => exact .single (writes_marshalString hstring s) (length_string hstring s).symm
  | intValue n => exact .single (writes_marshalVarint hint n) (length_varintField hint _).symm

/-- A message that is a field of another. -/
theorem Marshals.slice {size : Nat} {marshalTo : List UInt8 → Option (List UInt8 × Nat)} {bytes : List UInt8}
    (h : Marshals size marshalTo bytes) : Writes (Cursor.slice marshalTo) bytes := h.fills.slice

theorem RawArgument.marshals (m : RawArgument) : Marshals m.size m.marshalTo m.bytes := by
  have htype : varint (8 * 1) = [0x8] := Protobuf.varint_of_lt (by decide)
  have hkey : varint (8 * 4 + 2) = [0x22] := Protobuf.varint_of_lt (by decide)
  obtain ⟨type, value, key, unrecognized⟩ := m
  have hrest := (writes_stringFields hkey key).bind (writes_marshalUnrecognized unrecognized)
  have hnumber : Writes (Cursor.when (type ≠ 0) (marshalVarint 0x8 type))
      (encode (if type ≠ 0 then [⟨1, .varint (uint64OfInt32 type)⟩] else [])) := by
    have h := Writes.when (p := type ≠ 0) fun _ => writes_marshalVarint htype type
    split at h
    · rw [if_pos ‹_›, Protobuf.encode_cons, Protobuf.encode_nil, List.append_nil]
      exact h
    · rw [if_neg ‹_›]
      exact h
  constructor
  · rw [bytes, written, encode_append, encode_append, List.append_assoc, List.append_assoc]
    cases value with
    | none => exact (hnumber.bind (writes_some.bind hrest)).run
    | some value => exact (hnumber.bind (value.marshals.slice.bind hrest)).run
  · have hlength : (encode (if type ≠ 0 then [⟨1, .varint (uint64OfInt32 type)⟩] else [])).length =
        if type ≠ 0 then 1 + sovExchange (uint64OfInt32 type) else 0 := by
      split
      · rw [Protobuf.encode_cons, Protobuf.encode_nil, List.append_nil, length_varintField htype]
      · rfl
    rw [bytes, written, encode_append, encode_append, List.length_append, List.length_append, List.length_append, hlength,
      length_stringFields hkey, size]
    cases value with
    | none =>
      simp only [Option.map_none, Option.toList_none, Protobuf.encode_nil, List.length_nil]
      omega
    | some value =>
      simp only [Option.map_some, Option.toList_some, ← value.marshals.size]
      omega

theorem MethodCallRequest.marshals (m : MethodCallRequest) : Marshals m.size m.marshalTo m.bytes := by
  have hname : varint (8 * 1 + 2) = [0xa] := Protobuf.varint_of_lt (by decide)
  have hid : varint (8 * 2 + 2) = [0x12] := Protobuf.varint_of_lt (by decide)
  have harg : varint (8 * 3 + 2) = [0x1a] := Protobuf.varint_of_lt (by decide)
  have hstatic : varint (8 * 4) = [0x20] := Protobuf.varint_of_lt (by decide)
  have hreturn : varint (8 * 5) = [0x28] := Protobuf.varint_of_lt (by decide)
  have hproperty : varint (8 * 6) = [0x30] := Protobuf.varint_of_lt (by decide)
  have hassigned : varint (8 * 7 + 2) = [0x3a] := Protobuf.varint_of_lt (by decide)
  have hargs : encode (m.args.map fun msg => ⟨3, .bytes msg.bytes⟩) =
      m.args.flatMap fun msg => [0x1a] ++ (varint msg.size ++ msg.bytes) := by
    rw [encode, List.flatMap_map]
    refine List.flatMap_congr ?_
    intro msg _
    rw [msg.marshals.size]
    exact congrArg (· ++ (varint msg.bytes.length ++ msg.bytes)) harg
  constructor
  · have hloop := writes_foldlM (l := m.args) (f := fun msg c => c.put 0x1a >>= fun c =>
        encodeVarintExchange msg.size c >>= Cursor.slice msg.marshalTo) fun msg _ =>
      (writes_put 0x1a).bind ((writes_encodeVarintExchange msg.size).bind msg.marshals.slice)
    simp only [bytes, written, encode_append, List.append_assoc, hargs]
    exact ((writes_stringFields hname _).bind ((writes_stringFields hid _).bind (hloop.bind ((writes_boolFields hstatic _).bind
      ((writes_boolFields hreturn _).bind ((writes_boolFields hproperty _).bind ((writes_stringFields hassigned _).bind
        (writes_marshalUnrecognized _)))))))).run
  · have hlengths : (m.args.flatMap fun msg => [0x1a] ++ (varint msg.size ++ msg.bytes)).length =
        (m.args.map fun e => 1 + e.size + sovExchange e.size).sum := by
      rw [List.length_flatMap]
      refine congrArg List.sum (List.map_congr_left ?_)
      intro msg _
      simp only [List.length_append, List.length_singleton, length_varint, ← msg.marshals.size]
      omega
    simp only [bytes, written, encode_append, hargs, List.length_append, hlengths, length_stringFields hname, length_stringFields hid,
      length_boolFields hstatic, length_boolFields hreturn, length_boolFields hproperty, length_stringFields hassigned, size]
    omega

theorem ImportRequest.marshals (m : ImportRequest) : Marshals m.size m.marshalTo m.bytes := by
  have hname : varint (8 * 1 + 2) = [0xa] := Protobuf.varint_of_lt (by decide)
  constructor
  · exact ((writes_stringFields hname _).bind (writes_marshalUnrecognized _)).run
  · rw [bytes, List.length_append, length_stringFields hname, size]

theorem ReturnValue.marshals (v : ReturnValue) : Marshals v.size v.marshalTo (encode [v.field]) := by
  have hstring : varint (8 * 1 + 2) = [0xa] := Protobuf.varint_of_lt (by decide)
  have hint : varint (8 * 2) = [0x10] := Protobuf.varint_of_lt (by decide)
  have hexception : varint (8 * 3 + 2) = [0x1a] := Protobuf.varint_of_lt (by decide)
  have hbool : varint (8 * 4) = [0x20] := Protobuf.varint_of_lt (by decide)
  cases v with
  | returnValueString s => exact .single (writes_marshalString hstring s) (length_string hstring s).symm
  | returnValueInt n => exact .single (writes_marshalVarint hint n) (length_varintField hint _).symm
  | exceptionMessage s => exact .single (writes_marshalString hexception s) (length_string hexception s).symm
  | noReturnValue b =>
    refine .single (writes_marshalBool hbool b) ?_
    have hone : sovExchange b.toNat = 1 := by rw [sovExchange, if_pos (by cases b <;> rfl)]
    have hlength := length_varintField hbool b.toNat
    rw [hone] at hlength
    exact hlength.symm

theorem ChannelResponse.marshals (m : ChannelResponse) : Marshals m.size m.marshalTo m.bytes := by
  obtain ⟨returnValue, unrecognized⟩ := m
  have hrest := writes_marshalUnrecognized unrecognized
  cases returnValue with
  | none => exact ⟨(writes_some.bind hrest).run, by rw [bytes, List.length_append]; rfl⟩
  | some v =>
    refine ⟨(v.marshals.slice.bind hrest).run, ?_⟩
    rw [bytes, List.length_append]
    exact congrArg (· + unrecognized.length) v.marshals.size

/-! ## Reading the fields back -/

section

variable {M : Type} {calls : Nat} {g : Generated M} {a b c : M} {number : Nat} {name : String}

/-- Reading some bytes, whatever comes behind them, makes a message of another. -/
def Parses (calls : Nat) (g : Generated M) (bytes : List UInt8) (a b : M) : Prop :=
  ∀ (l fuel : Nat) (rest : List UInt8), l < 2 ^ 63 → (bytes ++ rest).length ≤ l → (bytes ++ rest).length ≤ fuel →
    ∃ fuel', rest.length ≤ fuel' ∧ unmarshalLoop calls g l fuel a (bytes ++ rest) = unmarshalLoop calls g l fuel' b rest

theorem Parses.nil : Parses calls g [] a a := fun _ fuel _ _ _ hfuel => ⟨fuel, hfuel, rfl⟩

theorem Parses.append {bytes bytes' : List UInt8} (h : Parses calls g bytes a b) (h' : Parses calls g bytes' b c) :
    Parses calls g (bytes ++ bytes') a c := by
  intro l fuel rest hl hle hfuel
  rw [List.append_assoc] at hle hfuel ⊢
  obtain ⟨fuel₁, hfuel₁, hloop⟩ := h l fuel _ hl hle hfuel
  have hle₁ : (bytes' ++ rest).length ≤ l := by
    rw [List.length_append] at hle
    omega
  obtain ⟨fuel₂, hfuel₂, hloop'⟩ := h' l fuel₁ rest hl hle₁ hfuel₁
  exact ⟨fuel₂, hfuel₂, hloop.trans hloop'⟩

/-- What one pass reads. -/
theorem Parses.pass {bytes : List UInt8} (hne : bytes ≠ [])
    (h : ∀ l rest, l < 2 ^ 63 → (bytes ++ rest).length ≤ l → unmarshalPass calls g l a (bytes ++ rest) = .ok (b, rest)) :
    Parses calls g bytes a b := by
  intro l fuel rest hl hle hfuel
  have hpos := List.length_pos_iff.mpr hne
  rw [List.length_append] at hfuel
  obtain ⟨fuel, rfl⟩ : ∃ fuel', fuel = fuel' + 1 := ⟨fuel - 1, by omega⟩
  refine ⟨fuel, by omega, ?_⟩
  rw [unmarshalLoop_succ l fuel a (List.append_ne_nil_of_left_ne_nil hne _), h l rest hl hle]
  rfl

theorem Parses.known {f : Field} {put : M → Except Failure M} (hf : Known g.fields f put) (hput : put a = .ok b) :
    Parses calls g (encode [f]) a b := by
  have hencode : encode [f] = f.encode := List.append_nil _
  have hne : f.encode ≠ [] := by
    refine List.ne_nil_of_length_pos ?_
    rw [Field.encode, List.length_append]
    exact Nat.add_pos_left (Protobuf.length_varint_pos _) _
  rw [hencode]
  refine .pass hne fun l rest hl hle => ?_
  rw [unmarshalPass_encode hf hl a hle, hput]
  rfl

theorem Parses.bytes (s : List UInt8) {put : M → List UInt8 → Except Failure M} (hfield : g.fields number = some (.bytes name put))
    (hpos : 0 < number) (hnumber : number < 2 ^ 29) (hput : put a s = .ok b) : Parses calls g (encode [⟨number, .bytes s⟩]) a b :=
  .known (.bytes s hpos hnumber hfield) hput

theorem Parses.varint (n : Nat) {put : M → Nat → M} (hfield : g.fields number = some (.varint name put)) (hpos : 0 < number)
    (hnumber : number < 2 ^ 29) (hn : n < 2 ^ 64) (hput : put a n = b) : Parses calls g (encode [⟨number, .varint n⟩]) a b :=
  .known (.varint n hpos hnumber hn hfield) (congrArg Except.ok hput)

/-- A string that is left out where it is empty. -/
theorem Parses.stringFields (s : List UInt8) {put : M → List UInt8 → Except Failure M}
    (hfield : g.fields number = some (.bytes name put)) (hpos : 0 < number) (hnumber : number < 2 ^ 29) (hput : put a s = .ok b)
    (hempty : s = [] → a = b) : Parses calls g (encode (stringFields number s)) a b := by
  unfold Go.stringFields
  split
  · exact .bytes s hfield hpos hnumber hput
  · obtain rfl : a = b := hempty (List.eq_nil_of_length_eq_zero (by omega))
    exact .nil

/-- A flag that is left out where it is not set. -/
theorem Parses.boolFields (flag : Bool) {put : M → Nat → M} (hfield : g.fields number = some (.varint name put)) (hpos : 0 < number)
    (hnumber : number < 2 ^ 29) (htrue : flag = true → put a 1 = b) (hfalse : flag = false → a = b) :
    Parses calls g (encode (boolFields number flag)) a b := by
  cases flag with
  | false =>
    obtain rfl : a = b := hfalse rfl
    exact .nil
  | true => exact .varint 1 hfield hpos hnumber (by decide) (htrue rfl)

/-- A pass on a field that is not known: it is appended to the others. -/
theorem unmarshalPass_unknown {field : List UInt8} (hfield : Unknown calls g field) {l : Nat} (hl : l < 2 ^ 63) (m : M)
    {rest : List UInt8} (hle : (field ++ rest).length ≤ l) (hsize : field.length < 2 ^ 62) :
    unmarshalPass calls g l m (field ++ rest) = .ok (g.append m field, rest) := by
  obtain ⟨wire, behind, hkey, hwire, hnumber, hnone⟩ := hfield.key
  obtain ⟨key, -, rfl, hread⟩ := readVarint_prefix hkey
  have hskip := (skipsField_skipExchange calls).whole hsize hfield.skip (Nat.le_refl _) rest
  rw [List.take_length] at hskip
  have hread' := hread (behind ++ rest)
  rw [← List.append_assoc] at hread'
  generalize key ++ behind = field at hread' hskip hsize hle ⊢
  rw [List.length_append] at hle
  have hnonneg : ¬((field.length : Nat) : Int) < 0 := Int.not_lt.mpr (Int.natCast_nonneg _)
  have hindex : postIndex l (l - (field ++ rest).length) (field.length : Nat) = .ok (l - (field ++ rest).length + field.length) := by
    rw [List.length_append]
    exact postIndex_ok hl (by omega)
  refine bind_eq_ok.mpr ⟨_, hread', ?_⟩
  dsimp only
  rw [if_neg hwire, if_neg (Int.not_le.mpr hnumber), hnone]
  refine bind_eq_ok.mpr ⟨_, hskip, ?_⟩
  rw [if_neg hnonneg]
  refine bind_eq_ok.mpr ⟨_, hindex, ?_⟩
  rw [Nat.add_sub_cancel_left, List.take_left' rfl, List.drop_left' rfl]

/-- What is not known is appended field by field. -/
structure Generated.Appends (g : Generated M) : Prop where
  nil : ∀ m, g.append m [] = m
  append : ∀ m b b', g.append (g.append m b) b' = g.append m (b ++ b')

theorem Parses.unknown {field : List UInt8} (hfield : Unknown calls g field) (hsize : field.length < 2 ^ 62) :
    Parses calls g field a (g.append a field) := by
  refine .pass ?_ fun l rest hl hle => unmarshalPass_unknown hfield hl a hle hsize
  rintro rfl
  obtain ⟨wire, behind, hkey, -⟩ := hfield.key
  cases hkey

theorem Parses.unrecognized (hg : g.Appends) {unrecognized : List UInt8} (h : Unrecognized calls g unrecognized)
    (hsize : unrecognized.length < 2 ^ 62) : Parses calls g unrecognized a (g.append a unrecognized) := by
  obtain ⟨fields, hfields, rfl⟩ := h
  induction fields generalizing a with
  | nil =>
    rw [List.flatten_nil, hg.nil]
    exact .nil
  | cons field fields ih =>
    obtain ⟨hfield, hfields⟩ := List.forall_mem_cons.mp hfields
    rw [List.flatten_cons, List.length_append] at hsize
    rw [List.flatten_cons, ← hg.append]
    exact (Parses.unknown hfield (by omega)).append (ih hfields (by omega))

theorem Parses.unmarshal_eq {bytes : List UInt8} (h : Parses calls g bytes a b) (hlength : bytes.length < 2 ^ 63) :
    unmarshal calls g a bytes = .ok b := by
  obtain ⟨fuel', -, hloop⟩ := h bytes.length bytes.length [] hlength (by rw [List.append_nil]) (by rw [List.append_nil])
  rw [List.append_nil] at hloop
  rw [unmarshal, hloop, unmarshalLoop]

/-- What is marshalled is read back where its bytes parse to it. -/
theorem Marshals.roundTrip {size : Nat} {marshalTo : List UInt8 → Option (List UInt8 × Nat)} {bytes : List UInt8}
    (h : Marshals size marshalTo bytes) (hsize : size < 2 ^ 62) (hparses : bytes.length < 2 ^ 62 → Parses calls g bytes a b) :
    ∃ dAtA, marshal size marshalTo = some dAtA ∧ dAtA.length = size ∧ unmarshal calls g a dAtA = .ok b := by
  have hbytes : bytes.length < 2 ^ 62 := h.size ▸ hsize
  exact ⟨bytes, h.marshal_eq, h.size.symm, (hparses hbytes).unmarshal_eq (Nat.lt_trans hbytes (by decide))⟩

end

variable {stack : Stack} {calls : Nat}

theorem length_right_lt {xs ys : List UInt8} {n : Nat} (h : (xs ++ ys).length < n) : ys.length < n := by
  rw [List.length_append] at h
  omega

theorem RawArgument.appends : RawArgument.generated.Appends where
  nil m := congrArg (RawArgument.mk m.type m.value m.key) (List.append_nil _)
  append m b b' := congrArg (RawArgument.mk m.type m.value m.key) (List.append_assoc _ b b')

theorem MethodCallRequest.appends : (MethodCallRequest.generated stack).Appends where
  nil m := congrArg (fun u => { m with unrecognized := u }) (List.append_nil _)
  append m b b' := congrArg (fun u => { m with unrecognized := u }) (List.append_assoc _ b b')

theorem ImportRequest.appends : ImportRequest.generated.Appends where
  nil m := congrArg (ImportRequest.mk m.importedName) (List.append_nil _)
  append m b b' := congrArg (ImportRequest.mk m.importedName) (List.append_assoc _ b b')

theorem ChannelResponse.appends : ChannelResponse.generated.Appends where
  nil m := congrArg (ChannelResponse.mk m.returnValue) (List.append_nil _)
  append m b b' := congrArg (ChannelResponse.mk m.returnValue) (List.append_assoc _ b b')

theorem ArgumentValue.parses {m : RawArgument} {v : ArgumentValue} (h : ∀ n, v = .intValue n → IsInt32 n) :
    Parses calls RawArgument.generated (encode [v.field]) m { m with value := some v } := by
  cases v with
  | stringValue s => exact .bytes s rfl (by decide) (by decide) rfl
  | intValue n =>
    refine .varint _ rfl (by decide) (by decide) (uint64OfInt32_lt n) ?_
    rw [(h n rfl).toInt32_uint64]

theorem RawArgument.parses {m : RawArgument} (h : m.Typed stack) (hsize : m.bytes.length < 2 ^ 62) :
    Parses stack.argument generated m.bytes {} m := by
  obtain ⟨type, value, key, unrecognized⟩ := m
  obtain ⟨htype, hvalue, hunrecognized⟩ := h
  have hfirst : Parses stack.argument generated (encode (if type ≠ 0 then [⟨1, .varint (uint64OfInt32 type)⟩] else [])) {}
      { type := type } := by
    split
    · refine .varint _ rfl (by decide) (by decide) (uint64OfInt32_lt type) ?_
      rw [htype.toInt32_uint64]
    · obtain rfl : type = 0 := Classical.not_not.mp ‹_›
      exact .nil
  have hsecond : Parses stack.argument generated (encode (value.map ArgumentValue.field).toList) { type := type }
      { type := type, value := value } := by
    cases value with
    | none => exact .nil
    | some v => exact ArgumentValue.parses fun n hn => hvalue n (congrArg some hn)
  have hkey : Parses stack.argument generated (encode (stringFields 4 key)) { type, value } { type, value, key } :=
    .stringFields key rfl (by decide) (by decide) rfl (by rintro rfl; rfl)
  rw [bytes, written, encode_append, encode_append, List.append_assoc, List.append_assoc]
  exact hfirst.append (hsecond.append (hkey.append (.unrecognized appends hunrecognized (length_right_lt hsize))))

/-- The arguments of a request are read one after the other, each to the end of those before it. -/
theorem MethodCallRequest.parses_args {args : List RawArgument} (hargs : ∀ arg ∈ args, arg.Typed stack)
    (hlength : ∀ arg ∈ args, arg.bytes.length < 2 ^ 62) (m : MethodCallRequest) :
    Parses stack.request (generated stack) (encode (args.map fun msg => ⟨3, .bytes msg.bytes⟩)) m
      { m with args := m.args ++ args } := by
  induction args generalizing m with
  | nil =>
    rw [List.append_nil]
    exact .nil
  | cons arg args ih =>
    obtain ⟨harg, hargs⟩ := List.forall_mem_cons.mp hargs
    obtain ⟨hfirst, hlength⟩ := List.forall_mem_cons.mp hlength
    have hunmarshal : RawArgument.unmarshal stack arg.bytes = .ok arg :=
      (RawArgument.parses harg hfirst).unmarshal_eq (Nat.lt_trans hfirst (by decide))
    have hput : Parses stack.request (generated stack) (encode [⟨3, .bytes arg.bytes⟩]) m { m with args := m.args ++ [arg] } := by
      refine .bytes _ rfl (by decide) (by decide) ?_
      rw [hunmarshal]
      rfl
    have hothers := ih hargs hlength { m with args := m.args ++ [arg] }
    simp only [List.append_assoc, List.singleton_append] at hothers
    rw [List.map_cons, Protobuf.encode_cons, ← List.append_nil (Field.encode _)]
    exact hput.append hothers

theorem MethodCallRequest.parses {m : MethodCallRequest} (h : m.Typed stack) (hsize : m.bytes.length < 2 ^ 62)
    (hlength : ∀ arg ∈ m.args, arg.bytes.length < 2 ^ 62) : Parses stack.request (generated stack) m.bytes {} m := by
  obtain ⟨methodName, objectID, args, static, doGetReturnValue, property, assignedID, unrecognized⟩ := m
  obtain ⟨hargsTyped, hunrecognized⟩ := h
  have hname : Parses stack.request (generated stack) (encode (stringFields 1 methodName)) {} { methodName } :=
    .stringFields methodName rfl (by decide) (by decide) rfl (by rintro rfl; rfl)
  have hobject : Parses stack.request (generated stack) (encode (stringFields 2 objectID)) { methodName } { methodName, objectID } :=
    .stringFields objectID rfl (by decide) (by decide) rfl (by rintro rfl; rfl)
  have hargs := MethodCallRequest.parses_args hargsTyped hlength { methodName, objectID }
  have hstatic : Parses stack.request (generated stack) (encode (boolFields 4 static)) { methodName, objectID, args }
      { methodName, objectID, args, static } :=
    .boolFields static rfl (by decide) (by decide) (by rintro rfl; rfl) (by rintro rfl; rfl)
  have hreturn : Parses stack.request (generated stack) (encode (boolFields 5 doGetReturnValue)) { methodName, objectID, args, static }
      { methodName, objectID, args, static, doGetReturnValue } :=
    .boolFields doGetReturnValue rfl (by decide) (by decide) (by rintro rfl; rfl) (by rintro rfl; rfl)
  have hproperty : Parses stack.request (generated stack) (encode (boolFields 6 property))
      { methodName, objectID, args, static, doGetReturnValue } { methodName, objectID, args, static, doGetReturnValue, property } :=
    .boolFields property rfl (by decide) (by decide) (by rintro rfl; rfl) (by rintro rfl; rfl)
  have hassigned : Parses stack.request (generated stack) (encode (stringFields 7 assignedID))
      { methodName, objectID, args, static, doGetReturnValue, property }
      { methodName, objectID, args, static, doGetReturnValue, property, assignedID } :=
    .stringFields assignedID rfl (by decide) (by decide) rfl (by rintro rfl; rfl)
  simp only [bytes, written, encode_append, List.append_assoc]
  exact hname.append (hobject.append (hargs.append (hstatic.append (hreturn.append (hproperty.append (hassigned.append
    (.unrecognized appends hunrecognized (length_right_lt hsize))))))))

theorem ImportRequest.parses {m : ImportRequest} (h : m.Typed calls) (hsize : m.bytes.length < 2 ^ 62) :
    Parses calls generated m.bytes {} m := by
  obtain ⟨importedName, unrecognized⟩ := m
  have hname : Parses calls generated (encode (stringFields 1 importedName)) {} { importedName } :=
    .stringFields importedName rfl (by decide) (by decide) rfl (by rintro rfl; rfl)
  exact hname.append (.unrecognized appends h (length_right_lt hsize))

theorem ChannelResponse.parses {m : ChannelResponse} (h : m.Typed calls) (hsize : m.bytes.length < 2 ^ 62) :
    Parses calls generated m.bytes {} m := by
  obtain ⟨returnValue, unrecognized⟩ := m
  obtain ⟨hnumber, hunrecognized⟩ := h
  have hvalue : Parses calls generated (encode (returnValue.map ReturnValue.field).toList) {} { returnValue } := by
    rcases returnValue with _ | (s | n | s | b)
    · exact .nil
    · exact .bytes s rfl (by decide) (by decide) rfl
    · refine .varint _ rfl (by decide) (by decide) (uint64OfInt32_lt n) ?_
      rw [(hnumber n rfl).toInt32_uint64]
    · exact .bytes s rfl (by decide) (by decide) rfl
    · cases b <;> exact .varint _ rfl (by decide) (by decide) (by decide) rfl
  exact hvalue.append (.unrecognized appends hunrecognized (length_right_lt hsize))

/-- The arguments of a request are shorter than it. -/
theorem MethodCallRequest.size_args {m : MethodCallRequest} {arg : RawArgument} (h : arg ∈ m.args) : arg.bytes.length ≤ m.size := by
  have hsum := List.single_le_sum (l := m.args.map fun e => 1 + e.size + sovExchange e.size) (fun _ _ => Nat.zero_le _) _
    (List.mem_map_of_mem h)
  rw [← arg.marshals.size, size]
  omega

theorem MethodCallRequest.roundTrip {m : MethodCallRequest} (htyped : m.Typed stack) (hsize : m.size < 2 ^ 62) :
    ∃ dAtA, m.marshal = some dAtA ∧ dAtA.length = m.size ∧ MethodCallRequest.unmarshal stack dAtA = .ok m := by
  have hargs : ∀ arg ∈ m.args, arg.bytes.length < 2 ^ 62 := fun arg harg =>
    Nat.lt_of_le_of_lt (MethodCallRequest.size_args harg) hsize
  exact m.marshals.roundTrip hsize fun hbytes => MethodCallRequest.parses htyped hbytes hargs

theorem ImportRequest.roundTrip {m : ImportRequest} (htyped : m.Typed calls) (hsize : m.size < 2 ^ 62) :
    ∃ dAtA, m.marshal = some dAtA ∧ dAtA.length = m.size ∧ ImportRequest.unmarshal calls dAtA = .ok m :=
  m.marshals.roundTrip hsize (ImportRequest.parses htyped)

theorem ChannelResponse.roundTrip {m : ChannelResponse} (htyped : m.Typed calls) (hsize : m.size < 2 ^ 62) :
    ∃ dAtA, m.marshal = some dAtA ∧ dAtA.length = m.size ∧ ChannelResponse.unmarshal calls dAtA = .ok m :=
  m.marshals.roundTrip hsize (ChannelResponse.parses htyped)

/-- `Marshal` of a message does not panic, makes as many bytes as `Size` counts, and `Unmarshal` reads the message back from them, with
the fields that were not known. -/
theorem unmarshal_marshal (stack : Stack) (calls : Nat) :
    (∀ m : MethodCallRequest, m.Typed stack → m.size < 2 ^ 62 →
      ∃ dAtA, m.marshal = some dAtA ∧ dAtA.length = m.size ∧ MethodCallRequest.unmarshal stack dAtA = .ok m) ∧
    (∀ m : ImportRequest, m.Typed calls → m.size < 2 ^ 62 →
      ∃ dAtA, m.marshal = some dAtA ∧ dAtA.length = m.size ∧ ImportRequest.unmarshal calls dAtA = .ok m) ∧
    ∀ m : ChannelResponse, m.Typed calls → m.size < 2 ^ 62 →
      ∃ dAtA, m.marshal = some dAtA ∧ dAtA.length = m.size ∧ ChannelResponse.unmarshal calls dAtA = .ok m :=
  ⟨fun _ => MethodCallRequest.roundTrip, fun _ => ImportRequest.roundTrip, fun _ => ChannelResponse.roundTrip⟩

/-- A group with nothing in it, in a field that no message has. -/
theorem unknown_group {M : Type} {g : Generated M} (hnone : g.fields 8 = none) : Unknown 1 g [0x43, 0x44] where
  key := ⟨0x43, [0x44], readVarint_group _, by decide, by decide, hnone⟩
  skip := by decide

/-- A negative number, in ten bytes behind the tag, and a group that is not known. -/
theorem unmarshal_marshal_negative :
    ∃ dAtA, ChannelResponse.marshal ⟨some (.returnValueInt (-1)), [0x43, 0x44]⟩ = some dAtA ∧ dAtA.length = 13 ∧
      ChannelResponse.unmarshal 1 dAtA = .ok ⟨some (.returnValueInt (-1)), [0x43, 0x44]⟩ := by
  have hsize : ChannelResponse.size ⟨some (.returnValueInt (-1)), [0x43, 0x44]⟩ = 13 := by
    simp [ChannelResponse.size, ReturnValue.size, uint64OfInt32, sovExchange]
  have htyped : ChannelResponse.Typed 1 ⟨some (.returnValueInt (-1)), [0x43, 0x44]⟩ := by
    refine ⟨?_, [[0x43, 0x44]], List.forall_mem_singleton.mpr (unknown_group rfl), rfl⟩
    rintro n ⟨⟩
    exact ⟨by decide, by decide⟩
  have h := (unmarshal_marshal .million 1).2.2 _ htyped (by rw [hsize]; decide)
  rwa [hsize] at h

/-- The response of the handler is a marshalled message. -/
theorem responseFrame_eq : ∃ responseData, ChannelResponse.marshal ⟨some (.returnValueInt 0), []⟩ = some responseData ∧
    responseFrame = toByteArray responseData.length ++ toByteArray 1 ++ responseData := by
  refine ⟨_, ChannelResponse.marshals _ |>.marshal_eq, ?_⟩
  have hbytes : ChannelResponse.bytes ⟨some (.returnValueInt 0), []⟩ = [0x10, 0x00] := by
    simp [ChannelResponse.bytes, ReturnValue.field, Field.encode, Protobuf.Value.wireType, Protobuf.Value.encode, uint64OfInt32,
      Protobuf.varint_of_lt]
  rw [hbytes]
  rfl

/-! ## What is accepted -/

section

variable {M : Type} {calls : Nat} {g : Generated M} {P : M → Prop} {size : M → Nat}

/-- What is read in some bytes keeps an invariant, and adds to the size at most six times as much. -/
def Grows (P : M → Prop) (size : M → Nat) (k : Nat) (a b : M) : Prop := (P a → P b) ∧ size b ≤ size a + 6 * k

/-- A field that is read keeps the invariant. -/
def FieldCase.Grows (P : M → Prop) (size : M → Nat) : FieldCase M → Prop
  | .bytes _ put => ∀ m b m', b.length < 2 ^ 60 → put m b = .ok m' → Go.Grows P size (b.length + 2) m m'
  | .varint _ put => ∀ m v, Go.Grows P size 2 m (put m v)

/-- Every field that is read keeps the invariant, known or not. -/
structure Generated.Grows (calls : Nat) (g : Generated M) (P : M → Prop) (size : M → Nat) : Prop where
  fields : ∀ n c, g.fields n = some c → c.Grows P size
  append : ∀ m field, Unknown calls g field → Go.Grows P size field.length m (g.append m field)

/-- A field that is read is there without what comes behind it. -/
theorem Unknown.take {dAtA rest : List UInt8} {wire n : Nat} (hlength : dAtA.length < 2 ^ 62)
    (hskip : skipExchange calls dAtA = .ok n) (hle : n ≤ dAtA.length) (hkey : readVarint dAtA = .ok (wire, rest))
    (hwire : toUint64 wire % 8 ≠ 4) (hnumber : 0 < toInt32 (toUint64 wire / 8))
    (hnone : g.fields (toInt32 (toUint64 wire / 8)) = none) : Unknown calls g (dAtA.take n) := by
  obtain ⟨p, hkey', hends⟩ := (skipsField_skipExchange calls).ends hlength hskip
  obtain rfl := Except.ok.inj (hkey.symm.trans hkey')
  have hwhole := (skipsField_skipExchange calls).whole hlength hskip hle []
  obtain ⟨key, -, rfl, hread⟩ := readVarint_prefix hkey
  rw [List.length_append] at hends
  have htake : (key ++ rest).take n = key ++ rest.take (n - key.length) := by
    rw [List.take_append, List.take_of_length_le (by omega)]
  refine ⟨⟨wire, _, (congrArg readVarint htake).trans (hread _), hwire, hnumber, hnone⟩, ?_⟩
  rw [List.append_nil] at hwhole
  rwa [List.length_take, Nat.min_eq_left hle]

theorem readBytes_length {l : Nat} {dAtA : List UInt8} {p : List UInt8 × List UInt8} (h : readBytes l dAtA = .ok p) :
    p.1.length + p.2.length < dAtA.length := by
  obtain ⟨len, hlen, h⟩ := bind_eq_ok.mp h
  have hrest := varintLoop_length hlen
  dsimp only at h
  split at h
  · cases h
  · obtain ⟨index, -, h⟩ := bind_eq_ok.mp h
    cases h
    simp only [List.length_take, List.length_drop]
    omega

/-- The end of a field, where it is an index of the slice. -/
theorem postIndex_eq_ok {l length n index : Nat} (hl : l < 2 ^ 60) (hle : length ≤ l) (hn : n < 2 ^ 63)
    (h : postIndex l (l - length) n = .ok index) : n ≤ length ∧ index - (l - length) = n := by
  unfold postIndex at h
  dsimp only at h
  split at h
  · cases h
  rename_i hin
  split at h
  · cases h
  rename_i hbehind
  obtain ⟨i, hi⟩ : ∃ i : Nat, ((l - length : Nat) + (n : Int)).bmod (2 ^ 64) = i :=
    Int.eq_ofNat_of_zero_le (Int.le_trans (Int.natCast_nonneg _) (Int.not_lt.mp hbehind))
  have hend := eq_of_add_bmod (by omega) ⟨Int.natCast_nonneg n, by omega⟩ hi
  rw [hi] at h hin
  obtain rfl := Except.ok.inj h
  clear hi hbehind h
  omega

/-- One pass. -/
theorem unmarshalPass_grows (hg : g.Grows calls P size) {l : Nat} (hl : l < 2 ^ 60) {m : M} {dAtA : List UInt8} (hle : dAtA.length ≤ l)
    {p : M × List UInt8} (h : unmarshalPass calls g l m dAtA = .ok p) :
    ∃ k, k + p.2.length ≤ dAtA.length ∧ Grows P size k m p.1 := by
  obtain ⟨wire, hwire, h⟩ := bind_eq_ok.mp h
  have hkey := varintLoop_length hwire
  dsimp only at h
  split at h
  · cases h
  rename_i hend
  split at h
  · cases h
  rename_i hnumber
  split at h
  · -- a string or a message
    rename_i name put hfield
    split at h
    · cases h
    · obtain ⟨out, hbytes, h⟩ := bind_eq_ok.mp h
      obtain ⟨m', hput, h⟩ := bind_eq_ok.mp h
      have hrest := readBytes_length hbytes
      cases h
      exact ⟨out.1.length + 2, by dsimp only; omega, hg.fields _ _ hfield m out.1 m' (by omega) hput⟩
  · -- a number
    rename_i name put hfield
    split at h
    · cases h
    · obtain ⟨out, hnumber, h⟩ := bind_eq_ok.mp h
      have hrest := varintLoop_length hnumber
      cases h
      exact ⟨2, by dsimp only; omega, hg.fields _ _ hfield m out.1⟩
  · -- a field that is not known
    rename_i hnone
    obtain ⟨skippy, hskip, h⟩ := bind_eq_ok.mp h
    split at h
    · cases h
    rename_i hnonneg
    obtain ⟨n, rfl⟩ := Int.eq_ofNat_of_zero_le (Int.not_lt.mp hnonneg)
    obtain ⟨index, hindex, h⟩ := bind_eq_ok.mp h
    cases h
    have hn : n ≤ dAtA.length ∧ index - (l - dAtA.length) = n := by
      obtain ⟨_, -, hends⟩ := (skipsField_skipExchange calls).ends (by omega) hskip
      exact postIndex_eq_ok (by omega) hle (by omega) hindex
    obtain ⟨hin, hn⟩ := hn
    rw [hn]
    have hunknown := Unknown.take (by omega) hskip hin hwire hend (Int.not_le.mp hnumber) hnone
    have hgrows := hg.append m _ hunknown
    rw [List.length_take, Nat.min_eq_left hin] at hgrows
    refine ⟨n, ?_, hgrows⟩
    rw [List.length_drop]
    omega

/-- The loop. -/
theorem unmarshalLoop_grows (hg : g.Grows calls P size) {l fuel : Nat} (hl : l < 2 ^ 60) {m m' : M} {dAtA : List UInt8}
    (hle : dAtA.length ≤ l) (h : unmarshalLoop calls g l fuel m dAtA = .ok m') : Grows P size dAtA.length m m' := by
  induction fuel generalizing m dAtA with
  | zero =>
    cases dAtA with
    | nil =>
      cases h
      exact ⟨id, Nat.le_refl _⟩
    | cons b dAtA => cases h
  | succ fuel ih =>
    by_cases hnil : dAtA = []
    · subst hnil
      cases h
      exact ⟨id, Nat.le_refl _⟩
    · rw [unmarshalLoop_succ l fuel m hnil] at h
      obtain ⟨p, hpass, h⟩ := bind_eq_ok.mp h
      obtain ⟨k, hk, hP, hsize⟩ := unmarshalPass_grows hg hl hle hpass
      obtain ⟨hP', hsize'⟩ := ih (by omega) h
      exact ⟨hP' ∘ hP, by omega⟩

theorem unmarshal_grows (hg : g.Grows calls P size) {m m' : M} {dAtA : List UInt8} (hlength : dAtA.length < 2 ^ 60)
    (h : unmarshal calls g m dAtA = .ok m') : Grows P size dAtA.length m m' :=
  unmarshalLoop_grows hg hlength (Nat.le_refl _) h

theorem Unrecognized.nil : Unrecognized calls g [] := ⟨[], List.forall_mem_nil _, rfl⟩

theorem Unrecognized.append {unrecognized field : List UInt8} (h : Unrecognized calls g unrecognized) (hfield : Unknown calls g field) :
    Unrecognized calls g (unrecognized ++ field) := by
  obtain ⟨fields, hfields, rfl⟩ := h
  refine ⟨fields ++ [field], List.forall_mem_append.mpr ⟨hfields, List.forall_mem_singleton.mpr hfield⟩, ?_⟩
  rw [List.flatten_append, List.flatten_singleton]

end

theorem sovExchange_le {x : Nat} (h : x < 2 ^ 64) : sovExchange x ≤ 10 := by
  rw [← length_varint]
  exact Protobuf.length_varint_le (Nat.lt_trans h (by decide))

theorem size_varint (n : Int) : 1 + sovExchange (uint64OfInt32 n) ≤ 12 := by
  have := sovExchange_le (uint64OfInt32_lt n)
  omega

theorem sizeString_le {s : List UInt8} (h : s.length < 2 ^ 60) : sizeString s ≤ s.length + 12 := by
  have := sovExchange_le (x := s.length) (by omega)
  unfold sizeString
  omega

/-- A string that is left out where it is empty. -/
theorem sizeString_when_le {s : List UInt8} (h : s.length < 2 ^ 60) :
    (if 0 < s.length then sizeString s else 0) ≤ s.length + 12 := by
  have := sizeString_le h
  split <;> omega

theorem RawArgument.grows : RawArgument.generated.Grows stack.argument (Typed stack) size where
  append m field hfield := by
    refine ⟨fun hm => ⟨hm.type, hm.value, hm.unrecognized.append hfield⟩, ?_⟩
    show size { m with unrecognized := m.unrecognized ++ field } ≤ _
    simp only [size, List.length_append]
    omega
  fields n c h := by
    replace h : fields n = some c := h
    unfold fields at h
    split at h
    · cases h
      intro m v
      have htype := isInt32_toInt32 v
      have hsize := size_varint (toInt32 v)
      beta_reduce
      generalize toInt32 v = type at htype hsize ⊢
      refine ⟨fun hm => ⟨htype, hm.value, hm.unrecognized⟩, ?_⟩
      simp only [size]
      split <;> omega
    · cases h
      rintro m s m' hs ⟨⟩
      have hvalue := sizeString_le hs
      refine ⟨fun hm => ⟨hm.type, nofun, hm.unrecognized⟩, ?_⟩
      simp only [size, ArgumentValue.size]
      omega
    · cases h
      intro m v
      have hvalue := isInt32_toInt32 v
      have hsize := size_varint (toInt32 v)
      beta_reduce
      generalize toInt32 v = value at hvalue hsize ⊢
      refine ⟨fun hm => ⟨hm.type, ?_, hm.unrecognized⟩, ?_⟩
      · rintro n ⟨⟩
        exact hvalue
      · simp only [size, ArgumentValue.size]
        omega
    · cases h
      rintro m s m' hs ⟨⟩
      have hkey := sizeString_when_le hs
      refine ⟨fun hm => ⟨hm.type, hm.value, hm.unrecognized⟩, ?_⟩
      simp only [size]
      omega
    · cases h

theorem RawArgument.of_unmarshal {dAtA : List UInt8} {m : RawArgument} (hlength : dAtA.length < 2 ^ 60)
    (h : RawArgument.unmarshal stack dAtA = .ok m) : m.Typed stack ∧ m.size ≤ 6 * dAtA.length := by
  obtain ⟨htyped, hsize⟩ := unmarshal_grows RawArgument.grows hlength h
  refine ⟨htyped ⟨⟨by decide, by decide⟩, nofun, .nil⟩, ?_⟩
  simpa [size] using hsize

/-- A flag that is read has two bytes, and it has two bytes where it is written. -/
theorem MethodCallRequest.flag_grows (m : MethodCallRequest) (flag : Bool) :
    Grows (Typed stack) size 2 m { m with static := flag } ∧ Grows (Typed stack) size 2 m { m with doGetReturnValue := flag } ∧
      Grows (Typed stack) size 2 m { m with property := flag } := by
  refine ⟨⟨fun hm => ⟨hm.args, hm.unrecognized⟩, ?_⟩, ⟨fun hm => ⟨hm.args, hm.unrecognized⟩, ?_⟩,
    ⟨fun hm => ⟨hm.args, hm.unrecognized⟩, ?_⟩⟩ <;> cases flag <;> simp only [size] <;> simp <;> omega

theorem MethodCallRequest.grows : (MethodCallRequest.generated stack).Grows stack.request (Typed stack) size where
  append m field hfield := by
    refine ⟨fun hm => ⟨hm.args, hm.unrecognized.append hfield⟩, ?_⟩
    show size { m with unrecognized := m.unrecognized ++ field } ≤ _
    simp only [size, List.length_append]
    omega
  fields n c h := by
    replace h : fields stack n = some c := h
    unfold fields at h
    split at h
    iterate 2
      · cases h
        rintro m s m' hs ⟨⟩
        have hstring := sizeString_when_le hs
        refine ⟨fun hm => ⟨hm.args, hm.unrecognized⟩, ?_⟩
        simp only [size]
        omega
    · cases h
      intro m b m' hb hput
      obtain ⟨arg, harg, hput⟩ := bind_eq_ok.mp hput
      obtain ⟨htyped, hsize⟩ := RawArgument.of_unmarshal hb harg
      cases hput
      have hlength := sovExchange_le (x := arg.size) (by omega)
      refine ⟨fun hm => ⟨?_, hm.unrecognized⟩, ?_⟩
      · exact List.forall_mem_append.mpr ⟨hm.args, List.forall_mem_singleton.mpr htyped⟩
      · simp only [size, List.map_append, List.sum_append, List.map_singleton, List.sum_singleton]
        omega
    · cases h
      exact fun m v => (m.flag_grows _).1
    · cases h
      exact fun m v => (m.flag_grows _).2.1
    · cases h
      exact fun m v => (m.flag_grows _).2.2
    · cases h
      rintro m s m' hs ⟨⟩
      have hstring := sizeString_when_le hs
      refine ⟨fun hm => ⟨hm.args, hm.unrecognized⟩, ?_⟩
      simp only [size]
      omega
    · cases h

theorem MethodCallRequest.of_unmarshal {dAtA : List UInt8} {m : MethodCallRequest} (hlength : dAtA.length < 2 ^ 60)
    (h : MethodCallRequest.unmarshal stack dAtA = .ok m) : m.Typed stack ∧ m.size ≤ 6 * dAtA.length := by
  obtain ⟨htyped, hsize⟩ := unmarshal_grows MethodCallRequest.grows hlength h
  refine ⟨htyped ⟨nofun, .nil⟩, ?_⟩
  simpa [size] using hsize

theorem ImportRequest.grows : ImportRequest.generated.Grows calls (Typed calls) size where
  append m field hfield := by
    refine ⟨fun hm => Unrecognized.append hm hfield, ?_⟩
    show size { m with unrecognized := m.unrecognized ++ field } ≤ _
    simp only [size, List.length_append]
    omega
  fields n c h := by
    replace h : fields n = some c := h
    unfold fields at h
    split at h
    · cases h
      rintro m s m' hs ⟨⟩
      have hstring := sizeString_when_le hs
      refine ⟨id, ?_⟩
      simp only [size]
      omega
    · cases h

theorem ImportRequest.of_unmarshal {dAtA : List UInt8} {m : ImportRequest} (hlength : dAtA.length < 2 ^ 60)
    (h : ImportRequest.unmarshal calls dAtA = .ok m) : m.Typed calls ∧ m.size ≤ 6 * dAtA.length := by
  obtain ⟨htyped, hsize⟩ := unmarshal_grows ImportRequest.grows hlength h
  refine ⟨htyped Unrecognized.nil, ?_⟩
  simpa [size] using hsize

/-- The value of a response that is read, in place of another. -/
theorem ChannelResponse.value_grows {m : ChannelResponse} {v : ReturnValue} {k : Nat} (hvalue : ∀ n, v = .returnValueInt n → IsInt32 n)
    (hsize : v.size ≤ 6 * k) : Grows (Typed calls) size k m { m with returnValue := some v } := by
  refine ⟨fun hm => ⟨fun n hn => hvalue n (Option.some.inj hn), hm.unrecognized⟩, ?_⟩
  simp only [size]
  omega

theorem ChannelResponse.grows : ChannelResponse.generated.Grows calls (Typed calls) size where
  append m field hfield := by
    refine ⟨fun hm => ⟨hm.returnValue, hm.unrecognized.append hfield⟩, ?_⟩
    show size { m with unrecognized := m.unrecognized ++ field } ≤ _
    simp only [size, List.length_append]
    omega
  fields n c h := by
    have hstring : ∀ s : List UInt8, s.length < 2 ^ 60 → sizeString s ≤ 6 * (s.length + 2) := by
      intro s hs
      have := sizeString_le hs
      omega
    replace h : fields n = some c := h
    unfold fields at h
    split at h
    · cases h
      rintro m s m' hs ⟨⟩
      exact value_grows nofun (hstring s hs)
    · cases h
      intro m v
      exact value_grows (fun n hn => ReturnValue.returnValueInt.inj hn ▸ isInt32_toInt32 v) (size_varint (toInt32 v))
    · cases h
      rintro m s m' hs ⟨⟩
      exact value_grows nofun (hstring s hs)
    · cases h
      intro m v
      exact value_grows nofun (by decide : 2 ≤ 6 * 2)
    · cases h

theorem ChannelResponse.of_unmarshal {dAtA : List UInt8} {m : ChannelResponse} (hlength : dAtA.length < 2 ^ 60)
    (h : ChannelResponse.unmarshal calls dAtA = .ok m) : m.Typed calls ∧ m.size ≤ 6 * dAtA.length := by
  obtain ⟨htyped, hsize⟩ := unmarshal_grows ChannelResponse.grows hlength h
  refine ⟨htyped ⟨nofun, .nil⟩, ?_⟩
  simpa [size] using hsize

/-- What was read is read once more after it is marshalled. -/
theorem reads_again {M : Type} {marshal : M → Option (List UInt8)} {unmarshal : List UInt8 → Except Failure M} {P : M → Prop}
    {size : M → Nat} {dAtA : List UInt8} {m : M} (hlength : dAtA.length < 2 ^ 59) (hread : P m ∧ size m ≤ 6 * dAtA.length)
    (hround : P m → size m < 2 ^ 62 → ∃ dAtA', marshal m = some dAtA' ∧ dAtA'.length = size m ∧ unmarshal dAtA' = .ok m) :
    ∃ dAtA', marshal m = some dAtA' ∧ dAtA'.length ≤ 6 * dAtA.length ∧ unmarshal dAtA' = .ok m := by
  obtain ⟨hm, hsize⟩ := hread
  obtain ⟨dAtA', hmarshal, hlength', hagain⟩ := hround hm (by omega)
  exact ⟨dAtA', hmarshal, hlength' ▸ hsize, hagain⟩

/-- Whatever bytes `Unmarshal` accepts, with fields in another order, several times, not known, or with longer numbers: `Marshal` of the
message does not panic, makes at most six times as many bytes, and `Unmarshal` reads the same message from these. -/
theorem marshal_unmarshal (stack : Stack) (calls : Nat) :
    (∀ (dAtA : List UInt8) (m : MethodCallRequest), dAtA.length < 2 ^ 59 → MethodCallRequest.unmarshal stack dAtA = .ok m →
      ∃ dAtA', m.marshal = some dAtA' ∧ dAtA'.length ≤ 6 * dAtA.length ∧ MethodCallRequest.unmarshal stack dAtA' = .ok m) ∧
    (∀ (dAtA : List UInt8) (m : ImportRequest), dAtA.length < 2 ^ 59 → ImportRequest.unmarshal calls dAtA = .ok m →
      ∃ dAtA', m.marshal = some dAtA' ∧ dAtA'.length ≤ 6 * dAtA.length ∧ ImportRequest.unmarshal calls dAtA' = .ok m) ∧
    ∀ (dAtA : List UInt8) (m : ChannelResponse), dAtA.length < 2 ^ 59 → ChannelResponse.unmarshal calls dAtA = .ok m →
      ∃ dAtA', m.marshal = some dAtA' ∧ dAtA'.length ≤ 6 * dAtA.length ∧ ChannelResponse.unmarshal calls dAtA' = .ok m := by
  refine ⟨?_, ?_, ?_⟩
  · intro dAtA m hlength h
    exact reads_again hlength (MethodCallRequest.of_unmarshal (by omega) h) MethodCallRequest.roundTrip
  · intro dAtA m hlength h
    exact reads_again hlength (ImportRequest.of_unmarshal (by omega) h) ImportRequest.roundTrip
  · intro dAtA m hlength h
    exact reads_again hlength (ChannelResponse.of_unmarshal (by omega) h) ChannelResponse.roundTrip

/-- An id, a group that is not known, and a name that is there and empty. -/
theorem marshal_unmarshal_reordered :
    ∃ dAtA', MethodCallRequest.marshal { assignedID := [0x37], unrecognized := [0x43, 0x44] } = some dAtA' ∧ dAtA'.length ≤ 42 ∧
      MethodCallRequest.unmarshal ⟨1, 0⟩ dAtA' = .ok { assignedID := [0x37], unrecognized := [0x43, 0x44] } := by
  have hid : Parses 1 (MethodCallRequest.generated ⟨1, 0⟩) (encode [⟨7, .bytes [0x37]⟩]) {} { assignedID := [0x37] } :=
    .bytes _ rfl (by decide) (by decide) rfl
  have hgroup : Parses 1 (MethodCallRequest.generated ⟨1, 0⟩) [0x43, 0x44] { assignedID := [0x37] }
      { assignedID := [0x37], unrecognized := [0x43, 0x44] } := .unknown (unknown_group rfl) (by decide)
  have hname : Parses 1 (MethodCallRequest.generated ⟨1, 0⟩) (encode [⟨1, .bytes []⟩])
      { assignedID := [0x37], unrecognized := [0x43, 0x44] } { assignedID := [0x37], unrecognized := [0x43, 0x44] } :=
    .bytes _ rfl (by decide) (by decide) rfl
  have hlength : (encode [⟨7, .bytes [0x37]⟩] ++ ([0x43, 0x44] ++ encode [⟨1, .bytes []⟩])).length = 7 := by
    simp [Field.encode, Protobuf.Value.wireType, Protobuf.Value.encode, Protobuf.varint_of_lt]
  have hread := (hid.append (hgroup.append hname)).unmarshal_eq (Nat.lt_of_le_of_lt (Nat.le_of_eq hlength) (by decide))
  have h := (marshal_unmarshal ⟨1, 0⟩ 1).1 _ _ (by rw [hlength]; decide) hread
  rwa [hlength] at h

end LibraryLink.Go
