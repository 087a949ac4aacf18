import LibraryLink.General.SliceWriter
import LibraryLink.GoMessages

/-!
# What the Go receiver marshals

`Marshal`, `MarshalTo` and `Size` of the messages in `exchange.pb.go`, and `Unmarshal` of those that `main.go` does not read. A slice
that is made has as many bytes as `Size` counts; a write behind its end is a panic, here none. The errors that `MarshalTo` returns are
always nil, and no element of `Args` is.

An `int` has 64 bits, and sizes are counted without it here.
-/

namespace LibraryLink.Go

open SliceWriter

/-! ## Numbers -/

/-- `uint64(n)` of an `int32` -/
def uint64OfInt32 (n : Int) : Nat := (n % 2 ^ 64).toNat

/-- `encodeVarintExchange` -/
def encodeVarintExchange (v : Nat) (c : Cursor) : Option Cursor :=
  if 128 ≤ v then do
    let c ← c.put (UInt8.ofNat (v % 128 + 128))
    encodeVarintExchange (v / 128) c
  else c.put (UInt8.ofNat v)

/-- `sovExchange` -/
def sovExchange (x : Nat) : Nat := if x / 128 = 0 then 1 else 1 + sovExchange (x / 128)

/-! ## Fields -/

/-- A string, behind its tag and its length. -/
def marshalString (tag : UInt8) (s : List UInt8) (c : Cursor) : Option Cursor := do
  let c ← c.put tag
  let c ← encodeVarintExchange s.length c
  c.copy s

/-- A number, behind its tag. -/
def marshalVarint (tag : UInt8) (n : Int) (c : Cursor) : Option Cursor := do
  let c ← c.put tag
  encodeVarintExchange (uint64OfInt32 n) c

def marshalBool (tag : UInt8) (b : Bool) (c : Cursor) : Option Cursor := do
  let c ← c.put tag
  c.put (if b then 1 else 0)

/-- The fields that were not known, if there are any. -/
def marshalUnrecognized (unrecognized : List UInt8) (c : Cursor) : Option Cursor :=
  c.when (0 < unrecognized.length) fun c => c.copy unrecognized

/-- The size of a string with its tag and its length. -/
def sizeString (s : List UInt8) : Nat := 1 + s.length + sovExchange s.length

/-- `Marshal` -/
def marshal (size : Nat) (marshalTo : List UInt8 → Option (List UInt8 × Nat)) : Option (List UInt8) := do
  let (dAtA, n) ← marshalTo (List.replicate size 0)
  return dAtA.take n

/-! ## `MethodCallRequest_Argument` -/

def ArgumentValue.size : ArgumentValue → Nat
  | .stringValue s => sizeString s
  | .intValue n => 1 + sovExchange (uint64OfInt32 n)

def ArgumentValue.marshalTo : ArgumentValue → List UInt8 → Option (List UInt8 × Nat)
  | .stringValue s => run (marshalString 0x12 s)
  | .intValue n => run (marshalVarint 0x18 n)

def RawArgument.size (m : RawArgument) : Nat :=
  (if m.type ≠ 0 then 1 + sovExchange (uint64OfInt32 m.type) else 0) +
    (match m.value with
      | some value => value.size
      | none => 0) +
    (if 0 < m.key.length then sizeString m.key else 0) + m.unrecognized.length

def RawArgument.marshalTo (m : RawArgument) : List UInt8 → Option (List UInt8 × Nat) :=
  run fun c => do
    let c ← c.when (m.type ≠ 0) (marshalVarint 0x8 m.type)
    let c ← match m.value with
      | some value => c.slice value.marshalTo
      | none => some c
    let c ← c.when (0 < m.key.length) (marshalString 0x22 m.key)
    marshalUnrecognized m.unrecognized c

def RawArgument.marshal (m : RawArgument) : Option (List UInt8) := Go.marshal m.size m.marshalTo

/-! ## `MethodCallRequest` -/

def MethodCallRequest.size (m : MethodCallRequest) : Nat :=
  (if 0 < m.methodName.length then sizeString m.methodName else 0) +
    (if 0 < m.objectID.length then sizeString m.objectID else 0) +
    (m.args.map fun e => 1 + e.size + sovExchange e.size).sum +
    (if m.static then 2 else 0) + (if m.doGetReturnValue then 2 else 0) + (if m.property then 2 else 0) +
    (if 0 < m.assignedID.length then sizeString m.assignedID else 0) + m.unrecognized.length

def MethodCallRequest.marshalTo (m : MethodCallRequest) : List UInt8 → Option (List UInt8 × Nat) :=
  run fun c => do
    let c ← c.when (0 < m.methodName.length) (marshalString 0xa m.methodName)
    let c ← c.when (0 < m.objectID.length) (marshalString 0x12 m.objectID)
    let c ← m.args.foldlM (fun c msg => do
      let c ← c.put 0x1a
      let c ← encodeVarintExchange msg.size c
      c.slice msg.marshalTo) c
    let c ← c.when (m.static = true) (marshalBool 0x20 m.static)
    let c ← c.when (m.doGetReturnValue = true) (marshalBool 0x28 m.doGetReturnValue)
    let c ← c.when (m.property = true) (marshalBool 0x30 m.property)
    let c ← c.when (0 < m.assignedID.length) (marshalString 0x3a m.assignedID)
    marshalUnrecognized m.unrecognized c

def MethodCallRequest.marshal (m : MethodCallRequest) : Option (List UInt8) := Go.marshal m.size m.marshalTo

/-! ## `ImportRequest` -/

structure ImportRequest where
  importedName : List UInt8 := []
  unrecognized : List UInt8 := []
  deriving DecidableEq, Repr

def ImportRequest.size (m : ImportRequest) : Nat :=
  (if 0 < m.importedName.length then sizeString m.importedName else 0) + m.unrecognized.length

def ImportRequest.marshalTo (m : ImportRequest) : List UInt8 → Option (List UInt8 × Nat) :=
  run fun c => do
    let c ← c.when (0 < m.importedName.length) (marshalString 0xa m.importedName)
    marshalUnrecognized m.unrecognized c

def ImportRequest.marshal (m : ImportRequest) : Option (List UInt8) := Go.marshal m.size m.marshalTo

/-- The fields of `ImportRequest` -/
def ImportRequest.fields : Int → Option (FieldCase ImportRequest)
  | 1 => some (.bytes "ImportedName" fun m s => .ok { m with importedName := s })
  | _ => none

def ImportRequest.generated : Generated ImportRequest where
  message := "ImportRequest"
  fields := fields
  append m b := { m with unrecognized := m.unrecognized ++ b }

/-- `Unmarshal` of a new request, with a stack for `calls` calls of `skipExchange` -/
def ImportRequest.unmarshal (calls : Nat) (dAtA : List UInt8) : Except Failure ImportRequest := Go.unmarshal calls generated {} dAtA

/-! ## `ChannelResponse` -/

/-- `isChannelResponse_ReturnValue` -/
inductive ReturnValue where
  | returnValueString (s : List UInt8)
  | returnValueInt (n : Int)
  | exceptionMessage (s : List UInt8)
  | noReturnValue (b : Bool)
  deriving DecidableEq, Repr

def ReturnValue.size : ReturnValue → Nat
  | .returnValueString s => sizeString s
  | .returnValueInt n => 1 + sovExchange (uint64OfInt32 n)
  | .exceptionMessage s => sizeString s
  | .noReturnValue _ => 2

def ReturnValue.marshalTo : ReturnValue → List UInt8 → Option (List UInt8 × Nat)
  | .returnValueString s => run (marshalString 0xa s)
  | .returnValueInt n => run (marshalVarint 0x10 n)
  | .exceptionMessage s => run (marshalString 0x1a s)
  | .noReturnValue b => run (marshalBool 0x20 b)

structure ChannelResponse where
  returnValue : Option ReturnValue := none
  unrecognized : List UInt8 := []
  deriving DecidableEq, Repr

def ChannelResponse.size (m : ChannelResponse) : Nat :=
  (match m.returnValue with
    | some returnValue => returnValue.size
    | none => 0) + m.unrecognized.length

def ChannelResponse.marshalTo (m : ChannelResponse) : List UInt8 → Option (List UInt8 × Nat) :=
  run fun c => do
    let c ← match m.returnValue with
      | some returnValue => c.slice returnValue.marshalTo
      | none => some c
    marshalUnrecognized m.unrecognized c

def ChannelResponse.marshal (m : ChannelResponse) : Option (List UInt8) := Go.marshal m.size m.marshalTo

/-- The fields of `ChannelResponse` -/
def ChannelResponse.fields : Int → Option (FieldCase ChannelResponse)
  | 1 => some (.bytes "ReturnValueString" fun m s => .ok { m with returnValue := some (.returnValueString s) })
  | 2 => some (.varint "ReturnValueInt" fun m v => { m with returnValue := some (.returnValueInt (toInt32 v)) })
  | 3 => some (.bytes "ExceptionMessage" fun m s => .ok { m with returnValue := some (.exceptionMessage s) })
  | 4 => some (.varint "NoReturnValue" fun m v => { m with returnValue := some (.noReturnValue (toInt v ≠ 0)) })
  | _ => none

def ChannelResponse.generated : Generated ChannelResponse where
  message := "ChannelResponse"
  fields := fields
  append m b := { m with unrecognized := m.unrecognized ++ b }

/-- `Unmarshal` of a new response, with a stack for `calls` calls of `skipExchange` -/
def ChannelResponse.unmarshal (calls : Nat) (dAtA : List UInt8) : Except Failure ChannelResponse :=
  Go.unmarshal calls generated {} dAtA

/-! ## Messages of Go -/

/-- An `int32` -/
def IsInt32 (n : Int) : Prop := -2 ^ 31 ≤ n ∧ n < 2 ^ 31

theorem uint64OfInt32_lt (n : Int) : uint64OfInt32 n < 2 ^ 64 := by
  unfold uint64OfInt32
  omega

theorem IsInt32.toInt32_uint64 {n : Int} (h : IsInt32 n) : toInt32 (uint64OfInt32 n) = n := by
  obtain ⟨hlo, hhi⟩ := h
  have hcast : ((uint64OfInt32 n : Nat) : Int) = n % 2 ^ 64 := Int.toNat_of_nonneg (by omega)
  unfold toInt32
  rw [hcast, Int.bmod_def]
  split <;> omega

theorem isInt32_toInt32 (n : Nat) : IsInt32 (toInt32 n) := by
  unfold IsInt32 toInt32
  rw [Int.bmod_def]
  split <;> omega

/-! ## Fields that are not known -/

/-- A whole field that is not known, which `skipExchange` gets to the end of. -/
structure Unknown {M : Type} (calls : Nat) (g : Generated M) (field : List UInt8) : Prop where
  key : ∃ wire rest, readVarint field = .ok (wire, rest) ∧ toUint64 wire % 8 ≠ 4 ∧ 0 < toInt32 (toUint64 wire / 8) ∧
    g.fields (toInt32 (toUint64 wire / 8)) = none
  skip : skipExchange calls field = .ok field.length

/-- What `XXX_unrecognized` can have: whole fields that are not known. -/
def Unrecognized {M : Type} (calls : Nat) (g : Generated M) (unrecognized : List UInt8) : Prop :=
  ∃ fields : List (List UInt8), (∀ field ∈ fields, Unknown calls g field) ∧ unrecognized = fields.flatten

/-- The numbers in an argument are of their types, and what was not known in it is whole fields. -/
structure RawArgument.Typed (stack : Stack) (m : RawArgument) : Prop where
  type : IsInt32 m.type
  value : ∀ n, m.value = some (.intValue n) → IsInt32 n
  unrecognized : Unrecognized stack.argument generated m.unrecognized

/-- The numbers in a request are of their types, and what was not known in it is whole fields. -/
structure MethodCallRequest.Typed (stack : Stack) (m : MethodCallRequest) : Prop where
  args : ∀ arg ∈ m.args, arg.Typed stack
  unrecognized : Unrecognized stack.request (generated stack) m.unrecognized

def ImportRequest.Typed (calls : Nat) (m : ImportRequest) : Prop := Unrecognized calls generated m.unrecognized

/-- The number in a response is of its type, and what was not known in it is whole fields. -/
structure ChannelResponse.Typed (calls : Nat) (m : ChannelResponse) : Prop where
  returnValue : ∀ n, m.returnValue = some (.returnValueInt n) → IsInt32 n
  unrecognized : Unrecognized calls generated m.unrecognized

end LibraryLink.Go
