import LibraryLink.General.WireReader

/-!
# The messages of the C++ receiver

What `exchange.pb.cc` generates for the messages of `exchange.proto`, with the field `do_get_return_value` that only this version
of them has: `MergePartialFromCodedStream`, `MergeFrom`, `ByteSizeLong` and `SerializeWithCachedSizes`. A `std::string` is its bytes,
and the readers of the runtime library are a parameter.

The fields that are not known are left out of the messages: only a message that was parsed has them, and none of these is serialized.
-/

namespace LibraryLink.Cpp.Messages

open Protobuf (Field WireReader Case Ended Padded stringCase valueCase messageCase varint)

/-! ## The messages -/

/-- `oneof value` of the message `Value`. -/
inductive Value where
  | notSet
  | stringValue (s : List UInt8)
  | intValue (n : BitVec 64)
  | uintValue (n : BitVec 64)
  deriving DecidableEq, Repr

/-- The message `Argument`; `type` is the `int` it is. -/
structure Argument where
  type : BitVec 32 := 0
  value : Option Value := none
  key : List UInt8 := []
  deriving DecidableEq, Repr

/-- The message `MethodCallRequest`. -/
structure MethodCallRequest where
  methodName : List UInt8 := []
  objectId : List UInt8 := []
  type : List UInt8 := []
  arg : List Argument := []
  static : Bool := false
  doGetReturnValue : Bool := false
  property : Bool := false
  deriving DecidableEq, Repr

/-- The message `ImportRequest`. -/
structure ImportRequest where
  importedName : List UInt8 := []
  deriving DecidableEq, Repr

/-- The message `ConstructorRequest`. -/
structure ConstructorRequest where
  className : List UInt8 := []
  arg : List Argument := []
  deriving DecidableEq, Repr

/-- `oneof request` of the message `Request`. -/
inductive RequestCase where
  | methodCall (request : MethodCallRequest)
  | importation (request : ImportRequest)
  | constructor (request : ConstructorRequest)
  | eval (value : Bool)
  | dynamicInherit (value : Bool)
  deriving DecidableEq, Repr

/-- The message `Request`. -/
structure Request where
  request : Option RequestCase := none
  assignedId : List UInt8 := []
  deriving DecidableEq, Repr

/-- `oneof result` of the message `ChannelResponse`. -/
inductive Result where
  | returnValue (value : Value)
  | exceptionMessage (text : List UInt8)
  deriving DecidableEq, Repr

/-- The message `ChannelResponse`. -/
structure ChannelResponse where
  result : Option Result := none
  assignedId : List UInt8 := []
  deriving DecidableEq, Repr

/-! ## `mutable` -/

/-- `mutable_string_value()`: another case is cleared. -/
def Value.mutableStringValue : Value → List UInt8
  | .stringValue s => s
  | _ => []

/-- `mutable_value()`: a new one where there is none. -/
def Argument.mutableValue (m : Argument) : Value := m.value.getD .notSet

/-- `mutable_method_call()`: another case is cleared. -/
def Request.mutableMethodCall (m : Request) : MethodCallRequest :=
  match m.request with
  | some (.methodCall r) => r
  | _ => {}

/-- `mutable_importation()` -/
def Request.mutableImportation (m : Request) : ImportRequest :=
  match m.request with
  | some (.importation r) => r
  | _ => {}

/-- `mutable_constructor()` -/
def Request.mutableConstructor (m : Request) : ConstructorRequest :=
  match m.request with
  | some (.constructor r) => r
  | _ => {}

/-- `mutable_return_value()` -/
def ChannelResponse.mutableReturnValue (m : ChannelResponse) : Value :=
  match m.result with
  | some (.returnValue v) => v
  | _ => .notSet

/-- `mutable_exception_message()` -/
def ChannelResponse.mutableExceptionMessage (m : ChannelResponse) : List UInt8 :=
  match m.result with
  | some (.exceptionMessage s) => s
  | _ => []

/-! ## `MergeFrom` -/

/-- A string field takes the other's string unless that is empty. -/
def mergeString (s source : List UInt8) : List UInt8 := if source = [] then s else source

/-- A truth value takes the other's if that is true. -/
def mergeBool (b source : Bool) : Bool := if source then source else b

/-- `MergeFrom` of a `Value` -/
def Value.mergeFrom (m source : Value) : Value :=
  match source with
  | .notSet => m
  | v => v

/-- `MergeFrom` of an `Argument` -/
def Argument.mergeFrom (m source : Argument) : Argument where
  key := mergeString m.key source.key
  value :=
    match source.value with
    | some v => some (m.mutableValue.mergeFrom v)
    | none => m.value
  type := if source.type ≠ 0 then source.type else m.type

/-- `MergeFrom` of a `MethodCallRequest` -/
def MethodCallRequest.mergeFrom (m source : MethodCallRequest) : MethodCallRequest where
  arg := m.arg ++ source.arg
  methodName := mergeString m.methodName source.methodName
  objectId := mergeString m.objectId source.objectId
  type := mergeString m.type source.type
  static := mergeBool m.static source.static
  doGetReturnValue := mergeBool m.doGetReturnValue source.doGetReturnValue
  property := mergeBool m.property source.property

/-- `MergeFrom` of an `ImportRequest` -/
def ImportRequest.mergeFrom (m source : ImportRequest) : ImportRequest where
  importedName := mergeString m.importedName source.importedName

/-- `MergeFrom` of a `ConstructorRequest` -/
def ConstructorRequest.mergeFrom (m source : ConstructorRequest) : ConstructorRequest where
  arg := m.arg ++ source.arg
  className := mergeString m.className source.className

/-- `MergeFrom` of a `Request` -/
def Request.mergeFrom (m source : Request) : Request where
  assignedId := mergeString m.assignedId source.assignedId
  request :=
    match source.request with
    | some (.methodCall r) => some (.methodCall (m.mutableMethodCall.mergeFrom r))
    | some (.importation r) => some (.importation (m.mutableImportation.mergeFrom r))
    | some (.constructor r) => some (.constructor (m.mutableConstructor.mergeFrom r))
    | some (.eval b) => some (.eval b)
    | some (.dynamicInherit b) => some (.dynamicInherit b)
    | none => m.request

/-- `MergeFrom` of a `ChannelResponse` -/
def ChannelResponse.mergeFrom (m source : ChannelResponse) : ChannelResponse where
  assignedId := mergeString m.assignedId source.assignedId
  result :=
    match source.result with
    | some (.returnValue v) => some (.returnValue (m.mutableReturnValue.mergeFrom v))
    | some (.exceptionMessage s) => some (.exceptionMessage s)
    | none => m.result

/-! ## `MergePartialFromCodedStream` -/

/-- The cases of a `Value` -/
def Value.cases (w : WireReader) : Nat → Option (Case Value)
  | 2 => some (stringCase w 18 mutableStringValue fun _ s => .stringValue s)
  | 3 => some (valueCase w.readSFixed64 25 (fun _ => .notSet) fun _ n => .intValue n)
  | 5 => some (valueCase w.readFixed64 41 (fun _ => .notSet) fun _ n => .uintValue n)
  | _ => none

def Value.mergePartialFromCodedStream (w : WireReader) : List UInt8 → Value → Ended × Value := Protobuf.merge w (cases w)

/-- The cases of an `Argument` -/
def Argument.cases (w : WireReader) : Nat → Option (Case Argument)
  | 1 => some (valueCase w.readEnum 8 id fun m v => { m with type := v })
  | 3 => some (messageCase w 26 mutableValue (fun m v => { m with value := some v }) (Value.mergePartialFromCodedStream w))
  | 4 => some (stringCase w 34 (·.key) fun m s => { m with key := s })
  | _ => none

def Argument.mergePartialFromCodedStream (w : WireReader) : List UInt8 → Argument → Ended × Argument := Protobuf.merge w (cases w)

/-- The cases of a `MethodCallRequest` -/
def MethodCallRequest.cases (w : WireReader) : Nat → Option (Case MethodCallRequest)
  | 1 => some (stringCase w 10 (·.methodName) fun m s => { m with methodName := s })
  | 2 => some (stringCase w 18 (·.objectId) fun m s => { m with objectId := s })
  | 3 => some (messageCase w 26 (fun _ => {}) (fun m a => { m with arg := m.arg ++ [a] }) (Argument.mergePartialFromCodedStream w))
  | 4 => some (valueCase w.readBool 32 id fun m b => { m with static := b })
  | 5 => some (valueCase w.readBool 40 id fun m b => { m with doGetReturnValue := b })
  | 6 => some (valueCase w.readBool 48 id fun m b => { m with property := b })
  | 8 => some (stringCase w 66 (·.type) fun m s => { m with type := s })
  | _ => none

def MethodCallRequest.mergePartialFromCodedStream (w : WireReader) : List UInt8 → MethodCallRequest → Ended × MethodCallRequest :=
  Protobuf.merge w (cases w)

/-- The case of an `ImportRequest` -/
def ImportRequest.cases (w : WireReader) : Nat → Option (Case ImportRequest)
  | 1 => some (stringCase w 10 (·.importedName) fun m s => { m with importedName := s })
  | _ => none

def ImportRequest.mergePartialFromCodedStream (w : WireReader) : List UInt8 → ImportRequest → Ended × ImportRequest :=
  Protobuf.merge w (cases w)

/-- The cases of a `ConstructorRequest` -/
def ConstructorRequest.cases (w : WireReader) : Nat → Option (Case ConstructorRequest)
  | 1 => some (stringCase w 10 (·.className) fun m s => { m with className := s })
  | 2 => some (messageCase w 18 (fun _ => {}) (fun m a => { m with arg := m.arg ++ [a] }) (Argument.mergePartialFromCodedStream w))
  | _ => none

def ConstructorRequest.mergePartialFromCodedStream (w : WireReader) :
    List UInt8 → ConstructorRequest → Ended × ConstructorRequest :=
  Protobuf.merge w (cases w)

/-- The cases of a `Request` -/
def Request.cases (w : WireReader) : Nat → Option (Case Request)
  | 1 => some (messageCase w 10 mutableMethodCall (fun m r => { m with request := some (.methodCall r) })
      (MethodCallRequest.mergePartialFromCodedStream w))
  | 2 => some (messageCase w 18 mutableImportation (fun m r => { m with request := some (.importation r) })
      (ImportRequest.mergePartialFromCodedStream w))
  | 3 => some (messageCase w 26 mutableConstructor (fun m r => { m with request := some (.constructor r) })
      (ConstructorRequest.mergePartialFromCodedStream w))
  | 4 => some (valueCase w.readBool 32 (fun m => { m with request := none }) fun m b => { m with request := some (.eval b) })
  | 5 => some (valueCase w.readBool 40 (fun m => { m with request := none }) fun m b => { m with request := some (.dynamicInherit b) })
  | 7 => some (stringCase w 58 (·.assignedId) fun m s => { m with assignedId := s })
  | _ => none

def Request.mergePartialFromCodedStream (w : WireReader) : List UInt8 → Request → Ended × Request := Protobuf.merge w (cases w)

/-- `ParseFromArray`, into a message that is cleared: whether it succeeds, and the message, which has what was read before a
failure. -/
def parseFromArray {M : Type} (parse : List UInt8 → M → Ended × M) (empty : M) (bytes : List UInt8) : Bool × M :=
  let m := parse bytes empty
  (m.1 = .atEnd, m.2)

/-- `ParseFromArray` of a `Request` -/
def Request.parseFromArray (w : WireReader) : List UInt8 → Bool × Request :=
  Messages.parseFromArray (mergePartialFromCodedStream w) {}

/-- The cases of a `ChannelResponse` -/
def ChannelResponse.cases (w : WireReader) : Nat → Option (Case ChannelResponse)
  | 1 => some (messageCase w 10 mutableReturnValue (fun m v => { m with result := some (.returnValue v) })
      (Value.mergePartialFromCodedStream w))
  | 3 => some (stringCase w 26 mutableExceptionMessage fun m s => { m with result := some (.exceptionMessage s) })
  | 7 => some (stringCase w 58 (·.assignedId) fun m s => { m with assignedId := s })
  | _ => none

def ChannelResponse.mergePartialFromCodedStream (w : WireReader) : List UInt8 → ChannelResponse → Ended × ChannelResponse :=
  Protobuf.merge w (cases w)

/-- `ParseFromArray` of a `ChannelResponse` -/
def ChannelResponse.parseFromArray (w : WireReader) : List UInt8 → Bool × ChannelResponse :=
  Messages.parseFromArray (mergePartialFromCodedStream w) {}

/-! ## `ByteSizeLong` -/

/-- `LengthDelimitedSize`: a length is cut to 32 bits. -/
def lengthDelimitedSize (n : Nat) : Nat := n + (varint (n % 2 ^ 32)).length

/-- A string field, left out if it is empty. -/
def stringFieldSize (s : List UInt8) : Nat := if s = [] then 0 else 1 + lengthDelimitedSize s.length

/-- A truth value, left out if it is false. -/
def boolFieldSize (b : Bool) : Nat := if b then 1 + 1 else 0

/-- `EnumSize`: the sign is extended. -/
def enumSize (v : BitVec 32) : Nat := (varint (v.signExtend 64).toNat).length

def Value.byteSizeLong : Value → Nat
  | .notSet => 0
  | .stringValue s => 1 + lengthDelimitedSize s.length
  | .intValue _ => 1 + 8
  | .uintValue _ => 1 + 8

/-- An enumeration, left out if it is zero. -/
def enumFieldSize (v : BitVec 32) : Nat := if v ≠ 0 then 1 + enumSize v else 0

def Argument.byteSizeLong (m : Argument) : Nat :=
  stringFieldSize m.key + m.value.elim 0 (fun v => 1 + lengthDelimitedSize v.byteSizeLong) + enumFieldSize m.type

/-- The arguments of a message: a tag for each, and the messages. -/
def argsSize (args : List Argument) : Nat := 1 * args.length + (args.map fun a => lengthDelimitedSize a.byteSizeLong).sum

def MethodCallRequest.byteSizeLong (m : MethodCallRequest) : Nat :=
  argsSize m.arg + stringFieldSize m.methodName + stringFieldSize m.objectId + stringFieldSize m.type + boolFieldSize m.static +
    boolFieldSize m.doGetReturnValue + boolFieldSize m.property

def ImportRequest.byteSizeLong (m : ImportRequest) : Nat := stringFieldSize m.importedName

def ConstructorRequest.byteSizeLong (m : ConstructorRequest) : Nat := argsSize m.arg + stringFieldSize m.className

/-- `switch (request_case())` of `ByteSizeLong` -/
def RequestCase.size : RequestCase → Nat
  | .methodCall r => 1 + lengthDelimitedSize r.byteSizeLong
  | .importation r => 1 + lengthDelimitedSize r.byteSizeLong
  | .constructor r => 1 + lengthDelimitedSize r.byteSizeLong
  | .eval _ => 1 + 1
  | .dynamicInherit _ => 1 + 1

def Request.byteSizeLong (m : Request) : Nat := stringFieldSize m.assignedId + m.request.elim 0 RequestCase.size

/-- `switch (result_case())` of `ByteSizeLong` -/
def Result.size : Result → Nat
  | .returnValue v => 1 + lengthDelimitedSize v.byteSizeLong
  | .exceptionMessage s => 1 + lengthDelimitedSize s.length

def ChannelResponse.byteSizeLong (m : ChannelResponse) : Nat := stringFieldSize m.assignedId + m.result.elim 0 Result.size

/-! ## `SerializeWithCachedSizes` -/

/-- `WriteString` -/
def writeString (number : Nat) (s : List UInt8) : List UInt8 := Field.encode ⟨number, .bytes s⟩

/-- `WriteBool` -/
def writeBool (number : Nat) (b : Bool) : List UInt8 := Field.encode ⟨number, .varint b.toNat⟩

/-- `WriteEnum` -/
def writeEnum (number : Nat) (v : BitVec 32) : List UInt8 := Field.encode ⟨number, .varint (v.signExtend 64).toNat⟩

/-- `WriteMessage`: the length is the one that `ByteSizeLong` has left in the message, not that of the bytes. -/
def writeMessage (number size : Nat) (bytes : List UInt8) : List UInt8 :=
  varint (8 * number + 2) ++ (varint (size % 2 ^ 32) ++ bytes)

/-- A string field, left out if it is empty. -/
def writeStringField (number : Nat) (s : List UInt8) : List UInt8 := if s = [] then [] else writeString number s

/-- A truth value, left out if it is false. -/
def writeBoolField (number : Nat) (b : Bool) : List UInt8 := if b then writeBool number b else []

def Value.serializeWithCachedSizes : Value → List UInt8
  | .notSet => []
  | .stringValue s => writeString 2 s
  | .intValue n => Field.encode ⟨3, .fixed64 n.toNat⟩
  | .uintValue n => Field.encode ⟨5, .fixed64 n.toNat⟩

/-- An enumeration, left out if it is zero. -/
def writeEnumField (number : Nat) (v : BitVec 32) : List UInt8 := if v ≠ 0 then writeEnum number v else []

def Argument.serializeWithCachedSizes (m : Argument) : List UInt8 :=
  writeEnumField 1 m.type ++ m.value.elim [] (fun v => writeMessage 3 v.byteSizeLong v.serializeWithCachedSizes) ++
    writeStringField 4 m.key

/-- The arguments of a message -/
def writeArgs (number : Nat) (args : List Argument) : List UInt8 :=
  args.flatMap fun a => writeMessage number a.byteSizeLong a.serializeWithCachedSizes

def MethodCallRequest.serializeWithCachedSizes (m : MethodCallRequest) : List UInt8 :=
  writeStringField 1 m.methodName ++ writeStringField 2 m.objectId ++ writeArgs 3 m.arg ++ writeBoolField 4 m.static ++
    writeBoolField 5 m.doGetReturnValue ++ writeBoolField 6 m.property ++ writeStringField 8 m.type

def ImportRequest.serializeWithCachedSizes (m : ImportRequest) : List UInt8 := writeStringField 1 m.importedName

def ConstructorRequest.serializeWithCachedSizes (m : ConstructorRequest) : List UInt8 :=
  writeStringField 1 m.className ++ writeArgs 2 m.arg

/-- The case of `oneof request` that is set -/
def RequestCase.serializeWithCachedSizes : RequestCase → List UInt8
  | .methodCall r => writeMessage 1 r.byteSizeLong r.serializeWithCachedSizes
  | .importation r => writeMessage 2 r.byteSizeLong r.serializeWithCachedSizes
  | .constructor r => writeMessage 3 r.byteSizeLong r.serializeWithCachedSizes
  | .eval b => writeBool 4 b
  | .dynamicInherit b => writeBool 5 b

def Request.serializeWithCachedSizes (m : Request) : List UInt8 :=
  m.request.elim [] RequestCase.serializeWithCachedSizes ++ writeStringField 7 m.assignedId

/-- The case of `oneof result` that is set -/
def Result.serializeWithCachedSizes : Result → List UInt8
  | .returnValue v => writeMessage 1 v.byteSizeLong v.serializeWithCachedSizes
  | .exceptionMessage s => writeString 3 s

def ChannelResponse.serializeWithCachedSizes (m : ChannelResponse) : List UInt8 :=
  m.result.elim [] Result.serializeWithCachedSizes ++ writeStringField 7 m.assignedId

/-- `SerializeToString`: a message of 2 GiB is refused, and the string stays empty. -/
def serializeToString (size : Nat) (bytes : List UInt8) : Bool × List UInt8 := if size < 2 ^ 31 then (true, bytes) else (false, [])

/-- `SerializeToString` of a `Request` -/
def Request.serializeToString (m : Request) : Bool × List UInt8 :=
  Messages.serializeToString m.byteSizeLong m.serializeWithCachedSizes

/-- `SerializeToString` of a `ChannelResponse` -/
def ChannelResponse.serializeToString (m : ChannelResponse) : Bool × List UInt8 :=
  Messages.serializeToString m.byteSizeLong m.serializeWithCachedSizes

/-! ## What the messages hold, as fields -/

/-- A string field, left out if it is empty. -/
def bytesField (number : Nat) (s : List UInt8) : List Field := if s = [] then [] else [⟨number, .bytes s⟩]

/-- An enumeration, left out if it is zero. -/
def enumField (number : Nat) (v : BitVec 32) : List Field := if v ≠ 0 then [⟨number, .varint (v.signExtend 64).toNat⟩] else []

/-- The fields of a `Value` -/
def Value.fields : Value → List Field
  | .notSet => []
  | .stringValue s => [⟨2, .bytes s⟩]
  | .intValue n => [⟨3, .fixed64 n.toNat⟩]
  | .uintValue n => [⟨5, .fixed64 n.toNat⟩]

/-- The fields of an `Argument` -/
def Argument.fields (m : Argument) : List Field :=
  enumField 1 m.type ++ (m.value.map fun v => ⟨3, .bytes (Protobuf.encode v.fields)⟩ : Option Protobuf.Field).toList ++
    bytesField 4 m.key

/-- The field of an argument in a message -/
def Argument.field (number : Nat) (m : Argument) : Field := ⟨number, .bytes (Protobuf.encode m.fields)⟩

/-- The fields of a `MethodCallRequest` -/
def MethodCallRequest.fields (m : MethodCallRequest) : List Field :=
  bytesField 1 m.methodName ++ bytesField 2 m.objectId ++ m.arg.map (Argument.field 3) ++ Protobuf.boolField 4 m.static ++
    Protobuf.boolField 5 m.doGetReturnValue ++ Protobuf.boolField 6 m.property ++ bytesField 8 m.type

/-- The fields of an `ImportRequest` -/
def ImportRequest.fields (m : ImportRequest) : List Field := bytesField 1 m.importedName

/-- The fields of a `ConstructorRequest` -/
def ConstructorRequest.fields (m : ConstructorRequest) : List Field := bytesField 1 m.className ++ m.arg.map (Argument.field 2)

/-- The field of `oneof request` -/
def RequestCase.field : RequestCase → Field
  | .methodCall r => ⟨1, .bytes (Protobuf.encode r.fields)⟩
  | .importation r => ⟨2, .bytes (Protobuf.encode r.fields)⟩
  | .constructor r => ⟨3, .bytes (Protobuf.encode r.fields)⟩
  | .eval b => ⟨4, .varint b.toNat⟩
  | .dynamicInherit b => ⟨5, .varint b.toNat⟩

/-- The fields of a `Request` -/
def Request.fields (m : Request) : List Field := (m.request.map RequestCase.field).toList ++ bytesField 7 m.assignedId

/-- The field of `oneof result` -/
def Result.field : Result → Field
  | .returnValue v => ⟨1, .bytes (Protobuf.encode v.fields)⟩
  | .exceptionMessage s => ⟨3, .bytes s⟩

/-- The fields of a `ChannelResponse` -/
def ChannelResponse.fields (m : ChannelResponse) : List Field := (m.result.map Result.field).toList ++ bytesField 7 m.assignedId

/-! ## Fields that a later version may write

The fields of a message with others among them, which the message does not have, at every level. -/

/-- A field with a message of some fields. -/
def messageField (number : Nat) (fields : List Field) : Field := ⟨number, .bytes (Protobuf.encode fields)⟩

def Value.WrittenAs (w : WireReader) (m : Value) (fields : List Field) : Prop := Padded (cases w) m.fields fields

def Argument.WrittenAs (w : WireReader) (m : Argument) (fields : List Field) : Prop :=
  ∃ value : Option (List Field), Option.Rel (Value.WrittenAs w) m.value value ∧
    Padded (cases w) (enumField 1 m.type ++ (value.map (messageField 3)).toList ++ bytesField 4 m.key) fields

def MethodCallRequest.WrittenAs (w : WireReader) (m : MethodCallRequest) (fields : List Field) : Prop :=
  ∃ args : List (List Field), List.Forall₂ (Argument.WrittenAs w) m.arg args ∧
    Padded (cases w) (bytesField 1 m.methodName ++ bytesField 2 m.objectId ++ args.map (messageField 3) ++
      Protobuf.boolField 4 m.static ++ Protobuf.boolField 5 m.doGetReturnValue ++ Protobuf.boolField 6 m.property ++
      bytesField 8 m.type) fields

def ImportRequest.WrittenAs (w : WireReader) (m : ImportRequest) (fields : List Field) : Prop := Padded (cases w) m.fields fields

def ConstructorRequest.WrittenAs (w : WireReader) (m : ConstructorRequest) (fields : List Field) : Prop :=
  ∃ args : List (List Field), List.Forall₂ (Argument.WrittenAs w) m.arg args ∧
    Padded (cases w) (bytesField 1 m.className ++ args.map (messageField 2)) fields

/-- The field of `oneof request` -/
inductive RequestCase.WrittenAs (w : WireReader) : RequestCase → Field → Prop
  | methodCall {r : MethodCallRequest} {fields : List Field} :
      r.WrittenAs w fields → RequestCase.WrittenAs w (.methodCall r) (messageField 1 fields)
  | importation {r : ImportRequest} {fields : List Field} :
      r.WrittenAs w fields → RequestCase.WrittenAs w (.importation r) (messageField 2 fields)
  | constructor {r : ConstructorRequest} {fields : List Field} :
      r.WrittenAs w fields → RequestCase.WrittenAs w (.constructor r) (messageField 3 fields)
  | eval (b : Bool) : RequestCase.WrittenAs w (.eval b) ⟨4, .varint b.toNat⟩
  | dynamicInherit (b : Bool) : RequestCase.WrittenAs w (.dynamicInherit b) ⟨5, .varint b.toNat⟩

def Request.WrittenAs (w : WireReader) (m : Request) (fields : List Field) : Prop :=
  ∃ request : Option Field, Option.Rel (RequestCase.WrittenAs w) m.request request ∧
    Padded (cases w) (request.toList ++ bytesField 7 m.assignedId) fields

/-- The field of `oneof result` -/
inductive Result.WrittenAs (w : WireReader) : Result → Field → Prop
  | returnValue {v : Value} {fields : List Field} : v.WrittenAs w fields → Result.WrittenAs w (.returnValue v) (messageField 1 fields)
  | exceptionMessage (s : List UInt8) : Result.WrittenAs w (.exceptionMessage s) ⟨3, .bytes s⟩

def ChannelResponse.WrittenAs (w : WireReader) (m : ChannelResponse) (fields : List Field) : Prop :=
  ∃ result : Option Field, Option.Rel (Result.WrittenAs w) m.result result ∧
    Padded (cases w) (result.toList ++ bytesField 7 m.assignedId) fields

end LibraryLink.Cpp.Messages
