import LibraryLink.General.Protobuf
import LibraryLink.KotlinExchange

/-!
# The bytes of a request

The serialization of the requests of `exchange.proto` that the Kotlin side sends: fields in the order of their numbers, those with a
default value left out.

The Kotlin code sets a field `doGetReturnValue` of a method call that `exchange.proto` does not declare, and the header that
was generated for the C++ receiver does, with number 5. The parameter `declared` says whether the message has it.
-/

namespace LibraryLink.Exchange

open Protobuf (Field stringField boolField utf8)
open Cpp.Process (Value ArgumentType)

/-- The fields of a `Value`; the one that is set is there whatever its value is. -/
def valueFields : Value → List Field
  | .notSet => []
  | .string s => [⟨2, .bytes (utf8 s)⟩]
  | .int n => [⟨3, .fixed64 (n % 2 ^ 64).toNat⟩]
  | .uint n => [⟨5, .fixed64 n⟩]

/-- The fields of an argument type: `PERSISTENCE` is the default. -/
def typeField : ArgumentType → List Field
  | .persistence => []
  | .inplace => [⟨1, .varint 1⟩]

/-- The fields of an `Argument`, whose `value` is always set. -/
def Argument.fields (a : Argument) : List Field :=
  typeField a.type ++ [⟨3, .bytes (Protobuf.encode (valueFields a.value))⟩] ++ stringField 4 a.key

/-- The fields of a `MethodCallRequest` -/
def MethodCallRequest.fields (declared : Bool) (r : MethodCallRequest) : List Field :=
  stringField 1 r.methodName ++ stringField 2 r.objectId ++
    r.arg.map (fun a => ⟨3, .bytes (Protobuf.encode a.fields)⟩) ++ boolField 4 r.static ++
    boolField 5 (declared && r.doGetReturnValue) ++ boolField 6 r.property ++ stringField 8 r.type

/-- The fields of an `ImportRequest` -/
def ImportRequest.fields (r : ImportRequest) : List Field := stringField 1 r.importedName

/-- The fields of a `ConstructorRequest` -/
def ConstructorRequest.fields (r : ConstructorRequest) : List Field :=
  stringField 1 r.className ++ r.arg.map fun a => ⟨2, .bytes (Protobuf.encode a.fields)⟩

/-- The field of `oneof request` -/
def RequestCase.field (declared : Bool) : RequestCase → Field
  | .methodCall r => ⟨1, .bytes (Protobuf.encode (r.fields declared))⟩
  | .importation r => ⟨2, .bytes (Protobuf.encode r.fields)⟩
  | .constructor r => ⟨3, .bytes (Protobuf.encode r.fields)⟩
  | .eval b => ⟨4, .varint b.toNat⟩
  | .dynamicInherit b => ⟨5, .varint b.toNat⟩

/-- The fields of a `Request` -/
def Request.fields (declared : Bool) (r : Request) : List Field :=
  (r.request.map (RequestCase.field declared)).toList ++ stringField 7 r.assignedId

/-- `toByteArray`: an array has less than 2^31 bytes. -/
def Request.toByteArray (declared : Bool) (r : Request) : Option (List UInt8) :=
  let bytes := Protobuf.encode (r.fields declared)
  if bytes.length < 2 ^ 31 then some bytes else none

end LibraryLink.Exchange

namespace LibraryLink.Kotlin

/-- `toProtobuf` of a method call, down to the bytes -/
def MethodCallRequest.toByteArray (declared : Bool) (r : MethodCallRequest Argument) : Option (List UInt8) :=
  match (Request.methodCall r).toProtobuf with
  | .ok m => m.toByteArray declared
  | .error _ => none

end LibraryLink.Kotlin
