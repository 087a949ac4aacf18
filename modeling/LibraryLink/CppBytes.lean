import LibraryLink.CppBatch
import LibraryLink.CppMessages
import LibraryLink.ExchangeEncoding

/-!
# Requests and responses of the C++ receiver, in bytes

The receiver with the parser and the serializer that are generated for it, between the bytes of the frames and the requests and
responses of `process_channel`. A string of C++ is any bytes; the requests of the receiver's model have those that are UTF-8.
-/

namespace LibraryLink.Cpp.Messages

open Protobuf (WireReader utf8)

/-! ## The messages of the Kotlin side -/

def Value.ofExchange : Process.Value → Value
  | .notSet => .notSet
  | .string s => .stringValue (utf8 s)
  | .int n => .intValue (BitVec.ofInt 64 n)
  | .uint n => .uintValue (BitVec.ofNat 64 n)

def ofArgumentType : Process.ArgumentType → BitVec 32
  | .persistence => 0
  | .inplace => 1

def Argument.ofExchange (a : Exchange.Argument) : Argument where
  type := ofArgumentType a.type
  value := some (.ofExchange a.value)
  key := utf8 a.key

def MethodCallRequest.ofExchange (declared : Bool) (r : Exchange.MethodCallRequest) : MethodCallRequest where
  methodName := utf8 r.methodName
  objectId := utf8 r.objectId
  type := utf8 r.type
  arg := r.arg.map .ofExchange
  static := r.static
  doGetReturnValue := declared && r.doGetReturnValue
  property := r.property

def ImportRequest.ofExchange (r : Exchange.ImportRequest) : ImportRequest := ⟨utf8 r.importedName⟩

def ConstructorRequest.ofExchange (r : Exchange.ConstructorRequest) : ConstructorRequest :=
  ⟨utf8 r.className, r.arg.map .ofExchange⟩

def RequestCase.ofExchange (declared : Bool) : Exchange.RequestCase → RequestCase
  | .methodCall r => .methodCall (.ofExchange declared r)
  | .importation r => .importation (.ofExchange r)
  | .constructor r => .constructor (.ofExchange r)
  | .eval b => .eval b
  | .dynamicInherit b => .dynamicInherit b

/-- The message that the receiver has for a message of the Kotlin side. -/
def Request.ofExchange (declared : Bool) (r : Exchange.Request) : Request where
  request := r.request.map (.ofExchange declared)
  assignedId := utf8 r.assignedId

/-! ## What the receiver reads in a message -/

/-- The string of some bytes, if they are UTF-8. -/
def text (b : List UInt8) : Option String := String.fromUTF8? b.toByteArray

def Value.read : Value → Option Process.Value
  | .notSet => some .notSet
  | .stringValue s => (text s).map .string
  | .intValue n => some (.int n.toInt)
  | .uintValue n => some (.uint n.toNat)

/-- An argument, whose `value()` is the default where none is set; only its type's first two numbers have a meaning. -/
def Argument.read (a : Argument) : Option Process.Argument := do
  let value ← (a.value.getD .notSet).read
  return ⟨if a.type = 1 then .inplace else .persistence, value⟩

def MethodCallRequest.read (r : MethodCallRequest) : Option Process.MethodCallRequest := do
  let methodName ← text r.methodName
  let objectId ← text r.objectId
  let type ← text r.type
  let arg ← r.arg.mapM Argument.read
  return ⟨methodName, objectId, type, arg⟩

/-- `switch (rq.request_case())` of `process_channel`: only a method call is looked at. -/
def Request.read (m : Request) : Option Process.Request := do
  let assignedId ← text m.assignedId
  match m.request with
  | some (.methodCall r) => do
    let call ← r.read
    return ⟨some call, assignedId⟩
  | _ => return ⟨none, assignedId⟩

/-! ## What the receiver writes -/

def Result.ofProcess : Process.Result → Result
  | .returnValue n => .returnValue (.intValue (BitVec.ofInt 64 n))
  | .exceptionMessage s => .exceptionMessage (utf8 s)

/-- The response as it is serialized. -/
def ChannelResponse.ofProcess (resp : Process.ChannelResponse) : ChannelResponse where
  result := resp.result.map .ofProcess
  assignedId := utf8 resp.assignedId

/-- The payload of the frame that is written for a response. -/
def responseBytes (resp : Process.ChannelResponse) : List UInt8 := (ChannelResponse.ofProcess resp).serializeToString.2

/-- The receiver is linked with the generated parser and serializer. -/
structure Generated {S : Type} (w : WireReader) (linked : Batch.Linked S) : Prop where
  parse : ∀ bytes rq, (Request.parseFromArray w bytes).2.read = some rq → linked.parse bytes = rq
  serialize : ∀ resp, linked.serialize resp = responseBytes resp

end LibraryLink.Cpp.Messages

namespace LibraryLink.Exchange

/-- The fields of a `ChannelResponse` -/
def ChannelResponse.fields (m : ChannelResponse) : List Protobuf.Field :=
  (match m.result with
    | some (.returnValue v) => [⟨1, .bytes (Protobuf.encode (valueFields v))⟩]
    | some (.exceptionMessage s) => [⟨3, .bytes (Protobuf.utf8 s)⟩]
    | none => []) ++
    Protobuf.stringField 7 m.assignedId

/-- A number in an argument is a `Long`, or an unsigned one of 64 bits. -/
def FitsWord : Cpp.Process.Value → Prop
  | .int n => -2 ^ 63 ≤ n ∧ n < 2 ^ 63
  | .uint n => n < 2 ^ 64
  | _ => True

/-- The arguments in a request. -/
def RequestCase.args : RequestCase → List Argument
  | .methodCall r => r.arg
  | .constructor r => r.arg
  | _ => []

/-- The numbers in a request fit. -/
def Request.FitsWords (r : Request) : Prop := ∀ c, r.request = some c → ∀ a ∈ c.args, FitsWord a.value

/-- A request of the Kotlin side as a message: it is of some kind, its numbers fit, and its bytes are an array. -/
structure Sends (declared : Bool) (r : Request) (message : Message) : Prop where
  kind : r.request ≠ none
  words : r.FitsWords
  bytes : r.toByteArray declared = some message.bytes

end LibraryLink.Exchange

namespace LibraryLink.Cpp.Process

variable {S : Type}

/-- Requests served one after the other: the responses and the state. -/
def serveEach (lib : Library S) : List Request → State S → Except Fault (List ChannelResponse × State S)
  | [], s => .ok ([], s)
  | rq :: rqs, s => do
    let first ← serve lib {} rq s
    let others ← serveEach lib rqs first.2
    return (first.1 :: others.1, others.2)

end LibraryLink.Cpp.Process
