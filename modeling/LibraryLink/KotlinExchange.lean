import LibraryLink.KotlinRequests
import LibraryLink.Z3Receiver

/-!
# The Kotlin side of a request

`ProtoBufDataExchange` of `ProcessDataExchange.kt`: the message of a request and what is made of the response to it, and the C++
receiver as what `sendRequest` reaches. Framing and callbacks are not part of this level.
-/

namespace LibraryLink.Kotlin

/-- What is thrown: by the exchange, by `sendRequest` where the receiver has ended, or by `StringBuilder`. -/
inductive Thrown where
  | illegalArgument
  | notImplemented
  | classCast
  | libraryLink (message : String)
  | closed
  | negativeArraySize
  deriving DecidableEq, Repr

/-! ## Objects -/

/-- What is passed and returned: a `Handle`, by its assigned id, or a value. -/
inductive Instance where
  | handle (assignedID : String)
  | value (v : AnyValue)
  deriving DecidableEq, Repr

/-- `Argument(obj, key)` -/
def Argument.of (obj : Instance) (key : Option String) : Argument :=
  match obj with
  | .handle assignedID => ⟨"persistence", .string assignedID, key⟩
  | .value v => ⟨"inplace", v, key⟩

/-- The classes that `asInstanceOf` and `calculatePrimitiveTypeName` tell apart: `long` and `boolean` as a primitive type or as the
class of its objects, and one of `Handle` by its `simpleName`. -/
inductive Clazz where
  | long (boxed : Bool)
  | int
  | char
  | boolean (boxed : Bool)
  | handle (simpleName : String)
  deriving DecidableEq, Repr

/-! ## Messages -/

/-- `toProtobuf` of an `Argument` -/
def Argument.toProtobuf (a : Argument) : Except Thrown Exchange.Argument :=
  if a.type = "persistence" then .ok ⟨.persistence, a.value.toValue, a.key.getD ""⟩
  else if a.type = "inplace" then .ok ⟨.inplace, a.value.toValue, a.key.getD ""⟩
  else .error .illegalArgument

/-- `toProtobuf` of a `MethodCallRequest` -/
def MethodCallRequest.toProtobuf (r : MethodCallRequest Argument) : Except Thrown Exchange.MethodCallRequest := do
  let arg ← r.args.mapM Argument.toProtobuf
  return {
    methodName := r.methodName, type := r.type, objectId := r.objectID, arg, static := r.isStatic,
    doGetReturnValue := r.doGetReturnValue, property := r.isProperty }

/-- `toProtobuf` of an `ImportRequest` -/
def ImportRequest.toProtobuf (r : ImportRequest) : Exchange.ImportRequest := ⟨r.importedName⟩

/-- `toProtobuf` of a `ConstructorRequest` -/
def ConstructorRequest.toProtobuf (r : ConstructorRequest Argument) : Except Thrown Exchange.ConstructorRequest := do
  let arg ← r.args.mapM Argument.toProtobuf
  return ⟨r.className, arg⟩

/-- `toProtobuf` of a `Request` -/
def Request.toProtobuf : Request Argument → Except Thrown Exchange.Request
  | .methodCall r => do
    let call ← r.toProtobuf
    return ⟨some (.methodCall call), r.assignedID⟩
  | .importation r => .ok ⟨some (.importation r.toProtobuf), r.assignedID⟩
  | .constructor r => do
    let constructor ← r.toProtobuf
    return ⟨some (.constructor constructor), r.assignedID⟩
  | _ => .error .notImplemented

/-! ## Responses -/

/-- `ProcessExchangeResponse` -/
inductive ProcessExchangeResponse where
  | primitive (rawValue : AnyValue) (assignedID : String)
  | handle (assignedID : String)
  deriving DecidableEq, Repr

/-- `assignedID` -/
def ProcessExchangeResponse.assignedID : ProcessExchangeResponse → String
  | .primitive _ assignedID => assignedID
  | .handle assignedID => assignedID

/-- `toProcessExchangeResponse` -/
def toProcessExchangeResponse (response : Exchange.ChannelResponse) : Except Thrown ProcessExchangeResponse :=
  match response.result with
  | some (.returnValue (.int n)) => .ok (.primitive (.number n) response.assignedId)
  | some (.returnValue (.uint n)) => .ok (.primitive (.number ((n : Int).bmod (2 ^ 64))) response.assignedId)
  | some (.returnValue (.string s)) => .ok (.primitive (.string s) response.assignedId)
  | some (.returnValue .notSet) => .error .illegalArgument
  | none => .ok (.handle response.assignedId)
  | some (.exceptionMessage text) => .error (.libraryLink text)

/-- `rawValue as Long` -/
def AnyValue.asLong : AnyValue → Except Thrown Int
  | .number long => .ok long
  | _ => .error .classCast

/-- `asInstanceOf` -/
def ProcessExchangeResponse.asInstanceOf : ProcessExchangeResponse → Clazz → Except Thrown Instance
  | .primitive .null _, .long false => .error .illegalArgument
  | .primitive rawValue _, .long false => .ok (.value rawValue)
  | .primitive rawValue _, .int => do
    let long ← rawValue.asLong
    return .value (.number (long.bmod (2 ^ 32)))
  | .primitive rawValue _, .char => do
    let long ← rawValue.asLong
    return .value (.char (UInt16.ofInt long))
  | .primitive rawValue _, .boolean _ => do
    let long ← rawValue.asLong
    return .value (.boolean (long != 0))
  | .primitive _ _, _ => .error .notImplemented
  | .handle assignedID, .handle _ => .ok (.handle assignedID)
  | .handle _, _ => .error .illegalArgument

/-! ## The exchange -/

variable {ω S : Type}

/-- `makeRequest`, over what `sendRequest` reaches. -/
def makeRequest (sendRequest : Exchange.Request → ω → Except Thrown (Exchange.ChannelResponse × ω)) (request : Request Argument)
    (w : ω) : Except Thrown (ProcessExchangeResponse × ω) := do
  let requestBinary ← request.toProtobuf
  let responseBinary ← sendRequest requestBinary w
  let response ← toProcessExchangeResponse responseBinary.1
  return (response, responseBinary.2)

/-- `sendRequest` to the C++ receiver. -/
def sendRequest (lib : Cpp.Process.Library S) (env : Cpp.Process.Env) (requestMessage : Exchange.Request)
    (s : Cpp.Process.State S) : Except Thrown (Exchange.ChannelResponse × Cpp.Process.State S) :=
  match Cpp.Process.serve lib env requestMessage.read s with
  | .ok out => .ok (.ofReceiver out.1, out.2)
  | .error _ => .error .closed

end LibraryLink.Kotlin
