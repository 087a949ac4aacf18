import LibraryLink.CppReceiver

/-!
# The messages between the two sides

The messages of `exchange.proto`, with all fields that the Kotlin code reads and writes; `Value` and `ArgumentType` are those of the
receiver. What the C++ receiver looks at in a request, and what its responses are for the client.

Serialization is protobuf's, and a message parsed is the message serialized.
-/

namespace LibraryLink.Exchange

open Cpp.Process (Value ArgumentType)

/-- The message `Argument`. -/
structure Argument where
  type : ArgumentType
  value : Value
  key : String := ""
  deriving DecidableEq, Repr

/-- The message `MethodCallRequest`. -/
structure MethodCallRequest where
  methodName : String := ""
  objectId : String := ""
  type : String := ""
  arg : List Argument := []
  static : Bool := false
  doGetReturnValue : Bool := false
  property : Bool := false
  deriving DecidableEq, Repr

/-- The message `ImportRequest`. -/
structure ImportRequest where
  importedName : String := ""
  deriving DecidableEq, Repr

/-- The message `ConstructorRequest`. -/
structure ConstructorRequest where
  className : String := ""
  arg : List Argument := []
  deriving DecidableEq, Repr

/-- `oneof request` of the message `Request`. -/
inductive RequestCase where
  | methodCall (request : MethodCallRequest)
  | importation (request : ImportRequest)
  | constructor (request : ConstructorRequest)
  | eval (value : Bool)
  | dynamicInherit (value : Bool)
  deriving DecidableEq, Repr

/-- The message `Request`. -/
structure Request where
  request : Option RequestCase := none
  assignedId : String := ""
  deriving DecidableEq, Repr

/-- `oneof result` of the message `ChannelResponse`. -/
inductive Result where
  | returnValue (value : Value)
  | exceptionMessage (text : String)
  deriving DecidableEq, Repr

/-- The message `ChannelResponse`. -/
structure ChannelResponse where
  result : Option Result := none
  assignedId : String := ""
  deriving DecidableEq, Repr

/-! ## The C++ receiver's part of the messages -/

/-- An argument as the receiver reads it. -/
def Argument.read (a : Argument) : Cpp.Process.Argument := ⟨a.type, a.value⟩

/-- A method call as the receiver reads it. -/
def MethodCallRequest.read (r : MethodCallRequest) : Cpp.Process.MethodCallRequest :=
  ⟨r.methodName, r.objectId, r.type, r.arg.map Argument.read⟩

/-- A request as the receiver reads it. -/
def Request.read (r : Request) : Cpp.Process.Request where
  methodCall :=
    match r.request with
    | some (.methodCall call) => some call.read
    | _ => none
  assignedId := r.assignedId

/-- The request that `do_callback` writes: the fields it does not set have their defaults. -/
def Request.ofCallback (r : Cpp.Process.MethodCallRequest) : Request where
  request := some (.methodCall {
    methodName := r.methodName, objectId := r.objectId, type := r.type, arg := r.arg.map fun a => ⟨a.type, a.value, ""⟩ })

/-- A response of the receiver. -/
def ChannelResponse.ofReceiver (resp : Cpp.Process.ChannelResponse) : ChannelResponse where
  result :=
    match resp.result with
    | some (.returnValue n) => some (.returnValue (.int n))
    | some (.exceptionMessage text) => some (.exceptionMessage text)
    | none => none
  assignedId := resp.assignedId

end LibraryLink.Exchange
