import LibraryLink.PythonReceiver

/-!
# Requests whose fields are named as the Python receiver reads them

The branches of `process_request` that execute a command, with the messages that `main.py` takes for granted: `importation`,
`method_call`, `eval` and `constructor` with their fields, and a `ChannelResponse` with `exception_message`, `return_value_int` and
`return_value_string`. What a command does, and what the fields take, is that of an `Interpreter`.
-/

namespace LibraryLink.Python.AsRead

/-! ## Messages -/

/-- `request.method_call` -/
structure MethodCall where
  methodName : String
  objectID : String := ""
  assignedID : String := ""
  arg : List Argument := []
  property : Bool := false
  doGetReturnValue : Bool := false

/-- The attributes of a method call. -/
def MethodCall.message (call : MethodCall) : Message where
  strings := [("methodName", call.methodName), ("objectID", call.objectID), ("assignedID", call.assignedID)]
  bools := [("property", call.property), ("doGetReturnValue", call.doGetReturnValue)]
  repeated := [("arg", call.arg)]

/-- `request.eval` -/
structure Eval where
  executedCode : String
  assignedID : String := ""
  args : List Argument := []
  doGetReturnValue : Bool := false

/-- `request.constructor` -/
structure Constructor where
  className : String
  assignedID : String := ""
  args : List Argument := []

/-- `exchange_pb2.Request`, with the field that is set. -/
inductive Request where
  | importation (importedName : String)
  | methodCall (call : MethodCall)
  | eval (code : Eval)
  | constructor (construction : Constructor)

/-- `exchange_pb2.ChannelResponse` -/
structure ChannelResponse where
  exceptionMessage : Option String := none
  returnValueInt : Option Int := none
  returnValueString : Option String := none
  deriving DecidableEq, Repr

/-- A frame that the receiver writes. -/
inductive Written where
  | response (response : ChannelResponse)
  | callbackRequest (request : CallbackRequest)
  deriving DecidableEq, Repr

/-! ## The state -/

/-- The objects by their names, the frames written so far, and all else that a command can change. -/
structure State (W : Type) where
  persistence : Dict := {}
  written : List Written := []
  world : W

/-- An exception that a command has raised, by its `repr`, which is code of its class and may raise. -/
structure Raised where
  repr : Except Error String

/-- What the receiver uses of Python and of the generated classes: `exec`, `str.format`, and whether a field takes a number or a text,
so that the response can be written. -/
structure Interpreter (W : Type) where
  exec : String → State W → Option Raised × State W
  format : String → List Decoded → Except Error String
  takesInt : Int → Bool
  takesStr : String → Bool

variable {W : Type}

/-! ## `process_request` -/

/-- `execute_command` -/
def executeCommand (py : Interpreter W) (command : String) (s : State W) : Option Raised × State W := py.exec command s

/-- `response.return_value_int = n` -/
def setInt (py : Interpreter W) (response : ChannelResponse) (n : Int) : Except Error ChannelResponse :=
  if py.takesInt n then .ok { response with returnValueInt := some n } else .error (.valueError "return_value_int")

/-- `put_return_value`; a `bool` is an `int`. -/
def putReturnValue (py : Interpreter W) (varName : String) (response : ChannelResponse) (s : State W) :
    Except Error ChannelResponse :=
  match s.persistence.get varName with
  | none => .error (.keyError varName)
  | some (.int n) => setInt py response n
  | some (.bool b) => setInt py response b.toNat
  | some (.str t) =>
    if py.takesStr t then .ok { response with returnValueString := some t } else .error (.valueError "return_value_string")
  | some (.object _) => .ok response

/-- The end of the branches for a method call and for `eval`. -/
def answer (py : Interpreter W) (exception : Option Raised) (doGetReturnValue : Bool) (varName : String) (s : State W) :
    Except Error ChannelResponse :=
  match exception with
  | some exception => do
    let text ← exception.repr
    if py.takesStr text then .ok { exceptionMessage := some text } else .error (.valueError "exception_message")
  | none => if doGetReturnValue then putReturnValue py varName {} s else .ok {}

/-- `format_executed_code` -/
def formatExecutedCode (py : Interpreter W) (message : Eval) : Except Error String := do
  let args ← message.args.mapM decodeArg
  let command ← py.format message.executedCode args
  return message.assignedID ++ " = " ++ command

/-- The branches of `process_request`, for the tag REQUEST. -/
def processBranches (py : Interpreter W) (request : Request) (s : State W) : Except Error ChannelResponse × State W :=
  match request with
  | .importation importedName =>
    let (_, s) := executeCommand py ("import " ++ importedName ++ ";") s
    (.ok {}, s)
  | .methodCall call =>
    match prepareCommand call.message with
    | .error e => (.error e, s)
    | .ok command =>
      let (exception, s) := executeCommand py command s
      (answer py exception call.doGetReturnValue call.assignedID s, s)
  | .eval code =>
    match formatExecutedCode py code with
    | .error e => (.error e, s)
    | .ok command =>
      let (exception, s) := executeCommand py command s
      (answer py exception code.doGetReturnValue code.assignedID s, s)
  | .constructor construction =>
    match decodeArgs construction.args with
    | .error e => (.error e, s)
    | .ok args =>
      let command := construction.assignedID ++ " = " ++ construction.className ++ "(" ++ args ++ ")"
      let (_, s) := executeCommand py command s
      (.ok {}, s)

/-- `process_request`, for a request that has been parsed. -/
def processRequest (py : Interpreter W) (request : Request) (s : State W) : Except Error Unit × State W :=
  match processBranches py request s with
  | (.error e, s) => (.error e, s)
  | (.ok response, s) => (.ok (), { s with written := s.written ++ [.response response] })

end LibraryLink.Python.AsRead
