import LibraryLink.Framing
import LibraryLink.PythonCommands
import LibraryLink.General.Tables

/-!
# The Python receiver

`process_request`, `delete_from_persistence` and the callbacks of `main.py`, with the messages of `exchange_pb2.py`. Python code that
a command runs, the parsing of messages and of JSON, and the attributes of imported objects are those of an `Interpreter`.
-/

namespace LibraryLink.Python

/-! ## Values and dictionaries -/

/-- A value, as far as the receiver looks at it: numbers, truth values, strings, and other objects by their identity. -/
inductive Value where
  | int (n : Int)
  | bool (b : Bool)
  | str (s : String)
  | object (id : Nat)
  deriving DecidableEq, Repr

/-- A `dict` whose keys are strings, in the order of `items()`. -/
abbrev Dict := Table String Value

/-! ## The state -/

/-- What `callback_argument` makes of an argument; its `"key"` is always `None`. -/
structure Entry where
  value : Value
  type : ArgumentType
  deriving DecidableEq, Repr

/-- The request of a callback, which is written as JSON. -/
structure CallbackRequest where
  methodName : String
  objectID : String
  args : List Entry := []
  isStatic : Bool := false
  doGetReturnValue : Bool := false
  property : Bool := false
  assignedID : Value := .str ""
  deriving DecidableEq, Repr

/-- `exchange_pb2.ChannelResponse`, as far as it is assigned to. -/
structure ChannelResponse where
  exceptionMessage : Option String := none
  deriving DecidableEq, Repr

/-- A frame that the receiver writes. -/
inductive Written where
  | response (response : ChannelResponse)
  | callbackRequest (request : CallbackRequest)
  deriving DecidableEq, Repr

/-- The tag of a frame. -/
def Written.tag : Written → Tag
  | .response _ => .response
  | .callbackRequest _ => .callbackRequest

/-- The class variables of `RequestsReceiver`, and the frames written so far. -/
structure State where
  persistence : Dict := {}
  globals : Dict := {}
  callbackIndex : Nat := 0
  written : List Written := []

/-- Code that may raise: what it did to the state stays. -/
abbrev Code := ExceptT Error (StateM State)

/-- A value, or an exception raised without an effect. -/
def Code.ofExcept {α : Type} (x : Except Error α) : Code α := fun s => (x, s)

/-! ## Requests -/

/-- The field of `exchange_pb2.Request` that is set, of its five. -/
inductive RequestField where
  | methodCall (methodName objectId type : String) (static property : Bool)
  | importation (importedName : String)
  | construction (className : String)
  | eval (value : Bool)
  | dynamicInherit (value : Bool)

/-- `exchange_pb2.Request`. The arguments of a method call and of a construction are left out: they are not read. -/
structure Request where
  field : Option RequestField := none

/-- The name of the field. -/
def RequestField.name : RequestField → String
  | .methodCall .. => "method_call"
  | .importation _ => "importation"
  | .construction _ => "construction"
  | .eval _ => "eval"
  | .dynamicInherit _ => "dynamic_inherit"

/-- The fields of `Request` that `HasField` knows. -/
def fieldNames : List String := ["method_call", "importation", "construction", "eval", "dynamic_inherit"]

/-- `HasField`, which raises for a name that is not of a field. -/
def Request.hasField (request : Request) (name : String) : Except Error Bool :=
  if name ∈ fieldNames then .ok (request.field.any fun f => f.name = name) else .error (.valueError name)

/-- `request.method_call` and `request.importation` with their attributes; those of a field that is not set have default values. -/
def Request.message (request : Request) (name : String) : Message :=
  match request.field with
  | some (.methodCall methodName objectId type static property) =>
    if name = "method_call" then
      { strings := [("method_name", methodName), ("object_id", objectId), ("type", type)]
        bools := [("static", static), ("property", property)] }
    else {}
  | some (.importation importedName) => if name = "importation" then { strings := [("imported_name", importedName)] } else {}
  | _ => {}

/-- What `json.loads` returns. -/
inductive Json where
  | null
  | bool (b : Bool)
  | number (n : Int)
  | str (s : String)
  | list (l : List Json)
  | dict (l : List (String × Json))

/-- `value.name` of a value of a builtin type, for a name that is none of its attributes. -/
def builtinAttribute {α : Type} (name : String) : Except Error α := .error (.attributeError name)

/-- What the receiver uses of Python: `ParseFromString`, `json.loads`, `exec`, which gives the `repr` of the exception if the command
raised one, and `getattr`. -/
structure Interpreter where
  parseFromString : List UInt8 → Except Error Request
  loads : List UInt8 → Except Error Json
  exec : String → State → Option String × State
  getattr : Value → String → Option Value

/-- `execute_command` -/
def executeCommand (py : Interpreter) (command : String) : Code (Option String) := fun s =>
  (.ok (py.exec command s).1, (py.exec command s).2)

/-- `delete_from_persistence` -/
def deleteFromPersistence (varName : String) (s : State) : State :=
  if (s.persistence.get varName).isSome then { s with persistence := s.persistence.del varName }
  else if (s.globals.get varName).isSome then { s with globals := s.globals.del varName }
  else s

/-- `put_return_value`; a `ChannelResponse` has neither of the attributes that it assigns. -/
def putReturnValue (varName : String) : Code Unit := do
  match (← get).persistence.get varName with
  | none => throw (.keyError varName)
  | some (.int _) => throw (.attributeError "return_value_int")
  | some (.bool _) => throw (.attributeError "return_value_int")
  | some (.str _) => throw (.attributeError "return_value_string")
  | some (.object _) => return

/-- The branches of `process_request` for the tag `REQUEST`. `request.eval` and `request.dynamic_inherit` are truth values. -/
def processTagged (py : Interpreter) (request : Request) : Code ChannelResponse := do
  if ← Code.ofExcept (request.hasField "importation") then
    let importedName ← Code.ofExcept ((request.message "importation").str "importedName")
    let _ ← executeCommand py ("import " ++ importedName ++ ";")
    return {}
  else if ← Code.ofExcept (request.hasField "method_call") then
    let message := request.message "method_call"
    let command ← Code.ofExcept (prepareCommand message)
    match ← executeCommand py command with
    | some exception => return { exceptionMessage := some exception }
    | none =>
      if ← Code.ofExcept (message.bool "doGetReturnValue") then
        putReturnValue (← Code.ofExcept (message.str "assignedID"))
      return {}
  else if ← Code.ofExcept (request.hasField "eval") then
    -- `format_executed_code`
    Code.ofExcept (builtinAttribute "args")
  else if ← Code.ofExcept (request.hasField "dynamic_inherit") then
    Code.ofExcept (builtinAttribute "importName")
  else if ← Code.ofExcept (request.hasField "constructor") then
    throw (.attributeError "constructor")
  else
    throw .exception

/-- `process_request`, before the response is written. -/
def processBranches (py : Interpreter) (messageText : List UInt8) (tag : Nat) (request : Request) : Code ChannelResponse := do
  if tag = Tag.deleteFromPersistence.code then
    let _message ← Code.ofExcept (py.loads messageText)
    let varName ← Code.ofExcept (builtinAttribute "delete")
    modify (deleteFromPersistence varName)
    return {}
  else if tag = Tag.request.code then
    processTagged py request
  else
    throw .exception

/-- `process_request` -/
def processRequest (py : Interpreter) (messageText : List UInt8) (tag : Nat) : Code Unit := do
  let request ← Code.ofExcept (py.parseFromString messageText)
  let response ← processBranches py messageText tag request
  modify fun s => { s with written := s.written ++ [.response response] }

/-! ## Callbacks -/

/-- `callback_argument`: a number or a string as it is, anything else by its name in the persistence, under which it is put there if
it has none. -/
def callbackArgument (arg : Value) (s : State) : Entry × State :=
  match arg with
  | .object _ =>
    match s.persistence.items.find? fun e => e.2 = arg with
    | some e => ({ value := .str e.1, type := .persistence }, s)
    | none =>
      let key := "callback_var" ++ toString s.callbackIndex
      ({ value := .str key, type := .persistence },
        { s with persistence := s.persistence.set key arg, callbackIndex := s.callbackIndex + 1 })
  | _ => ({ value := arg, type := .inplace }, s)

/-- The loop over the arguments. -/
def callbackArguments : List Value → State → List Entry × State
  | [], s => ([], s)
  | arg :: args, s =>
    let (entry, s) := callbackArgument arg s
    let (entries, s) := callbackArguments args s
    (entry :: entries, s)

/-- `callback_handler`, up to the request that it writes; the loop that waits for the response is that of `NestedCalls`. The keyword
arguments are not used. -/
def callbackHandler (currentObject : Value) (template : CallbackRequest) (args : List Value) (s : State) :
    CallbackRequest × State :=
  let (current, s) := callbackArgument currentObject s
  let (entries, s) := callbackArguments args s
  let request := { template with assignedID := current.value, args := template.args ++ entries }
  (request, { s with written := s.written ++ [.callbackRequest request] })

/-- The function that `create_callback` returns, by the request it keeps. -/
structure Callback where
  template : CallbackRequest

/-- `create_callback` -/
def createCallback (className callbackName : String) : Callback where
  template := { methodName := callbackName, objectID := className }

/-- A call of a method with positional arguments. The function called gets them in a tuple, and the keyword arguments in a dictionary,
both made for the call. -/
structure Call where
  currentObject : Value
  args : List Value
  tuple : Nat
  dict : Nat
  tuple_new : .object tuple ∉ args
  dict_new : .object dict ∉ args

/-- The lambda: `self.callback_handler(current_object, request, args, kwargs)`. -/
def Callback.call (callback : Callback) (c : Call) (s : State) : CallbackRequest × State :=
  callbackHandler c.currentObject callback.template [.object c.tuple, .object c.dict] s

/-- A class that was inherited: its base and the methods that were set. -/
structure Class where
  base : Value
  methods : List (String × Callback)

/-- `dynamically_inherit_class`, with the names of the methods. -/
def dynamicallyInheritClass (py : Interpreter) (importName className base : String) (methods : List String) (s : State) :
    Except Error Class :=
  match s.persistence.get importName with
  | none => .error (.keyError importName)
  | some imported =>
    match py.getattr imported base with
    | none => .error (.attributeError base)
    | some base => .ok { base, methods := methods.map fun name => (name, createCallback className name) }

end LibraryLink.Python
