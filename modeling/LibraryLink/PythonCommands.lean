import Mathlib.Data.List.Basic

/-!
# Commands of the Python receiver

`decode_arg`, `decode_args` and `prepare_command` of `main.py`. A message is what its class makes of it, a table of attributes; an
attribute that is not in the table raises `AttributeError`. The arguments are of the class that `decode_arg` reads, with the fields
`type`, `string_value`, `int_value` and `key`.
-/

namespace LibraryLink.Python

/-- The exceptions that the receiver's own code raises. -/
inductive Error where
  | attributeError (name : String)
  | valueError (name : String)
  | keyError (name : String)
  | typeError
  | decodeError
  | exception
  deriving DecidableEq, Repr

/-! ## Messages -/

/-- `Argument.ArgumentType` -/
inductive ArgumentType where
  | persistence
  | inplace
  deriving DecidableEq, Repr

/-- `exchange_pb2.Argument`; a field that `HasField` is false of is none, and the key is empty by default. -/
structure Argument where
  type : ArgumentType
  stringValue : Option String := none
  intValue : Option Int := none
  key : String := ""
  deriving DecidableEq, Repr

/-- A message, by the attributes of its class that hold strings, truth values and arguments. -/
structure Message where
  strings : List (String × String) := []
  bools : List (String × Bool) := []
  repeated : List (String × List Argument) := []

/-- An attribute in a table. -/
def getattr {α : Type} (table : List (String × α)) (name : String) : Except Error α :=
  match table.lookup name with
  | some value => .ok value
  | none => .error (.attributeError name)

/-- `message.name`, of a string. -/
def Message.str (message : Message) (name : String) : Except Error String := getattr message.strings name

/-- `message.name`, of a truth value. -/
def Message.bool (message : Message) (name : String) : Except Error Bool := getattr message.bools name

/-- `message.name`, of arguments. -/
def Message.args (message : Message) (name : String) : Except Error (List Argument) := getattr message.repeated name

/-! ## Commands -/

/-- What `decode_arg` returns: the text of an argument or a number. -/
inductive Decoded where
  | str (s : String)
  | int (n : Int)
  deriving DecidableEq, Repr

/-- A decoded argument as it is formatted with `{}`. -/
def Decoded.format : Decoded → String
  | .str s => s
  | .int n => toString n

/-- `decode_arg`, before the key: the value in quotation marks, the number, or the name in the persistence. -/
def decodeValue (arg : Argument) : Except Error Decoded :=
  match arg.type, arg.stringValue, arg.intValue with
  | .inplace, some s, _ => .ok (.str ("\"" ++ s ++ "\""))
  | .inplace, none, some n => .ok (.int n)
  | .inplace, none, none => .error .exception
  | .persistence, s, _ => .ok (.str (s.getD ""))

/-- `decode_arg` -/
def decodeArg (arg : Argument) : Except Error Decoded := do
  let decoded ← decodeValue arg
  return if arg.key = "" then decoded else .str (arg.key ++ " = " ++ decoded.format)

/-- `", ".join(decoded_args)`, which takes strings only. -/
def join : List Decoded → Except Error String
  | [] => .ok ""
  | [.str s] => .ok s
  | .str s :: l => (join l).map fun t => s ++ ", " ++ t
  | .int _ :: _ => .error .typeError

/-- `decode_args` -/
def decodeArgs (args : List Argument) : Except Error String := do
  let decoded ← args.mapM decodeArg
  join decoded

/-- `prepare_command` -/
def prepareCommand (message : Message) : Except Error String := do
  if ← message.bool "property" then
    return (← message.str "assignedID") ++ " = " ++ (← message.str "objectID") ++ "." ++ (← message.str "methodName")
  else if (← message.str "objectID") ≠ "" then
    return (← message.str "assignedID") ++ " = " ++ (← message.str "objectID") ++ "." ++ (← message.str "methodName") ++
      "(" ++ (← decodeArgs (← message.args "arg")) ++ ")"
  else
    return (← message.str "assignedID") ++ " = " ++ (← message.str "methodName") ++
      "(" ++ (← decodeArgs (← message.args "arg")) ++ ")"

end LibraryLink.Python
