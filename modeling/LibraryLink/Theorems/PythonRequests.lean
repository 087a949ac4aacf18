import LibraryLink.PythonRequests
import LibraryLink.General.Outcome

/-!
# What the Python receiver reports of a command

A request of any kind makes a command, executes it, and makes a response of what came of it (`processBranches_eq`). A method call and
`eval` report the exception; an importation and a construction drop it, so what failed is reported like what did not.
-/

namespace LibraryLink.Python.AsRead

open Outcome

variable {W : Type}

/-! ## Commands and responses -/

/-- The command of a request. -/
def Request.command (py : Interpreter W) : Request → Except Error String
  | .importation importedName => .ok ("import " ++ importedName ++ ";")
  | .methodCall call => prepareCommand call.message
  | .eval code => formatExecutedCode py code
  | .constructor construction => do
    let args ← decodeArgs construction.args
    return construction.assignedID ++ " = " ++ construction.className ++ "(" ++ args ++ ")"

/-- Whether the request asks for the value, and the id it is to be found under. -/
def Request.asks : Request → Option String
  | .methodCall call => if call.doGetReturnValue then some call.assignedID else none
  | .eval code => if code.doGetReturnValue then some code.assignedID else none
  | _ => none

/-- Whether the branch for the request looks at the exception. -/
def Request.looksAtException : Request → Bool
  | .methodCall _ => true
  | .eval _ => true
  | _ => false

/-- The response of a request after its command. -/
def Request.response (py : Interpreter W) (request : Request) (exception : Option Raised) (s : State W) :
    Except Error ChannelResponse :=
  if request.looksAtException then answer py exception request.asks.isSome (request.asks.getD "") s else .ok {}

/-- A value is the one that a response carries; a `bool` is carried as a number. -/
def ChannelResponse.Carries (response : ChannelResponse) : Value → Prop
  | .int n => response.returnValueInt = some n ∧ response.returnValueString = none
  | .bool b => response.returnValueInt = some (b.toNat : Int) ∧ response.returnValueString = none
  | .str t => response.returnValueInt = none ∧ response.returnValueString = some t
  | .object _ => False

end LibraryLink.Python.AsRead
