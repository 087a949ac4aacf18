import LibraryLink.Generator
import LibraryLink.KotlinExchange

/-!
# Generated wrappers and handlers

What the templates make of a `Method`: the request that its wrapper in Kotlin sends (`kotlin.stg`) and the parameters of its handler
in C++ (`cpp.stg`), for the types `Int` and `Boolean` of `Kotlin.lsl` and `C.lsl` and reference types.
-/

namespace LibraryLink.Generator

open Kotlin (Instance MethodCallRequest)
open Cpp.Process (CType Param)

/-! ## The wrapper in Kotlin -/

/-- An object may be passed for a parameter of the wrapper: the Kotlin types of its declaration. -/
def Arg.Accepts (a : Arg) : Instance → Prop
  | .handle _ => a.reference = true
  | .value (.number n) => a.reference = false ∧ a.type = "Int" ∧ -2 ^ 31 ≤ n ∧ n < 2 ^ 31
  | .value (.boolean _) => a.reference = false ∧ a.type = "Boolean"
  | _ => False

/-- `requestObjectCreation`: the request that a wrapper makes, in an object with an assigned id. -/
def Method.requestObject (m : Method) (assignedID : String) (actual : List Instance) : MethodCallRequest Kotlin.Argument where
  methodName := m.request.methodName
  objectID := if m.request.isStatic then m.request.objectID else assignedID
  type := m.request.type
  args := List.zipWith (fun a v => Kotlin.Argument.of v (some a.name)) m.args actual
  isStatic := m.request.isStatic
  doGetReturnValue := m.request.doGetReturnValue
  isProperty := m.request.isProperty

/-! ## The handler in C++ -/

/-- `arg`: the local variable of a parameter; none for a type other than `int` and `bool` that is no reference. `ctype` gives the
C++ type of a name. -/
def Arg.param (ctype : String → CType) (a : Arg) : Option Param :=
  if a.self then some (.self (ctype a.type))
  else if a.reference then some (.ref (ctype a.type) a.index)
  else if a.type = "int" then some (.int a.index)
  else if a.type = "bool" then some (.bool a.index)
  else none

/-- The parameters of the handler, from `function`. -/
def Method.params (ctype : String → CType) (m : Method) : Option (List Param) := m.args.mapM (Arg.param ctype)

/-- The C++ types of the model `Z3.lsl`. -/
def z3Type (name : String) : CType :=
  if name = "Z3_context" then .context
  else if name = "Z3_sort" then .sort
  else if name = "Z3_func_decl" then .funcDecl
  else if name = "Z3_symbol" then .symbol
  else if name = "Z3_ast" then .ast
  else if name = "Z3_solver" then .solver
  else if name = "Z3_ast_vector" then .astVector
  else if name = "Z3_model" then .model
  else if name = "Z3_error_handler" then .errorHandler
  else if name = "const sem:Char[]" then .constCharArray
  else if name = "char*" then .charPointer
  else if name = "Z3_ast*" then .astPointer
  else .config

end LibraryLink.Generator
