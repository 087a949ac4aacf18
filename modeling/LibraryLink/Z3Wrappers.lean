import LibraryLink.ArrayHandles

/-!
# The wrappers of Z3

The classes of `Z3Kotlin.kt` with the request that each method and the constructor makes, and what is made of the response. The
declared types of the parameters and of the result are data of the wrapper, as Kotlin checks them at each call.

A text that Z3 returns is declared as a `String` and bound as a handle is; it is a class of handles of its own here.
-/

namespace LibraryLink.Kotlin.Z3Kotlin

open Cpp.Process (Elem)

/-- The classes of handles. -/
inductive HandleClass where
  | config
  | context
  | sort
  | symbol
  | ast
  | solver
  | model
  | funcDecl
  | astVector
  | string
  | errorHandler
  deriving DecidableEq, Repr

/-- The name of a class. -/
def HandleClass.simpleName : HandleClass → String
  | .config => "Z3_config"
  | .context => "Z3_context"
  | .sort => "Z3_sort"
  | .symbol => "Z3_symbol"
  | .ast => "Z3_ast"
  | .solver => "Z3_solver"
  | .model => "Z3_model"
  | .funcDecl => "Z3_func_decl"
  | .astVector => "Z3_ast_vector"
  | .string => "String"
  | .errorHandler => "Z3_error_handler"

/-- The type of a parameter: a class, `ArrayHandle` of `Char` or `Z3_ast`, `Int` or `Boolean`. -/
inductive ParamType where
  | handle (clazz : HandleClass)
  | array (elem : Elem)
  | int
  | boolean
  deriving DecidableEq, Repr

/-- The type of a result. -/
inductive ResultType where
  | handle (clazz : HandleClass)
  | int
  | boolean
  deriving DecidableEq, Repr

/-- A method of a class, or its constructor, which is static. -/
structure Wrapper where
  methodName : String
  clazz : HandleClass
  isStatic : Bool
  params : List (String × ParamType)
  result : Option ResultType
  deriving DecidableEq, Repr

/-- The request of a wrapper, called on the handle with an assigned id. -/
def Wrapper.request (w : Wrapper) (assignedID : String) (actual : List Instance) : MethodCallRequest Argument where
  methodName := w.methodName
  objectID := if w.isStatic then "" else assignedID
  type := w.clazz.simpleName
  args := List.zipWith (fun p v => Argument.of v (some p.1)) w.params actual
  isStatic := w.isStatic
  doGetReturnValue := w.result.isSome
  isProperty := false

/-- What a wrapper makes of the response: a new handle that is bound to it, the value in it, or nothing. -/
def receive (result : Option ResultType) (resp : ProcessExchangeResponse) : Except Thrown (Option Instance) :=
  match result with
  | none => return none
  | some (.handle _) => return some (.handle resp.assignedID)
  | some .int => do
    let value ← resp.asInstanceOf .int
    return some value
  | some .boolean => do
    let value ← resp.asInstanceOf (.boolean true)
    return some value

variable {ω : Type}

/-- A call of a wrapper. -/
def Wrapper.call (sendRequest : Exchange.Request → ω → Except Thrown (Exchange.ChannelResponse × ω)) (w : Wrapper)
    (assignedID : String) (actual : List Instance) (world : ω) : Except Thrown (Option Instance × ω) := do
  let resp ← makeRequest sendRequest (.methodCall (w.request assignedID actual)) world
  let returned ← receive w.result resp.1
  return (returned, resp.2)

/-! ## The methods -/

def z3MkConfig : Wrapper :=
  ⟨"Z3_mk_config", .config, true, [], some (.handle .config)⟩

def z3MkContext : Wrapper :=
  ⟨"Z3_mk_context", .config, false, [], some (.handle .context)⟩

def z3SetParamValue : Wrapper :=
  ⟨"Z3_set_param_value", .config, false, [("param_id", .array .char), ("param_value", .array .char)], none⟩

def z3DelConfig : Wrapper :=
  ⟨"Z3_del_config", .config, false, [], none⟩

def z3MkBoolSort : Wrapper :=
  ⟨"Z3_mk_bool_sort", .context, false, [], some (.handle .sort)⟩

def z3GetRange : Wrapper :=
  ⟨"Z3_get_range", .context, false, [("d", .handle .funcDecl)], some (.handle .sort)⟩

def z3GetTupleSortFieldDecl : Wrapper :=
  ⟨"Z3_get_tuple_sort_field_decl", .context, false, [("t", .handle .sort), ("i", .int)], some (.handle .funcDecl)⟩

def z3MkIntSymbol : Wrapper :=
  ⟨"Z3_mk_int_symbol", .context, false, [("i", .int)], some (.handle .symbol)⟩

def z3MkConst : Wrapper :=
  ⟨"Z3_mk_const", .context, false, [("s", .handle .symbol), ("ty", .handle .sort)], some (.handle .ast)⟩

def z3MkAnd : Wrapper :=
  ⟨"Z3_mk_and", .context, false, [("num_args", .int), ("args", .array .ast)], some (.handle .ast)⟩

def z3MkOr : Wrapper :=
  ⟨"Z3_mk_or", .context, false, [("num_args", .int), ("args", .array .ast)], some (.handle .ast)⟩

def z3MkNot : Wrapper :=
  ⟨"Z3_mk_not", .context, false, [("a", .handle .ast)], some (.handle .ast)⟩

def z3MkIff : Wrapper :=
  ⟨"Z3_mk_iff", .context, false, [("t1", .handle .ast), ("t2", .handle .ast)], some (.handle .ast)⟩

def z3SortToString : Wrapper :=
  ⟨"Z3_sort_to_string", .context, false, [("t", .handle .sort)], some (.handle .string)⟩

def z3MkSolver : Wrapper :=
  ⟨"Z3_mk_solver", .context, false, [], some (.handle .solver)⟩

def z3SolverIncRef : Wrapper :=
  ⟨"Z3_solver_inc_ref", .context, false, [("s", .handle .solver)], none⟩

def z3SolverDecRef : Wrapper :=
  ⟨"Z3_solver_dec_ref", .context, false, [("s", .handle .solver)], none⟩

def z3GetDatatypeSortNumConstructors : Wrapper :=
  ⟨"Z3_get_datatype_sort_num_constructors", .context, false, [("t", .handle .sort)], some .int⟩

def z3SolverAssert : Wrapper :=
  ⟨"Z3_solver_assert", .context, false, [("s", .handle .solver), ("a", .handle .ast)], none⟩

def z3SolverCheck : Wrapper :=
  ⟨"Z3_solver_check", .context, false, [("s", .handle .solver)], some .int⟩

def z3SolverCheckAssumptions : Wrapper :=
  ⟨"Z3_solver_check_assumptions", .context, false,
    [("s", .handle .solver), ("num_assumptions", .int), ("assumptions", .array .ast)], some .int⟩

def z3SolverGetUnsatCore : Wrapper :=
  ⟨"Z3_solver_get_unsat_core", .context, false, [("s", .handle .solver)], some (.handle .astVector)⟩

def z3GetTupleSortNumFields : Wrapper :=
  ⟨"Z3_get_tuple_sort_num_fields", .context, false, [("t", .handle .sort)], some .int⟩

def z3MkStringSymbol : Wrapper :=
  ⟨"Z3_mk_string_symbol", .context, false, [("s", .array .char)], some (.handle .symbol)⟩

def z3MkIntSort : Wrapper :=
  ⟨"Z3_mk_int_sort", .context, false, [], some (.handle .sort)⟩

def z3SolverGetModel : Wrapper :=
  ⟨"Z3_solver_get_model", .context, false, [("s", .handle .solver)], some (.handle .model)⟩

def z3ModelIncRef : Wrapper :=
  ⟨"Z3_model_inc_ref", .context, false, [("m", .handle .model)], none⟩

def z3ModelToString : Wrapper :=
  ⟨"Z3_model_to_string", .context, false, [("m", .handle .model)], some (.handle .string)⟩

def z3ModelDecRef : Wrapper :=
  ⟨"Z3_model_dec_ref", .context, false, [("m", .handle .model)], none⟩

def z3MkAdd : Wrapper :=
  ⟨"Z3_mk_add", .context, false, [("num_args", .int), ("args", .array .ast)], some (.handle .ast)⟩

def z3MkLt : Wrapper :=
  ⟨"Z3_mk_lt", .context, false, [("t1", .handle .ast), ("t2", .handle .ast)], some (.handle .ast)⟩

def z3MkGt : Wrapper :=
  ⟨"Z3_mk_gt", .context, false, [("t1", .handle .ast), ("t2", .handle .ast)], some (.handle .ast)⟩

def z3MkEq : Wrapper :=
  ⟨"Z3_mk_eq", .context, false, [("l", .handle .ast), ("r", .handle .ast)], some (.handle .ast)⟩

def z3MkInt : Wrapper :=
  ⟨"Z3_mk_int", .context, false, [("v", .int), ("ty", .handle .sort)], some (.handle .ast)⟩

def z3SetErrorHandler : Wrapper :=
  ⟨"Z3_set_error_handler", .context, false, [("h", .handle .errorHandler)], none⟩

def z3GetSymbolKind : Wrapper :=
  ⟨"Z3_get_symbol_kind", .context, false, [("s", .handle .symbol)], some .int⟩

def z3GetSymbolInt : Wrapper :=
  ⟨"Z3_get_symbol_int", .context, false, [("s", .handle .symbol)], some .int⟩

def z3GetSymbolString : Wrapper :=
  ⟨"Z3_get_symbol_string", .context, false, [("s", .handle .symbol)], some (.handle .string)⟩

def z3ModelGetNumConsts : Wrapper :=
  ⟨"Z3_model_get_num_consts", .context, false, [("m", .handle .model)], some .int⟩

def z3ModelGetConstDecl : Wrapper :=
  ⟨"Z3_model_get_const_decl", .context, false, [("m", .handle .model), ("i", .int)], some (.handle .funcDecl)⟩

def z3GetDeclName : Wrapper :=
  ⟨"Z3_get_decl_name", .context, false, [("d", .handle .funcDecl)], some (.handle .symbol)⟩

def z3MkApp : Wrapper :=
  ⟨"Z3_mk_app", .context, false, [("d", .handle .funcDecl), ("num_args", .int), ("args", .array .ast)], some (.handle .ast)⟩

def z3ModelEval : Wrapper :=
  ⟨"Z3_model_eval", .context, false,
    [("m", .handle .model), ("t", .handle .ast), ("model_completion", .boolean), ("v", .handle .ast)], some .boolean⟩

def z3GetAstKind : Wrapper :=
  ⟨"Z3_get_ast_kind", .context, false, [("a", .handle .ast)], some .int⟩

def z3GetNumeralString : Wrapper :=
  ⟨"Z3_get_numeral_string", .context, false, [("a", .handle .ast)], none⟩

def z3GetSort : Wrapper :=
  ⟨"Z3_get_sort", .context, false, [("a", .handle .ast)], some (.handle .sort)⟩

def z3GetSortKind : Wrapper :=
  ⟨"Z3_get_sort_kind", .context, false, [("t", .handle .sort)], some .int⟩

def z3GetSortName : Wrapper :=
  ⟨"Z3_get_sort_name", .context, false, [("d", .handle .sort)], some (.handle .symbol)⟩

def z3GetBvSortSize : Wrapper :=
  ⟨"Z3_get_bv_sort_size", .context, false, [("t", .handle .sort)], some .int⟩

def z3GetArraySortDomain : Wrapper :=
  ⟨"Z3_get_array_sort_domain", .context, false, [("t", .handle .sort)], some (.handle .sort)⟩

def z3GetArraySortRange : Wrapper :=
  ⟨"Z3_get_array_sort_range", .context, false, [("t", .handle .sort)], some (.handle .sort)⟩

def z3DelContext : Wrapper :=
  ⟨"Z3_del_context", .context, false, [], none⟩

/-- The methods of `Z3_config`, with the constructor. -/
def configWrappers : List Wrapper :=
  [z3MkConfig, z3MkContext, z3SetParamValue, z3DelConfig]

/-- The methods of `Z3_context`. -/
def contextWrappers : List Wrapper :=
  [z3MkBoolSort, z3GetRange, z3GetTupleSortFieldDecl, z3MkIntSymbol, z3MkConst, z3MkAnd, z3MkOr, z3MkNot, z3MkIff,
   z3SortToString, z3MkSolver, z3SolverIncRef, z3SolverDecRef, z3GetDatatypeSortNumConstructors, z3SolverAssert, z3SolverCheck,
   z3SolverCheckAssumptions, z3SolverGetUnsatCore, z3GetTupleSortNumFields, z3MkStringSymbol, z3MkIntSort, z3SolverGetModel,
   z3ModelIncRef, z3ModelToString, z3ModelDecRef, z3MkAdd, z3MkLt, z3MkGt, z3MkEq, z3MkInt, z3SetErrorHandler, z3GetSymbolKind,
   z3GetSymbolInt, z3GetSymbolString, z3ModelGetNumConsts, z3ModelGetConstDecl, z3GetDeclName, z3MkApp, z3ModelEval,
   z3GetAstKind, z3GetNumeralString, z3GetSort, z3GetSortKind, z3GetSortName, z3GetBvSortSize, z3GetArraySortDomain,
   z3GetArraySortRange, z3DelContext]

/-- The wrappers. -/
def wrappers : List Wrapper := configWrappers ++ contextWrappers

end LibraryLink.Kotlin.Z3Kotlin
