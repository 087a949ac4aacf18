import LibraryLink.CppReceiver

/-!
# The receiver generated for Z3

The handlers and `process_request` of `z3.cpp`, in the order of the source, and the body of the loop of `process_channel`. Three
handlers name their result's type `const sem:Char[]`, which no compiler takes; it is a pointer type of its own here.
-/

namespace LibraryLink.Cpp.Process

def librarylinkZ3MkContext : Handler :=
  ⟨"Z3_mk_context", [.self .config], .handle .context⟩

def librarylinkZ3SetParamValue : Handler :=
  ⟨"Z3_set_param_value", [.self .config, .ref .charPointer 0, .ref .charPointer 1], .nothing⟩

def librarylinkZ3DelConfig : Handler :=
  ⟨"Z3_del_config", [.self .config], .nothing⟩

def librarylinkZ3MkConfig : Handler :=
  ⟨"Z3_mk_config", [], .handle .config⟩

def librarylinkZ3MkBoolSort : Handler :=
  ⟨"Z3_mk_bool_sort", [.self .context], .handle .sort⟩

def librarylinkZ3GetRange : Handler :=
  ⟨"Z3_get_range", [.self .context, .ref .funcDecl 0], .handle .sort⟩

def librarylinkZ3GetTupleSortFieldDecl : Handler :=
  ⟨"Z3_get_tuple_sort_field_decl", [.self .context, .ref .sort 0, .int 1], .handle .funcDecl⟩

def librarylinkZ3MkIntSymbol : Handler :=
  ⟨"Z3_mk_int_symbol", [.self .context, .int 0], .handle .symbol⟩

def librarylinkZ3MkConst : Handler :=
  ⟨"Z3_mk_const", [.self .context, .ref .symbol 0, .ref .sort 1], .handle .ast⟩

def librarylinkZ3MkAnd : Handler :=
  ⟨"Z3_mk_and", [.self .context, .int 0, .ref .astPointer 1], .handle .ast⟩

def librarylinkZ3MkOr : Handler :=
  ⟨"Z3_mk_or", [.self .context, .int 0, .ref .astPointer 1], .handle .ast⟩

def librarylinkZ3MkNot : Handler :=
  ⟨"Z3_mk_not", [.self .context, .ref .ast 0], .handle .ast⟩

def librarylinkZ3MkIff : Handler :=
  ⟨"Z3_mk_iff", [.self .context, .ref .ast 0, .ref .ast 1], .handle .ast⟩

def librarylinkZ3SortToString : Handler :=
  ⟨"Z3_sort_to_string", [.self .context, .ref .sort 0], .handle .constCharArray⟩

def librarylinkZ3MkSolver : Handler :=
  ⟨"Z3_mk_solver", [.self .context], .handle .solver⟩

def librarylinkZ3SolverIncRef : Handler :=
  ⟨"Z3_solver_inc_ref", [.self .context, .ref .solver 0], .nothing⟩

def librarylinkZ3SolverDecRef : Handler :=
  ⟨"Z3_solver_dec_ref", [.self .context, .ref .solver 0], .nothing⟩

def librarylinkZ3GetDatatypeSortNumConstructors : Handler :=
  ⟨"Z3_get_datatype_sort_num_constructors", [.self .context, .ref .sort 0], .int⟩

def librarylinkZ3SolverAssert : Handler :=
  ⟨"Z3_solver_assert", [.self .context, .ref .solver 0, .ref .ast 1], .nothing⟩

def librarylinkZ3SolverCheck : Handler :=
  ⟨"Z3_solver_check", [.self .context, .ref .solver 0], .int⟩

def librarylinkZ3SolverCheckAssumptions : Handler :=
  ⟨"Z3_solver_check_assumptions", [.self .context, .ref .solver 0, .int 1, .ref .astPointer 2], .int⟩

def librarylinkZ3SolverGetUnsatCore : Handler :=
  ⟨"Z3_solver_get_unsat_core", [.self .context, .ref .solver 0], .handle .astVector⟩

def librarylinkZ3GetTupleSortNumFields : Handler :=
  ⟨"Z3_get_tuple_sort_num_fields", [.self .context, .ref .sort 0], .int⟩

def librarylinkZ3MkStringSymbol : Handler :=
  ⟨"Z3_mk_string_symbol", [.self .context, .ref .charPointer 0], .handle .symbol⟩

def librarylinkZ3MkIntSort : Handler :=
  ⟨"Z3_mk_int_sort", [.self .context], .handle .sort⟩

def librarylinkZ3SolverGetModel : Handler :=
  ⟨"Z3_solver_get_model", [.self .context, .ref .solver 0], .handle .model⟩

def librarylinkZ3ModelIncRef : Handler :=
  ⟨"Z3_model_inc_ref", [.self .context, .ref .model 0], .nothing⟩

def librarylinkZ3ModelToString : Handler :=
  ⟨"Z3_model_to_string", [.self .context, .ref .model 0], .handle .constCharArray⟩

def librarylinkZ3ModelDecRef : Handler :=
  ⟨"Z3_model_dec_ref", [.self .context, .ref .model 0], .nothing⟩

def librarylinkZ3MkAdd : Handler :=
  ⟨"Z3_mk_add", [.self .context, .int 0, .ref .astPointer 1], .handle .ast⟩

def librarylinkZ3MkLt : Handler :=
  ⟨"Z3_mk_lt", [.self .context, .ref .ast 0, .ref .ast 1], .handle .ast⟩

def librarylinkZ3MkGt : Handler :=
  ⟨"Z3_mk_gt", [.self .context, .ref .ast 0, .ref .ast 1], .handle .ast⟩

def librarylinkZ3MkEq : Handler :=
  ⟨"Z3_mk_eq", [.self .context, .ref .ast 0, .ref .ast 1], .handle .ast⟩

def librarylinkZ3MkInt : Handler :=
  ⟨"Z3_mk_int", [.self .context, .int 0, .ref .sort 1], .handle .ast⟩

def librarylinkZ3SetErrorHandler : Handler :=
  ⟨"Z3_set_error_handler", [.self .context, .ref .errorHandler 0], .nothing⟩

def librarylinkZ3GetSymbolKind : Handler :=
  ⟨"Z3_get_symbol_kind", [.self .context, .ref .symbol 0], .int⟩

def librarylinkZ3GetSymbolInt : Handler :=
  ⟨"Z3_get_symbol_int", [.self .context, .ref .symbol 0], .int⟩

def librarylinkZ3GetSymbolString : Handler :=
  ⟨"Z3_get_symbol_string", [.self .context, .ref .symbol 0], .handle .constCharArray⟩

def librarylinkZ3ModelGetNumConsts : Handler :=
  ⟨"Z3_model_get_num_consts", [.self .context, .ref .model 0], .int⟩

def librarylinkZ3ModelGetConstDecl : Handler :=
  ⟨"Z3_model_get_const_decl", [.self .context, .ref .model 0, .int 1], .handle .funcDecl⟩

def librarylinkZ3GetDeclName : Handler :=
  ⟨"Z3_get_decl_name", [.self .context, .ref .funcDecl 0], .handle .symbol⟩

def librarylinkZ3MkApp : Handler :=
  ⟨"Z3_mk_app", [.self .context, .ref .funcDecl 0, .int 1, .ref .astPointer 2], .handle .ast⟩

def librarylinkZ3ModelEval : Handler :=
  ⟨"Z3_model_eval", [.self .context, .ref .model 0, .ref .ast 1, .bool 2, .ref .ast 3], .bool⟩

def librarylinkZ3GetAstKind : Handler :=
  ⟨"Z3_get_ast_kind", [.self .context, .ref .ast 0], .int⟩

def librarylinkZ3GetNumeralString : Handler :=
  ⟨"Z3_get_numeral_string", [.self .context, .ref .ast 0], .nothing⟩

def librarylinkZ3GetSort : Handler :=
  ⟨"Z3_get_sort", [.self .context, .ref .ast 0], .handle .sort⟩

def librarylinkZ3GetSortKind : Handler :=
  ⟨"Z3_get_sort_kind", [.self .context, .ref .sort 0], .int⟩

def librarylinkZ3GetSortName : Handler :=
  ⟨"Z3_get_sort_name", [.self .context, .ref .sort 0], .handle .symbol⟩

def librarylinkZ3GetBvSortSize : Handler :=
  ⟨"Z3_get_bv_sort_size", [.self .context, .ref .sort 0], .int⟩

def librarylinkZ3GetArraySortDomain : Handler :=
  ⟨"Z3_get_array_sort_domain", [.self .context, .ref .sort 0], .handle .sort⟩

def librarylinkZ3GetArraySortRange : Handler :=
  ⟨"Z3_get_array_sort_range", [.self .context, .ref .sort 0], .handle .sort⟩

def librarylinkZ3DelContext : Handler :=
  ⟨"Z3_del_context", [.self .context], .nothing⟩

/-! ## The dispatch -/

/-- What the branches of `process_request` call. -/
inductive Action where
  | library (handler : Handler)
  | set (elem : Elem)
  | get (elem : Elem)
  | memAlloc (elem : Elem)
  | strlen
  deriving DecidableEq, Repr

/-- The branches for one type of arrays. -/
def arrayRoutes (type : String) (t : String) (elem : Elem) : List (String × String × Action) :=
  [(type, "set<" ++ t ++ ">", .set elem), (type, "get<" ++ t ++ ">", .get elem), (type, "mem_alloc<" ++ t ++ ">", .memAlloc elem)]

/-- The branches for the methods of `Z3_config`. -/
def configRoutes : List (String × String × Action) :=
  [("Z3_config", "Z3_mk_context", .library librarylinkZ3MkContext),
   ("Z3_config", "Z3_set_param_value", .library librarylinkZ3SetParamValue),
   ("Z3_config", "Z3_del_config", .library librarylinkZ3DelConfig),
   ("Z3_config", "Z3_mk_config", .library librarylinkZ3MkConfig)]

/-- The branches for the methods of `Z3_context`. -/
def contextRoutes : List (String × String × Action) :=
  [("Z3_context", "Z3_mk_bool_sort", .library librarylinkZ3MkBoolSort),
   ("Z3_context", "Z3_get_range", .library librarylinkZ3GetRange),
   ("Z3_context", "Z3_get_tuple_sort_field_decl", .library librarylinkZ3GetTupleSortFieldDecl),
   ("Z3_context", "Z3_mk_int_symbol", .library librarylinkZ3MkIntSymbol),
   ("Z3_context", "Z3_mk_const", .library librarylinkZ3MkConst),
   ("Z3_context", "Z3_mk_and", .library librarylinkZ3MkAnd),
   ("Z3_context", "Z3_mk_or", .library librarylinkZ3MkOr),
   ("Z3_context", "Z3_mk_not", .library librarylinkZ3MkNot),
   ("Z3_context", "Z3_mk_iff", .library librarylinkZ3MkIff),
   ("Z3_context", "Z3_sort_to_string", .library librarylinkZ3SortToString),
   ("Z3_context", "Z3_mk_solver", .library librarylinkZ3MkSolver),
   ("Z3_context", "Z3_solver_inc_ref", .library librarylinkZ3SolverIncRef),
   ("Z3_context", "Z3_solver_dec_ref", .library librarylinkZ3SolverDecRef),
   ("Z3_context", "Z3_get_datatype_sort_num_constructors", .library librarylinkZ3GetDatatypeSortNumConstructors),
   ("Z3_context", "Z3_solver_assert", .library librarylinkZ3SolverAssert),
   ("Z3_context", "Z3_solver_check", .library librarylinkZ3SolverCheck),
   ("Z3_context", "Z3_solver_check_assumptions", .library librarylinkZ3SolverCheckAssumptions),
   ("Z3_context", "Z3_solver_get_unsat_core", .library librarylinkZ3SolverGetUnsatCore),
   ("Z3_context", "Z3_get_tuple_sort_num_fields", .library librarylinkZ3GetTupleSortNumFields),
   ("Z3_context", "Z3_mk_string_symbol", .library librarylinkZ3MkStringSymbol),
   ("Z3_context", "Z3_mk_int_sort", .library librarylinkZ3MkIntSort),
   ("Z3_context", "Z3_solver_get_model", .library librarylinkZ3SolverGetModel),
   ("Z3_context", "Z3_model_inc_ref", .library librarylinkZ3ModelIncRef),
   ("Z3_context", "Z3_model_to_string", .library librarylinkZ3ModelToString),
   ("Z3_context", "Z3_model_dec_ref", .library librarylinkZ3ModelDecRef),
   ("Z3_context", "Z3_mk_add", .library librarylinkZ3MkAdd),
   ("Z3_context", "Z3_mk_lt", .library librarylinkZ3MkLt),
   ("Z3_context", "Z3_mk_gt", .library librarylinkZ3MkGt),
   ("Z3_context", "Z3_mk_eq", .library librarylinkZ3MkEq),
   ("Z3_context", "Z3_mk_int", .library librarylinkZ3MkInt),
   ("Z3_context", "Z3_set_error_handler", .library librarylinkZ3SetErrorHandler),
   ("Z3_context", "Z3_get_symbol_kind", .library librarylinkZ3GetSymbolKind),
   ("Z3_context", "Z3_get_symbol_int", .library librarylinkZ3GetSymbolInt),
   ("Z3_context", "Z3_get_symbol_string", .library librarylinkZ3GetSymbolString),
   ("Z3_context", "Z3_model_get_num_consts", .library librarylinkZ3ModelGetNumConsts),
   ("Z3_context", "Z3_model_get_const_decl", .library librarylinkZ3ModelGetConstDecl),
   ("Z3_context", "Z3_get_decl_name", .library librarylinkZ3GetDeclName),
   ("Z3_context", "Z3_mk_app", .library librarylinkZ3MkApp),
   ("Z3_context", "Z3_model_eval", .library librarylinkZ3ModelEval),
   ("Z3_context", "Z3_get_ast_kind", .library librarylinkZ3GetAstKind),
   ("Z3_context", "Z3_get_numeral_string", .library librarylinkZ3GetNumeralString),
   ("Z3_context", "Z3_get_sort", .library librarylinkZ3GetSort),
   ("Z3_context", "Z3_get_sort_kind", .library librarylinkZ3GetSortKind),
   ("Z3_context", "Z3_get_sort_name", .library librarylinkZ3GetSortName),
   ("Z3_context", "Z3_get_bv_sort_size", .library librarylinkZ3GetBvSortSize),
   ("Z3_context", "Z3_get_array_sort_domain", .library librarylinkZ3GetArraySortDomain),
   ("Z3_context", "Z3_get_array_sort_range", .library librarylinkZ3GetArraySortRange),
   ("Z3_context", "Z3_del_context", .library librarylinkZ3DelContext)]

/-- The branches for `Char[]`. -/
def charArrays : List (String × String × Action) := arrayRoutes "Char[]" "char" .char

/-- The branches for `Z3_ast[]`. -/
def astArrays : List (String × String × Action) := arrayRoutes "Z3_ast[]" "Z3_ast" .ast

/-- The branches that compare the type and the method's name, in order. Those for arrays are there several times. -/
def routes : List (String × String × Action) :=
  configRoutes ++ contextRoutes ++ charArrays ++ charArrays ++ astArrays ++ astArrays ++ astArrays ++ astArrays ++ charArrays ++ astArrays

/-- The branch that a request takes, if there is one; that for `strlen` compares the method's name only. -/
def dispatch (r : MethodCallRequest) : Option Action :=
  match routes.find? fun route => r.type == route.1 && r.methodName == route.2.1 with
  | some route => some route.2.2
  | none => if r.methodName = "strlen" then some .strlen else none

variable {S : Type}

/-- A branch. -/
def Action.run (lib : Library S) (env : Env) (r : MethodCallRequest) (s : State S) (resp : ChannelResponse) :
    Action → Except Fault (ChannelResponse × State S)
  | .library h => h.run lib env r s resp
  | .set .char => librarylinkSetChar r s resp
  | .set .ast => librarylinkSet r s resp
  | .get .char => librarylinkGetChar r s resp
  | .get .ast => librarylinkGet r s resp
  | .memAlloc elem => librarylinkMemAlloc elem env r s resp
  | .strlen => librarylinkStrlen r s resp

/-- `process_request` -/
def processRequest (lib : Library S) (env : Env) (r : MethodCallRequest) (s : State S) (resp : ChannelResponse) :
    Except Fault (ChannelResponse × State S) :=
  match dispatch r with
  | some action => action.run lib env r s resp
  | none => .error (.thrown "error")

/-- The assigned id of the response, drawn if the request has none. -/
def assignId (rq : Request) (s : State S) : String × State S :=
  if rq.assignedId ≠ "" then (rq.assignedId, s) else s.drawId

/-- The body of the loop of `process_channel`, from the request that was parsed to the response that is written. -/
def serve (lib : Library S) (env : Env) (rq : Request) (s : State S) : Except Fault (ChannelResponse × State S) :=
  let id := assignId rq s
  match rq.methodCall with
  | some request => processRequest lib env request id.2 { assignedId := id.1 }
  | none => .ok ({ assignedId := id.1 }, id.2)

end LibraryLink.Cpp.Process
