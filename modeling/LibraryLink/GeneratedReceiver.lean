import LibraryLink.Templates

/-!
# The generated receiver

What the output of `generateST` for C++ does with a request: the entries of `process_request` in the order in which `cpp.stg` prints
them, and the handlers that they call, as those of the receiver for Z3 are modelled. A builtin method is an instance of a template of
`helpers.h`.
-/

namespace LibraryLink.Generator

open Cpp.Process (Action CType Elem Env Fault Library Local Ret State loadAll passes runCallbacks update)

variable {S : Type}

/-! ## Handlers -/

/-- What a handler does with what the function returns, from `function`; none for a type other than `int` and `bool` that is no
reference. -/
def Method.ret (ctype : String → CType) (m : Method) : Option Ret :=
  match m.returnValue with
  | none => some .nothing
  | some type =>
    if m.referenceReturn then some (.handle (ctype type))
    else if type = "int" then some .int
    else if type = "bool" then some .bool
    else none

/-- The handler that is printed for a method. -/
def Method.handler (ctype : String → CType) (m : Method) : Option Cpp.Process.Handler := do
  let params ← m.params ctype
  let ret ← m.ret ctype
  return { function := m.name, params, ret }

/-- The instances of the templates. -/
def templates : List (String × Action) :=
  [("set<char>", .set .char), ("get<char>", .get .char), ("mem_alloc<char>", .memAlloc .char),
   ("set<Z3_ast>", .set .ast), ("get<Z3_ast>", .get .ast), ("mem_alloc<Z3_ast>", .memAlloc .ast)]

/-- What `librarylink_` followed by the name of a method is. -/
def Method.action (ctype : String → CType) (m : Method) : Option Action :=
  if m.builtin then templates.lookup m.name else (m.handler ctype).map .library

/-! ## The dispatch -/

/-- `processEntry` for the methods of all classes, from `processing` -/
def Output.processing (out : Output) : List Method := out.wrappedClasses.flatMap (·.processingClass)

/-- The entry that a request takes. -/
def Output.processEntry (out : Output) (r : Cpp.Process.MethodCallRequest) : Option Method :=
  out.processing.find? fun m => r.type == m.request.type && r.methodName == m.name

/-- What is called for a request, if something is; `stdlibEntries` comes last. -/
def Output.dispatch (ctype : String → CType) (out : Output) (r : Cpp.Process.MethodCallRequest) : Option Action :=
  match out.processEntry r with
  | some m => m.action ctype
  | none => if r.methodName = "strlen" then some .strlen else none

/-- `process_request` of the output. -/
def Output.processRequest (ctype : String → CType) (out : Output) (lib : Library S) (env : Env) (r : Cpp.Process.MethodCallRequest)
    (s : State S) (resp : Cpp.Process.ChannelResponse) : Except Fault (Cpp.Process.ChannelResponse × State S) :=
  match out.dispatch ctype r with
  | some action => action.run lib env r s resp
  | none => .error (.thrown "error")

/-! ## Calls -/

/-- A call of a library function in the process of the receiver, with local variables for its arguments and a result that is dealt
with. -/
def callFunction (lib : Library S) (env : Env) (function : String) (ret : Ret) (locals : List Local) (s : State S)
    (resp : Cpp.Process.ChannelResponse) : Except Fault (Cpp.Process.ChannelResponse × State S) := do
  let passed ← passes s.heap locals
  let effect ← Cpp.Process.returned (lib function passed.args passed.states)
  let s := runCallbacks env.callbacks s
  .ok (ret.finish passed.objects effect { s with heap := update s.heap passed.objects effect.states } resp)

/-- A handler makes its local variables, and then the call. -/
theorem run_eq (h : Cpp.Process.Handler) (lib : Library S) (env : Env) (r : Cpp.Process.MethodCallRequest) (s : State S)
    (resp : Cpp.Process.ChannelResponse) : h.run lib env r s resp = (do
      let locals ← loadAll r h.params s
      callFunction lib env h.function h.ret locals.1 locals.2 resp) :=
  rfl

end LibraryLink.Generator
