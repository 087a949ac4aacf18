import LibraryLink.Wrappers

/-!
# The templates

What `cpp.stg` and `kotlin.stg` print for a class and for the parameters of a method: the members of a class, the declarations and
the call of a handler, and the list of arguments of a wrapper. Only the parts that depend on the model are kept of the text.
-/

namespace LibraryLink.Generator

/-! ## Classes -/

/-- A function that is printed into a class, as a method or as a constructor. -/
inductive Member where
  | method (m : Method)
  | constructor (m : Method)

/-- The method that a member is printed from. -/
def Member.source : Member → Method
  | .method m => m
  | .constructor m => m

/-- `entity` of `cpp.stg`; the handler of a constructor is printed by `function`, like any other. -/
def WrappedClass.entityCpp (c : WrappedClass) : List Member := c.methods.map .method ++ c.constructor.toList.map .constructor

/-- `entity` of `kotlin.stg` -/
def WrappedClass.entityKotlin (c : WrappedClass) : List Member := c.constructor.toList.map .constructor ++ c.methods.map .method

/-- `processingClass`: the methods that the dispatch in C++ gets an entry for. -/
def WrappedClass.processingClass (c : WrappedClass) : List Method := c.methods ++ c.constructor.toList ++ c.builtinMethods

/-! ## Handlers -/

/-- Where a handler reads a parameter: `persistence[request.object_id()]`, `persistence[request.arg(i).value().string_value()]` or
`request.arg(i).value().int_value()`. -/
inductive Source where
  | object
  | reference (index : Nat)
  | value (index : Nat)
  deriving DecidableEq, Repr

/-- The index in `request.arg(i)`. -/
def Source.index : Source → Option Nat
  | .object => none
  | .reference i => some i
  | .value i => some i

/-- The declaration of a local variable of a handler. -/
structure Declaration where
  type : String
  name : String
  source : Source
  deriving DecidableEq, Repr

/-- `arg` -/
def Arg.declaration (a : Arg) : Declaration where
  type := if a.self || a.reference then a.type ++ "*" else a.type
  name := a.name
  source := if a.self then .object else if a.reference then .reference a.index else .value a.index

/-- An operand of the call in a handler: a local variable or what it points to. -/
structure Operand where
  dereferenced : Bool
  name : String
  deriving DecidableEq, Repr

/-- `argUsage` -/
def Arg.usage (a : Arg) : Operand := { dereferenced := a.reference, name := a.name }

/-- A handler: its local variables and the operands of its call. -/
structure Handler where
  declarations : List Declaration
  operands : List Operand
  deriving DecidableEq, Repr

/-- `function` of `cpp.stg`, with `argList`. -/
def Method.function (m : Method) : Handler where
  declarations := m.args.map Arg.declaration
  operands := m.args.map Arg.usage

/-! ## Wrappers -/

/-- `Argument(value, "key")` -/
structure ArgumentObject where
  value : String
  key : String
  deriving DecidableEq, Repr

/-- `argObject` -/
def Arg.argObject (a : Arg) : ArgumentObject := { value := a.name, key := a.name }

/-- `bigList`: the list that a wrapper makes its request with. -/
def Method.bigList (m : Method) : List ArgumentObject := m.args.map Arg.argObject

end LibraryLink.Generator
