import LibraryLink.KotlinRequests

/-!
# The wrapper generator

`generateST` and `mergeASTs` of `GeneratorST.kt`: from the functions and automata of a library to the methods and classes that the
templates are filled with. Semantic types, the search among type declarations and the preprocessing of a library are those of
`ModelParser` and are parameters; `T` is the type of semantic types.

The parts of a library that `generateST` does not read (imports, includes and converters) are left out, and of the class that a
callback method is copied with only the name is kept.
-/

namespace LibraryLink.Generator

open Kotlin (MethodCallRequest)

variable {T : Type}

/-! ## Libraries -/

/-- `TypeDecl`; the code type by its `typeName`. -/
structure TypeDecl (T : Type) where
  semanticType : T
  codeType : String

/-- `FunctionArgument` -/
structure FunctionArgument (T : Type) where
  name : String
  type : T

/-- `FunctionDecl`; the properties by their key and value. -/
structure FunctionDecl (T : Type) where
  entity : T
  name : String
  args : List (FunctionArgument T) := []
  returnValue : Option T := none
  staticName : Option String := none
  properties : List (String × String) := []
  builtin : Bool := false

/-- A shift of an automaton: the state it is `from`, and its functions. -/
structure Shift where
  fromState : String
  functions : List String

/-- `Automaton` -/
structure Automaton (T : Type) where
  name : T
  shifts : List Shift
  extendable : Bool := false

/-- `LibraryDecl` -/
structure LibraryDecl (T : Type) where
  name : String
  automata : List (Automaton T)
  types : List (TypeDecl T)
  functions : List (FunctionDecl T)

/-- What the generator uses of `ModelParser`: `typeName` and `isReference()` of a semantic type, the type `self`, `types[type]`, which
may throw, and the preprocessing for a language. -/
structure ModelParser (T : Type) where
  typeName : T → String
  isReference : T → Bool
  selfType : T
  get : List (TypeDecl T) → T → Option (TypeDecl T)
  preprocess : String → LibraryDecl T → LibraryDecl T

/-- `isSelf()` -/
def ModelParser.isSelf (parser : ModelParser T) (type : T) : Bool := parser.typeName type == "self"

/-- `mergeASTs` -/
def mergeASTs (name : String) (mergedASTs : List (LibraryDecl T)) : LibraryDecl T where
  name
  automata := mergedASTs.flatMap (·.automata)
  types := mergedASTs.flatMap (·.types)
  functions := mergedASTs.flatMap (·.functions)

/-! ## What the templates are filled with -/

/-- `class Arg` -/
structure Arg where
  type : String
  name : String
  reference : Bool
  self : Bool
  index : Nat := 0
  deriving DecidableEq

/-- `class Method` -/
structure Method where
  name : String
  args : List Arg
  request : MethodCallRequest Kotlin.Argument
  returnValue : Option String
  referenceReturn : Bool
  clazz : Option String := none
  builtin : Bool

/-- `class WrappedClass` -/
structure WrappedClass where
  name : String
  methods : List Method
  builtinMethods : List Method
  constructor : Option Method
  noExplicitConstructors : Bool

/-- The attributes added to the template. -/
structure Output where
  callbacks : List Method := []
  wrappedClasses : List WrappedClass := []
  libraryName : Option String := none

/-! ## The generator -/

/-- The arguments that are not `self` are numbered in order. -/
def numbered : Nat → List Arg → List Arg
  | _, [] => []
  | n, a :: args => if a.self then a :: numbered n args else { a with index := n } :: numbered (n + 1) args

/-- The `Arg` of an argument, before it is numbered; none where its type is not found. -/
def argOf (parser : ModelParser T) (types : List (TypeDecl T)) (a : FunctionArgument T) : Option Arg := do
  let decl ← parser.get types a.type
  return { type := decl.codeType, name := a.name, reference := parser.isReference decl.semanticType, self := parser.isSelf a.type }

/-- `generateArgs` -/
def generateArgs (parser : ModelParser T) (explicitSelf : Bool) (args : List (FunctionArgument T)) (types : List (TypeDecl T)) :
    Option (List Arg) := do
  let validArgs := if explicitSelf then args else args.filter fun a => !parser.isSelf a.type
  let generated ← validArgs.mapM (argOf parser types)
  return numbered 0 generated

/-- `withSelfTypeDecl` -/
def withSelfTypeDecl (parser : ModelParser T) (types : List (TypeDecl T)) (entity : T) : Option (List (TypeDecl T)) := do
  let decl ← parser.get types entity
  return types ++ [{ semanticType := parser.selfType, codeType := decl.codeType }]

/-- `function.staticName != null || !hasSelf` -/
def isStatic (parser : ModelParser T) (function : FunctionDecl T) : Bool :=
  function.staticName.isSome || !function.args.any fun a => parser.isSelf a.type

/-- `function.properties.any { it.key == "type" && it.value == "get" }` -/
def isProperty (function : FunctionDecl T) : Bool :=
  function.properties.any fun p => p.1 == "type" && p.2 == "get"

/-- The code type that a function returns, if it returns something. -/
def returnType (parser : ModelParser T) (types : List (TypeDecl T)) : Option T → Option (Option String)
  | none => some none
  | some type => (parser.get types type).map fun decl => some decl.codeType

/-- The method of a function; none where a type is not found. -/
def methodOf (parser : ModelParser T) (explicitSelf : Bool) (types : List (TypeDecl T)) (function : FunctionDecl T) :
    Option Method := do
  let typesWithSelf ← withSelfTypeDecl parser types function.entity
  let static := isStatic parser function
  let args ← generateArgs parser explicitSelf function.args typesWithSelf
  let returnValue ← returnType parser typesWithSelf function.returnValue
  return {
    name := function.name, args,
    request := {
      methodName := function.name, type := parser.typeName function.entity,
      objectID := if static then function.staticName.getD "" else "assignedID",
      doGetReturnValue := function.returnValue.isSome, isProperty := isProperty function, isStatic := static },
    returnValue, referenceReturn := (function.returnValue.map parser.isReference).getD false, builtin := function.builtin }

/-- `methods += method.name to method`: a name keeps its place. -/
def put (methods : List (String × Method)) (method : Method) : List (String × Method) :=
  if methods.any fun e => e.1 == method.name then
    methods.map fun e => if e.1 = method.name then (method.name, method) else e
  else methods ++ [(method.name, method)]

/-- The map of the methods of some functions. -/
def allMethods (parser : ModelParser T) (explicitSelf : Bool) (types : List (TypeDecl T)) (functions : List (FunctionDecl T)) :
    Option (List (String × Method)) :=
  functions.foldlM (fun methods function => (methodOf parser explicitSelf types function).map (put methods)) []

/-- The methods of the functions of some shifts; none where `checkNotNull` throws. -/
def shiftMethods (methods : List (String × Method)) (shifts : List Shift) : Option (List Method) :=
  (shifts.flatMap (·.functions)).mapM fun name => methods.lookup name

/-- The method of an extendable automaton, a callback; none where the `TODO()` throws. -/
def callbackOf (parser : ModelParser T) (methods : List (String × Method)) (automaton : Automaton T) : Option Method := do
  let classMethods ← shiftMethods methods automaton.shifts
  match classMethods with
  | [srcMethod] => some { srcMethod with clazz := some (parser.typeName automaton.name) }
  | _ => none

/-- `singleOrNull()` -/
def singleOrNull {α : Type} : List α → Option α
  | [a] => some a
  | _ => none

/-- The class of an automaton that is not extendable. -/
def wrappedClassOf (parser : ModelParser T) (methods : List (String × Method)) (automaton : Automaton T) : Option WrappedClass := do
  let classMethods ← shiftMethods methods (automaton.shifts.filter fun s => s.fromState ≠ "Created")
  let constructors ← shiftMethods methods (automaton.shifts.filter fun s => s.fromState = "Created")
  let constructor := singleOrNull constructors
  let name := parser.typeName automaton.name
  return {
    name, methods := classMethods,
    builtinMethods := (methods.map Prod.snd).filter fun m => m.request.type == name && m.builtin,
    constructor, noExplicitConstructors := constructor.isNone }

/-- The body of the loop over the automata. -/
def addAutomaton (parser : ModelParser T) (methods : List (String × Method)) (out : Output) (automaton : Automaton T) :
    Option Output :=
  if automaton.extendable then
    (callbackOf parser methods automaton).map fun method => { out with callbacks := out.callbacks ++ [method] }
  else
    (wrappedClassOf parser methods automaton).map fun clazz => { out with wrappedClasses := out.wrappedClasses ++ [clazz] }

/-- `generateST`; none where it throws. -/
def generateST (parser : ModelParser T) (explicitSelf : Bool) (srcLibrary : LibraryDecl T) (destinationLanguage : String) :
    Option Output := do
  guard (destinationLanguage ∈ ["kotlin", "cpp"])
  let library := parser.preprocess destinationLanguage srcLibrary
  let methods ← allMethods parser explicitSelf library.types library.functions
  let out ← library.automata.foldlM (addAutomaton parser methods) {}
  return { out with libraryName := some library.name }

end LibraryLink.Generator
