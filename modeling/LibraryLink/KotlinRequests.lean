import LibraryLink.Exchange
import LibraryLink.General.Tables

/-!
# Requests of the Kotlin library

The data classes of `ProcessDataExchange.kt` that a `ProcessDataExchange` makes. Their `==` compares the properties of the primary
constructor, so `assignedID`, which they inherit, is left out of it. The arguments are a type parameter: `Argument` has no
`equals` of its own, and two of them are equal when they are the same object.
-/

namespace LibraryLink.Kotlin

/-- `Map<String, V>`: its entries, no two of them with one key. -/
structure StringMap (V : Type) where
  entries : List (String × V)
  nodup : (entries.map Prod.fst).Nodup

variable {A V : Type}

/-- `map[key]` -/
def StringMap.get (m : StringMap V) (key : String) : Option V := m.entries.lookup key

/-- `==` of two maps: as many entries, and each entry of the one is in the other. -/
def StringMap.equals [DecidableEq V] (m m' : StringMap V) : Bool :=
  m.entries.length == m'.entries.length && m.entries.all fun e => m'.get e.1 == some e.2

/-- A map is equal to itself. -/
theorem StringMap.equals_self [DecidableEq V] (m : StringMap V) : m.equals m = true := by
  unfold StringMap.equals StringMap.get
  rw [beq_self_eq_true, Bool.true_and, List.all_eq_true]
  intro e he
  rw [Tables.lookup_eq_some_of_mem m.nodup he]
  exact beq_self_eq_true _

/-- `IdentifiableRequest` -/
structure IdentifiableRequest where
  assignedID : String := ""

/-- `data class MethodCallRequest` -/
structure MethodCallRequest (A : Type) extends IdentifiableRequest where
  methodName : String
  objectID : String := ""
  type : String := ""
  args : List A := []
  isStatic : Bool := false
  doGetReturnValue : Bool := false
  isProperty : Bool := false

/-- `data class ConstructorRequest` -/
structure ConstructorRequest (A : Type) extends IdentifiableRequest where
  className : String
  args : List A := []

/-- `data class ImportRequest` -/
structure ImportRequest extends IdentifiableRequest where
  importedName : String

/-- `data class EvalRequest` -/
structure EvalRequest (A : Type) extends IdentifiableRequest where
  executedCode : String
  args : List A := []
  doGetReturnValue : Bool := false

/-- `data class DynamicInheritRequest` -/
structure DynamicInheritRequest (A : Type) extends IdentifiableRequest where
  importName : String
  automatonName : String
  inherits : String
  methodArguments : StringMap (List A)

/-- `data class DynamicCallbackRequest` -/
structure DynamicCallbackRequest (A : Type) extends IdentifiableRequest where
  arguments : List A

/-- `data class PersistenceFetchRequest` -/
structure PersistenceFetchRequest extends IdentifiableRequest where
  key : String

/-- `interface Request`: an object of one of the data classes. -/
inductive Request (A : Type) where
  | methodCall (r : MethodCallRequest A)
  | constructor (r : ConstructorRequest A)
  | importation (r : ImportRequest)
  | eval (r : EvalRequest A)
  | dynamicInherit (r : DynamicInheritRequest A)
  | dynamicCallback (r : DynamicCallbackRequest A)
  | persistenceFetch (r : PersistenceFetchRequest)

/-- `==` of two requests. -/
def Request.equals [DecidableEq A] : Request A → Request A → Bool
  | .methodCall r, .methodCall r' =>
    r.methodName == r'.methodName && r.objectID == r'.objectID && r.type == r'.type && r.args == r'.args &&
      r.isStatic == r'.isStatic && r.doGetReturnValue == r'.doGetReturnValue && r.isProperty == r'.isProperty
  | .constructor r, .constructor r' => r.className == r'.className && r.args == r'.args
  | .importation r, .importation r' => r.importedName == r'.importedName
  | .eval r, .eval r' =>
    r.executedCode == r'.executedCode && r.args == r'.args && r.doGetReturnValue == r'.doGetReturnValue
  | .dynamicInherit r, .dynamicInherit r' =>
    r.importName == r'.importName && r.automatonName == r'.automatonName && r.inherits == r'.inherits &&
      r.methodArguments.equals r'.methodArguments
  | .dynamicCallback r, .dynamicCallback r' => r.arguments == r'.arguments
  | .persistenceFetch r, .persistenceFetch r' => r.key == r'.key
  | _, _ => false

/-- A request is equal to itself. -/
theorem Request.equals_self [DecidableEq A] (r : Request A) : r.equals r = true := by
  cases r <;> simp [Request.equals, StringMap.equals_self]

/-! ## Arguments and values -/

/-- `Any?`, as far as the code tells its values apart; a `Number` by its `toLong()`. -/
inductive AnyValue where
  | null
  | number (long : Int)
  | char (c : UInt16)
  | string (s : String)
  | boolean (b : Bool)
  | other
  deriving DecidableEq, Repr

/-- `class Argument` -/
structure Argument where
  type : String
  value : AnyValue
  key : Option String := none
  deriving DecidableEq, Repr

/-- The `Value` that a `when (value)` builds with its branches `is Number`, `is Char` and `is String`. -/
def AnyValue.toValue : AnyValue → Cpp.Process.Value
  | .number long => .int long
  | .char c => .int c.toNat
  | .string s => .string s
  | _ => .notSet

end LibraryLink.Kotlin
