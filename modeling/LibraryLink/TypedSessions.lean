import LibraryLink.Z3Wrappers
import LibraryLink.Lemmas.ArrayHandles
import LibraryLink.Theorems.AssignedIds

/-!
# Sessions of well-typed calls

What Kotlin's types say about the handles of a session: each assigned id that was bound stands for an object of a class or for an
array of a length. The calls that these types admit, and the sessions of such calls with one C++ receiver, among what callbacks
and the requests of other clients that carry no assigned id do in between.
-/

namespace LibraryLink.Kotlin.Z3Kotlin

open Cpp.Process (CType Elem Env State IdStep)

variable {ω S : Type}

/-! ## Types -/

/-- The C++ type of the variable behind a handle of a class. -/
def HandleClass.ctype : HandleClass → CType
  | .config => .config
  | .context => .context
  | .sort => .sort
  | .symbol => .symbol
  | .ast => .ast
  | .solver => .solver
  | .model => .model
  | .funcDecl => .funcDecl
  | .astVector => .astVector
  | .string => .constCharArray
  | .errorHandler => .errorHandler

/-- What a handle stands for: an object of a class, or an array. -/
inductive HandleType where
  | object (clazz : HandleClass)
  | array (elem : Elem) (size : Nat)
  deriving DecidableEq, Repr

/-- The assigned ids that handles were bound to, with what they stand for. -/
abbrev Context := List (String × HandleType)

/-- What may be passed for a parameter. -/
inductive Context.Accepts (Γ : Context) : ParamType → Instance → Prop
  | handle (clazz : HandleClass) (assignedID : String) : (assignedID, .object clazz) ∈ Γ →
      Γ.Accepts (.handle clazz) (.handle assignedID)
  | array (elem : Elem) (size : Nat) (assignedID : String) : (assignedID, .array elem size) ∈ Γ →
      Γ.Accepts (.array elem) (.handle assignedID)
  | int (n : Int) : -2 ^ 31 ≤ n → n < 2 ^ 31 → Γ.Accepts .int (.value (.number n))
  | boolean (b : Bool) : Γ.Accepts .boolean (.value (.boolean b))

/-- What may be stored in an array. -/
inductive Context.AcceptsElement (Γ : Context) : Elem → Instance → Prop
  | char (c : UInt16) : Γ.AcceptsElement .char (.value (.char c))
  | ast (assignedID : String) : (assignedID, .object .ast) ∈ Γ → Γ.AcceptsElement .ast (.handle assignedID)

/-! ## Calls -/

/-- A call of a client. -/
inductive Call where
  | wrapper (w : Wrapper) (assignedID : String) (actual : List Instance)
  | makeArray (elem : Elem) (size : Nat)
  | get (elem : Elem) (assignedID : String) (index : Nat)
  | set (elem : Elem) (assignedID : String) (index : Nat) (element : Instance)

/-- A call, made through what `sendRequest` reaches. -/
def Call.run (sendRequest : Exchange.Request → ω → Except Thrown (Exchange.ChannelResponse × ω)) :
    Call → ω → Except Thrown (Option Instance × ω)
  | .wrapper w assignedID actual, world => w.call sendRequest assignedID actual world
  | .makeArray elem size, world => do
    let h ← ArrayHandle.make sendRequest (clazzOf elem) size world
    return (some (.handle h.1.assignedID), h.2)
  | .get elem assignedID index, world => do
    let element ← ArrayHandle.get sendRequest ⟨clazzOf elem, assignedID⟩ index world
    return (some element.1, element.2)
  | .set elem assignedID index element, world => do
    let previousValue ← ArrayHandle.set sendRequest ⟨clazzOf elem, assignedID⟩ index element world
    return (some previousValue.1, previousValue.2)

/-- The types allow a call: the handle is one of the class, the arguments are those declared, an index is in the range of the
array. -/
inductive Call.WellTyped (Γ : Context) : Call → Prop
  | wrapper (w : Wrapper) (assignedID : String) (actual : List Instance) : w ∈ wrappers →
      (w.isStatic = false → (assignedID, .object w.clazz) ∈ Γ) → List.Forall₂ (fun p v => Γ.Accepts p.2 v) w.params actual →
      WellTyped Γ (.wrapper w assignedID actual)
  | makeArray (elem : Elem) (size : Nat) : WellTyped Γ (.makeArray elem size)
  | get (elem : Elem) (assignedID : String) (size index : Nat) : (assignedID, .array elem size) ∈ Γ → index < size →
      WellTyped Γ (.get elem assignedID index)
  | set (elem : Elem) (assignedID : String) (size index : Nat) (element : Instance) : (assignedID, .array elem size) ∈ Γ →
      index < size → Γ.AcceptsElement elem element → WellTyped Γ (.set elem assignedID index element)

/-- The library function that a call reaches, if it reaches one, returns. -/
def Call.Returns (lib : Cpp.Process.Library S) (s : State S) : Call → Prop
  | .wrapper w assignedID actual => ∀ call, (w.request assignedID actual).toProtobuf = .ok call →
    Cpp.Process.Returns lib ⟨some call.read, ""⟩ s
  | _ => True

/-- What a call returns by its declaration. -/
inductive Returned where
  | nothing
  | handle (type : HandleType)
  | int
  | boolean
  | char
  deriving DecidableEq, Repr

/-- The element of an array. -/
def Returned.element : Elem → Returned
  | .char => .char
  | .ast => .handle (.object .ast)

/-- What a wrapper returns. -/
def Returned.ofResult : Option ResultType → Returned
  | none => .nothing
  | some (.handle clazz) => .handle (.object clazz)
  | some .int => .int
  | some .boolean => .boolean

/-- What a call returns; `set` returns the previous element. -/
def Call.returned : Call → Returned
  | .wrapper w _ _ => .ofResult w.result
  | .makeArray elem size => .handle (.array elem size)
  | .get elem _ _ => .element elem
  | .set elem _ _ _ => .element elem

/-- A value of the type that is declared. -/
inductive Returned.Fits : Returned → Option Instance → Prop
  | nothing : Fits .nothing none
  | handle (type : HandleType) (assignedID : String) : Fits (.handle type) (some (.handle assignedID))
  | int (n : Int) : -2 ^ 31 ≤ n → n < 2 ^ 31 → Fits .int (some (.value (.number n)))
  | boolean (b : Bool) : Fits .boolean (some (.value (.boolean b)))
  | char (c : UInt16) : Fits .char (some (.value (.char c)))

/-- The handles after a call: a handle that was returned is one of the type declared. -/
def Context.bind (Γ : Context) : Returned → Option Instance → Context
  | .handle type, some (.handle assignedID) => (assignedID, type) :: Γ
  | _, _ => Γ

/-! ## Sessions -/

/-- The sessions with a receiver that has just started: well-typed calls that returned, for which `calloc` found memory, and in
between any requests without an id that were answered, and callbacks. -/
inductive Session : Context → State S → Prop
  | start : Session [] {}
  | call (lib : Cpp.Process.Library S) (env : Env) (c : Call) (returned : Option Instance) (Γ : Context) (s s' : State S) :
      Session Γ s → c.WellTyped Γ → env.callocs = true → c.run (sendRequest lib env) s = .ok (returned, s') →
      Session (Γ.bind c.returned returned) s'
  | other (Γ : Context) (s s' : State S) : Session Γ s → IdStep s s' → Session Γ s'

end LibraryLink.Kotlin.Z3Kotlin
