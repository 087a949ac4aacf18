import LibraryLink.KotlinExchange
import LibraryLink.General.Arrays

/-!
# Arrays of the C++ receiver in Kotlin

`ArrayHandle` of `ProcessDataExchange.kt` over a `ProtoBufDataExchange`, and the runs of any number of such handles of one class
against the C++ receiver.

The collection that the handle also is (`AbstractList`, with its `size`) is left out but for `get`.
-/

namespace LibraryLink.Kotlin

variable {ω S V : Type}

/-- `class ArrayHandle<T>` -/
structure ArrayHandle where
  clazz : Clazz
  assignedID : String

/-- `calculatePrimitiveTypeName` -/
def calculatePrimitiveTypeName : Clazz → String
  | .char => "char"
  | .int => "int"
  | .long boxed => if boxed then "Long" else "long"
  | .boolean boxed => if boxed then "Boolean" else "boolean"
  | .handle simpleName => simpleName

namespace ArrayHandle

/-- The request of a method of arrays. -/
def methodCall (clazz : Clazz) (method objectID : String) (args : List Argument) (doGetReturnValue : Bool) : Request Argument :=
  let typeName := calculatePrimitiveTypeName clazz
  .methodCall { methodName := method ++ "<" ++ typeName ++ ">", type := typeName.capitalize ++ "[]", args, objectID, doGetReturnValue }

variable (sendRequest : Exchange.Request → ω → Except Thrown (Exchange.ChannelResponse × ω))

/-- `get` -/
def get (h : ArrayHandle) (index : Int) (w : ω) : Except Thrown (Instance × ω) := do
  let resp ← makeRequest sendRequest
    (methodCall h.clazz "get" h.assignedID [.of (.value (.number index)) none] true) w
  let element ← resp.1.asInstanceOf h.clazz
  return (element, resp.2)

/-- `allocate`; `bindTo` gives the handle another id. -/
def allocate (h : ArrayHandle) (allocationSize : Int) (w : ω) : Except Thrown (ArrayHandle × ω) := do
  let resp ← makeRequest sendRequest
    (methodCall h.clazz "mem_alloc" "" [.of (.value (.number allocationSize)) none] false) w
  return ({ h with assignedID := resp.1.assignedID }, resp.2)

/-- `ArrayHandle(size, clazz)`, which is `makeArray` -/
def make (clazz : Clazz) (size : Int) (w : ω) : Except Thrown (ArrayHandle × ω) := allocate sendRequest ⟨clazz, ""⟩ size w

/-- `valueArgument` -/
def valueArgument : Instance → Except Thrown Argument
  | .handle assignedID => .ok (.of (.handle assignedID) none)
  | .value (.number n) => .ok (.of (.value (.number n)) none)
  | .value (.char c) => .ok (.of (.value (.number c.toNat)) none)
  | _ => .error .notImplemented

/-- `set` -/
def set (h : ArrayHandle) (index : Int) (element : Instance) (w : ω) : Except Thrown (Instance × ω) := do
  let previousValue ← h.get sendRequest index w
  let value ← valueArgument element
  let resp ← makeRequest sendRequest
    (methodCall h.clazz "set" h.assignedID [.of (.value (.number index)) none, value] false) previousValue.2
  return (previousValue.1, resp.2)

end ArrayHandle

/-! ## Runs -/

/-- A receiver, and the array handles that were made, in order. -/
structure ArrayClient (S : Type) where
  receiver : Cpp.Process.State S
  arrays : List ArrayHandle := []

/-- A call that returned: which array, by its number, and what was stored and returned. -/
inductive ArrayEvent (V : Type) where
  | allocated (array size : Nat)
  | got (array index : Nat) (returned : Instance)
  | set (array index : Nat) (value : V) (returned : Instance)

/-- The change of the arrays that a call stands for. -/
def ArrayEvent.update : ArrayEvent V → Option (Arrays.Update V)
  | .allocated array size => some (.allocate array size)
  | .got _ _ _ => none
  | .set array index value _ => some (.write array index value)

/-- The changes of the arrays in a run. -/
def updates (events : List (ArrayEvent V)) : List (Arrays.Update V) := events.filterMap ArrayEvent.update

/-- Calls on array handles of one class, one after the other, that return: sizes are not negative, indices in the range of the array as
it was last allocated, and `calloc` finds memory. An element that is stored stands for a value, by `Stands`, in the receiver's state after
the `get` with which `set` begins. -/
inductive ArrayRun (lib : Cpp.Process.Library S) (clazz : Clazz) (Stands : Cpp.Process.State S → Instance → V → Prop) (zero : V)
    (c₀ : ArrayClient S) : List (ArrayEvent V) → ArrayClient S → Prop
  | start : ArrayRun lib clazz Stands zero c₀ [] c₀
  | make {l c} (size : Nat) (h : ArrayHandle) (s : Cpp.Process.State S) : ArrayRun lib clazz Stands zero c₀ l c →
      ArrayHandle.make (sendRequest lib {}) clazz size c.receiver = .ok (h, s) →
      ArrayRun lib clazz Stands zero c₀ (l ++ [.allocated c.arrays.length size]) ⟨s, c.arrays ++ [h]⟩
  | allocate {l c} (array size : Nat) (h h' : ArrayHandle) (s : Cpp.Process.State S) : ArrayRun lib clazz Stands zero c₀ l c →
      c.arrays[array]? = some h → h.allocate (sendRequest lib {}) size c.receiver = .ok (h', s) →
      ArrayRun lib clazz Stands zero c₀ (l ++ [.allocated array size]) ⟨s, c.arrays.set array h'⟩
  | get {l c} (array index : Nat) (h : ArrayHandle) (returned : Instance) (s : Cpp.Process.State S) :
      ArrayRun lib clazz Stands zero c₀ l c → c.arrays[array]? = some h →
      index < (Arrays.contents zero (updates l) array).length →
      h.get (sendRequest lib {}) index c.receiver = .ok (returned, s) →
      ArrayRun lib clazz Stands zero c₀ (l ++ [.got array index returned]) { c with receiver := s }
  | set {l c} (array index : Nat) (h : ArrayHandle) (element : Instance) (value : V) (returned : Instance)
      (s : Cpp.Process.State S) : ArrayRun lib clazz Stands zero c₀ l c → c.arrays[array]? = some h →
      index < (Arrays.contents zero (updates l) array).length →
      (∀ previous s', h.get (sendRequest lib {}) index c.receiver = .ok (previous, s') → Stands s' element value) →
      h.set (sendRequest lib {}) index element c.receiver = .ok (returned, s) →
      ArrayRun lib clazz Stands zero c₀ (l ++ [.set array index value returned]) { c with receiver := s }

end LibraryLink.Kotlin
