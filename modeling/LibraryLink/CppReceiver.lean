import Mathlib.Algebra.Order.Ring.Nat
import Mathlib.Logic.Function.Basic
import Mathlib.Logic.Relation

/-!
# The C++ receiver: requests, handles and memory

`process_channel` and `do_callback` of `main.cpp` and the templates of `helpers.h`, at the level of whole requests. The table
`persistence` maps an assigned id to a `void*`; what it points to is kept in a heap of typed cells, because a handler casts the
pointer to the type it expects. Whatever has no meaning in C++ (a null pointer or a cell of another type dereferenced, an
argument that is not there, an index out of range) is a `Fault`, and so is an exception that nobody catches.

The functions of the wrapped library are a parameter, `Library`: each acts on the objects passed to it and on nothing else. One
that is called with what it was not made for (a count beyond an array, a text without its end, an object that was freed) need not return.
Types of cells that are not generated by any handler, the fields of messages that the receiver does not read, and the texts
it prints are left out.
-/

namespace LibraryLink.Cpp.Process

/-! ## Messages -/

/-- `oneof value` of the message `Value`. -/
inductive Value where
  | notSet
  | string (value : String)
  | int (value : Int)
  | uint (value : Nat)
  deriving DecidableEq, Repr

/-- `string_value()`: the default where another case is set. -/
def Value.stringValue : Value → String
  | .string value => value
  | _ => ""

/-- `int_value()`: the default where another case is set. -/
def Value.intValue : Value → Int
  | .int value => value
  | _ => 0

/-- `enum ArgumentType` -/
inductive ArgumentType where
  | persistence
  | inplace
  deriving DecidableEq, Repr

/-- The message `Argument`. -/
structure Argument where
  type : ArgumentType
  value : Value
  deriving DecidableEq, Repr

/-- The message `MethodCallRequest`. -/
structure MethodCallRequest where
  methodName : String
  objectId : String
  type : String
  arg : List Argument
  deriving DecidableEq, Repr

/-- The message `Request`; `methodCall` is none where another case of its `oneof` is set, or none of them. -/
structure Request where
  methodCall : Option MethodCallRequest
  assignedId : String
  deriving DecidableEq, Repr

/-- `oneof result` of the message `ChannelResponse`, as far as it is set. -/
inductive Result where
  | returnValue (intValue : Int)
  | exceptionMessage (text : String)
  deriving DecidableEq, Repr

/-- The message `ChannelResponse`. -/
structure ChannelResponse where
  assignedId : String
  result : Option Result := none
  deriving DecidableEq, Repr

/-! ## Memory -/

/-- The C++ types of the variables that the pointers of `persistence` point to. -/
inductive CType where
  | config
  | context
  | sort
  | funcDecl
  | symbol
  | ast
  | solver
  | astVector
  | model
  | errorHandler
  | constCharArray
  | charPointer
  | astPointer
  deriving DecidableEq, Repr

abbrev Addr := Nat

/-- What the memory holds at an address: a variable made by `new T`, whose value is a pointer, an array made by `calloc`, or an
object of the wrapped library. -/
inductive Obj (S : Type) where
  | cell (type : CType) (value : Option Addr)
  | chars (data : List Int)
  | asts (data : List (Option Addr))
  | object (state : S)
  deriving Repr

/-- Why the receiver stops. -/
inductive Fault where
  | thrown (message : String)
  | undefined
  deriving DecidableEq, Repr

/-- The globals of the receiver and its memory. An entry of `persistence` is absent, null or a pointer. `drawn` and
`overwritten` record the ids drawn from the counter and the entries that assignments to `persistence` replaced. -/
structure State (S : Type) where
  assignedIdCounter : UInt64 := 0
  persistence : String → Option (Option Addr) := fun _ => none
  heap : List (Obj S) := []
  drawn : List String := []
  overwritten : List (Option Addr) := []

variable {S : Type}

/-- `std::to_string(assigned_id_counter++)` -/
def State.drawId (s : State S) : String × State S :=
  let id := toString s.assignedIdCounter.toNat
  (id, { s with assignedIdCounter := s.assignedIdCounter + 1, drawn := s.drawn ++ [id] })

/-- The ids drawn since a state. -/
def State.drawnSince (s s₀ : State S) : List String := s.drawn.drop s₀.drawn.length

/-- `persistence[key]`, read: an absent entry becomes a null one. -/
def State.lookup (s : State S) (key : String) : Option Addr × State S :=
  match s.persistence key with
  | some p => (p, s)
  | none => (none, { s with persistence := Function.update s.persistence key (some none) })

/-- `persistence[key] = p` -/
def State.store (s : State S) (key : String) (p : Option Addr) : State S :=
  { s with persistence := Function.update s.persistence key (some p),
           overwritten := s.overwritten ++ [(s.persistence key).join] }

/-- `new` and `calloc` -/
def State.alloc (s : State S) (o : Obj S) : Addr × State S := (s.heap.length, { s with heap := s.heap ++ [o] })

/-- The bytes that `new` or `calloc` gives out for an object of the receiver's own; what the library allocates is not counted. -/
def Obj.size : Obj S → Nat
  | .cell _ _ => 8
  | .chars data => data.length
  | .asts data => 8 * data.length
  | .object _ => 0

/-- The bytes given out: the receiver frees none of them. -/
def State.inUse (s : State S) : Nat := (s.heap.map Obj.size).sum

/-- The value of the variable of a type that a pointer points to. -/
def deref (heap : List (Obj S)) (type : CType) : Option Addr → Except Fault (Option Addr)
  | none => .error .undefined
  | some a =>
    match heap[a]? with
    | some (.cell t value) => if t = type then .ok value else .error .undefined
    | _ => .error .undefined

/-- The array of `char` at an address. -/
def charsAt (heap : List (Obj S)) (b : Addr) : Except Fault (List Int) :=
  match heap[b]? with
  | some (.chars data) => .ok data
  | _ => .error .undefined

/-- The array of `Z3_ast` at an address. -/
def astsAt (heap : List (Obj S)) (b : Addr) : Except Fault (List (Option Addr)) :=
  match heap[b]? with
  | some (.asts data) => .ok data
  | _ => .error .undefined

/-- The state of the library object at an address. -/
def objectAt (heap : List (Obj S)) (a : Addr) : Except Fault S :=
  match heap[a]? with
  | some (.object state) => .ok state
  | _ => .error .undefined

/-- The address of the array that a pointer to a pointer leads to. -/
def arrayOf (heap : List (Obj S)) (type : CType) (p : Option Addr) : Except Fault Addr := do
  let value ← deref heap type p
  match value with
  | some b => .ok b
  | none => .error .undefined

/-- `request.arg(i)` -/
def MethodCallRequest.argument (r : MethodCallRequest) (i : Nat) : Except Fault Argument :=
  match r.arg[i]? with
  | some a => .ok a
  | none => .error .undefined

/-! ## Callbacks -/

/-- An argument of `do_callback`: the value that an INPLACE pointer points to, or a pointer to be registered. -/
inductive CallbackArg where
  | inplace (value : Nat)
  | persistence (p : Option Addr)

/-- `do_callback`: the request it writes, and the state. -/
def doCallback (methodName type : String) : List CallbackArg → State S → MethodCallRequest × State S
  | [], s => ({ methodName, type, objectId := "", arg := [] }, s)
  | .inplace value :: args, s =>
    let rest := doCallback methodName type args s
    ({ rest.1 with arg := ⟨.inplace, .int ((value : Int).bmod (2 ^ 64))⟩ :: rest.1.arg }, rest.2)
  | .persistence p :: args, s =>
    let key := s.drawId.1
    let rest := doCallback methodName type args (s.drawId.2.store key p)
    ({ rest.1 with arg := ⟨.persistence, .string key⟩ :: rest.1.arg }, rest.2)

/-- A call of `do_callback`. -/
structure Callback where
  methodName : String
  type : String
  args : List CallbackArg

/-- What is not decided by the receiver while it serves a request: whether `calloc` finds memory, which callbacks the library makes
while it runs, and whether the peer still reads what is written to it. -/
structure Env where
  callocs : Bool := true
  callbacks : List Callback := []
  peerReads : Bool := true

/-- The callbacks that the library makes. -/
def runCallbacks (callbacks : List Callback) (s : State S) : State S :=
  callbacks.foldl (fun s c => (doCallback c.methodName c.type c.args s).2) s

/-! ## The wrapped library -/

/-- What a library function gets for a parameter. Objects are told apart by their place in the list of those passed; an array
of objects comes with its elements. -/
inductive Arg where
  | null
  | object (index : Nat)
  | int (n : Int)
  | bool (b : Bool)
  | chars (data : List Int)
  | array (elements : List (Option Nat))
  deriving DecidableEq, Repr

/-- The object that a library function returns: one of those passed, a new one, or null. -/
inductive Produced (S : Type) where
  | null
  | existing (index : Nat)
  | fresh (state : S)

/-- What a library function does: the states of the objects passed, afterwards, and what it returns. -/
structure Effect (S : Type) where
  states : List S
  int : Int
  object : Produced S

/-- The library: the effect of a function, by its name, on its arguments and the states of the objects passed; none where it does not
return, but ends the process, or does what has no meaning. -/
abbrev Library (S : Type) := String → List Arg → List S → Option (Effect S)

/-- The effect of a library function that returns. -/
def returned : Option (Effect S) → Except Fault (Effect S)
  | some effect => .ok effect
  | none => .error .undefined

/-! ## The generated handlers -/

/-- The local variable that a handler makes for a parameter: `(T*) persistence[request.object_id()]`,
`(T*) persistence[request.arg(i).value().string_value()]`, or an `int` or `bool` from `request.arg(i).value().int_value()`. -/
inductive Param where
  | self (type : CType)
  | ref (type : CType) (i : Nat)
  | int (i : Nat)
  | bool (i : Nat)
  deriving DecidableEq, Repr

/-- What a handler does with what the library function returns: nothing, `set_int_value`, or a `new T` stored under the
assigned id. -/
inductive Ret where
  | nothing
  | int
  | bool
  | handle (type : CType)
  deriving DecidableEq, Repr

/-- A generated handler: the library function it calls, its parameters in order, and the result. -/
structure Handler where
  function : String
  params : List Param
  ret : Ret
  deriving DecidableEq, Repr

/-- A local variable of a handler. -/
inductive Local where
  | pointer (type : CType) (p : Option Addr)
  | int (n : Int)
  | bool (b : Bool)

/-- The local variable of a parameter. -/
def Param.load (r : MethodCallRequest) (s : State S) : Param → Except Fault (Local × State S)
  | .self type =>
    let p := s.lookup r.objectId
    .ok (.pointer type p.1, p.2)
  | .ref type i => do
    let a ← r.argument i
    let p := s.lookup a.value.stringValue
    .ok (.pointer type p.1, p.2)
  | .int i => do
    let a ← r.argument i
    .ok (.int (a.value.intValue.bmod (2 ^ 32)), s)
  | .bool i => do
    let a ← r.argument i
    .ok (.bool (a.value.intValue != 0), s)

/-- The local variables of a handler, one after the other. -/
def loadAll (r : MethodCallRequest) : List Param → State S → Except Fault (List Local × State S)
  | [], s => .ok ([], s)
  | p :: ps, s => do
    let first ← p.load r s
    let rest ← loadAll r ps first.2
    .ok (first.1 :: rest.1, rest.2)

/-- An argument of the call: the value of a local variable, or of the variable it points to. An array is passed as a pointer,
for its content. -/
inductive Operand where
  | handle (object : Option Addr)
  | int (n : Int)
  | bool (b : Bool)
  | chars (data : List Int)
  | array (elements : List (Option Addr))

/-- The argument that a value of a type gives. -/
def operandOf (heap : List (Obj S)) (type : CType) : Option Addr → Except Fault Operand
  | none => .ok (.handle none)
  | some b =>
    match type with
    | .charPointer => do
      let data ← charsAt heap b
      .ok (.chars data)
    | .astPointer => do
      let data ← astsAt heap b
      .ok (.array data)
    | _ => .ok (.handle (some b))

/-- The argument that a local variable gives. -/
def Local.operand (heap : List (Obj S)) : Local → Except Fault Operand
  | .int n => .ok (.int n)
  | .bool b => .ok (.bool b)
  | .pointer type p => do
    let value ← deref heap type p
    operandOf heap type value

/-- The library objects passed with an argument. -/
def Operand.objects : Operand → List Addr
  | .handle (some a) => [a]
  | .array elements => elements.reduceOption
  | _ => []

/-- An argument as the library sees it, among the objects passed. -/
def Operand.arg (passed : List Addr) : Operand → Arg
  | .handle none => .null
  | .handle (some a) => .object (passed.idxOf a)
  | .int n => .int n
  | .bool b => .bool b
  | .chars data => .chars data
  | .array elements => .array (elements.map (Option.map passed.idxOf))

/-- What a library function is called with: the objects passed, the arguments as it sees them, and the states of the objects. -/
structure Passed (S : Type) where
  objects : List Addr
  args : List Arg
  states : List S

/-- What is passed of local variables. -/
def passes (heap : List (Obj S)) (locals : List Local) : Except Fault (Passed S) := do
  let operands ← locals.mapM (Local.operand heap)
  let objects := operands.flatMap Operand.objects
  let states ← objects.mapM (objectAt heap)
  .ok ⟨objects, operands.map (Operand.arg objects), states⟩

/-- The memory after the library has changed the objects passed. -/
def update (heap : List (Obj S)) (passed : List Addr) (states : List S) : List (Obj S) :=
  heap.mapIdx fun a o =>
    if a ∈ passed then
      match states[passed.idxOf a]? with
      | some state => .object state
      | none => o
    else o

/-- The pointer to the object that the library returns. -/
def produce (passed : List Addr) (s : State S) : Produced S → Option Addr × State S
  | .null => (none, s)
  | .existing i => (passed[i]?, s)
  | .fresh state => (some (s.alloc (.object state)).1, (s.alloc (.object state)).2)

/-- What the handler does with the result. -/
def Ret.finish (passed : List Addr) (effect : Effect S) (s : State S) (resp : ChannelResponse) :
    Ret → ChannelResponse × State S
  | .nothing => (resp, s)
  | .int => ({ resp with result := some (.returnValue (effect.int.bmod (2 ^ 32))) }, s)
  | .bool => ({ resp with result := some (.returnValue (if effect.int = 0 then 0 else 1)) }, s)
  | .handle type =>
    let value := produce passed s effect.object
    let ptr := value.2.alloc (.cell type value.1)
    (resp, ptr.2.store resp.assignedId (some ptr.1))

/-- The body that the generated handlers have in common. -/
def Handler.run (h : Handler) (lib : Library S) (env : Env) (r : MethodCallRequest) (s : State S) (resp : ChannelResponse) :
    Except Fault (ChannelResponse × State S) := do
  let locals ← loadAll r h.params s
  let passed ← passes locals.2.heap locals.1
  let effect ← returned (lib h.function passed.args passed.states)
  let s := runCallbacks env.callbacks locals.2
  .ok (h.ret.finish passed.objects effect { s with heap := update s.heap passed.objects effect.states } resp)

/-! ## The templates of `helpers.h` -/

/-- The type parameter `T` of the templates. -/
inductive Elem where
  | char
  | ast
  deriving DecidableEq, Repr

/-- The type `T*`. -/
def Elem.pointer : Elem → CType
  | .char => .charPointer
  | .ast => .astPointer

/-- A zeroed array of `T`. -/
def Elem.zeros (n : Nat) : Elem → Obj S
  | .char => .chars (List.replicate n 0)
  | .ast => .asts (List.replicate n none)

/-- `calloc(size, sizeof(T))`: a negative size is a huge one for `calloc`, and there is no memory for it. -/
def calloc (elem : Elem) (callocs : Bool) (size : Int) (s : State S) : Option Addr × State S :=
  if callocs ∧ 0 ≤ size then (some (s.alloc (elem.zeros size.toNat)).1, (s.alloc (elem.zeros size.toNat)).2) else (none, s)

/-- `librarylink_mem_alloc<T>` -/
def librarylinkMemAlloc (elem : Elem) (env : Env) (r : MethodCallRequest) (s : State S) (resp : ChannelResponse) :
    Except Fault (ChannelResponse × State S) := do
  let a ← r.argument 0
  let array := calloc elem env.callocs a.value.intValue s
  let ptr := array.2.alloc (.cell elem.pointer array.1)
  .ok (resp, ptr.2.store resp.assignedId (some ptr.1))

/-- The index that a position is, if it is in range. -/
def index (pos : Int) (length : Nat) : Except Fault Nat :=
  if 0 ≤ pos ∧ pos < length then .ok pos.toNat else .error .undefined

/-- `librarylink_set<Z3_ast>`, from the template -/
def librarylinkSet (r : MethodCallRequest) (s : State S) (resp : ChannelResponse) :
    Except Fault (ChannelResponse × State S) := do
  let array := s.lookup r.objectId
  let pos ← r.argument 0
  let a ← r.argument 1
  let value := array.2.lookup a.value.stringValue
  let heap := value.2.heap
  let v ← deref heap .ast value.1
  let b ← arrayOf heap .astPointer array.1
  let data ← astsAt heap b
  let i ← index pos.value.intValue data.length
  .ok (resp, { value.2 with heap := heap.set b (.asts (data.set i v)) })

/-- `librarylink_set<char>` -/
def librarylinkSetChar (r : MethodCallRequest) (s : State S) (resp : ChannelResponse) :
    Except Fault (ChannelResponse × State S) := do
  let array := s.lookup r.objectId
  let pos ← r.argument 0
  let value ← r.argument 1
  let heap := array.2.heap
  let b ← arrayOf heap .charPointer array.1
  let data ← charsAt heap b
  let i ← index pos.value.intValue data.length
  .ok (resp, { array.2 with heap := heap.set b (.chars (data.set i (value.value.intValue.bmod (2 ^ 8)))) })

/-- `librarylink_get<Z3_ast>`, from the template -/
def librarylinkGet (r : MethodCallRequest) (s : State S) (resp : ChannelResponse) :
    Except Fault (ChannelResponse × State S) := do
  let array := s.lookup r.objectId
  let pos ← r.argument 0
  let b ← arrayOf array.2.heap .astPointer array.1
  let data ← astsAt array.2.heap b
  let i ← index pos.value.intValue data.length
  let ptr := array.2.alloc (.cell .ast data[i]?.join)
  .ok (resp, ptr.2.store resp.assignedId (some ptr.1))

/-- `librarylink_get<char>` -/
def librarylinkGetChar (r : MethodCallRequest) (s : State S) (resp : ChannelResponse) :
    Except Fault (ChannelResponse × State S) := do
  let array := s.lookup r.objectId
  let pos ← r.argument 0
  let b ← arrayOf array.2.heap .charPointer array.1
  let data ← charsAt array.2.heap b
  let i ← index pos.value.intValue data.length
  .ok ({ resp with result := some (.returnValue (data[i]?.getD 0)) }, array.2)

/-- The length that `strlen` finds in an array: it runs past the end of one without a zero. -/
def strlen (data : List Int) : Except Fault Nat := if 0 ∈ data then .ok (data.idxOf 0) else .error .undefined

/-- `librarylink_strlen` -/
def librarylinkStrlen (r : MethodCallRequest) (s : State S) (resp : ChannelResponse) :
    Except Fault (ChannelResponse × State S) := do
  let array := s.lookup r.objectId
  let b ← arrayOf array.2.heap .charPointer array.1
  let data ← charsAt array.2.heap b
  let n ← strlen data
  .ok ({ resp with result := some (.returnValue ((n : Int).bmod (2 ^ 32))) }, array.2)

end LibraryLink.Cpp.Process
