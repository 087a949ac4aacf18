import LibraryLink.Z3Receiver
import LibraryLink.General.Outcome

/-!
# Helpers about the C++ receiver: the table and the memory

What each primitive of `CppReceiver` does to the table of handles and to the memory, and what the lookups of a handler give: the
pointer found, or null, whatever other keys were looked up before.
-/

namespace LibraryLink.Cpp.Process

open Outcome

variable {S : Type}

/-- The pointer stored under a key; an absent entry and a null one have none. -/
def State.entry (s : State S) (key : String) : Option Addr := (s.persistence key).join

/-! ## Lookups -/

@[simp] theorem lookup_fst (s : State S) (key : String) : (s.lookup key).1 = s.entry key := by
  unfold State.lookup State.entry
  cases s.persistence key <;> rfl

@[simp] theorem lookup_heap (s : State S) (key : String) : (s.lookup key).2.heap = s.heap := by
  unfold State.lookup
  cases s.persistence key <;> rfl

@[simp] theorem lookup_drawn (s : State S) (key : String) : (s.lookup key).2.drawn = s.drawn := by
  unfold State.lookup
  cases s.persistence key <;> rfl

@[simp] theorem lookup_counter (s : State S) (key : String) :
    (s.lookup key).2.assignedIdCounter = s.assignedIdCounter := by
  unfold State.lookup
  cases s.persistence key <;> rfl

@[simp] theorem lookup_overwritten (s : State S) (key : String) : (s.lookup key).2.overwritten = s.overwritten := by
  unfold State.lookup
  cases s.persistence key <;> rfl

/-- A lookup leaves every pointer of the table where it is. -/
@[simp] theorem lookup_entry (s : State S) (key key' : String) : (s.lookup key).2.entry key' = s.entry key' := by
  unfold State.lookup State.entry
  cases hk : s.persistence key with
  | some p => rfl
  | none =>
    by_cases h : key' = key
    · rw [h]
      simp [hk]
    · simp [Function.update_of_ne h]

/-! ## Assignments -/

@[simp] theorem store_counter (s : State S) (key : String) (p : Option Addr) :
    (s.store key p).assignedIdCounter = s.assignedIdCounter := rfl

@[simp] theorem store_heap (s : State S) (key : String) (p : Option Addr) : (s.store key p).heap = s.heap := rfl

@[simp] theorem store_drawn (s : State S) (key : String) (p : Option Addr) : (s.store key p).drawn = s.drawn := rfl

@[simp] theorem store_overwritten (s : State S) (key : String) (p : Option Addr) :
    (s.store key p).overwritten = s.overwritten ++ [s.entry key] := rfl

@[simp] theorem store_entry (s : State S) (key : String) (p : Option Addr) : (s.store key p).entry key = p := by
  simp [State.store, State.entry]

/-- An assignment leaves the other entries as they are. -/
theorem store_entry_ne (s : State S) {key key' : String} (p : Option Addr) (h : key' ≠ key) :
    (s.store key p).entry key' = s.entry key' := by
  simp [State.store, State.entry, Function.update_of_ne h]

/-! ## Memory that only grows or changes -/

/-- The second state differs from the first in its memory only. -/
structure SameTable (s s' : State S) : Prop where
  entry : ∀ key, s'.entry key = s.entry key
  drawn : s'.drawn = s.drawn
  counter : s'.assignedIdCounter = s.assignedIdCounter
  overwritten : s'.overwritten = s.overwritten

theorem SameTable.refl (s : State S) : SameTable s s := ⟨fun _ => rfl, rfl, rfl, rfl⟩

theorem SameTable.trans {s s' s'' : State S} (h : SameTable s s') (h' : SameTable s' s'') : SameTable s s'' :=
  ⟨fun key => (h'.entry key).trans (h.entry key), h'.drawn.trans h.drawn, h'.counter.trans h.counter,
    h'.overwritten.trans h.overwritten⟩

theorem SameTable.lookup (s : State S) (key : String) : SameTable s (s.lookup key).2 :=
  ⟨lookup_entry s key, lookup_drawn s key, lookup_counter s key, lookup_overwritten s key⟩

theorem SameTable.heap (s : State S) (heap : List (Obj S)) : SameTable s { s with heap } :=
  ⟨fun _ => rfl, rfl, rfl, rfl⟩

theorem SameTable.alloc (s : State S) (o : Obj S) : SameTable s (s.alloc o).2 := SameTable.heap s _

theorem SameTable.calloc (elem : Elem) (callocs : Bool) (size : Int) (s : State S) :
    SameTable s (calloc elem callocs size s).2 := by
  unfold Process.calloc
  split
  · exact SameTable.alloc s _
  · exact SameTable.refl s

theorem SameTable.produce (passed : List Addr) (s : State S) (p : Produced S) : SameTable s (produce passed s p).2 := by
  cases p with
  | null => exact SameTable.refl s
  | existing i => exact SameTable.refl s
  | fresh state => exact SameTable.alloc s _

/-! ## The local variables of a handler -/

/-- The argument that a parameter reads is there. -/
def Param.Present (r : MethodCallRequest) : Param → Prop
  | .self _ => True
  | .ref _ i => i < r.arg.length
  | .int i => i < r.arg.length
  | .bool i => i < r.arg.length

/-- The value of an argument, not set where there is none. -/
def argumentValue (r : MethodCallRequest) (i : Nat) : Value :=
  match r.arg[i]? with
  | some a => a.value
  | none => .notSet

/-- The local variable that a parameter gives in a state. -/
def Param.variable (r : MethodCallRequest) (s : State S) : Param → Local
  | .self type => .pointer type (s.entry r.objectId)
  | .ref type i => .pointer type (s.entry (argumentValue r i).stringValue)
  | .int i => .int (Int.bmod (argumentValue r i).intValue (2 ^ 32))
  | .bool i => .bool ((argumentValue r i).intValue != 0)

/-- `request.arg(i)` gives the value at its place. -/
theorem argument_eq_ok {r : MethodCallRequest} {i : Nat} {a : Argument} (h : r.argument i = .ok a) :
    i < r.arg.length ∧ argumentValue r i = a.value := by
  unfold MethodCallRequest.argument at h
  unfold argumentValue
  cases hget : r.arg[i]? with
  | some b =>
    rw [hget] at h
    cases h
    exact ⟨(List.getElem?_eq_some_iff.mp hget).1, rfl⟩
  | none =>
    rw [hget] at h
    cases h

/-- `request.arg(i)` is there for an index in range. -/
theorem exists_argument {r : MethodCallRequest} {i : Nat} (h : i < r.arg.length) : ∃ a, r.argument i = .ok a :=
  ⟨r.arg[i], by simp [MethodCallRequest.argument, List.getElem?_eq_getElem h]⟩

/-- A pointer loaded is the one stored under the key. -/
theorem pointer_eq_ok {s s' : State S} {type : CType} {key : String} {l : Local}
    (h : (Except.ok (Local.pointer type (s.lookup key).1, (s.lookup key).2) : Except Fault (Local × State S)) = .ok (l, s')) :
    l = .pointer type (s.entry key) ∧ SameTable s s' ∧ s'.heap = s.heap := by
  obtain ⟨hl, hs⟩ := Prod.mk.inj (Except.ok.inj h)
  rw [← hl, ← hs, lookup_fst]
  exact ⟨rfl, SameTable.lookup s key, lookup_heap s key⟩

/-- What loading a parameter gives. -/
theorem load_eq_ok {r : MethodCallRequest} {s s' : State S} {p : Param} {l : Local} (h : p.load r s = .ok (l, s')) :
    p.Present r ∧ l = p.variable r s ∧ SameTable s s' ∧ s'.heap = s.heap := by
  cases p with
  | self type => exact ⟨trivial, pointer_eq_ok h⟩
  | ref type i =>
    obtain ⟨a, ha, h⟩ := bind_eq_ok.mp h
    obtain ⟨hlt, hget⟩ := argument_eq_ok ha
    rw [Param.variable, hget]
    exact ⟨hlt, pointer_eq_ok h⟩
  | int i =>
    obtain ⟨a, ha, h⟩ := bind_eq_ok.mp h
    obtain ⟨rfl, rfl⟩ := Prod.mk.inj (Except.ok.inj h)
    obtain ⟨hlt, hget⟩ := argument_eq_ok ha
    exact ⟨hlt, by rw [Param.variable, hget], SameTable.refl s, rfl⟩
  | bool i =>
    obtain ⟨a, ha, h⟩ := bind_eq_ok.mp h
    obtain ⟨rfl, rfl⟩ := Prod.mk.inj (Except.ok.inj h)
    obtain ⟨hlt, hget⟩ := argument_eq_ok ha
    exact ⟨hlt, by rw [Param.variable, hget], SameTable.refl s, rfl⟩

/-- A parameter whose argument is there is loaded. -/
theorem exists_load {r : MethodCallRequest} {p : Param} (s : State S) (h : p.Present r) : ∃ l s', p.load r s = .ok (l, s') := by
  cases p with
  | self type => exact ⟨_, _, rfl⟩
  | ref type i =>
    obtain ⟨a, ha⟩ := exists_argument h
    exact ⟨_, _, bind_eq_ok.mpr ⟨a, ha, rfl⟩⟩
  | int i =>
    obtain ⟨a, ha⟩ := exists_argument h
    exact ⟨_, _, bind_eq_ok.mpr ⟨a, ha, rfl⟩⟩
  | bool i =>
    obtain ⟨a, ha⟩ := exists_argument h
    exact ⟨_, _, bind_eq_ok.mpr ⟨a, ha, rfl⟩⟩

/-- The local variables do not depend on the lookups made before. -/
theorem variable_congr {s s' : State S} (h : SameTable s s') (r : MethodCallRequest) (p : Param) :
    p.variable r s' = p.variable r s := by
  cases p <;> simp only [Param.variable, h.entry]

/-- What loading all parameters of a handler gives. -/
theorem loadAll_eq_ok {r : MethodCallRequest} {ps : List Param} {s s' : State S} {ls : List Local}
    (h : loadAll r ps s = .ok (ls, s')) :
    (∀ p ∈ ps, p.Present r) ∧ ls = ps.map (·.variable r s) ∧ SameTable s s' ∧ s'.heap = s.heap := by
  induction ps generalizing s ls with
  | nil =>
    obtain ⟨rfl, rfl⟩ := Prod.mk.inj (Except.ok.inj h)
    exact ⟨nofun, rfl, SameTable.refl s, rfl⟩
  | cons p ps ih =>
    obtain ⟨⟨l, s₁⟩, hl, h⟩ := bind_eq_ok.mp h
    obtain ⟨⟨ls₁, s₂⟩, hls, h⟩ := bind_eq_ok.mp h
    obtain ⟨rfl, rfl⟩ := Prod.mk.inj (Except.ok.inj h)
    obtain ⟨hp, rfl, htable, hheap⟩ := load_eq_ok hl
    obtain ⟨hps, rfl, htable', hheap'⟩ := ih hls
    refine ⟨List.forall_mem_cons.mpr ⟨hp, hps⟩, ?_, htable.trans htable', hheap'.trans hheap⟩
    rw [List.map_cons]
    congr 1
    exact List.map_congr_left fun q _ => variable_congr htable r q

/-- Parameters whose arguments are there are loaded. -/
theorem exists_loadAll {r : MethodCallRequest} {ps : List Param} (s : State S) (h : ∀ p ∈ ps, p.Present r) :
    ∃ ls s', loadAll r ps s = .ok (ls, s') := by
  induction ps generalizing s with
  | nil => exact ⟨_, _, rfl⟩
  | cons p ps ih =>
    obtain ⟨hp, hps⟩ := List.forall_mem_cons.mp h
    obtain ⟨l, s₁, hl⟩ := exists_load s hp
    obtain ⟨ls, s₂, hls⟩ := ih s₁ hps
    exact ⟨_, _, bind_eq_ok.mpr ⟨_, hl, bind_eq_ok.mpr ⟨_, hls, rfl⟩⟩⟩

/-! ## Reading the memory -/

theorem charsAt_eq_ok {heap : List (Obj S)} {b : Addr} {data : List Int} :
    charsAt heap b = .ok data ↔ heap[b]? = some (.chars data) := by
  unfold charsAt
  rcases heap[b]? with _ | ⟨type, value⟩ | data | data | state <;> simp

theorem astsAt_eq_ok {heap : List (Obj S)} {b : Addr} {data : List (Option Addr)} :
    astsAt heap b = .ok data ↔ heap[b]? = some (.asts data) := by
  unfold astsAt
  rcases heap[b]? with _ | ⟨type, value⟩ | data | data | state <;> simp

/-- A pointer is read as a type when it leads to a variable of this type. -/
theorem deref_eq_ok {heap : List (Obj S)} {type : CType} {p value : Option Addr} :
    deref heap type p = .ok value ↔ ∃ a, p = some a ∧ heap[a]? = some (.cell type value) := by
  cases p with
  | none => simp [deref]
  | some a =>
    simp only [deref, Option.some.injEq, exists_eq_left']
    rcases heap[a]? with _ | ⟨t, v⟩ | data | data | state <;> simp
    by_cases ht : type = t <;> simp [ht, eq_comm]

/-! ## What is passed to the library -/

theorem passes_eq_ok {heap : List (Obj S)} {locals : List Local} {passed : Passed S} (h : passes heap locals = .ok passed) :
    ∃ operands, locals.mapM (Local.operand heap) = .ok operands ∧ passed.objects = operands.flatMap Operand.objects ∧
      passed.objects.mapM (objectAt heap) = .ok passed.states ∧ passed.args = operands.map (Operand.arg passed.objects) := by
  obtain ⟨operands, hoperands, h⟩ := bind_eq_ok.mp h
  obtain ⟨states, hstates, h⟩ := bind_eq_ok.mp h
  obtain rfl := Except.ok.inj h
  exact ⟨operands, hoperands, rfl, hstates, rfl⟩

theorem returned_eq_ok {result : Option (Effect S)} {effect : Effect S} : returned result = .ok effect ↔ result = some effect := by
  cases result <;> simp [returned]

/-! ## What a branch does -/

variable {r : MethodCallRequest} {s s' : State S} {resp resp' : ChannelResponse}

/-- `librarylink_set<char>` puts another array of `char` in the place of one. -/
theorem setChar_eq_ok (h : librarylinkSetChar r s resp = .ok (resp', s')) :
    ∃ (b : Addr) (data data' : List Int), s.heap[b]? = some (.chars data) ∧
      s'.heap = s.heap.set b (.chars data') ∧ SameTable s s' := by
  obtain ⟨pos, -, h⟩ := bind_eq_ok.mp h
  obtain ⟨value, -, h⟩ := bind_eq_ok.mp h
  obtain ⟨b, -, h⟩ := bind_eq_ok.mp h
  obtain ⟨data, hdata, h⟩ := bind_eq_ok.mp h
  obtain ⟨i, -, h⟩ := bind_eq_ok.mp h
  obtain ⟨-, rfl⟩ := Prod.mk.inj (Except.ok.inj h)
  rw [lookup_heap] at hdata ⊢
  exact ⟨b, data, _, charsAt_eq_ok.mp hdata, rfl, (SameTable.lookup s _).trans (SameTable.heap _ _)⟩

/-- `librarylink_set<Z3_ast>` puts the value of a variable in an array. -/
theorem set_eq_ok (h : librarylinkSet r s resp = .ok (resp', s')) :
    ∃ (b : Addr) (data : List (Option Addr)) (i : Nat) (a : Addr) (value : Option Addr),
      s.heap[b]? = some (.asts data) ∧ s.heap[a]? = some (.cell .ast value) ∧
      s'.heap = s.heap.set b (.asts (data.set i value)) ∧ SameTable s s' := by
  obtain ⟨pos, -, h⟩ := bind_eq_ok.mp h
  obtain ⟨argument, -, h⟩ := bind_eq_ok.mp h
  obtain ⟨value, hvalue, h⟩ := bind_eq_ok.mp h
  obtain ⟨b, -, h⟩ := bind_eq_ok.mp h
  obtain ⟨data, hdata, h⟩ := bind_eq_ok.mp h
  obtain ⟨i, -, h⟩ := bind_eq_ok.mp h
  obtain ⟨-, rfl⟩ := Prod.mk.inj (Except.ok.inj h)
  rw [lookup_heap, lookup_heap] at hdata hvalue ⊢
  obtain ⟨a, -, hcell⟩ := deref_eq_ok.mp hvalue
  exact ⟨b, data, i, a, value, astsAt_eq_ok.mp hdata, hcell, rfl,
    ((SameTable.lookup s _).trans (SameTable.lookup _ _)).trans (SameTable.heap _ _)⟩

/-- `librarylink_get<char>` only looks up. -/
theorem getChar_eq_ok (h : librarylinkGetChar r s resp = .ok (resp', s')) : s'.heap = s.heap ∧ SameTable s s' := by
  obtain ⟨pos, -, h⟩ := bind_eq_ok.mp h
  obtain ⟨b, -, h⟩ := bind_eq_ok.mp h
  obtain ⟨data, -, h⟩ := bind_eq_ok.mp h
  obtain ⟨i, -, h⟩ := bind_eq_ok.mp h
  obtain ⟨-, rfl⟩ := Prod.mk.inj (Except.ok.inj h)
  exact ⟨lookup_heap s _, SameTable.lookup s _⟩

/-- `librarylink_get<Z3_ast>` stores a new variable with an element of an array, or null. -/
theorem get_eq_ok (h : librarylinkGet r s resp = .ok (resp', s')) :
    ∃ (b : Addr) (data : List (Option Addr)) (value : Option Addr) (s₁ : State S), s.heap[b]? = some (.asts data) ∧
      (∀ a, value = some a → some a ∈ data) ∧ s₁.heap = s.heap ∧ SameTable s s₁ ∧
        s' = (s₁.alloc (.cell .ast value)).2.store resp.assignedId (some (s₁.alloc (.cell .ast value)).1) := by
  obtain ⟨pos, -, h⟩ := bind_eq_ok.mp h
  obtain ⟨b, -, h⟩ := bind_eq_ok.mp h
  obtain ⟨data, hdata, h⟩ := bind_eq_ok.mp h
  obtain ⟨i, -, h⟩ := bind_eq_ok.mp h
  obtain ⟨-, rfl⟩ := Prod.mk.inj (Except.ok.inj h)
  rw [lookup_heap] at hdata
  refine ⟨b, data, data[i]?.join, _, astsAt_eq_ok.mp hdata, ?_, lookup_heap s _, SameTable.lookup s _, rfl⟩
  intro a ha
  exact List.mem_of_getElem? (Option.join_eq_some_iff.mp ha)

/-- `librarylink_mem_alloc` stores a new variable with a new array, or null. -/
theorem memAlloc_eq_ok {elem : Elem} {env : Env} (h : librarylinkMemAlloc elem env r s resp = .ok (resp', s')) :
    ∃ size array, calloc elem env.callocs size s = array ∧
      s' = (array.2.alloc (.cell elem.pointer array.1)).2.store resp.assignedId
        (some (array.2.alloc (.cell elem.pointer array.1)).1) := by
  obtain ⟨a, -, h⟩ := bind_eq_ok.mp h
  obtain ⟨-, rfl⟩ := Prod.mk.inj (Except.ok.inj h)
  exact ⟨a.value.intValue, _, rfl, rfl⟩

/-- `librarylink_strlen` only looks up. -/
theorem strlen_eq_ok (h : librarylinkStrlen r s resp = .ok (resp', s')) : s'.heap = s.heap ∧ SameTable s s' := by
  obtain ⟨b, -, h⟩ := bind_eq_ok.mp h
  obtain ⟨data, -, h⟩ := bind_eq_ok.mp h
  obtain ⟨n, -, h⟩ := bind_eq_ok.mp h
  obtain ⟨-, rfl⟩ := Prod.mk.inj (Except.ok.inj h)
  exact ⟨lookup_heap s _, SameTable.lookup s _⟩

/-- A handler looks up, lets the library call back and change the objects passed, and deals with the result. -/
theorem handler_eq_ok {handler : Handler} {lib : Library S} {env : Env} (h : handler.run lib env r s resp = .ok (resp', s')) :
    ∃ s₁ passed states effect, s₁.heap = s.heap ∧ SameTable s s₁ ∧ passed.mapM (objectAt s.heap) = .ok states ∧
      s' = (handler.ret.finish passed effect { runCallbacks env.callbacks s₁ with
        heap := update (runCallbacks env.callbacks s₁).heap passed effect.states } resp).2 := by
  obtain ⟨⟨locals, s₁⟩, hlocals, h⟩ := bind_eq_ok.mp h
  obtain ⟨passed, hpassed, h⟩ := bind_eq_ok.mp h
  obtain ⟨effect, -, h⟩ := bind_eq_ok.mp h
  obtain ⟨-, -, htable, hheap⟩ := loadAll_eq_ok hlocals
  obtain ⟨operands, -, -, hstates, -⟩ := passes_eq_ok hpassed
  obtain rfl : _ = s' := congrArg Prod.snd (Except.ok.inj h)
  exact ⟨s₁, _, passed.states, _, hheap, htable, hheap ▸ hstates, rfl⟩

/-! ## Requests -/

/-- A request without an id gets the next one. -/
theorem assignId_eq_drawId {rq : Request} (hid : rq.assignedId = "") (s : State S) : assignId rq s = s.drawId := by
  rw [assignId, hid]
  rfl

/-- A request that is served is no method call, or a branch is run for it. -/
theorem serve_cases {lib : Library S} {env : Env} {rq : Request} {s s' : State S} {resp : ChannelResponse}
    (h : serve lib env rq s = .ok (resp, s')) :
    (rq.methodCall = none ∧ resp = { assignedId := (assignId rq s).1 } ∧ s' = (assignId rq s).2) ∨
      ∃ r action, rq.methodCall = some r ∧ dispatch r = some action ∧
        action.run lib env r (assignId rq s).2 { assignedId := (assignId rq s).1 } = .ok (resp, s') := by
  unfold serve at h
  cases hcall : rq.methodCall with
  | none =>
    rw [hcall] at h
    obtain ⟨rfl, rfl⟩ := Prod.mk.inj (Except.ok.inj h)
    exact .inl ⟨rfl, rfl, rfl⟩
  | some r =>
    rw [hcall] at h
    simp only [processRequest] at h
    split at h
    · rename_i action hdispatch
      exact .inr ⟨r, action, rfl, hdispatch, h⟩
    · cases h

end LibraryLink.Cpp.Process
