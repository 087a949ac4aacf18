import LibraryLink.Lemmas.HeapTypes

/-!
# Helpers for `Theorems/Requests.lean`: what a branch reads, and when it is there

The ids and arguments that a branch of the dispatch takes from a request, and the condition under which it finds behind them what
it expects. In a well-typed memory the branch succeeds exactly then, if the library function that it calls returns
(`run_succeeds_iff`).
-/

namespace LibraryLink.Cpp.Process

open Outcome

variable {S : Type}

/-! ## What a branch reads -/

/-- The ids that a parameter takes from a request. -/
def Param.keys (r : MethodCallRequest) : Param → List String
  | .self _ => [r.objectId]
  | .ref _ i => [(argumentValue r i).stringValue]
  | _ => []

/-- The places of the arguments that a parameter reads. -/
def Param.reads : Param → List Nat
  | .self _ => []
  | .ref _ i => [i]
  | .int i => [i]
  | .bool i => [i]

/-- The ids that a branch takes from a request. -/
def Action.keys (r : MethodCallRequest) : Action → List String
  | .library h => h.params.flatMap (Param.keys r)
  | .set .ast => [r.objectId, (argumentValue r 1).stringValue]
  | .memAlloc _ => []
  | _ => [r.objectId]

/-- The places of the arguments that a branch reads. -/
def Action.reads : Action → List Nat
  | .library h => h.params.flatMap Param.reads
  | .set _ => [0, 1]
  | .get _ => [0]
  | .memAlloc _ => [0]
  | .strlen => []

/-- No handler matches the request, or an id that its handler uses has no pointer, or an argument it reads is missing. -/
def Bad (r : MethodCallRequest) (s : State S) : Prop :=
  match dispatch r with
  | none => True
  | some action => (∃ key ∈ action.keys r, s.entry key = none) ∨ ∃ i ∈ action.reads, r.arg.length ≤ i

/-! ## When a handler finds what it reads -/

/-- A pointer is stored under a key, to a variable of a type with a value. -/
def State.Points (s : State S) (key : String) (type : CType) (value : Option Addr) : Prop :=
  ∃ a, s.entry key = some a ∧ s.heap[a]? = some (.cell type value)

/-- A pointer to a pointer to an array is stored under a key. -/
def State.CharArray (s : State S) (key : String) (data : List Int) : Prop :=
  ∃ b, s.Points key .charPointer (some b) ∧ s.heap[b]? = some (.chars data)

/-- A pointer to a pointer to an array of `Z3_ast` is stored under a key. -/
def State.AstArray (s : State S) (key : String) (data : List (Option Addr)) : Prop :=
  ∃ b, s.Points key .astPointer (some b) ∧ s.heap[b]? = some (.asts data)

/-- The first argument is a position in an array of this length. -/
def InRange (r : MethodCallRequest) (length : Nat) : Prop :=
  0 ≤ (argumentValue r 0).intValue ∧ (argumentValue r 0).intValue < length

/-- What a parameter reads is there: the argument, and under an id a pointer to a variable of the type. -/
def Param.Ready (r : MethodCallRequest) (s : State S) : Param → Prop
  | .self type => ∃ value, s.Points r.objectId type value
  | .ref type i => i < r.arg.length ∧ ∃ value, s.Points (argumentValue r i).stringValue type value
  | .int i => i < r.arg.length
  | .bool i => i < r.arg.length

/-- What a branch reads is there: the arguments, and under the ids pointers to variables of the types it takes them for; an
array is not null, a position is in its range, and a length is asked for where there is a zero. -/
def Action.Ready (r : MethodCallRequest) (s : State S) : Action → Prop
  | .library h => ∀ p ∈ h.params, p.Ready r s
  | .set .char => 1 < r.arg.length ∧ ∃ data, s.CharArray r.objectId data ∧ InRange r data.length
  | .set .ast =>
    1 < r.arg.length ∧ (∃ value, s.Points (argumentValue r 1).stringValue .ast value) ∧
      ∃ data, s.AstArray r.objectId data ∧ InRange r data.length
  | .get .char => 0 < r.arg.length ∧ ∃ data, s.CharArray r.objectId data ∧ InRange r data.length
  | .get .ast => 0 < r.arg.length ∧ ∃ data, s.AstArray r.objectId data ∧ InRange r data.length
  | .memAlloc _ => 0 < r.arg.length
  | .strlen => ∃ data, s.CharArray r.objectId data ∧ 0 ∈ data

/-- The library function that a branch calls, if it calls one, returns on what is passed to it. -/
def Action.Returns (lib : Library S) (r : MethodCallRequest) (s : State S) : Action → Prop
  | .library h => ∀ passed, passes s.heap (h.params.map (·.variable r s)) = .ok passed →
    (lib h.function passed.args passed.states).isSome = true
  | _ => True

/-- The library function that a request reaches, if it reaches one, returns. -/
def Returns (lib : Library S) (rq : Request) (s : State S) : Prop :=
  ∀ r action, rq.methodCall = some r → dispatch r = some action → action.Returns lib r s

/-- Where all functions of a library return, those that requests reach do. -/
theorem returns_of_total {lib : Library S} (h : ∀ function args states, (lib function args states).isSome = true) (rq : Request)
    (s : State S) : Returns lib rq s := by
  intro r action _ _
  cases action with
  | library handler => exact fun _ _ => h _ _ _
  | _ => trivial

/-- A handler matches the request, and what it reads is there. -/
def Served (r : MethodCallRequest) (s : State S) : Prop := ∃ action, dispatch r = some action ∧ action.Ready r s

/-- What a parameter reads that is ready is there. -/
theorem Param.Ready.found {r : MethodCallRequest} {s : State S} {p : Param} (h : p.Ready r s) :
    (∀ key ∈ p.keys r, s.entry key ≠ none) ∧ ∀ i ∈ p.reads, i < r.arg.length := by
  cases p with
  | self type =>
    obtain ⟨value, a, ha, -⟩ := h
    exact ⟨List.forall_mem_singleton.mpr (ha ▸ Option.some_ne_none a), nofun⟩
  | ref type i =>
    obtain ⟨hlen, value, a, ha, -⟩ := h
    exact ⟨List.forall_mem_singleton.mpr (ha ▸ Option.some_ne_none a), List.forall_mem_singleton.mpr hlen⟩
  | int i => exact ⟨nofun, List.forall_mem_singleton.mpr h⟩
  | bool i => exact ⟨nofun, List.forall_mem_singleton.mpr h⟩

/-- What a branch reads that is ready is there. -/
theorem Action.Ready.found {r : MethodCallRequest} {s : State S} {action : Action} (h : action.Ready r s) :
    (∀ key ∈ action.keys r, s.entry key ≠ none) ∧ ∀ i ∈ action.reads, i < r.arg.length := by
  rcases action with handler | (_ | _) | (_ | _) | elem | _
  · constructor
    · intro key hkey
      obtain ⟨p, hp, hkey⟩ := List.mem_flatMap.mp hkey
      exact (h p hp).found.1 key hkey
    · intro i hi
      obtain ⟨p, hp, hi⟩ := List.mem_flatMap.mp hi
      exact (h p hp).found.2 i hi
  · obtain ⟨hlen, data, ⟨b, ⟨a, ha, -⟩, -⟩, -⟩ := h
    simp [Action.keys, Action.reads, ha, hlen, Nat.zero_lt_of_lt hlen]
  · obtain ⟨hlen, ⟨value, c, hc, -⟩, data, ⟨b, ⟨a, ha, -⟩, -⟩, -⟩ := h
    simp [Action.keys, Action.reads, ha, hc, hlen, Nat.zero_lt_of_lt hlen]
  · obtain ⟨hlen, data, ⟨b, ⟨a, ha, -⟩, -⟩, -⟩ := h
    simp [Action.keys, Action.reads, ha, hlen]
  · obtain ⟨hlen, data, ⟨b, ⟨a, ha, -⟩, -⟩, -⟩ := h
    simp [Action.keys, Action.reads, ha, hlen]
  · exact ⟨nofun, List.forall_mem_singleton.mpr h⟩
  · obtain ⟨data, ⟨b, ⟨a, ha, -⟩, -⟩, -⟩ := h
    simp [Action.keys, Action.reads, ha]

/-- A request that can be served is not bad. -/
theorem Served.not_bad {r : MethodCallRequest} {s : State S} (h : Served r s) : ¬Bad r s := by
  obtain ⟨action, hdispatch, hready⟩ := h
  unfold Bad
  rw [hdispatch]
  rintro (⟨key, hkey, hnone⟩ | ⟨i, hi, hlen⟩)
  · exact hready.found.1 key hkey hnone
  · exact absurd (hready.found.2 i hi) (Nat.not_lt.mpr hlen)

/-! ## The primitives -/

theorem exists_argument_iff {r : MethodCallRequest} {i : Nat} : (∃ a, r.argument i = .ok a) ↔ i < r.arg.length :=
  ⟨fun ⟨_, h⟩ => (argument_eq_ok h).1, exists_argument⟩

theorem arrayOf_eq_ok {heap : List (Obj S)} {type : CType} {p : Option Addr} {b : Addr} :
    arrayOf heap type p = .ok b ↔ deref heap type p = .ok (some b) := by
  unfold arrayOf
  rw [bind_eq_ok]
  constructor
  · rintro ⟨value, hvalue, h⟩
    cases value with
    | none => cases h
    | some c =>
      rw [← Except.ok.inj h]
      exact hvalue
  · intro h
    exact ⟨some b, h, rfl⟩

theorem exists_index {pos : Int} {length : Nat} : (∃ i, index pos length = .ok i) ↔ 0 ≤ pos ∧ pos < length := by
  unfold index
  split <;> simp_all

theorem exists_strlen {data : List Int} : (∃ n, strlen data = .ok n) ↔ 0 ∈ data := by
  unfold strlen
  split <;> simp_all

/-- A variable of a type is read behind the id it is stored under. -/
theorem deref_entry {s : State S} {key : String} {type : CType} {value : Option Addr} :
    deref s.heap type (s.entry key) = .ok value ↔ s.Points key type value :=
  deref_eq_ok

/-- An array of `char` is read behind the id it is stored under. -/
theorem charArray_iff {s : State S} {key : String} {data : List Int} :
    (∃ b, arrayOf s.heap .charPointer (s.entry key) = .ok b ∧ charsAt s.heap b = .ok data) ↔ s.CharArray key data := by
  simp only [arrayOf_eq_ok, deref_entry, charsAt_eq_ok, State.CharArray]

/-- An array of `Z3_ast` is read behind the id it is stored under. -/
theorem astArray_iff {s : State S} {key : String} {data : List (Option Addr)} :
    (∃ b, arrayOf s.heap .astPointer (s.entry key) = .ok b ∧ astsAt s.heap b = .ok data) ↔ s.AstArray key data := by
  simp only [arrayOf_eq_ok, deref_entry, astsAt_eq_ok, State.AstArray]

/-- A position that was read is in range. -/
theorem inRange_of_index {r : MethodCallRequest} {pos : Argument} {length i : Nat} (hpos : r.argument 0 = .ok pos)
    (hi : index pos.value.intValue length = .ok i) : InRange r length := by
  unfold InRange
  rw [(argument_eq_ok hpos).2]
  exact exists_index.mp ⟨i, hi⟩

/-- A position in range is read. -/
theorem exists_position {r : MethodCallRequest} {length : Nat} (h : 0 < r.arg.length) (hrange : InRange r length) :
    ∃ pos i, r.argument 0 = .ok pos ∧ index pos.value.intValue length = .ok i := by
  obtain ⟨pos, hpos⟩ := exists_argument h
  unfold InRange at hrange
  rw [(argument_eq_ok hpos).2] at hrange
  obtain ⟨i, hi⟩ := exists_index.mpr hrange
  exact ⟨pos, i, hpos, hi⟩

/-! ## The branches -/

theorem setChar_succeeds_iff {r : MethodCallRequest} {s : State S} {resp : ChannelResponse} :
    (∃ out, librarylinkSetChar r s resp = .ok out) ↔ (Action.set .char).Ready r s := by
  unfold librarylinkSetChar
  simp only [exists_bind_eq_ok, lookup_fst, lookup_heap]
  constructor
  · rintro ⟨pos, hpos, value, hvalue, b, hb, data, hdata, i, hi, -⟩
    exact ⟨(argument_eq_ok hvalue).1, data, charArray_iff.mp ⟨b, hb, hdata⟩, inRange_of_index hpos hi⟩
  · rintro ⟨hlen, data, harray, hrange⟩
    obtain ⟨b, hb, hdata⟩ := charArray_iff.mpr harray
    obtain ⟨pos, i, hpos, hi⟩ := exists_position (Nat.zero_lt_of_lt hlen) hrange
    obtain ⟨value, hvalue⟩ := exists_argument hlen
    exact ⟨pos, hpos, value, hvalue, b, hb, data, hdata, i, hi, _, rfl⟩

theorem set_succeeds_iff {r : MethodCallRequest} {s : State S} {resp : ChannelResponse} :
    (∃ out, librarylinkSet r s resp = .ok out) ↔ (Action.set .ast).Ready r s := by
  unfold librarylinkSet
  simp only [exists_bind_eq_ok, lookup_fst, lookup_heap, lookup_entry]
  constructor
  · rintro ⟨pos, hpos, a, ha, value, hvalue, b, hb, data, hdata, i, hi, -⟩
    obtain ⟨hlen, hget⟩ := argument_eq_ok ha
    rw [← hget] at hvalue
    exact ⟨hlen, ⟨value, deref_entry.mp hvalue⟩, data, astArray_iff.mp ⟨b, hb, hdata⟩, inRange_of_index hpos hi⟩
  · rintro ⟨hlen, ⟨value, hvalue⟩, data, harray, hrange⟩
    obtain ⟨b, hb, hdata⟩ := astArray_iff.mpr harray
    obtain ⟨pos, i, hpos, hi⟩ := exists_position (Nat.zero_lt_of_lt hlen) hrange
    obtain ⟨a, ha⟩ := exists_argument hlen
    rw [(argument_eq_ok ha).2] at hvalue
    exact ⟨pos, hpos, a, ha, value, deref_entry.mpr hvalue, b, hb, data, hdata, i, hi, _, rfl⟩

theorem getChar_succeeds_iff {r : MethodCallRequest} {s : State S} {resp : ChannelResponse} :
    (∃ out, librarylinkGetChar r s resp = .ok out) ↔ (Action.get .char).Ready r s := by
  unfold librarylinkGetChar
  simp only [exists_bind_eq_ok, lookup_fst, lookup_heap]
  constructor
  · rintro ⟨pos, hpos, b, hb, data, hdata, i, hi, -⟩
    exact ⟨(argument_eq_ok hpos).1, data, charArray_iff.mp ⟨b, hb, hdata⟩, inRange_of_index hpos hi⟩
  · rintro ⟨hlen, data, harray, hrange⟩
    obtain ⟨b, hb, hdata⟩ := charArray_iff.mpr harray
    obtain ⟨pos, i, hpos, hi⟩ := exists_position hlen hrange
    exact ⟨pos, hpos, b, hb, data, hdata, i, hi, _, rfl⟩

theorem get_succeeds_iff {r : MethodCallRequest} {s : State S} {resp : ChannelResponse} :
    (∃ out, librarylinkGet r s resp = .ok out) ↔ (Action.get .ast).Ready r s := by
  unfold librarylinkGet
  simp only [exists_bind_eq_ok, lookup_fst, lookup_heap]
  constructor
  · rintro ⟨pos, hpos, b, hb, data, hdata, i, hi, -⟩
    exact ⟨(argument_eq_ok hpos).1, data, astArray_iff.mp ⟨b, hb, hdata⟩, inRange_of_index hpos hi⟩
  · rintro ⟨hlen, data, harray, hrange⟩
    obtain ⟨b, hb, hdata⟩ := astArray_iff.mpr harray
    obtain ⟨pos, i, hpos, hi⟩ := exists_position hlen hrange
    exact ⟨pos, hpos, b, hb, data, hdata, i, hi, _, rfl⟩

theorem memAlloc_succeeds_iff {elem : Elem} {env : Env} {r : MethodCallRequest} {s : State S} {resp : ChannelResponse} :
    (∃ out, librarylinkMemAlloc elem env r s resp = .ok out) ↔ (Action.memAlloc elem).Ready r s := by
  unfold librarylinkMemAlloc
  rw [exists_bind_eq_ok]
  constructor
  · rintro ⟨a, ha, -⟩
    exact (argument_eq_ok ha).1
  · intro hlen
    obtain ⟨a, ha⟩ := exists_argument hlen
    exact ⟨a, ha, _, rfl⟩

theorem strlen_succeeds_iff {r : MethodCallRequest} {s : State S} {resp : ChannelResponse} :
    (∃ out, librarylinkStrlen r s resp = .ok out) ↔ Action.strlen.Ready r s := by
  unfold librarylinkStrlen
  simp only [exists_bind_eq_ok, lookup_fst, lookup_heap]
  constructor
  · rintro ⟨b, hb, data, hdata, n, hn, -⟩
    exact ⟨data, charArray_iff.mp ⟨b, hb, hdata⟩, exists_strlen.mp ⟨n, hn⟩⟩
  · rintro ⟨data, harray, hzero⟩
    obtain ⟨b, hb, hdata⟩ := charArray_iff.mpr harray
    obtain ⟨n, hn⟩ := exists_strlen.mpr hzero
    exact ⟨b, hb, data, hdata, n, hn, _, rfl⟩

/-- A pointer gives an argument exactly when a variable of the type is stored under its id. -/
theorem exists_operand_pointer {s : State S} (hw : WellTyped s.heap) {type : CType} {key : String} :
    (∃ o, (Local.pointer type (s.entry key)).operand s.heap = .ok o) ↔ ∃ value, s.Points key type value := by
  unfold Local.operand
  rw [exists_bind_eq_ok]
  constructor
  · rintro ⟨value, hvalue, -⟩
    exact ⟨value, deref_entry.mp hvalue⟩
  · rintro ⟨value, hpoints⟩
    obtain ⟨a, -, ha⟩ := id hpoints
    exact ⟨value, deref_entry.mpr hpoints, exists_operandOf (wellTyped_at hw ha)⟩

/-- A parameter gives an argument exactly when what it reads is there. -/
theorem param_ready_iff {r : MethodCallRequest} {s : State S} (hw : WellTyped s.heap) (p : Param) :
    p.Ready r s ↔ p.Present r ∧ ∃ o, (p.variable r s).operand s.heap = .ok o := by
  cases p with
  | self type => exact (exists_operand_pointer hw).symm.trans (and_iff_right trivial).symm
  | ref type i => exact and_congr_right fun _ => (exists_operand_pointer hw).symm
  | int i => exact ⟨fun h => ⟨h, _, rfl⟩, And.left⟩
  | bool i => exact ⟨fun h => ⟨h, _, rfl⟩, And.left⟩

/-- Local variables that give arguments can be passed to the library. -/
theorem exists_passes {heap : List (Obj S)} (hw : WellTyped heap) {locals : List Local}
    (hlocals : ∀ l ∈ locals, ∃ o, l.operand heap = .ok o) : ∃ passed, passes heap locals = .ok passed := by
  obtain ⟨operands, hoperands⟩ := exists_mapM_eq_ok.mpr hlocals
  have hobjects : ∀ a ∈ operands.flatMap Operand.objects, ∃ state, objectAt heap a = .ok state := by
    intro a ha
    obtain ⟨o, ho, hao⟩ := List.mem_flatMap.mp ha
    obtain ⟨l, -, hlo⟩ := of_mapM_eq_ok hoperands ho
    exact exists_objectAt.mpr (object_of_operand hw hlo a hao)
  obtain ⟨states, hstates⟩ := exists_mapM_eq_ok.mpr hobjects
  exact ⟨_, bind_eq_ok.mpr ⟨operands, hoperands, bind_eq_ok.mpr ⟨states, hstates, rfl⟩⟩⟩

/-- A handler succeeds exactly when what it reads is there, and its library function returns. -/
theorem handler_succeeds_iff {lib : Library S} {env : Env} {r : MethodCallRequest} {s : State S} {resp : ChannelResponse}
    {h : Handler} (hw : WellTyped s.heap) :
    (∃ out, h.run lib env r s resp = .ok out) ↔ (Action.library h).Ready r s ∧ (Action.library h).Returns lib r s := by
  unfold Handler.run
  simp only [exists_bind_eq_ok, returned_eq_ok]
  constructor
  · rintro ⟨⟨locals, s₁⟩, hl, passed, hpassed, effect, heffect, -⟩
    obtain ⟨hpresent, rfl, -, hheap⟩ := loadAll_eq_ok hl
    rw [hheap] at hpassed
    refine ⟨fun p hp => ?_, fun passed' hpassed' => ?_⟩
    · obtain ⟨operands, hoperands, -⟩ := passes_eq_ok hpassed
      exact (param_ready_iff hw p).mpr
        ⟨hpresent p hp, exists_mapM_eq_ok.mp ⟨operands, hoperands⟩ _ (List.mem_map_of_mem hp)⟩
    · obtain rfl := Except.ok.inj (hpassed.symm.trans hpassed')
      rw [heffect]
      rfl
  · rintro ⟨hready, hreturns⟩
    obtain ⟨locals, s₁, hl⟩ := exists_loadAll s fun p hp => ((param_ready_iff hw p).mp (hready p hp)).1
    obtain ⟨-, rfl, -, hheap⟩ := loadAll_eq_ok hl
    have hlocals : ∀ l ∈ h.params.map (·.variable r s), ∃ o, l.operand s.heap = .ok o := by
      intro l hmem
      obtain ⟨p, hp, rfl⟩ := List.mem_map.mp hmem
      exact ((param_ready_iff hw p).mp (hready p hp)).2
    obtain ⟨passed, hpassed⟩ := exists_passes hw hlocals
    obtain ⟨effect, heffect⟩ := Option.isSome_iff_exists.mp (hreturns passed hpassed)
    exact ⟨_, hl, passed, hheap ▸ hpassed, effect, heffect, _, rfl⟩

/-- A branch succeeds exactly when what it reads is there, and the library function that it calls returns. -/
theorem run_succeeds_iff {lib : Library S} {env : Env} {r : MethodCallRequest} {s : State S} {resp : ChannelResponse}
    {action : Action} (hw : WellTyped s.heap) :
    (∃ out, action.run lib env r s resp = .ok out) ↔ action.Ready r s ∧ action.Returns lib r s := by
  rcases action with handler | (_ | _) | (_ | _) | elem | _
  · exact handler_succeeds_iff hw
  · exact setChar_succeeds_iff.trans (and_iff_left trivial).symm
  · exact set_succeeds_iff.trans (and_iff_left trivial).symm
  · exact getChar_succeeds_iff.trans (and_iff_left trivial).symm
  · exact get_succeeds_iff.trans (and_iff_left trivial).symm
  · exact memAlloc_succeeds_iff.trans (and_iff_left trivial).symm
  · exact strlen_succeeds_iff.trans (and_iff_left trivial).symm

/-- What is ready depends on the table and the memory only. -/
theorem ready_congr {r : MethodCallRequest} {s s' : State S} (htable : s'.persistence = s.persistence)
    (hheap : s'.heap = s.heap) (action : Action) : action.Ready r s' ↔ action.Ready r s := by
  obtain ⟨counter, persistence, heap, drawn, overwritten⟩ := s
  obtain ⟨counter', persistence', heap', drawn', overwritten'⟩ := s'
  obtain rfl : persistence' = persistence := htable
  obtain rfl : heap' = heap := hheap
  rcases action with handler | (_ | _) | (_ | _) | elem | _ <;> exact Iff.rfl

theorem returns_congr {lib : Library S} {r : MethodCallRequest} {s s' : State S} (htable : s'.persistence = s.persistence)
    (hheap : s'.heap = s.heap) (action : Action) : action.Returns lib r s' ↔ action.Returns lib r s := by
  obtain ⟨counter, persistence, heap, drawn, overwritten⟩ := s
  obtain ⟨counter', persistence', heap', drawn', overwritten'⟩ := s'
  obtain rfl : persistence' = persistence := htable
  obtain rfl : heap' = heap := hheap
  rcases action with handler | _ | _ | _ | _ <;> exact Iff.rfl

/-- A request without a call is served; one with a call is when a handler matches it and finds what it reads, and the library function
that it calls returns. -/
theorem serve_succeeds_iff {lib : Library S} {env : Env} {rq : Request} {s : State S} (hw : WellTyped s.heap) :
    (∃ out, serve lib env rq s = .ok out) ↔ (∀ r, rq.methodCall = some r → Served r s) ∧ Returns lib rq s := by
  unfold serve Returns
  cases hcall : rq.methodCall with
  | none => exact ⟨fun _ => ⟨nofun, nofun⟩, fun _ => ⟨_, rfl⟩⟩
  | some r =>
    simp only [Option.some.injEq, forall_eq', processRequest]
    unfold Served
    cases hdispatch : dispatch r with
    | none => simp
    | some action =>
      rw [run_succeeds_iff ((assignId_heap rq s).symm ▸ hw), ready_congr (assignId_persistence rq s) (assignId_heap rq s),
        returns_congr (assignId_persistence rq s) (assignId_heap rq s)]
      refine and_congr (by simp) ⟨?_, fun h => h r action rfl hdispatch⟩
      rintro h _ action' rfl haction
      obtain rfl := Option.some.inj (hdispatch.symm.trans haction)
      exact h

end LibraryLink.Cpp.Process
