import LibraryLink.ArrayHandles
import LibraryLink.Lemmas.AssignedIds
import LibraryLink.Lemmas.KotlinExchange
import LibraryLink.Lemmas.Requests

/-!
# Helpers for `Theorems/ArrayHandles.lean`: the arrays in the receiver's memory

What the receiver does for a call of an array handle, and the invariant that ties the arrays in its memory to a store of arrays: each
handle points to a variable that points to an array of its own with the content that the store has.
-/

namespace LibraryLink.Cpp.Process

open Outcome

variable {S : Type}

/-! ## The branches for arrays -/

/-- What a branch leaves behind: the memory, and the pointers of the table. -/
structure Leaves (s : State S) (heap : List (Obj S)) (entry : String → Option Addr) : Prop where
  heap : s.heap = heap
  entry : ∀ key, s.entry key = entry key

/-- The pointers of the table after an assignment. -/
theorem entry_store (s : State S) (id : String) (p : Option Addr) (key : String) :
    (s.store id p).entry key = Function.update s.entry id p key := by
  by_cases hk : key = id
  · rw [hk, store_entry, Function.update_self]
  · rw [store_entry_ne s p hk, Function.update_of_ne hk]

variable (method type : String) {s : State S} {id : String} (resp : ChannelResponse)

/-- An index in the range of an array. -/
theorem index_natCast {i length : Nat} (hi : i < length) : index (i : Int) length = .ok i := by
  rw [index, if_pos ⟨Int.natCast_nonneg i, Int.ofNat_lt.mpr hi⟩, Int.toNat_natCast]

/-- An array of a size that is not negative is allocated. -/
theorem memAlloc_ok (s : State S) (id : String) (elem : Elem) (size : Nat) :
    ∃ s', librarylinkMemAlloc elem {} ⟨method, id, type, [⟨.inplace, .int size⟩]⟩ s resp = .ok (resp, s') ∧
      Leaves s' (s.heap ++ [elem.zeros size, .cell elem.pointer (some s.heap.length)])
        (Function.update s.entry resp.assignedId (some (s.heap.length + 1))) := by
  have hcalloc : calloc elem true (size : Int) s = (some (s.alloc (elem.zeros size)).1, (s.alloc (elem.zeros size)).2) := by
    rw [calloc, if_pos ⟨rfl, Int.natCast_nonneg size⟩, Int.toNat_natCast]
  have hrun : librarylinkMemAlloc elem {} ⟨method, id, type, [⟨.inplace, .int size⟩]⟩ s resp = .ok (resp,
      ((calloc elem true (size : Int) s).2.alloc (.cell elem.pointer (calloc elem true (size : Int) s).1)).2.store resp.assignedId
        (some ((calloc elem true (size : Int) s).2.alloc (.cell elem.pointer (calloc elem true (size : Int) s).1)).1)) := rfl
  refine ⟨_, hrun, ?_, ?_⟩
  · rw [hcalloc]
    simp [State.alloc]
  · intro key
    rw [entry_store, hcalloc]
    simp [State.alloc]
    rfl

/-- An element of an array of `Z3_ast` is copied to a new variable. -/
theorem get_ok {data : List (Option Addr)} {i : Nat} (harray : s.AstArray id data) (hi : i < data.length) :
    ∃ s', librarylinkGet ⟨method, id, type, [⟨.inplace, .int i⟩]⟩ s resp = .ok (resp, s') ∧
      Leaves s' (s.heap ++ [.cell .ast data[i]?.join]) (Function.update s.entry resp.assignedId (some s.heap.length)) := by
  obtain ⟨b, hb, hdata⟩ := astArray_iff.mpr harray
  have hrun : librarylinkGet ⟨method, id, type, [⟨.inplace, .int i⟩]⟩ s resp = .ok (resp,
      ((s.lookup id).2.alloc (.cell .ast data[i]?.join)).2.store resp.assignedId (some (s.lookup id).2.heap.length)) := by
    refine bind_eq_ok.mpr ⟨⟨.inplace, .int i⟩, rfl, bind_eq_ok.mpr ⟨b, ?_, bind_eq_ok.mpr ⟨data, ?_,
      bind_eq_ok.mpr ⟨i, index_natCast hi, rfl⟩⟩⟩⟩
    · rw [lookup_fst, lookup_heap]
      exact hb
    · rw [lookup_heap]
      exact hdata
  refine ⟨_, hrun, ?_, ?_⟩
  · rw [store_heap]
    show (s.lookup id).2.heap ++ _ = _
    rw [lookup_heap]
  · intro key
    rw [entry_store, lookup_heap]
    show Function.update (s.lookup id).2.entry _ _ key = _
    rw [funext (lookup_entry s id)]

/-- An element of an array of `char` is returned. -/
theorem getChar_ok {data : List Int} {i : Nat} (harray : s.CharArray id data) (hi : i < data.length) :
    ∃ s', librarylinkGetChar ⟨method, id, type, [⟨.inplace, .int i⟩]⟩ s resp =
        .ok ({ resp with result := some (.returnValue data[i]) }, s') ∧ Leaves s' s.heap s.entry := by
  obtain ⟨b, hb, hdata⟩ := charArray_iff.mpr harray
  have hrun : librarylinkGetChar ⟨method, id, type, [⟨.inplace, .int i⟩]⟩ s resp =
      .ok ({ resp with result := some (.returnValue (data[i]?.getD 0)) }, (s.lookup id).2) := by
    refine bind_eq_ok.mpr ⟨⟨.inplace, .int i⟩, rfl, bind_eq_ok.mpr ⟨b, ?_, bind_eq_ok.mpr ⟨data, ?_,
      bind_eq_ok.mpr ⟨i, index_natCast hi, rfl⟩⟩⟩⟩
    · rw [lookup_fst, lookup_heap]
      exact hb
    · rw [lookup_heap]
      exact hdata
  rw [List.getElem?_eq_getElem hi] at hrun
  exact ⟨_, hrun, lookup_heap s id, lookup_entry s id⟩

/-- The value of a variable is written to an array of `Z3_ast`. -/
theorem set_ok {key : String} {b : Addr} {data : List (Option Addr)} {value : Option Addr} {i : Nat}
    (hpoints : s.Points id .astPointer (some b)) (hdata : s.heap[b]? = some (.asts data)) (hi : i < data.length)
    (hvalue : s.Points key .ast value) :
    ∃ s', librarylinkSet ⟨method, id, type, [⟨.inplace, .int i⟩, ⟨.persistence, .string key⟩]⟩ s resp = .ok (resp, s') ∧
      Leaves s' (s.heap.set b (.asts (data.set i value))) s.entry := by
  let s₁ := ((s.lookup id).2.lookup key).2
  have hheap : s₁.heap = s.heap := (lookup_heap _ key).trans (lookup_heap s id)
  have hrun : librarylinkSet ⟨method, id, type, [⟨.inplace, .int i⟩, ⟨.persistence, .string key⟩]⟩ s resp =
      .ok (resp, { s₁ with heap := s₁.heap.set b (.asts (data.set i value)) }) := by
    refine bind_eq_ok.mpr ⟨⟨.inplace, .int i⟩, rfl, bind_eq_ok.mpr ⟨⟨.persistence, .string key⟩, rfl, bind_eq_ok.mpr ⟨value, ?_,
      bind_eq_ok.mpr ⟨b, ?_, bind_eq_ok.mpr ⟨data, ?_, bind_eq_ok.mpr ⟨i, index_natCast hi, rfl⟩⟩⟩⟩⟩⟩
    · rw [lookup_fst, lookup_entry, lookup_heap, lookup_heap]
      exact deref_entry.mpr hvalue
    · rw [lookup_fst, lookup_heap, lookup_heap, arrayOf_eq_ok]
      exact deref_entry.mpr hpoints
    · rw [lookup_heap, lookup_heap]
      exact astsAt_eq_ok.mpr hdata
  refine ⟨_, hrun, ?_, ?_⟩
  · show s₁.heap.set b _ = _
    rw [hheap]
  · intro key'
    exact (lookup_entry _ key key').trans (lookup_entry s id key')

/-- A character is written to an array of `char`, as far as it fits in one. -/
theorem setChar_ok {b : Addr} {data : List Int} {i : Nat} (n : Int)
    (hpoints : s.Points id .charPointer (some b)) (hdata : s.heap[b]? = some (.chars data)) (hi : i < data.length) :
    ∃ s', librarylinkSetChar ⟨method, id, type, [⟨.inplace, .int i⟩, ⟨.inplace, .int n⟩]⟩ s resp = .ok (resp, s') ∧
      Leaves s' (s.heap.set b (.chars (data.set i (n.bmod (2 ^ 8))))) s.entry := by
  let s₁ := (s.lookup id).2
  have hrun : librarylinkSetChar ⟨method, id, type, [⟨.inplace, .int i⟩, ⟨.inplace, .int n⟩]⟩ s resp =
      .ok (resp, { s₁ with heap := s₁.heap.set b (.chars (data.set i (n.bmod (2 ^ 8)))) }) := by
    refine bind_eq_ok.mpr ⟨⟨.inplace, .int i⟩, rfl, bind_eq_ok.mpr ⟨⟨.inplace, .int n⟩, rfl, bind_eq_ok.mpr ⟨b, ?_,
      bind_eq_ok.mpr ⟨data, ?_, bind_eq_ok.mpr ⟨i, index_natCast hi, rfl⟩⟩⟩⟩⟩
    · rw [lookup_fst, lookup_heap, arrayOf_eq_ok]
      exact deref_entry.mpr hpoints
    · rw [lookup_heap]
      exact charsAt_eq_ok.mpr hdata
  refine ⟨_, hrun, ?_, lookup_entry s id⟩
  show s₁.heap.set b _ = _
  rw [lookup_heap]

/-! ## Memory in use -/

section

variable {resp resp' : ChannelResponse} {r : MethodCallRequest} {s' : State S}

/-- What is allocated is in use. -/
theorem inUse_alloc (s : State S) (o : Obj S) : (s.alloc o).2.inUse = s.inUse + o.size := by
  unfold State.inUse State.alloc
  rw [List.map_append, List.sum_append]
  rfl

/-- An object that is replaced by one of its size. -/
theorem inUse_set {b : Addr} {o o' : Obj S} (hb : s.heap[b]? = some o) (hsize : o'.size = o.size)
    (hheap : s'.heap = s.heap.set b o') : s'.inUse = s.inUse := by
  obtain ⟨hlt, rfl⟩ := List.getElem?_eq_some_iff.mp hb
  have hlt' : b < (s.heap.map Obj.size).length := (List.length_map _).symm ▸ hlt
  have hself : (s.heap.map Obj.size).set b (s.heap.map Obj.size)[b] = s.heap.map Obj.size := List.set_getElem_self hlt'
  rw [List.getElem_map] at hself
  rw [State.inUse, hheap, List.map_set, hsize, hself]
  rfl

/-- The variable for a new array. -/
theorem inUse_memAlloc {elem : Elem} {env : Env} (h : librarylinkMemAlloc elem env r s resp = .ok (resp', s')) :
    s.inUse + 8 ≤ s'.inUse := by
  obtain ⟨size, array, rfl, rfl⟩ := memAlloc_eq_ok h
  have hcalloc : s.inUse ≤ (calloc elem env.callocs size s).2.inUse := by
    unfold calloc
    split
    · exact (inUse_alloc s _).symm ▸ Nat.le_add_right _ _
    · exact Nat.le_refl _
  show _ ≤ (State.alloc _ (.cell elem.pointer _)).2.inUse
  rw [inUse_alloc]
  exact Nat.add_le_add_right hcalloc 8

/-- The variable for a copy. -/
theorem inUse_getAst (h : librarylinkGet r s resp = .ok (resp', s')) : s'.inUse = s.inUse + 8 := by
  obtain ⟨b, data, value, s₁, -, -, hheap, -, rfl⟩ := get_eq_ok h
  show (s₁.alloc (.cell .ast value)).2.inUse = _
  rw [inUse_alloc, State.inUse, hheap]
  rfl

/-- An element that is written takes no memory. -/
theorem inUse_setAst (h : librarylinkSet r s resp = .ok (resp', s')) : s'.inUse = s.inUse := by
  obtain ⟨b, data, i, a, value, hdata, -, hheap, -⟩ := set_eq_ok h
  refine inUse_set hdata ?_ hheap
  show 8 * (data.set i value).length = 8 * data.length
  rw [List.length_set]

end

/-! ## Requests -/

variable {resp}

/-- What serving a request that has no id leaves behind, with the id that is drawn for it. -/
structure Serves (lib : Library S) (r : MethodCallRequest) (s : State S) (resp : ChannelResponse) (s' : State S)
    (heap : List (Obj S)) (entry : String → Option Addr) : Prop extends Leaves s' heap entry where
  serve : serve lib {} ⟨some r, ""⟩ s = .ok (resp, s')
  drawn : s'.drawn = s.drawn ++ [s.drawId.1]
  counter : s'.assignedIdCounter = s.assignedIdCounter + 1

/-- A call is served by its branch, in the state after its id was drawn. -/
theorem serves_of_run (lib : Library S) {r : MethodCallRequest} {s s' : State S} {resp : ChannelResponse} (action : Action)
    {heap : List (Obj S)} {entry : String → Option Addr} (hdispatch : dispatch r = some action)
    (h : action.run lib {} r s.drawId.2 { assignedId := s.drawId.1 } = .ok (resp, s')) (hleaves : Leaves s' heap entry) :
    Serves lib r s resp s' heap entry := by
  have hserve : serve lib {} ⟨some r, ""⟩ s = .ok (resp, s') := by
    show processRequest lib {} r s.drawId.2 _ = _
    rw [processRequest, hdispatch]
    exact h
  exact ⟨hleaves, hserve, (drawn_of_serve rfl hserve).1, (drawn_of_serve rfl hserve).2⟩

/-! ## What stays -/

/-- Pointers stay under the keys of a set, and variables keep their values. -/
structure KeepsCells (keys : Set String) (s s' : State S) : Prop where
  entry : ∀ key ∈ keys, ∀ a, s.entry key = some a → s'.entry key = some a
  cells : ∀ (a : Addr) (type : CType) (value : Option Addr), s.heap[a]? = some (.cell type value) →
    s'.heap[a]? = some (.cell type value)

theorem KeepsCells.refl (keys : Set String) (s : State S) : KeepsCells keys s s := ⟨fun _ _ _ h => h, fun _ _ _ h => h⟩

theorem KeepsCells.trans {keys : Set String} {s s' s'' : State S} (h : KeepsCells keys s s') (h' : KeepsCells keys s' s'') :
    KeepsCells keys s s'' :=
  ⟨fun key hkey a ha => h'.entry key hkey a (h.entry key hkey a ha),
    fun a type value ha => h'.cells a type value (h.cells a type value ha)⟩

theorem KeepsCells.mono {keys keys' : Set String} {s s' : State S} (h : KeepsCells keys s s') (hsub : keys' ⊆ keys) :
    KeepsCells keys' s s' :=
  ⟨fun key hkey => h.entry key (hsub hkey), h.cells⟩

/-- A handle denotes what it denoted. -/
theorem KeepsCells.points {keys : Set String} {s s' : State S} (h : KeepsCells keys s s') {key : String} (hkey : key ∈ keys)
    {type : CType} {value : Option Addr} (hp : s.Points key type value) : s'.Points key type value := by
  obtain ⟨a, ha, hcell⟩ := hp
  exact ⟨a, h.entry key hkey a ha, h.cells a type value hcell⟩

section

variable {lib : Library S} {r : MethodCallRequest} {s' : State S}

/-- A request that stores something new under its id. -/
theorem Serves.keepsCells_store {added : List (Obj S)} {a : Addr}
    (h : Serves lib r s resp s' (s.heap ++ added) (Function.update s.entry s.drawId.1 (some a))) :
    KeepsCells {key | key ≠ s.drawId.1} s s' := by
  refine ⟨?_, ?_⟩
  · intro key hne b hb
    rw [h.entry, Function.update_of_ne hne]
    exact hb
  · intro b type value hb
    rw [h.heap, List.getElem?_append_left (List.getElem?_eq_some_iff.mp hb).1]
    exact hb

/-- A request that changes what is no variable. -/
theorem Serves.keepsCells_set {b : Addr} {o o' : Obj S} (h : Serves lib r s resp s' (s.heap.set b o') s.entry)
    (hb : s.heap[b]? = some o) (ho : ∀ type value, o ≠ .cell type value) : KeepsCells Set.univ s s' := by
  refine ⟨fun key _ a ha => (h.entry key).trans ha, ?_⟩
  intro a type value ha
  have hne : b ≠ a := by
    rintro rfl
    exact ho type value (Option.some.inj (hb.symm.trans ha))
  rw [h.heap, List.getElem?_set_ne hne]
  exact ha

/-- A request that changes nothing. -/
theorem Serves.keepsCells_same (h : Serves lib r s resp s' s.heap s.entry) : KeepsCells Set.univ s s' := by
  refine ⟨fun key _ a ha => (h.entry key).trans ha, ?_⟩
  intro a type value ha
  rw [h.heap]
  exact ha

end

/-! ## Ids drawn since a state -/

/-- Since a state the ids drawn are the texts of the numbers from its counter on. -/
structure Counts (s₀ s : State S) : Prop where
  drawn : s₀.drawn <+: s.drawn
  counter : s.assignedIdCounter = s₀.assignedIdCounter + UInt64.ofNat (s.drawnSince s₀).length
  ids : s.drawnSince s₀ =
    (List.range (s.drawnSince s₀).length).map fun n => toString (s₀.assignedIdCounter + UInt64.ofNat n).toNat

theorem drawnSince_self (s : State S) : s.drawnSince s = [] := List.drop_length

theorem Counts.refl (s : State S) : Counts s s := by
  refine ⟨List.prefix_rfl, ?_, ?_⟩
  · rw [drawnSince_self]
    exact (UInt64.add_zero _).symm
  · rw [drawnSince_self]
    rfl

/-- The next id is not drawn again before the counter has gone round. -/
theorem Counts.fresh {s₀ s : State S} (h : Counts s₀ s) (hlen : (s.drawnSince s₀).length < 2 ^ 64) :
    s.drawId.1 ∉ s.drawnSince s₀ := by
  rw [h.ids]
  intro hmem
  obtain ⟨n, hn, heq⟩ := List.mem_map.mp hmem
  have hlt := List.mem_range.mp hn
  have hnumber : (s₀.assignedIdCounter + UInt64.ofNat n).toNat = s.assignedIdCounter.toNat := Decimals.toString_injective heq
  have hofNat := (UInt64.add_right_inj _).mp ((UInt64.toNat_inj.mp hnumber).trans h.counter)
  have htoNat := congrArg UInt64.toNat hofNat
  rw [UInt64.toNat_ofNat_of_lt' (hlt.trans hlen), UInt64.toNat_ofNat_of_lt' hlen] at htoNat
  exact Nat.ne_of_lt hlt htoNat

/-- An id more. -/
theorem Counts.draw {s₀ s s' : State S} (h : Counts s₀ s) (hdrawn : s'.drawn = s.drawn ++ [s.drawId.1])
    (hcounter : s'.assignedIdCounter = s.assignedIdCounter + 1) :
    Counts s₀ s' ∧ s'.drawnSince s₀ = s.drawnSince s₀ ++ [s.drawId.1] := by
  have hsince : s'.drawnSince s₀ = s.drawnSince s₀ ++ [s.drawId.1] := by
    rw [State.drawnSince, hdrawn, List.drop_append_of_le_length h.drawn.length_le]
    rfl
  refine ⟨⟨h.drawn.trans (hdrawn ▸ List.prefix_append _ _), ?_, ?_⟩, hsince⟩
  · rw [hcounter, h.counter, hsince, List.length_append, List.length_singleton, UInt64.ofNat_add, UInt64.add_assoc]
    rfl
  · have hid : s.drawId.1 = toString (s₀.assignedIdCounter + UInt64.ofNat (s.drawnSince s₀).length).toNat := by
      rw [← h.counter]
      rfl
    rw [hsince, List.length_append, List.length_singleton, List.range_succ, List.map_append, ← h.ids, hid]
    rfl

/-- From the second state to the third ids are added to those drawn since the first, and pointers stay under all keys but these. -/
structure AddsIds (s₀ s s' : State S) : Prop where
  drawn : s.drawnSince s₀ ⊆ s'.drawnSince s₀
  keeps : KeepsCells {key | key ∈ s'.drawnSince s₀ → key ∈ s.drawnSince s₀} s s'

theorem AddsIds.refl (s₀ s : State S) : AddsIds s₀ s s := ⟨List.Subset.refl _, KeepsCells.refl _ s⟩

theorem AddsIds.trans {s₀ s s' s'' : State S} (h : AddsIds s₀ s s') (h' : AddsIds s₀ s' s'') : AddsIds s₀ s s'' := by
  refine ⟨fun _ hkey => h'.drawn (h.drawn hkey), KeepsCells.trans (h.keeps.mono ?_) (h'.keeps.mono ?_)⟩
  · exact fun key hkey hmem => hkey (h'.drawn hmem)
  · exact fun key hkey hmem => h.drawn (hkey hmem)

/-- A handle to what was drawn before denotes what it denoted. -/
theorem AddsIds.points {s₀ s s' : State S} (h : AddsIds s₀ s s') {key : String} (hkey : key ∈ s.drawnSince s₀) {type : CType}
    {value : Option Addr} (hp : s.Points key type value) : s'.Points key type value :=
  h.keeps.points (fun _ => hkey) hp

section

variable {lib : Library S} {r : MethodCallRequest} {s₀ s' : State S} {heap : List (Obj S)} {entry : String → Option Addr}

/-- A request draws an id. -/
theorem Serves.draw (h : Serves lib r s resp s' heap entry) (hc : Counts s₀ s) :
    Counts s₀ s' ∧ s'.drawnSince s₀ = s.drawnSince s₀ ++ [s.drawId.1] :=
  hc.draw h.drawn h.counter

/-- A request that changes at most what stands under its id. -/
theorem Serves.addsIds (h : Serves lib r s resp s' heap entry) (hc : Counts s₀ s)
    (hlen : s'.drawn.length ≤ s₀.drawn.length + 2 ^ 64) (hk : KeepsCells {key | key ≠ s.drawId.1} s s') : AddsIds s₀ s s' := by
  have hsince := (h.draw hc).2
  have hlt : (s.drawnSince s₀).length < 2 ^ 64 := by
    rw [h.drawn, List.length_append, List.length_singleton] at hlen
    rw [State.drawnSince, List.length_drop]
    omega
  refine ⟨?_, hk.mono ?_⟩
  · rw [hsince]
    exact List.subset_append_left _ _
  · rintro key hkey rfl
    have hmem : s.drawId.1 ∈ s'.drawnSince s₀ := hsince ▸ List.mem_append_right _ List.mem_cons_self
    exact hc.fresh hlt (hkey hmem)

end

/-! ## The arrays in memory -/

variable {V : Type} {zero : V} {ptr : CType} {arr : List V → Obj S} {ids : List String} {contents : Arrays.Store V}
  {place : Nat → Addr}

/-- Each id of a list points to a variable that points to an array of its own, with the content that a store has. -/
structure ArraysHold (ptr : CType) (arr : List V → Obj S) (ids : List String) (contents : Arrays.Store V) (place : Nat → Addr)
    (s : State S) : Prop where
  points : ∀ (k : Nat) (id : String), ids[k]? = some id → s.Points id ptr (some (place k))
  content : ∀ (k : Nat) (id : String), ids[k]? = some id → s.heap[place k]? = some (arr (contents k))
  apart : ∀ (j k : Nat) (id id' : String), ids[j]? = some id → ids[k]? = some id' → place j = place k → j = k

/-- Without ids there is nothing to hold. -/
theorem ArraysHold.nil (ptr : CType) (arr : List V → Obj S) (contents : Arrays.Store V) (s : State S) :
    ArraysHold ptr arr [] contents (fun _ => 0) s := by
  refine ⟨?_, ?_, ?_⟩
  · intro k id h
    cases h
  · intro k id h
    cases h
  · intro j k id id' h
    cases h

section

variable {keys : Set String} {s' : State S}

/-- The handles of the arrays point to what they pointed to. -/
theorem ArraysHold.keeps (h : ArraysHold ptr arr ids contents place s) (hk : KeepsCells keys s s') (hkeys : ∀ id ∈ ids, id ∈ keys)
    (k : Nat) (id : String) (hid : ids[k]? = some id) : s'.Points id ptr (some (place k)) :=
  hk.points (hkeys id (List.mem_of_getElem? hid)) (h.points k id hid)

/-- Memory that is added leaves the arrays as they are. -/
theorem ArraysHold.grow (h : ArraysHold ptr arr ids contents place s) (hk : KeepsCells keys s s') (hkeys : ∀ id ∈ ids, id ∈ keys)
    {added : List (Obj S)} (hheap : s'.heap = s.heap ++ added) : ArraysHold ptr arr ids contents place s' := by
  refine ⟨h.keeps hk hkeys, ?_, h.apart⟩
  intro k id hid
  have hcontent := h.content k id hid
  rw [hheap, List.getElem?_append_left (List.getElem?_eq_some_iff.mp hcontent).1]
  exact hcontent

/-- A new array for one of the ids. -/
theorem ArraysHold.allocate (h : ArraysHold ptr arr ids contents place s) (hk : KeepsCells keys s s')
    (hkeys : ∀ id ∈ ids, id ∈ keys) {k size : Nat} {id : String} {ids' : List String} {cell : Obj S}
    (hheap : s'.heap = s.heap ++ [arr (List.replicate size zero), cell])
    (hid : ids'[k]? = some id) (hother : ∀ j ≠ k, ids'[j]? = ids[j]?) (hpoints : s'.Points id ptr (some s.heap.length)) :
    ArraysHold ptr arr ids' ((Arrays.Update.allocate k size).apply zero contents) (Function.update place k s.heap.length) s' := by
  have hlt : ∀ (j : Nat) (id : String), ids[j]? = some id → place j < s.heap.length :=
    fun j id hj => (List.getElem?_eq_some_iff.mp (h.content j id hj)).1
  refine ⟨?_, ?_, ?_⟩
  · intro j id' hj
    by_cases hjk : j = k
    · subst hjk
      rw [Function.update_self, ← Option.some.inj (hid.symm.trans hj)]
      exact hpoints
    · rw [Function.update_of_ne hjk]
      exact h.keeps hk hkeys j id' ((hother j hjk).symm.trans hj)
  · intro j id' hj
    rw [Arrays.Update.apply, hheap]
    by_cases hjk : j = k
    · subst hjk
      rw [Function.update_self, Function.update_self, List.getElem?_append_right (Nat.le_refl _), Nat.sub_self]
      rfl
    · rw [Function.update_of_ne hjk, Function.update_of_ne hjk]
      have hj' := (hother j hjk).symm.trans hj
      rw [List.getElem?_append_left (hlt j id' hj')]
      exact h.content j id' hj'
  · intro i j idi idj hi hj heq
    by_cases hik : i = k
    · by_cases hjk : j = k
      · exact hik.trans hjk.symm
      · rw [hik, Function.update_self, Function.update_of_ne hjk] at heq
        exact absurd heq.symm (Nat.ne_of_lt (hlt j idj ((hother j hjk).symm.trans hj)))
    · by_cases hjk : j = k
      · rw [hjk, Function.update_self, Function.update_of_ne hik] at heq
        exact absurd heq (Nat.ne_of_lt (hlt i idi ((hother i hik).symm.trans hi)))
      · rw [Function.update_of_ne hik, Function.update_of_ne hjk] at heq
        exact h.apart i j idi idj ((hother i hik).symm.trans hi) ((hother j hjk).symm.trans hj) heq

/-- An element of one of the arrays is written. -/
theorem ArraysHold.write (h : ArraysHold ptr arr ids contents place s) (hk : KeepsCells keys s s') (hkeys : ∀ id ∈ ids, id ∈ keys)
    {k i : Nat} {v : V} {id : String} (hid : ids[k]? = some id) (hheap : s'.heap = s.heap.set (place k) (arr ((contents k).set i v))) :
    ArraysHold ptr arr ids ((Arrays.Update.write k i v).apply zero contents) place s' := by
  refine ⟨h.keeps hk hkeys, ?_, h.apart⟩
  intro j id' hj
  rw [Arrays.Update.apply, hheap]
  by_cases hjk : j = k
  · subst hjk
    rw [Function.update_self, List.getElem?_set_self (List.getElem?_eq_some_iff.mp (h.content j id' hj)).1]
  · rw [Function.update_of_ne hjk, List.getElem?_set_ne fun heq => hjk (h.apart j k id' id hj hid heq.symm)]
    exact h.content j id' hj

end

end LibraryLink.Cpp.Process

namespace LibraryLink.Kotlin

open Outcome
open Cpp.Process (State Elem Serves Leaves CType Obj Addr)

variable {S V : Type} {lib : Cpp.Process.Library S} {s : State S} {h : ArrayHandle}

/-! ## The calls of an array handle -/

/-- The class of the elements. -/
def clazzOf : Elem → Clazz
  | .char => .char
  | .ast => .handle "Z3_ast"

/-- The type name of the elements in a request. -/
def typeName : Elem → String
  | .char => "char"
  | .ast => "Z3_ast"

/-- The type in a request. -/
def arrayType : Elem → String
  | .char => "Char[]"
  | .ast => "Z3_ast[]"

/-- What a request is answered with that the receiver serves. -/
theorem makeRequest_ok {elem : Elem} {method id : String} {args : List Argument} (messages : List Exchange.Argument)
    {doGetReturnValue : Bool} {resp : Cpp.Process.ChannelResponse} {answer : ProcessExchangeResponse} {s' : State S}
    (hargs : args.mapM Argument.toProtobuf = .ok messages)
    (hserve : Cpp.Process.serve lib {} ⟨some ⟨method ++ "<" ++ typeName elem ++ ">", id, arrayType elem,
      messages.map Exchange.Argument.read⟩, ""⟩ s = .ok (resp, s'))
    (hanswer : toProcessExchangeResponse (.ofReceiver resp) = .ok answer) :
    makeRequest (sendRequest lib {}) (ArrayHandle.methodCall (clazzOf elem) method id args doGetReturnValue) s =
      .ok (answer, s') := by
  have hname : calculatePrimitiveTypeName (clazzOf elem) = typeName elem := by cases elem <;> rfl
  have htype : (typeName elem).capitalize ++ "[]" = arrayType elem := by cases elem <;> rfl
  let call : Exchange.MethodCallRequest := {
    methodName := method ++ "<" ++ typeName elem ++ ">", type := arrayType elem, objectId := id, arg := messages,
    doGetReturnValue }
  refine makeRequest_eq_ok.mpr ⟨⟨some (.methodCall call), ""⟩, resp, ?_, hserve, hanswer⟩
  unfold ArrayHandle.methodCall
  rw [hname]
  dsimp only
  rw [htype]
  exact bind_eq_ok.mpr ⟨_, bind_eq_ok.mpr ⟨messages, hargs, rfl⟩, rfl⟩

/-- `allocate` binds the handle to the id of a new array. -/
theorem allocate_ok (lib : Cpp.Process.Library S) (s : State S) {elem : Elem} (hclazz : h.clazz = clazzOf elem) (size : Nat) :
    ∃ r s', h.allocate (sendRequest lib {}) size s = .ok ({ h with assignedID := s.drawId.1 }, s') ∧
      Serves lib r s ⟨s.drawId.1, none⟩ s' (s.heap ++ [elem.zeros size, .cell elem.pointer (some s.heap.length)])
        (Function.update s.entry s.drawId.1 (some (s.heap.length + 1))) := by
  obtain ⟨s', hrun, hleaves⟩ := Cpp.Process.memAlloc_ok ("mem_alloc" ++ "<" ++ typeName elem ++ ">") (arrayType elem)
    ⟨s.drawId.1, none⟩ s.drawId.2 "" elem size
  have hserves := Cpp.Process.serves_of_run lib (.memAlloc elem) (by cases elem <;> rfl) hrun hleaves
  refine ⟨_, s', bind_eq_ok.mpr ⟨(.handle s.drawId.1, s'), ?_, rfl⟩, hserves⟩
  rw [hclazz]
  exact makeRequest_ok [⟨.inplace, .int size, ""⟩] rfl hserves.serve rfl

/-- `get` of an array of `Z3_ast` returns a handle to a new variable with the element. -/
theorem get_ok (lib : Cpp.Process.Library S) {data : List (Option Addr)} {i : Nat} (hclazz : h.clazz = clazzOf .ast)
    (harray : s.AstArray h.assignedID data) (hi : i < data.length) :
    ∃ r s', h.get (sendRequest lib {}) i s = .ok (.handle s.drawId.1, s') ∧
      Serves lib r s ⟨s.drawId.1, none⟩ s' (s.heap ++ [.cell .ast data[i]?.join])
        (Function.update s.entry s.drawId.1 (some s.heap.length)) := by
  have harray' : s.drawId.2.AstArray h.assignedID data := harray
  obtain ⟨s', hrun, hleaves⟩ := Cpp.Process.get_ok ("get" ++ "<" ++ typeName .ast ++ ">") (arrayType .ast) ⟨s.drawId.1, none⟩
    harray' hi
  have hserves := Cpp.Process.serves_of_run lib (.get .ast) rfl hrun hleaves
  refine ⟨_, s', bind_eq_ok.mpr ⟨(.handle s.drawId.1, s'), ?_, ?_⟩, hserves⟩
  · rw [hclazz]
    exact makeRequest_ok [⟨.inplace, .int i, ""⟩] rfl hserves.serve rfl
  · rw [hclazz]
    rfl

/-- `get` of an array of characters returns the element, widened to 16 bits with its sign. -/
theorem getChar_ok (lib : Cpp.Process.Library S) {data : List Int} {i : Nat} (hclazz : h.clazz = clazzOf .char)
    (harray : s.CharArray h.assignedID data) (hi : i < data.length) :
    ∃ r resp s', h.get (sendRequest lib {}) i s = .ok (.value (.char (UInt16.ofInt data[i])), s') ∧
      Serves lib r s resp s' s.heap s.entry := by
  have harray' : s.drawId.2.CharArray h.assignedID data := harray
  obtain ⟨s', hrun, hleaves⟩ := Cpp.Process.getChar_ok ("get" ++ "<" ++ typeName .char ++ ">") (arrayType .char) ⟨s.drawId.1, none⟩
    harray' hi
  have hserves := Cpp.Process.serves_of_run lib (.get .char) rfl hrun hleaves
  refine ⟨_, _, s', bind_eq_ok.mpr ⟨(.primitive (.number data[i]) s.drawId.1, s'), ?_, ?_⟩, hserves⟩
  · rw [hclazz]
    exact makeRequest_ok [⟨.inplace, .int i, ""⟩] rfl hserves.serve rfl
  · rw [hclazz]
    rfl

/-- The request of `set` for a handle. -/
theorem set_ok (lib : Cpp.Process.Library S) {key : String} {b : Addr} {data : List (Option Addr)} {value : Option Addr} {i : Nat}
    (hclazz : h.clazz = clazzOf .ast) (hpoints : s.Points h.assignedID .astPointer (some b))
    (hdata : s.heap[b]? = some (.asts data)) (hi : i < data.length) (hvalue : s.Points key .ast value) :
    ∃ r answer s', makeRequest (sendRequest lib {}) (ArrayHandle.methodCall h.clazz "set" h.assignedID
        [.of (.value (.number i)) none, .of (.handle key) none] false) s = .ok (answer, s') ∧
      Serves lib r s ⟨s.drawId.1, none⟩ s' (s.heap.set b (.asts (data.set i value))) s.entry := by
  have hpoints' : s.drawId.2.Points h.assignedID .astPointer (some b) := hpoints
  have hvalue' : s.drawId.2.Points key .ast value := hvalue
  obtain ⟨s', hrun, hleaves⟩ := Cpp.Process.set_ok ("set" ++ "<" ++ typeName .ast ++ ">") (arrayType .ast) ⟨s.drawId.1, none⟩
    hpoints' hdata hi hvalue'
  have hserves := Cpp.Process.serves_of_run lib (.set .ast) rfl hrun hleaves
  refine ⟨_, .handle s.drawId.1, s', ?_, hserves⟩
  rw [hclazz]
  exact makeRequest_ok [⟨.inplace, .int i, ""⟩, ⟨.persistence, .string key, ""⟩] rfl hserves.serve rfl

/-- The request of `set` for a character. -/
theorem setChar_ok (lib : Cpp.Process.Library S) {b : Addr} {data : List Int} {i : Nat} (n : Int)
    (hclazz : h.clazz = clazzOf .char)
    (hpoints : s.Points h.assignedID .charPointer (some b)) (hdata : s.heap[b]? = some (.chars data)) (hi : i < data.length) :
    ∃ r answer s', makeRequest (sendRequest lib {}) (ArrayHandle.methodCall h.clazz "set" h.assignedID
        [.of (.value (.number i)) none, .of (.value (.number n)) none] false) s = .ok (answer, s') ∧
      Serves lib r s ⟨s.drawId.1, none⟩ s' (s.heap.set b (.chars (data.set i (n.bmod (2 ^ 8))))) s.entry := by
  have hpoints' : s.drawId.2.Points h.assignedID .charPointer (some b) := hpoints
  obtain ⟨s', hrun, hleaves⟩ := Cpp.Process.setChar_ok ("set" ++ "<" ++ typeName .char ++ ">") (arrayType .char) ⟨s.drawId.1, none⟩ n
    hpoints' hdata hi
  have hserves := Cpp.Process.serves_of_run lib (.set .char) rfl hrun hleaves
  refine ⟨_, .handle s.drawId.1, s', ?_, hserves⟩
  rw [hclazz]
  exact makeRequest_ok [⟨.inplace, .int i, ""⟩, ⟨.inplace, .int n, ""⟩] rfl hserves.serve rfl

/-! ## Ids drawn by the calls -/

/-- A request draws an id. -/
theorem drawn_makeRequest {clazz : Clazz} {method id : String} {args : List Argument} {doGetReturnValue : Bool}
    {answer : ProcessExchangeResponse} {s' : State S}
    (h : makeRequest (sendRequest lib {}) (ArrayHandle.methodCall clazz method id args doGetReturnValue) s = .ok (answer, s')) :
    s'.drawn.length = s.drawn.length + 1 := by
  obtain ⟨m, resp, hm, hserve, -⟩ := makeRequest_eq_ok.mp h
  obtain ⟨call, -, hm⟩ := bind_eq_ok.mp hm
  obtain rfl := Except.ok.inj hm
  rw [(Cpp.Process.drawn_of_serve rfl hserve).1, List.length_append, List.length_singleton]

/-- `allocate` draws an id. -/
theorem drawn_allocate {h' : ArrayHandle} {size : Int} {s' : State S}
    (hcall : h.allocate (sendRequest lib {}) size s = .ok (h', s')) : s'.drawn.length = s.drawn.length + 1 := by
  obtain ⟨⟨answer, s₁⟩, hmake, hcall⟩ := bind_eq_ok.mp hcall
  obtain ⟨-, rfl⟩ := Prod.mk.inj (Except.ok.inj hcall)
  exact drawn_makeRequest hmake

/-- `get` draws an id. -/
theorem drawn_get {index : Int} {returned : Instance} {s' : State S}
    (hcall : h.get (sendRequest lib {}) index s = .ok (returned, s')) : s'.drawn.length = s.drawn.length + 1 := by
  obtain ⟨⟨answer, s₁⟩, hmake, hcall⟩ := bind_eq_ok.mp hcall
  obtain ⟨element, -, hcall⟩ := bind_eq_ok.mp hcall
  obtain ⟨-, rfl⟩ := Prod.mk.inj (Except.ok.inj hcall)
  exact drawn_makeRequest hmake

/-- `set` is `get` and a request. -/
theorem set_eq_ok {index : Int} {element returned : Instance} {s' : State S} :
    h.set (sendRequest lib {}) index element s = .ok (returned, s') ↔
      ∃ s₁ value answer, h.get (sendRequest lib {}) index s = .ok (returned, s₁) ∧ ArrayHandle.valueArgument element = .ok value ∧
        makeRequest (sendRequest lib {}) (ArrayHandle.methodCall h.clazz "set" h.assignedID
          [.of (.value (.number index)) none, value] false) s₁ = .ok (answer, s') := by
  constructor
  · intro hcall
    obtain ⟨⟨previous, s₁⟩, hget, hcall⟩ := bind_eq_ok.mp hcall
    obtain ⟨value, hvalue, hcall⟩ := bind_eq_ok.mp hcall
    obtain ⟨⟨answer, s₂⟩, hmake, hcall⟩ := bind_eq_ok.mp hcall
    obtain ⟨rfl, rfl⟩ := Prod.mk.inj (Except.ok.inj hcall)
    exact ⟨s₁, value, answer, hget, hvalue, hmake⟩
  · rintro ⟨s₁, value, answer, hget, hvalue, hmake⟩
    exact bind_eq_ok.mpr ⟨_, hget, bind_eq_ok.mpr ⟨_, hvalue, bind_eq_ok.mpr ⟨_, hmake, rfl⟩⟩⟩

/-- `set` draws two ids. -/
theorem drawn_set {index : Int} {element returned : Instance} {s' : State S}
    (hcall : h.set (sendRequest lib {}) index element s = .ok (returned, s')) : s'.drawn.length = s.drawn.length + 2 := by
  obtain ⟨s₁, value, answer, hget, -, hmake⟩ := set_eq_ok.mp hcall
  rw [drawn_makeRequest hmake, drawn_get hget]

/-! ## Memory in use -/

/-- The branch of a request for arrays was run. -/
theorem run_of_makeRequest {elem : Elem} {method id : String} {args : List Argument} {doGetReturnValue : Bool}
    {answer : ProcessExchangeResponse} {s' : State S} (action : Cpp.Process.Action)
    (hdispatch : ∀ objectId arg,
      Cpp.Process.dispatch ⟨method ++ "<" ++ typeName elem ++ ">", objectId, arrayType elem, arg⟩ = some action)
    (h : makeRequest (sendRequest lib {}) (ArrayHandle.methodCall (clazzOf elem) method id args doGetReturnValue) s =
      .ok (answer, s')) :
    ∃ r resp, action.run lib {} r s.drawId.2 { assignedId := s.drawId.1 } = .ok (resp, s') := by
  obtain ⟨m, resp, hm, hserve, -⟩ := makeRequest_eq_ok.mp h
  obtain ⟨call, hcall, hm⟩ := bind_eq_ok.mp hm
  obtain rfl := Except.ok.inj hm
  obtain ⟨messages, -, hcall⟩ := bind_eq_ok.mp hcall
  obtain rfl := Except.ok.inj hcall
  have hname : calculatePrimitiveTypeName (clazzOf elem) = typeName elem := by cases elem <;> rfl
  have htype : (typeName elem).capitalize ++ "[]" = arrayType elem := by cases elem <;> rfl
  dsimp only at hserve
  rw [hname, htype] at hserve
  have hprocess : Cpp.Process.processRequest lib {} ⟨method ++ "<" ++ typeName elem ++ ">", id, arrayType elem,
      messages.map Exchange.Argument.read⟩ s.drawId.2 { assignedId := s.drawId.1 } = .ok (resp, s') := hserve
  rw [Cpp.Process.processRequest, hdispatch] at hprocess
  exact ⟨_, resp, hprocess⟩

/-- `allocate` takes memory for a variable at least. -/
theorem inUse_allocate {h' : ArrayHandle} {elem : Elem} {size : Int} {s' : State S} (hclazz : h.clazz = clazzOf elem)
    (hcall : h.allocate (sendRequest lib {}) size s = .ok (h', s')) : s.inUse + 8 ≤ s'.inUse ∧ h'.clazz = h.clazz := by
  obtain ⟨⟨answer, s₁⟩, hmake, hcall⟩ := bind_eq_ok.mp hcall
  obtain ⟨rfl, rfl⟩ := Prod.mk.inj (Except.ok.inj hcall)
  rw [hclazz] at hmake
  obtain ⟨r, resp, hrun⟩ := run_of_makeRequest (.memAlloc elem) (fun _ _ => by cases elem <;> rfl) hmake
  exact ⟨Cpp.Process.inUse_memAlloc (s := s.drawId.2) hrun, rfl⟩

/-- `get` of an array of `Z3_ast` takes memory for a variable. -/
theorem inUse_get {index : Int} {returned : Instance} {s' : State S} (hclazz : h.clazz = clazzOf .ast)
    (hcall : h.get (sendRequest lib {}) index s = .ok (returned, s')) : s'.inUse = s.inUse + 8 := by
  obtain ⟨⟨answer, s₁⟩, hmake, hcall⟩ := bind_eq_ok.mp hcall
  obtain ⟨element, -, hcall⟩ := bind_eq_ok.mp hcall
  obtain ⟨-, rfl⟩ := Prod.mk.inj (Except.ok.inj hcall)
  rw [hclazz] at hmake
  obtain ⟨r, resp, hrun⟩ := run_of_makeRequest (.get .ast) (fun _ _ => rfl) hmake
  exact Cpp.Process.inUse_getAst (s := s.drawId.2) hrun

/-- `set` takes the memory of its `get`. -/
theorem inUse_set {index : Int} {element returned : Instance} {s' : State S} (hclazz : h.clazz = clazzOf .ast)
    (hcall : h.set (sendRequest lib {}) index element s = .ok (returned, s')) : s'.inUse = s.inUse + 8 := by
  obtain ⟨s₁, value, answer, hget, -, hmake⟩ := set_eq_ok.mp hcall
  rw [hclazz] at hmake
  obtain ⟨r, resp, hrun⟩ := run_of_makeRequest (.set .ast) (fun _ _ => rfl) hmake
  have hset : s'.inUse = s₁.inUse := Cpp.Process.inUse_setAst (s := s₁.drawId.2) hrun
  exact hset.trans (inUse_get hclazz hget)

/-- In a run on arrays of `Z3_ast` at least eight bytes are given out for every two ids that are drawn. -/
theorem ArrayRun.drawn_le {V : Type} {Stands : State S → Instance → V → Prop} {zero : V} {s₀ : State S} {l : List (ArrayEvent V)}
    {c : ArrayClient S} (hrun : ArrayRun lib (clazzOf .ast) Stands zero ⟨s₀, []⟩ l c) :
    (∀ h ∈ c.arrays, h.clazz = clazzOf .ast) ∧
      4 * c.receiver.drawn.length + s₀.inUse ≤ 4 * s₀.drawn.length + c.receiver.inUse := by
  induction hrun with
  | start => exact ⟨List.forall_mem_nil _, Nat.le_refl _⟩
  | @make l c size h' s' _ hcall ih =>
    obtain ⟨hclazz, hle⟩ := ih
    have hnew : (⟨clazzOf .ast, ""⟩ : ArrayHandle).clazz = clazzOf .ast := rfl
    obtain ⟨huse, hclazz'⟩ := inUse_allocate hnew hcall
    have hdrawn := drawn_allocate hcall
    refine ⟨?_, ?_⟩
    · intro h hh
      rcases List.mem_append.mp hh with hh | hh
      · exact hclazz h hh
      · rw [List.mem_singleton.mp hh]
        exact hclazz'
    · dsimp only at *
      omega
  | @allocate l c array size h h' s' _ hk hcall ih =>
    obtain ⟨hclazz, hle⟩ := ih
    have hh := hclazz h (List.mem_of_getElem? hk)
    obtain ⟨huse, hclazz'⟩ := inUse_allocate hh hcall
    have hdrawn := drawn_allocate hcall
    refine ⟨?_, ?_⟩
    · intro x hx
      rcases List.mem_or_eq_of_mem_set hx with hx | rfl
      · exact hclazz x hx
      · exact hclazz'.trans hh
    · dsimp only at *
      omega
  | @get l c array index h returned s' _ hk _ hcall ih =>
    obtain ⟨hclazz, hle⟩ := ih
    have huse := inUse_get (hclazz h (List.mem_of_getElem? hk)) hcall
    have hdrawn := drawn_get hcall
    refine ⟨hclazz, ?_⟩
    dsimp only at *
    omega
  | @set l c array index h element value returned s' _ hk _ _ hcall ih =>
    obtain ⟨hclazz, hle⟩ := ih
    have huse := inUse_set (hclazz h (List.mem_of_getElem? hk)) hcall
    have hdrawn := drawn_set hcall
    refine ⟨hclazz, ?_⟩
    dsimp only at *
    omega

/-- A property of each event and the events before it, one event more. -/
theorem forall_append_singleton {α : Type} {P : List α → α → Prop} {l : List α} {e : α}
    (hl : ∀ before e after, l = before ++ e :: after → P before e) (he : P l e) :
    ∀ before e' after, l ++ [e] = before ++ e' :: after → P before e' := by
  intro before e' after heq
  rcases List.eq_nil_or_concat after with rfl | ⟨after, x, rfl⟩
  · obtain ⟨rfl, hlast⟩ := List.append_inj' heq rfl
    rw [← List.head_eq_of_cons_eq hlast]
    exact he
  · rw [List.concat_eq_append, ← List.cons_append, ← List.append_assoc] at heq
    exact hl before e' after (List.append_inj' heq rfl).1

/-! ## The invariant of a run -/

/-- What a run that started in a state keeps: the arrays in the receiver's memory are those of the calls so far, under ids drawn in the
run. -/
structure RunInv (elem : Elem) (arr : List V → Obj S) (zero : V) (s₀ : State S) (l : List (ArrayEvent V)) (c : ArrayClient S) :
    Prop where
  counts : Cpp.Process.Counts s₀ c.receiver
  clazz : ∀ h ∈ c.arrays, h.clazz = clazzOf elem
  drawn : ∀ h ∈ c.arrays, h.assignedID ∈ c.receiver.drawnSince s₀
  hold : ∃ place, Cpp.Process.ArraysHold elem.pointer arr (c.arrays.map (·.assignedID)) (Arrays.contents zero (updates l)) place
    c.receiver

variable {elem : Elem} {arr : List V → Obj S} {zero : V} {s₀ : State S} {l l' : List (ArrayEvent V)} {c : ArrayClient S}

/-- A handle of the run has its array. -/
theorem RunInv.array (hi : RunInv elem arr zero s₀ l c) {k : Nat} (hk : c.arrays[k]? = some h) :
    ∃ b, c.receiver.Points h.assignedID elem.pointer (some b) ∧
      c.receiver.heap[b]? = some (arr (Arrays.contents zero (updates l) k)) := by
  obtain ⟨place, hhold⟩ := hi.hold
  have hid : (c.arrays.map (·.assignedID))[k]? = some h.assignedID := by
    rw [List.getElem?_map, hk]
    rfl
  exact ⟨place k, hhold.points k _ hid, hhold.content k _ hid⟩

/-- The ids of the handles are none of those that are added. -/
theorem RunInv.keys (hi : RunInv elem arr zero s₀ l c) (s' : State S) :
    ∀ id ∈ c.arrays.map (·.assignedID), id ∈ ({key | key ∈ s'.drawnSince s₀ → key ∈ c.receiver.drawnSince s₀} : Set String) := by
  intro id hid _
  obtain ⟨h, hh, rfl⟩ := List.mem_map.mp hid
  exact hi.drawn h hh

/-- A request that adds memory keeps the invariant. -/
theorem RunInv.grow {s' : State S} (hi : RunInv elem arr zero s₀ l c) (hc : Cpp.Process.Counts s₀ s')
    (ha : Cpp.Process.AddsIds s₀ c.receiver s') {added : List (Obj S)} (hheap : s'.heap = c.receiver.heap ++ added)
    (hl : updates l' = updates l) : RunInv elem arr zero s₀ l' { c with receiver := s' } := by
  obtain ⟨place, hhold⟩ := hi.hold
  refine ⟨hc, hi.clazz, fun h hh => ha.drawn (hi.drawn h hh), place, ?_⟩
  rw [hl]
  exact hhold.grow ha.keeps (hi.keys s') hheap

/-- A request that writes an element. -/
theorem RunInv.write {s' : State S} (hi : RunInv elem arr zero s₀ l c) (hc : Cpp.Process.Counts s₀ s')
    (ha : Cpp.Process.AddsIds s₀ c.receiver s') {k i : Nat} {v : V} {b : Addr} (harray : c.arrays[k]? = some h)
    (hpoints : c.receiver.Points h.assignedID elem.pointer (some b))
    (hheap : s'.heap = c.receiver.heap.set b (arr ((Arrays.contents zero (updates l) k).set i v)))
    (hl : updates l' = updates l ++ [.write k i v]) : RunInv elem arr zero s₀ l' { c with receiver := s' } := by
  obtain ⟨place, hhold⟩ := hi.hold
  have hid : (c.arrays.map (·.assignedID))[k]? = some h.assignedID := by
    rw [List.getElem?_map, harray]
    rfl
  have hplace : b = place k := by
    obtain ⟨a, ha, hcell⟩ := hpoints
    obtain ⟨a', ha', hcell'⟩ := hhold.points k _ hid
    obtain rfl : a = a' := Option.some.inj (ha.symm.trans ha')
    have hcells := Option.some.inj (hcell.symm.trans hcell')
    injection hcells with _ hvalue
    exact Option.some.inj hvalue
  refine ⟨hc, hi.clazz, fun h hh => ha.drawn (hi.drawn h hh), place, ?_⟩
  rw [hl, Arrays.contents_append_singleton]
  exact hhold.write ha.keeps (hi.keys s') hid (hplace ▸ hheap)

/-- A new array for a handle. -/
theorem RunInv.allocated (hzeros : ∀ n, arr (List.replicate n zero) = elem.zeros n) (hi : RunInv elem arr zero s₀ l c)
    (arrays : List ArrayHandle) {h' : ArrayHandle} {k size : Nat} {s' : State S} (hclazz : h.clazz = clazzOf elem)
    (hcall : h.allocate (sendRequest lib {}) size c.receiver = .ok (h', s'))
    (hlen : s'.drawn.length ≤ s₀.drawn.length + 2 ^ 64)
    (hk : arrays[k]? = some h') (hother : ∀ j ≠ k, arrays[j]? = c.arrays[j]?) :
    RunInv elem arr zero s₀ (l ++ [.allocated k size]) ⟨s', arrays⟩ ∧ Cpp.Process.AddsIds s₀ c.receiver s' := by
  obtain ⟨r, s₁, hok, hserves⟩ := allocate_ok lib c.receiver hclazz size
  obtain ⟨rfl, rfl⟩ := Prod.mk.inj (Except.ok.inj (hok.symm.trans hcall))
  obtain ⟨hc, hsince⟩ := hserves.draw hi.counts
  have ha := hserves.addsIds hi.counts hlen hserves.keepsCells_store
  have hmem : ∀ x ∈ arrays, x = { h with assignedID := c.receiver.drawId.1 } ∨ x ∈ c.arrays := by
    intro x hx
    obtain ⟨j, hj⟩ := List.mem_iff_getElem?.mp hx
    by_cases hjk : j = k
    · rw [hjk, hk] at hj
      exact .inl (Option.some.inj hj).symm
    · exact .inr (List.mem_of_getElem? ((hother j hjk).symm.trans hj))
  obtain ⟨place, hhold⟩ := hi.hold
  refine ⟨⟨hc, ?_, ?_, Function.update place k c.receiver.heap.length, ?_⟩, ha⟩
  · intro x hx
    rcases hmem x hx with rfl | hx
    · exact hclazz
    · exact hi.clazz x hx
  · intro x hx
    rcases hmem x hx with rfl | hx
    · show c.receiver.drawId.1 ∈ s₁.drawnSince s₀
      rw [hsince]
      exact List.mem_append_right _ List.mem_cons_self
    · exact ha.drawn (hi.drawn x hx)
  · have hupdates : updates (l ++ [.allocated k size]) = updates l ++ [.allocate k size] := List.filterMap_append
    rw [hupdates, Arrays.contents_append_singleton]
    have hheap := hserves.heap
    rw [← hzeros] at hheap
    have hid : (arrays.map (·.assignedID))[k]? = some c.receiver.drawId.1 := by
      rw [List.getElem?_map, hk]
      rfl
    refine hhold.allocate ha.keeps (hi.keys s₁) hheap hid ?_ ?_
    · intro j hjk
      rw [List.getElem?_map, List.getElem?_map, hother j hjk]
    · refine ⟨c.receiver.heap.length + 1, ?_, ?_⟩
      · rw [hserves.entry, Function.update_self]
      · rw [hserves.heap, List.getElem?_append_right (Nat.le_add_right _ 1), Nat.add_sub_cancel_left]
        rfl

/-- The place of a handle that was appended. -/
theorem getElem?_append_singleton_of_ne {l : List ArrayHandle} {j : Nat} (hj : j ≠ l.length) : (l ++ [h])[j]? = l[j]? := by
  by_cases hlt : j < l.length
  · rw [List.getElem?_append_left hlt]
  · rw [List.getElem?_eq_none (Nat.le_of_not_lt hlt), List.getElem?_eq_none]
    rw [List.length_append, List.length_singleton]
    omega

/-! ## Runs -/

/-- What `get` and `set` see to for elements of a kind, in a run that started in a state: they return, the invariant is kept, and what
they return is as `Returned` says, which goes on to hold. -/
structure Elements (lib : Cpp.Process.Library S) (elem : Elem) (arr : List V → Obj S) (zero : V)
    (Stands : State S → Instance → V → Prop) (s₀ : State S) (Returned : State S → List (ArrayEvent V) → ArrayEvent V → Prop) :
    Prop where
  zeros : ∀ n, arr (List.replicate n zero) = elem.zeros n
  mono : ∀ s s' before e, Cpp.Process.AddsIds s₀ s s' → Returned s before e → Returned s' before e
  allocated : ∀ s before array size, Returned s before (.allocated array size)
  get : ∀ l c k i h, RunInv elem arr zero s₀ l c → c.arrays[k]? = some h → i < (Arrays.contents zero (updates l) k).length →
    ∃ returned s', h.get (sendRequest lib {}) (i : Nat) c.receiver = .ok (returned, s') ∧
      (s'.drawn.length ≤ s₀.drawn.length + 2 ^ 64 → Cpp.Process.AddsIds s₀ c.receiver s' ∧
        RunInv elem arr zero s₀ (l ++ [.got k i returned]) { c with receiver := s' } ∧ Returned s' l (.got k i returned))
  stands : ∀ l c k i h element value, RunInv elem arr zero s₀ l c → c.arrays[k]? = some h →
    i < (Arrays.contents zero (updates l) k).length → Stands c.receiver element value →
    ∃ value', ∀ previous s', h.get (sendRequest lib {}) (i : Nat) c.receiver = .ok (previous, s') → Stands s' element value'
  set : ∀ l c k i h element value, RunInv elem arr zero s₀ l c → c.arrays[k]? = some h →
    i < (Arrays.contents zero (updates l) k).length →
    (∀ previous s', h.get (sendRequest lib {}) (i : Nat) c.receiver = .ok (previous, s') → Stands s' element value) →
    c.receiver.drawn.length + 2 ≤ s₀.drawn.length + 2 ^ 64 →
    ∃ returned s', h.set (sendRequest lib {}) (i : Nat) element c.receiver = .ok (returned, s') ∧
      Cpp.Process.AddsIds s₀ c.receiver s' ∧ RunInv elem arr zero s₀ (l ++ [.set k i value returned]) { c with receiver := s' } ∧
      Returned s' l (.set k i value returned)

section

variable {Stands : State S → Instance → V → Prop} {Returned : State S → List (ArrayEvent V) → ArrayEvent V → Prop}

/-- In every run the invariant holds, handles denote what they denoted at the start unless their ids were drawn again, and what each
call returned is as `Returned` says. -/
theorem Elements.invariant (he : Elements lib elem arr zero Stands s₀ Returned)
    (hrun : ArrayRun lib (clazzOf elem) Stands zero ⟨s₀, []⟩ l c) (hlen : c.receiver.drawn.length ≤ s₀.drawn.length + 2 ^ 64) :
    RunInv elem arr zero s₀ l c ∧ Cpp.Process.AddsIds s₀ s₀ c.receiver ∧
      ∀ before e after, l = before ++ e :: after → Returned c.receiver before e := by
  induction hrun with
  | start =>
    refine ⟨⟨Cpp.Process.Counts.refl s₀, List.forall_mem_nil _, List.forall_mem_nil _, _, Cpp.Process.ArraysHold.nil _ _ _ _⟩,
      Cpp.Process.AddsIds.refl s₀ s₀, ?_⟩
    intro before e after heq
    simp at heq
  | @make l c size h' s' _ hcall ih =>
    have hlen' := Nat.le_of_succ_le ((drawn_allocate hcall).ge.trans hlen)
    obtain ⟨hi, hadds, hreturned⟩ := ih hlen'
    obtain ⟨hi', hadds'⟩ := hi.allocated he.zeros (c.arrays ++ [h']) (h := ⟨clazzOf elem, ""⟩) rfl hcall hlen
      List.getElem?_concat_length fun j hj => getElem?_append_singleton_of_ne hj
    refine ⟨hi', hadds.trans hadds', forall_append_singleton ?_ (he.allocated _ _ _ _)⟩
    exact fun before e after heq => he.mono _ _ _ _ hadds' (hreturned before e after heq)
  | @allocate l c k size h h' s' _ hk hcall ih =>
    have hlen' := Nat.le_of_succ_le ((drawn_allocate hcall).ge.trans hlen)
    obtain ⟨hi, hadds, hreturned⟩ := ih hlen'
    have hlt : k < c.arrays.length := (List.getElem?_eq_some_iff.mp hk).1
    obtain ⟨hi', hadds'⟩ := hi.allocated he.zeros (c.arrays.set k h') (hi.clazz h (List.mem_of_getElem? hk)) hcall hlen
      (List.getElem?_set_self hlt) fun j hj => List.getElem?_set_ne (Ne.symm hj)
    refine ⟨hi', hadds.trans hadds', forall_append_singleton ?_ (he.allocated _ _ _ _)⟩
    exact fun before e after heq => he.mono _ _ _ _ hadds' (hreturned before e after heq)
  | @get l c k i h returned s' _ hk hlt hcall ih =>
    have hlen' := Nat.le_of_succ_le ((drawn_get hcall).ge.trans hlen)
    obtain ⟨hi, hadds, hreturned⟩ := ih hlen'
    obtain ⟨returned', s'', hok, hrest⟩ := he.get l c k i h hi hk hlt
    obtain ⟨rfl, rfl⟩ := Prod.mk.inj (Except.ok.inj (hok.symm.trans hcall))
    obtain ⟨hadds', hi', hlast⟩ := hrest hlen
    refine ⟨hi', hadds.trans hadds', forall_append_singleton ?_ hlast⟩
    exact fun before e after heq => he.mono _ _ _ _ hadds' (hreturned before e after heq)
  | @set l c k i h element value returned s' _ hk hlt hstands hcall ih =>
    have hlen' : c.receiver.drawn.length + 2 ≤ s₀.drawn.length + 2 ^ 64 := (drawn_set hcall).ge.trans hlen
    obtain ⟨hi, hadds, hreturned⟩ := ih (Nat.le_of_add_right_le hlen')
    obtain ⟨returned', s'', hok, hadds', hi', hlast⟩ := he.set l c k i h element value hi hk hlt hstands hlen'
    obtain ⟨rfl, rfl⟩ := Prod.mk.inj (Except.ok.inj (hok.symm.trans hcall))
    refine ⟨hi', hadds.trans hadds', forall_append_singleton ?_ hlast⟩
    exact fun before e after heq => he.mono _ _ _ _ hadds' (hreturned before e after heq)

end

end LibraryLink.Kotlin
