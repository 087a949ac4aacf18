import LibraryLink.Lemmas.ArrayHandles
import LibraryLink.Theorems.BoundHandles

/-!
# Arrays of handles

An array of `Z3_ast` in the receiver behaves like an array of values, seen through handles: each handle that `get` and `set` return
denotes the value that was last set, and goes on to denote it whatever is called later. The counter does not come round to the id of a
handle: every other id is drawn for a variable of eight bytes, and there are 2^64 bytes.
-/

namespace LibraryLink.Kotlin

open Outcome
open Cpp.Process (State Addr)

variable {S V : Type} {lib : Cpp.Process.Library S}

/-- Every further call that is allowed returns. -/
structure CallsReturn (lib : Cpp.Process.Library S) (clazz : Clazz) (Stands : State S → Instance → V → Prop) (zero : V)
    (l : List (ArrayEvent V)) (c : ArrayClient S) : Prop where
  make : ∀ size : Nat, ∃ out, ArrayHandle.make (sendRequest lib {}) clazz size c.receiver = .ok out
  allocate : ∀ (array : Nat) (h : ArrayHandle) (size : Nat), c.arrays[array]? = some h →
    ∃ out, h.allocate (sendRequest lib {}) size c.receiver = .ok out
  get : ∀ (array index : Nat) (h : ArrayHandle), c.arrays[array]? = some h →
    index < (Arrays.contents zero (updates l) array).length → ∃ out, h.get (sendRequest lib {}) index c.receiver = .ok out
  set : ∀ (array index : Nat) (h : ArrayHandle) (element : Instance) (value : V), c.arrays[array]? = some h →
    index < (Arrays.contents zero (updates l) array).length → Stands c.receiver element value →
    ∃ out, h.set (sendRequest lib {}) index element c.receiver = .ok out

/-- In a run every further call that is allowed returns, as long as there are ids for it. -/
theorem Elements.callsReturn {elem : Cpp.Process.Elem} {arr : List V → Cpp.Process.Obj S} {zero : V}
    {Stands : State S → Instance → V → Prop} {s₀ : State S} {Returned : State S → List (ArrayEvent V) → ArrayEvent V → Prop}
    (he : Elements lib elem arr zero Stands s₀ Returned) {l : List (ArrayEvent V)} {c : ArrayClient S}
    (hi : RunInv elem arr zero s₀ l c) (hlen : c.receiver.drawn.length + 2 ≤ s₀.drawn.length + 2 ^ 64) :
    CallsReturn lib (clazzOf elem) Stands zero l c := by
  refine ⟨?_, ?_, ?_, ?_⟩
  · intro size
    have hclazz : (⟨clazzOf elem, ""⟩ : ArrayHandle).clazz = clazzOf elem := rfl
    obtain ⟨r, s', hcall, -⟩ := allocate_ok lib c.receiver hclazz size
    exact ⟨_, hcall⟩
  · intro array h size hk
    obtain ⟨r, s', hcall, -⟩ := allocate_ok lib c.receiver (hi.clazz h (List.mem_of_getElem? hk)) size
    exact ⟨_, hcall⟩
  · intro array index h hk hlt
    obtain ⟨returned, s', hcall, -⟩ := he.get l c array index h hi hk hlt
    exact ⟨_, hcall⟩
  · intro array index h element value hk hlt hstands
    obtain ⟨value', hstands'⟩ := he.stands l c array index h element value hi hk hlt hstands
    obtain ⟨returned, s', hcall, -⟩ := he.set l c array index h element value' hi hk hlt hstands' hlen
    exact ⟨_, hcall⟩

/-! ## Arrays of `Z3_ast` -/

/-- An element that is stored is a handle to a value of `Z3_ast`. -/
def StandsForAst (s : State S) (element : Instance) (value : Option Addr) : Prop :=
  ∃ id, element = .handle id ∧ s.Points id .ast value

/-- What a call returned stands for the value last set at its place, before the call. -/
def Denotes (Stands : Instance → Option Addr → Prop) (before : List (ArrayEvent (Option Addr))) : ArrayEvent (Option Addr) → Prop
  | .allocated _ _ => True
  | .got array index returned => Stands returned (Arrays.lastWritten none array index (updates before))
  | .set array index _ returned => Stands returned (Arrays.lastWritten none array index (updates before))

theorem Denotes.imp {Stands Stands' : Instance → Option Addr → Prop} {before : List (ArrayEvent (Option Addr))}
    {e : ArrayEvent (Option Addr)} (h : Denotes Stands before e)
    (himp : ∀ returned value, Stands returned value → Stands' returned value) : Denotes Stands' before e := by
  cases e with
  | allocated array size => trivial
  | got array index returned => exact himp _ _ h
  | set array index value returned => exact himp _ _ h

/-- A handle to a value, whose id was drawn since a state. -/
def StandsSince (s₀ s : State S) (element : Instance) (value : Option Addr) : Prop :=
  ∃ id ∈ s.drawnSince s₀, element = .handle id ∧ s.Points id .ast value

/-- Such a handle goes on to denote the value. -/
theorem StandsSince.mono {s₀ s s' : State S} (ha : Cpp.Process.AddsIds s₀ s s') {element : Instance} {value : Option Addr}
    (h : StandsSince s₀ s element value) : StandsSince s₀ s' element value := by
  obtain ⟨id, hmem, hid, hpoints⟩ := h
  exact ⟨id, ha.drawn hmem, hid, ha.points hmem hpoints⟩

variable {s₀ : State S} {l : List (ArrayEvent (Option Addr))} {c : ArrayClient S} {h : ArrayHandle}

/-- `get` returns a handle to a new variable with the value last set. -/
theorem RunInv.get (lib : Cpp.Process.Library S) (hi : RunInv .ast Cpp.Process.Obj.asts none s₀ l c) {k i : Nat}
    (hk : c.arrays[k]? = some h) (hlt : i < (Arrays.contents none (updates l) k).length) :
    ∃ returned s', h.get (sendRequest lib {}) i c.receiver = .ok (returned, s') ∧
      s'.drawn = c.receiver.drawn ++ [c.receiver.drawId.1] ∧
      (s'.drawn.length ≤ s₀.drawn.length + 2 ^ 64 → Cpp.Process.AddsIds s₀ c.receiver s' ∧
        (∀ l', updates l' = updates l → RunInv .ast Cpp.Process.Obj.asts none s₀ l' { c with receiver := s' }) ∧
        StandsSince s₀ s' returned (Arrays.lastWritten none k i (updates l))) := by
  obtain ⟨b, hpoints, hdata⟩ := hi.array hk
  obtain ⟨r, s', hget, hserves⟩ := get_ok lib (hi.clazz h (List.mem_of_getElem? hk)) ⟨b, hpoints, hdata⟩ hlt
  refine ⟨_, s', hget, hserves.drawn, ?_⟩
  intro hlen
  obtain ⟨hc, hsince⟩ := hserves.draw hi.counts
  have ha := hserves.addsIds hi.counts hlen hserves.keepsCells_store
  refine ⟨ha, fun l' hl => hi.grow hc ha hserves.heap hl, _, ?_, rfl, c.receiver.heap.length, ?_, ?_⟩
  · rw [hsince]
    exact List.mem_append_right _ List.mem_cons_self
  · rw [hserves.entry, Function.update_self]
  · rw [hserves.heap, List.getElem?_append_right (Nat.le_refl _), Nat.sub_self, Arrays.getElem?_contents hlt]
    rfl

/-- What stands for a value before a `get` stands for one after it: another one if its id was drawn for the `get`. -/
theorem RunInv.stands (lib : Cpp.Process.Library S) (hi : RunInv .ast Cpp.Process.Obj.asts none s₀ l c) {k i : Nat}
    {element : Instance} {value : Option Addr} (hk : c.arrays[k]? = some h)
    (hlt : i < (Arrays.contents none (updates l) k).length) (hstands : StandsForAst c.receiver element value) :
    ∃ value', ∀ previous s', h.get (sendRequest lib {}) i c.receiver = .ok (previous, s') → StandsForAst s' element value' := by
  obtain ⟨key, rfl, hkey⟩ := hstands
  obtain ⟨b, hpoints, hdata⟩ := hi.array hk
  obtain ⟨r, s', hget, hserves⟩ := get_ok lib (hi.clazz h (List.mem_of_getElem? hk)) ⟨b, hpoints, hdata⟩ hlt
  obtain ⟨value', hvalue'⟩ : ∃ value', s'.Points key .ast value' := by
    by_cases hid : key = c.receiver.drawId.1
    · refine ⟨(Arrays.contents none (updates l) k)[i]?.join, c.receiver.heap.length, ?_, ?_⟩
      · rw [hserves.entry, hid, Function.update_self]
      · rw [hserves.heap, List.getElem?_append_right (Nat.le_refl _), Nat.sub_self]
        rfl
    · exact ⟨value, hserves.keepsCells_store.points hid hkey⟩
  refine ⟨value', ?_⟩
  intro previous s₁ hget'
  obtain ⟨-, rfl⟩ := Prod.mk.inj (Except.ok.inj (hget.symm.trans hget'))
  exact ⟨key, rfl, hvalue'⟩

/-- `set` returns what `get` returns, and writes the value of the element. -/
theorem RunInv.set (lib : Cpp.Process.Library S) (hi : RunInv .ast Cpp.Process.Obj.asts none s₀ l c) {k i : Nat}
    {element : Instance} {value : Option Addr} (hk : c.arrays[k]? = some h)
    (hlt : i < (Arrays.contents none (updates l) k).length)
    (hstands : ∀ previous s', h.get (sendRequest lib {}) i c.receiver = .ok (previous, s') → StandsForAst s' element value)
    (hlen : c.receiver.drawn.length + 2 ≤ s₀.drawn.length + 2 ^ 64) :
    ∃ returned s', h.set (sendRequest lib {}) i element c.receiver = .ok (returned, s') ∧
      Cpp.Process.AddsIds s₀ c.receiver s' ∧
      RunInv .ast Cpp.Process.Obj.asts none s₀ (l ++ [.set k i value returned]) { c with receiver := s' } ∧
      StandsSince s₀ s' returned (Arrays.lastWritten none k i (updates l)) := by
  obtain ⟨returned, s₁, hget, hdrawn, hrest⟩ := hi.get lib hk hlt
  have hlen₁ : s₁.drawn.length + 1 ≤ s₀.drawn.length + 2 ^ 64 := by
    rw [hdrawn, List.length_append, List.length_singleton]
    exact hlen
  obtain ⟨ha₁, hinv, hreturned⟩ := hrest (Nat.le_of_succ_le hlen₁)
  have hi₁ := hinv l rfl
  obtain ⟨key, rfl, hkey⟩ := hstands _ _ hget
  obtain ⟨copy, -, rfl, -⟩ := id hreturned
  obtain ⟨b, hpoints, hdata⟩ := hi₁.array hk
  obtain ⟨r, answer, s', hset, hserves⟩ := set_ok lib (hi₁.clazz h (List.mem_of_getElem? hk)) hpoints hdata hlt hkey
  have hlen' : s'.drawn.length ≤ s₀.drawn.length + 2 ^ 64 := by
    rw [hserves.drawn, List.length_append, List.length_singleton]
    exact hlen₁
  have ha := hserves.addsIds hi₁.counts hlen' ((hserves.keepsCells_set hdata nofun).mono (Set.subset_univ _))
  refine ⟨.handle copy, s', set_eq_ok.mpr ⟨s₁, _, answer, hget, rfl, hset⟩, ha₁.trans ha, ?_, hreturned.mono ha⟩
  have hl : updates (l ++ [.set k i value (.handle copy)]) = updates l ++ [.write k i value] := List.filterMap_append
  exact hi₁.write (hserves.draw hi₁.counts).1 ha hk hpoints hserves.heap hl

/-- The calls on arrays of `Z3_ast`. -/
theorem elements_ast (lib : Cpp.Process.Library S) (s₀ : State S) :
    Elements lib .ast Cpp.Process.Obj.asts none StandsForAst s₀ fun s => Denotes (StandsSince s₀ s) := by
  refine ⟨fun _ => rfl, fun _ _ _ _ ha h => h.imp fun _ _ => StandsSince.mono ha, fun _ _ _ _ => trivial, ?_, ?_, ?_⟩
  · intro l c k i h hi hk hlt
    obtain ⟨returned, s', hget, -, hrest⟩ := hi.get lib hk hlt
    refine ⟨returned, s', hget, ?_⟩
    intro hlen
    obtain ⟨ha, hinv, hstands⟩ := hrest hlen
    exact ⟨ha, hinv _ ((List.filterMap_append).trans (List.append_nil _)), hstands⟩
  · intro l c k i h element value hi hk hlt hstands
    exact hi.stands lib hk hlt hstands
  · intro l c k i h element value hi hk hlt hstands hlen
    exact hi.set lib hk hlt hstands hlen

/-- In every run of calls on arrays of `Z3_ast`, from any state of the receiver, in which all that was given out fits in the address
space: each handle that a `get` or `set` returned denotes the value last set at its place before the call, or the zero value; handles
that were there at the start denote what they denoted, unless their ids were drawn again; and every further call returns. -/
theorem arrays_of_handles (lib : Cpp.Process.Library S) {s₀ : State S}
    (hrun : ArrayRun lib (.handle "Z3_ast") StandsForAst none ⟨s₀, []⟩ l c) (huse : c.receiver.inUse ≤ 2 ^ 64) :
    (∀ before e after, l = before ++ e :: after → Denotes (StandsForAst c.receiver) before e) ∧
      (∀ id value, id ∉ c.receiver.drawnSince s₀ → s₀.Points id .ast value → c.receiver.Points id .ast value) ∧
      CallsReturn lib (.handle "Z3_ast") StandsForAst none l c := by
  have hdrawn := hrun.drawn_le.2
  obtain ⟨hi, hadds, hreturned⟩ := (elements_ast lib s₀).invariant hrun (by omega)
  refine ⟨?_, ?_, (elements_ast lib s₀).callsReturn hi (by omega)⟩
  · intro before e after heq
    refine (hreturned before e after heq).imp ?_
    rintro returned value ⟨id, -, hid, hpoints⟩
    exact ⟨id, hid, hpoints⟩
  · intro id value hnew hid
    exact hadds.keeps.points (fun hmem => absurd hmem hnew) hid

/-- The receiver after `Z3_mk_config`, `Z3_mk_context`, `Z3_mk_int_sort` and `Z3_mk_int`. -/
def withAst : State Unit where
  assignedIdCounter := 4
  persistence := Function.update (Function.update (Function.update (Function.update (fun _ => none) "0" (some (some 1))) "1"
    (some (some 3))) "2" (some (some 5))) "3" (some (some 7))
  heap := [.object (), .cell .config (some 0), .object (), .cell .context (some 2), .object (), .cell .sort (some 4), .object (),
    .cell .ast (some 6)]
  drawn := ["0", "1", "2", "3"]
  overwritten := [none, none, none, none]

/-- After `makeArray` for two elements. -/
def withAsts : State Unit where
  assignedIdCounter := 5
  persistence := Function.update withAst.persistence "4" (some (some 9))
  heap := withAst.heap ++ [.asts [none, none], .cell .astPointer (some 8)]
  drawn := ["0", "1", "2", "3", "4"]
  overwritten := [none, none, none, none, none]

/-- After `set` for the first of them. -/
def withElement : State Unit where
  assignedIdCounter := 7
  persistence := Function.update withAsts.persistence "5" (some (some 10))
  heap := withAst.heap ++ [.asts [some 6, none], .cell .astPointer (some 8), .cell .ast none]
  drawn := ["0", "1", "2", "3", "4", "5", "6"]
  overwritten := [none, none, none, none, none, none]

/-- After `get` of it. -/
def withCopy : State Unit where
  assignedIdCounter := 8
  persistence := Function.update withElement.persistence "7" (some (some 11))
  heap := withElement.heap ++ [.cell .ast (some 6)]
  drawn := ["0", "1", "2", "3", "4", "5", "6", "7"]
  overwritten := [none, none, none, none, none, none, none]

/-- The rule at a run in which an element is stored and read again. -/
theorem arrays_of_handles_set : ∃ (l : List (ArrayEvent (Option Addr))) (c : ArrayClient Unit),
    ArrayRun makesObjects (.handle "Z3_ast") StandsForAst none ⟨withAst, []⟩ l c ∧ l.getLast? = some (.got 0 0 (.handle "7")) ∧
      c.receiver.Points "7" .ast (some 6) ∧ c.receiver.Points "3" .ast (some 6) := by
  have h₁ : ArrayRun makesObjects (.handle "Z3_ast") StandsForAst none ⟨withAst, []⟩ _ ⟨withAsts, _⟩ :=
    .make 2 ⟨.handle "Z3_ast", "4"⟩ _ .start rfl
  have hstands : ∀ previous s', ArrayHandle.get (sendRequest makesObjects {}) ⟨.handle "Z3_ast", "4"⟩ 0 withAsts = .ok (previous, s') →
      StandsForAst s' (.handle "3") (some 6) := by
    intro previous s' hget
    obtain ⟨-, rfl⟩ := Prod.mk.inj (Except.ok.inj hget)
    exact ⟨"3", rfl, 7, rfl, rfl⟩
  have h₂ : ArrayRun makesObjects (.handle "Z3_ast") StandsForAst none ⟨withAst, []⟩ _ ⟨withElement, _⟩ :=
    h₁.set 0 0 _ (.handle "3") (some 6) (.handle "5") _ rfl Nat.zero_lt_two hstands rfl
  have h₃ : ArrayRun makesObjects (.handle "Z3_ast") StandsForAst none ⟨withAst, []⟩ _ ⟨withCopy, _⟩ :=
    h₂.get 0 0 _ (.handle "7") _ rfl Nat.zero_lt_two rfl
  have huse : withCopy.inUse ≤ 2 ^ 64 := by decide
  obtain ⟨hreturned, hkeeps, -⟩ := arrays_of_handles makesObjects h₃ huse
  obtain ⟨id, hid, hpoints⟩ := hreturned [.allocated 0 2, .set 0 0 (some 6) (.handle "5")] (.got 0 0 (.handle "7")) [] rfl
  cases hid
  exact ⟨_, _, h₃, rfl, hpoints, hkeeps "3" (some 6) (by decide) ⟨7, rfl, rfl⟩⟩

end LibraryLink.Kotlin
