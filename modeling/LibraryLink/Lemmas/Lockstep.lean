import LibraryLink.Lemmas.Embedding
import LibraryLink.Lemmas.Requests

/-!
# Helpers for `Theorems/Clients.lean`: a call, served in two memories

A call that names the copies of some objects is served like the call that names the objects themselves: both end in a fault, or
both give the same result, and one memory is still a copy inside the other.
-/

namespace LibraryLink.Cpp.Process

open Outcome

variable {S : Type} {f f' : Addr → Addr} {heap inner : List (Obj S)}

/-! ## The library -/

/-- Where a function tells an element from all others, their images have the same places. -/
theorem idxOf_map {l : List Addr} {a : Addr} (h : ∀ b ∈ l, f a = f b → a = b) : (l.map f).idxOf (f a) = l.idxOf a := by
  induction l with
  | nil => rfl
  | cons b l ih =>
    obtain ⟨hb, hl⟩ := List.forall_mem_cons.mp h
    rw [List.map_cons]
    by_cases hab : b = a
    · rw [hab, List.idxOf_cons_self, List.idxOf_cons_self]
    · have hfab : f b ≠ f a := fun heq => hab (hb heq.symm).symm
      rw [List.idxOf_cons_ne _ hfab, List.idxOf_cons_ne _ hab, ih hl]

/-- An address in use stands among images where it stands itself. -/
theorem Embeds.idxOf_map (h : Embeds f heap inner) {passed : List Addr} (hpassed : ∀ a ∈ passed, a < inner.length) {a : Addr}
    (ha : a < inner.length) : (passed.map f).idxOf (f a) = passed.idxOf a :=
  Process.idxOf_map fun b hb heq => h.injective a b ha (hpassed b hb) heq

/-- An address in use is among images when it is there itself. -/
theorem Embeds.mem_map (h : Embeds f heap inner) {passed : List Addr} (hpassed : ∀ a ∈ passed, a < inner.length) {a : Addr}
    (ha : a < inner.length) : f a ∈ passed.map f ↔ a ∈ passed := by
  constructor
  · intro hmem
    obtain ⟨b, hb, heq⟩ := List.mem_map.mp hmem
    rw [h.injective a b ha (hpassed b hb) heq.symm]
    exact hb
  · exact List.mem_map_of_mem

/-- The library changes the same objects in both memories. -/
theorem Moves.update (h : Embeds f heap inner) {passed : List Addr} (hpassed : ∀ a ∈ passed, kindAt inner a = some .object)
    (states : List S) : Moves f f heap inner (update heap (passed.map f) states) (update inner passed states) := by
  have hlt : ∀ a ∈ passed, a < inner.length := fun a ha => lt_of_kindAt (hpassed a ha)
  refine ⟨⟨?_, ?_, h.wellTyped.update hpassed states⟩, fun _ _ => rfl, ?_, ?_, ?_, ?_⟩
  · intro a o ha
    unfold Process.update at ha ⊢
    rw [List.getElem?_mapIdx] at ha ⊢
    obtain ⟨o', ho', rfl⟩ := Option.map_eq_some_iff.mp ha
    have halt := (List.getElem?_eq_some_iff.mp ho').1
    rw [h.objects a o' ho', Option.map_some, h.idxOf_map hlt halt]
    simp only [h.mem_map hlt halt]
    split
    · rcases states[passed.idxOf a]? with _ | state <;> rfl
    · rfl
  · intro a b ha hb
    rw [Process.update, List.length_mapIdx] at ha hb
    exact h.injective a b ha hb
  · intro a ha ha'
    rw [Process.update, List.length_mapIdx] at ha'
    exact absurd ha' (Nat.not_lt.mpr ha)
  · intro b _ hout
    unfold Process.update
    rw [List.getElem?_mapIdx]
    have hnot : b ∉ passed.map f := by
      intro hmem
      obtain ⟨a, ha, heq⟩ := List.mem_map.mp hmem
      exact hout a (hlt a ha) heq
    simp [hnot]
  · rw [Process.update, List.length_mapIdx]
  · rw [Process.update, List.length_mapIdx]

/-! ## Local variables and arguments -/

/-- A local variable with other addresses. -/
def Local.rename (f : Addr → Addr) : Local → Local
  | .pointer type p => .pointer type (p.map f)
  | l => l

/-- The pointer of a local variable is in use. -/
def Local.Below (n : Nat) : Local → Prop
  | .pointer _ p => Process.Below n p
  | _ => True

/-- An argument with other addresses. -/
def Operand.rename (f : Addr → Addr) : Operand → Operand
  | .handle object => .handle (object.map f)
  | .array elements => .array (elements.map (Option.map f))
  | o => o

theorem Operand.objects_rename (f : Addr → Addr) (o : Operand) : (o.rename f).objects = o.objects.map f := by
  cases o with
  | handle object => cases object <;> rfl
  | array elements => exact List.reduceOption_map
  | _ => rfl

/-- The library sees the same argument. -/
theorem Embeds.arg (h : Embeds f heap inner) {passed : List Addr} (hpassed : ∀ a ∈ passed, a < inner.length) {o : Operand}
    (ho : ∀ a ∈ o.objects, a < inner.length) : (o.rename f).arg (passed.map f) = o.arg passed := by
  cases o with
  | handle object =>
    cases object with
    | none => rfl
    | some a => exact congrArg Arg.object (h.idxOf_map hpassed (ho a List.mem_cons_self))
  | array elements =>
    refine congrArg Arg.array ?_
    rw [List.map_map]
    refine List.map_congr_left ?_
    intro p hp
    rw [Function.comp_apply, Option.map_map]
    refine Option.map_congr fun a ha => h.idxOf_map hpassed (ho a ?_)
    exact List.reduceOption_mem_iff.mpr (ha ▸ hp)
  | _ => rfl

/-- A value gives the same argument. -/
theorem Embeds.operandOf (h : Embeds f heap inner) (type : CType) {value : Option Addr} (hvalue : Below inner.length value) :
    Lockstep (fun o o₀ => o = o₀.rename f ∧ ∀ a ∈ o₀.objects, a < inner.length)
      (operandOf heap type (value.map f)) (operandOf inner type value) := by
  cases value with
  | none => exact .ok ⟨rfl, nofun⟩
  | some b =>
    have hb := hvalue b rfl
    cases type with
    | charPointer =>
      refine (h.charsAt hb).bind ?_
      intro data data' hdata
      exact .ok ⟨congrArg Operand.chars hdata, nofun⟩
    | astPointer =>
      refine (h.astsAt hb).bind ?_
      intro data data' hdata
      obtain ⟨rfl, hbelow⟩ := hdata
      refine .ok ⟨rfl, fun a ha => ?_⟩
      exact hbelow (some a) (List.reduceOption_mem_iff.mp ha) a rfl
    | _ =>
      refine .ok ⟨rfl, fun a ha => ?_⟩
      rw [List.mem_singleton.mp ha]
      exact hb

/-- A local variable gives the same argument. -/
theorem Embeds.operand (h : Embeds f heap inner) {l : Local} (hl : l.Below inner.length) :
    Lockstep (fun o o₀ => o = o₀.rename f ∧ ∀ a ∈ o₀.objects, a < inner.length)
      ((l.rename f).operand heap) (l.operand inner) := by
  cases l with
  | pointer type p =>
    refine (h.deref type hl).bind ?_
    intro v v₀ hv
    obtain ⟨rfl, hbelow, -⟩ := hv
    exact h.operandOf type hbelow
  | _ => exact .ok ⟨rfl, nofun⟩

/-! ## Requests -/

/-- Two states of which the first has a copy of the second one's memory, with the pointers stored under related keys. -/
structure Related (f : Addr → Addr) (N : String → String → Prop) (s t : State S) : Prop where
  embeds : Embeds f s.heap t.heap
  entries : ∀ key key₀, N key key₀ → s.entry key = (t.entry key₀).map f
  below : ∀ key, Below t.heap.length (t.entry key)

/-- Two requests that differ in ids only, and related ids where the branch they take uses them. -/
structure Plays (N : String → String → Prop) (r r₀ : MethodCallRequest) : Prop where
  type : r.type = r₀.type
  methodName : r.methodName = r₀.methodName
  length : r.arg.length = r₀.arg.length
  ints : ∀ i, (argumentValue r i).intValue = (argumentValue r₀ i).intValue
  keys : ∀ action, dispatch r = some action → List.Forall₂ N (action.keys r) (action.keys r₀)

variable {N : String → String → Prop} {r r₀ : MethodCallRequest} {s t s' t' : State S}

theorem Plays.dispatch (h : Plays N r r₀) : dispatch r = Process.dispatch r₀ := by
  unfold Process.dispatch
  rw [h.type, h.methodName]

/-- An argument is there in both requests or in none. -/
theorem Plays.argument (h : Plays N r r₀) (i : Nat) :
    Lockstep (fun a a₀ => argumentValue r i = a.value ∧ argumentValue r₀ i = a₀.value ∧ a.value.intValue = a₀.value.intValue)
      (r.argument i) (r₀.argument i) := by
  refine Lockstep.of_iff ?_ ?_
  · rw [exists_argument_iff, exists_argument_iff, h.length]
  · intro a a₀ ha ha₀
    obtain ⟨-, hget⟩ := argument_eq_ok ha
    obtain ⟨-, hget₀⟩ := argument_eq_ok ha₀
    have hints := h.ints i
    rw [hget, hget₀] at hints
    exact ⟨hget, hget₀, hints⟩

/-- The local variables of a handler are the same, up to the addresses. -/
theorem Related.variables (h : Related f N s t) (hplays : Plays N r r₀) {ps : List Param}
    (hkeys : List.Forall₂ N (ps.flatMap (Param.keys r)) (ps.flatMap (Param.keys r₀))) :
    List.Forall₂ (fun l l₀ => l = l₀.rename f ∧ l₀.Below t.heap.length) (ps.map (·.variable r s)) (ps.map (·.variable r₀ t)) := by
  induction ps with
  | nil => exact .nil
  | cons p ps ih =>
    rw [List.flatMap_cons, List.flatMap_cons] at hkeys
    cases p with
    | self type =>
      obtain _ | ⟨hkey, hkeys⟩ := hkeys
      exact .cons ⟨congrArg (Local.pointer type) (h.entries _ _ hkey), h.below _⟩ (ih hkeys)
    | ref type i =>
      obtain _ | ⟨hkey, hkeys⟩ := hkeys
      exact .cons ⟨congrArg (Local.pointer type) (h.entries _ _ hkey), h.below _⟩ (ih hkeys)
    | int i =>
      refine .cons ⟨?_, trivial⟩ (ih hkeys)
      simp only [Param.variable, Local.rename, hplays.ints i]
    | bool i =>
      refine .cons ⟨?_, trivial⟩ (ih hkeys)
      simp only [Param.variable, Local.rename, hplays.ints i]

/-- All parameters of a handler are loaded in both states or in none. -/
theorem Related.loadAll (h : Related f N s t) (hplays : Plays N r r₀) {ps : List Param}
    (hkeys : List.Forall₂ N (ps.flatMap (Param.keys r)) (ps.flatMap (Param.keys r₀))) :
    Lockstep (fun x x₀ => List.Forall₂ (fun l l₀ => l = l₀.rename f ∧ l₀.Below t.heap.length) x.1 x₀.1 ∧
        (SameTable s x.2 ∧ x.2.heap = s.heap) ∧ SameTable t x₀.2 ∧ x₀.2.heap = t.heap)
      (loadAll r ps s) (loadAll r₀ ps t) := by
  have hpresent : ∀ p ∈ ps, p.Present r ↔ p.Present r₀ := by
    intro p _
    cases p <;> simp only [Param.Present, hplays.length]
  refine Lockstep.of_iff ⟨?_, ?_⟩ ?_
  · rintro ⟨x, hx⟩
    obtain ⟨ls, t', ht⟩ := exists_loadAll t fun p hp => (hpresent p hp).mp ((loadAll_eq_ok hx).1 p hp)
    exact ⟨_, ht⟩
  · rintro ⟨x, hx⟩
    obtain ⟨ls, s', hs⟩ := exists_loadAll s fun p hp => (hpresent p hp).mpr ((loadAll_eq_ok hx).1 p hp)
    exact ⟨_, hs⟩
  · rintro ⟨ls, s'⟩ ⟨ls₀, t'⟩ hx hx₀
    obtain ⟨-, rfl, hs⟩ := loadAll_eq_ok hx
    obtain ⟨-, rfl, ht⟩ := loadAll_eq_ok hx₀
    exact ⟨h.variables hplays hkeys, hs, ht⟩

/-! ## The results -/

/-- The second state has a pointer under the id, if there is one to be stored, and otherwise the pointers of the first. -/
def Stores (s : State S) (id : String) (p : Option Addr) (s' : State S) : Prop :=
  ∀ key, s'.entry key = if key = id then p.or (s.entry id) else s.entry key

/-- What nothing is stored in. -/
theorem SameTable.stores (h : SameTable s s') (id : String) : Stores s id none s' := by
  intro key
  rw [h.entry]
  split
  · rename_i heq
    rw [heq, Option.none_or]
  · rfl

/-- What a pointer is stored in. -/
theorem SameTable.stores_some (h : SameTable s s') (id : String) (a : Addr) : Stores s id (some a) (s'.store id (some a)) := by
  intro key
  split
  · rename_i heq
    rw [heq, store_entry, Option.some_or]
  · rename_i hne
    rw [store_entry_ne _ _ hne, h.entry]

/-- Two responses and states after a step, with some function for the addresses and some pointer: one memory is still a copy in
the other, corresponding pointers were stored under the ids, and the responses are the same but for the ids. -/
structure AlikeBy (f f' : Addr → Addr) (p₀ : Option Addr) (s t : State S) (id id₀ : String)
    (x x₀ : ChannelResponse × State S) : Prop where
  moves : Moves f f' s.heap t.heap x.2.heap x₀.2.heap
  below : Below x₀.2.heap.length p₀
  stores : Stores s id (p₀.map f') x.2
  stores₀ : Stores t id₀ p₀ x₀.2
  drawn : x.2.drawn = s.drawn ∧ x₀.2.drawn = t.drawn
  result : x.1.result = x₀.1.result
  assignedId : x.1.assignedId = id ∧ x₀.1.assignedId = id₀

/-- Two responses and states after a step that does the same in both. -/
def Alike (f : Addr → Addr) (s t : State S) (id id₀ : String) (x x₀ : ChannelResponse × State S) : Prop :=
  ∃ f' p₀, AlikeBy f f' p₀ s t id id₀ x x₀

/-- Steps that store nothing. -/
theorem alike_of_same {resp resp₀ : ChannelResponse} {id id₀ : String} (hmoves : Moves f f s.heap t.heap s'.heap t'.heap)
    (hs : SameTable s s') (ht : SameTable t t') (hresult : resp.result = resp₀.result)
    (hid : resp.assignedId = id ∧ resp₀.assignedId = id₀) : Alike f s t id id₀ (resp, s') (resp₀, t') :=
  ⟨f, none, hmoves, nofun, hs.stores _, ht.stores _, ⟨hs.drawn, ht.drawn⟩, hresult, hid⟩

/-- Steps that store a pointer to a new variable. -/
theorem alike_of_new {f' : Addr → Addr} {resp resp₀ : ChannelResponse} {type : CType} {value : Option Addr}
    (hmoves : Moves f f' s.heap t.heap s'.heap t'.heap) (hs : SameTable s s') (ht : SameTable t t')
    (hresult : resp.result = resp₀.result) (hvalue : (Obj.cell type value : Obj S).WellTyped (kindAt t'.heap)) :
    Alike f s t resp.assignedId resp₀.assignedId
      (resp, (s'.alloc (.cell type (value.map f'))).2.store resp.assignedId (some (s'.alloc (.cell type (value.map f'))).1))
      (resp₀, (t'.alloc (.cell type value)).2.store resp₀.assignedId (some (t'.alloc (.cell type value)).1)) := by
  refine ⟨_, some t'.heap.length, hmoves.trans (Moves.append hmoves.embeds hvalue), ?_, ?_, ?_, ⟨hs.drawn, ht.drawn⟩, hresult,
    rfl, rfl⟩
  · intro a ha
    rw [← Option.some.inj ha]
    simp [State.alloc]
  · rw [Option.map_some, Function.update_self]
    exact (hs.trans (SameTable.alloc _ _)).stores_some _ _
  · exact (ht.trans (SameTable.alloc _ _)).stores_some _ _

/-! ## Handlers -/

/-- The object that the library returns is in both memories. -/
theorem Moves.produce (h : Embeds f s.heap t.heap) (passed : List Addr) (p : Produced S) :
    ∃ f', Moves f f' s.heap t.heap (produce (passed.map f) s p).2.heap (produce passed t p).2.heap ∧
      (Process.produce (passed.map f) s p).1 = (Process.produce passed t p).1.map f' := by
  cases p with
  | null => exact ⟨f, Moves.refl h, rfl⟩
  | existing i => exact ⟨f, Moves.refl h, List.getElem?_map⟩
  | fresh state =>
    refine ⟨_, Moves.append h (o := .object state) trivial, ?_⟩
    show some s.heap.length = some (Function.update f t.heap.length s.heap.length t.heap.length)
    rw [Function.update_self]

/-- The same objects are passed. -/
theorem Embeds.objectsAt (h : Embeds f heap inner) {passed : List Addr} (hpassed : ∀ a ∈ passed, a < inner.length) :
    Lockstep Eq ((passed.map f).mapM (Process.objectAt heap)) (passed.mapM (Process.objectAt inner)) := by
  have hpairs : List.Forall₂ (fun b a => b = f a ∧ a < inner.length) (passed.map f) passed := by
    rw [List.forall₂_map_left_iff, List.forall₂_same]
    exact fun a ha => ⟨rfl, hpassed a ha⟩
  refine (Lockstep.mapM hpairs fun b a hab => ?_).mono fun states states' heq => List.forall₂_eq_eq_eq ▸ heq
  rw [hab.1]
  exact h.objectAt hab.2

/-- What a handler does with the result is the same. -/
theorem Alike.finish {s₁ t₁ : State S} (hmoves : Moves f f s.heap t.heap s₁.heap t₁.heap) (hs : SameTable s s₁)
    (ht : SameTable t t₁) {passed : List Addr} (hpassed : ∀ a ∈ passed, kindAt t₁.heap a = some .object) {ret : Ret}
    (hret : ret.returnsObject = true) (effect : Effect S) {resp resp₀ : ChannelResponse} (hresult : resp.result = resp₀.result) :
    Alike f s t resp.assignedId resp₀.assignedId (ret.finish (passed.map f) effect s₁ resp)
      (ret.finish passed effect t₁ resp₀) := by
  cases ret with
  | nothing => exact alike_of_same hmoves hs ht hresult ⟨rfl, rfl⟩
  | int => exact alike_of_same hmoves hs ht rfl ⟨rfl, rfl⟩
  | bool => exact alike_of_same hmoves hs ht rfl ⟨rfl, rfl⟩
  | handle type =>
    obtain ⟨f', hproduce, hvalue⟩ := Moves.produce hmoves.embeds passed effect.object
    obtain ⟨-, hkind⟩ := WellTyped.produce hmoves.embeds.wellTyped hpassed effect.object
    unfold Ret.finish
    simp only [hvalue]
    refine alike_of_new (hmoves.trans hproduce) (hs.trans (SameTable.produce _ _ _)) (ht.trans (SameTable.produce _ _ _)) hresult ?_
    cases h : (Process.produce passed t₁ effect.object).1 with
    | none => trivial
    | some b => exact (hkind b h).trans (congrArg some (of_decide_eq_true hret).symm)

/-- A list related to another one by a function is its image. -/
theorem eq_map_of_forall₂ {α β : Type} {g : β → α} {P : β → Prop} {l : List α} {m : List β}
    (h : List.Forall₂ (fun a b => a = g b ∧ P b) l m) : l = m.map g ∧ ∀ b ∈ m, P b := by
  induction h with
  | nil => exact ⟨rfl, nofun⟩
  | cons hab _ ih => exact ⟨by rw [hab.1, ih.1, List.map_cons], List.forall_mem_cons.mpr ⟨hab.2, ih.2⟩⟩

/-- The same is passed to the library, at other addresses. -/
theorem Embeds.passes (h : Embeds f heap inner) {locals locals₀ : List Local}
    (hlocals : List.Forall₂ (fun l l₀ => l = l₀.rename f ∧ l₀.Below inner.length) locals locals₀) :
    Lockstep (fun p p₀ => p = ⟨p₀.objects.map f, p₀.args, p₀.states⟩ ∧ ∀ a ∈ p₀.objects, kindAt inner a = some .object)
      (Process.passes heap locals) (Process.passes inner locals₀) := by
  have hoperands := Lockstep.mapM (f := Local.operand heap) (g := Local.operand inner) hlocals fun l l₀ hl => by
    rw [hl.1]
    exact h.operand hl.2
  refine hoperands.bind ?_
  intro operands operands₀ hop
  obtain ⟨rfl, hbelow⟩ := eq_map_of_forall₂ hop
  have hpassed : (operands₀.map (Operand.rename f)).flatMap Operand.objects = (operands₀.flatMap Operand.objects).map f := by
    rw [List.flatMap_map, List.map_flatMap]
    exact List.flatMap_congr fun o _ => Operand.objects_rename f o
  have hlt : ∀ a ∈ operands₀.flatMap Operand.objects, a < inner.length := by
    intro a ha
    obtain ⟨o, ho, hao⟩ := List.mem_flatMap.mp ha
    exact hbelow o ho a hao
  have hargs : (operands₀.map (Operand.rename f)).map (Operand.arg ((operands₀.flatMap Operand.objects).map f)) =
      operands₀.map (Operand.arg (operands₀.flatMap Operand.objects)) := by
    rw [List.map_map]
    exact List.map_congr_left fun o ho => h.arg hlt (hbelow o ho)
  rw [hpassed]
  refine (h.objectsAt hlt).and_right.bind ?_
  rintro states states₀ ⟨rfl, hok⟩
  rw [hargs]
  exact .ok ⟨rfl, object_of_mapM hok⟩

/-- A handler does the same in both states. -/
theorem Related.handler (h : Related f N s t) (hplays : Plays N r r₀) {handler : Handler}
    (hkeys : List.Forall₂ N ((Action.library handler).keys r) ((Action.library handler).keys r₀))
    (hret : handler.ret.returnsObject = true) (lib : Library S) (resp resp₀ : ChannelResponse)
    (hresult : resp.result = resp₀.result) :
    Lockstep (Alike f s t resp.assignedId resp₀.assignedId) (handler.run lib {} r s resp) (handler.run lib {} r₀ t resp₀) := by
  refine (h.loadAll hplays hkeys).bind ?_
  rintro ⟨locals, s₁⟩ ⟨locals₀, t₁⟩ ⟨hlocals, ⟨hs, hsheap⟩, ht, htheap⟩
  simp only at hlocals hs hsheap ht htheap ⊢
  rw [hsheap, htheap]
  refine (h.embeds.passes hlocals).bind ?_
  rintro _ passed ⟨rfl, hobjects⟩
  refine (Lockstep.refl (returned (lib handler.function passed.args passed.states))).bind ?_
  rintro effect _ rfl
  refine .ok (Alike.finish ?_ (hs.trans (SameTable.heap _ _)) (ht.trans (SameTable.heap _ _)) ?_ hret _ hresult)
  · show Moves f f s.heap t.heap (Process.update s₁.heap _ _) (Process.update t₁.heap _ _)
    rw [hsheap, htheap]
    exact Moves.update h.embeds hobjects _
  · show ∀ a ∈ _, kindAt (Process.update t₁.heap _ _) a = _
    rw [htheap, kindAt_update hobjects]
    exact hobjects

/-! ## The templates -/

theorem Related.setChar (h : Related f N s t) (hplays : Plays N r r₀)
    (hkeys : List.Forall₂ N ((Action.set .char).keys r) ((Action.set .char).keys r₀)) (resp resp₀ : ChannelResponse)
    (hresult : resp.result = resp₀.result) :
    Lockstep (Alike f s t resp.assignedId resp₀.assignedId) (librarylinkSetChar r s resp) (librarylinkSetChar r₀ t resp₀) := by
  obtain _ | ⟨hkey, -⟩ := hkeys
  unfold librarylinkSetChar
  simp only [lookup_fst, lookup_heap, h.entries _ _ hkey]
  refine (hplays.argument 0).bind ?_
  intro pos pos₀ hpos
  refine (hplays.argument 1).bind ?_
  intro value value₀ hvalue
  refine (h.embeds.arrayOf .charPointer (h.below _)).bind ?_
  intro b b₀ hb
  obtain ⟨rfl, hlt⟩ := hb
  refine (h.embeds.charsAt hlt).and_right.bind ?_
  intro data data₀ hdata
  obtain ⟨rfl, hget⟩ := hdata
  rw [hpos.2.2, hvalue.2.2]
  refine (Lockstep.refl _).bind ?_
  intro i i₀ hi
  subst hi
  refine .ok (alike_of_same ?_ ((SameTable.lookup s _).trans (SameTable.heap _ _))
    ((SameTable.lookup t _).trans (SameTable.heap _ _)) hresult ⟨rfl, rfl⟩)
  exact Moves.set h.embeds (charsAt_eq_ok.mp hget) (q := .chars _) rfl trivial

theorem Related.set (h : Related f N s t) (hplays : Plays N r r₀)
    (hkeys : List.Forall₂ N ((Action.set .ast).keys r) ((Action.set .ast).keys r₀)) (resp resp₀ : ChannelResponse)
    (hresult : resp.result = resp₀.result) :
    Lockstep (Alike f s t resp.assignedId resp₀.assignedId) (librarylinkSet r s resp) (librarylinkSet r₀ t resp₀) := by
  obtain _ | ⟨hkey, hkeys⟩ := hkeys
  obtain _ | ⟨hkey', -⟩ := hkeys
  unfold librarylinkSet
  simp only [lookup_fst, lookup_heap, lookup_entry, h.entries _ _ hkey]
  refine (hplays.argument 0).bind ?_
  intro pos pos₀ hpos
  refine (hplays.argument 1).bind ?_
  intro a a₀ ha
  rw [ha.1, ha.2.1] at hkey'
  rw [h.entries _ _ hkey']
  refine (h.embeds.deref .ast (h.below _)).bind ?_
  intro v v₀ hv
  obtain ⟨rfl, -, htyped⟩ := hv
  refine (h.embeds.arrayOf .astPointer (h.below _)).bind ?_
  intro b b₀ hb
  obtain ⟨rfl, hlt⟩ := hb
  refine (h.embeds.astsAt hlt).and_right.bind ?_
  intro data data₀ hdata
  obtain ⟨⟨rfl, -⟩, hget⟩ := hdata
  rw [hpos.2.2, List.length_map]
  refine (Lockstep.refl _).bind ?_
  intro i i₀ hi
  subst hi
  rw [← List.map_set]
  refine .ok (alike_of_same ?_ (((SameTable.lookup s _).trans (SameTable.lookup _ _)).trans (SameTable.heap _ _))
    (((SameTable.lookup t _).trans (SameTable.lookup _ _)).trans (SameTable.heap _ _)) hresult ⟨rfl, rfl⟩)
  have hget := astsAt_eq_ok.mp hget
  refine Moves.set h.embeds hget (q := .asts _) rfl ?_
  intro c hc
  rcases List.mem_or_eq_of_mem_set hc with hc | rfl
  · exact wellTyped_at h.embeds.wellTyped hget c hc
  · exact htyped

theorem Related.getChar (h : Related f N s t) (hplays : Plays N r r₀)
    (hkeys : List.Forall₂ N ((Action.get .char).keys r) ((Action.get .char).keys r₀)) (resp resp₀ : ChannelResponse) :
    Lockstep (Alike f s t resp.assignedId resp₀.assignedId) (librarylinkGetChar r s resp) (librarylinkGetChar r₀ t resp₀) := by
  obtain _ | ⟨hkey, -⟩ := hkeys
  unfold librarylinkGetChar
  simp only [lookup_fst, lookup_heap, h.entries _ _ hkey]
  refine (hplays.argument 0).bind ?_
  intro pos pos₀ hpos
  refine (h.embeds.arrayOf .charPointer (h.below _)).bind ?_
  intro b b₀ hb
  obtain ⟨rfl, hlt⟩ := hb
  refine (h.embeds.charsAt hlt).bind ?_
  intro data data₀ hdata
  subst hdata
  rw [hpos.2.2]
  refine (Lockstep.refl _).bind ?_
  intro i i₀ hi
  subst hi
  refine .ok (alike_of_same ?_ (SameTable.lookup s _) (SameTable.lookup t _) rfl ⟨rfl, rfl⟩)
  rw [lookup_heap, lookup_heap]
  exact Moves.refl h.embeds

theorem Related.get (h : Related f N s t) (hplays : Plays N r r₀)
    (hkeys : List.Forall₂ N ((Action.get .ast).keys r) ((Action.get .ast).keys r₀)) (resp resp₀ : ChannelResponse)
    (hresult : resp.result = resp₀.result) :
    Lockstep (Alike f s t resp.assignedId resp₀.assignedId) (librarylinkGet r s resp) (librarylinkGet r₀ t resp₀) := by
  obtain _ | ⟨hkey, -⟩ := hkeys
  unfold librarylinkGet
  simp only [lookup_fst, lookup_heap, h.entries _ _ hkey]
  refine (hplays.argument 0).bind ?_
  intro pos pos₀ hpos
  refine (h.embeds.arrayOf .astPointer (h.below _)).bind ?_
  intro b b₀ hb
  obtain ⟨rfl, hlt⟩ := hb
  refine (h.embeds.astsAt hlt).and_right.bind ?_
  intro data data₀ hdata
  obtain ⟨⟨rfl, -⟩, hget⟩ := hdata
  rw [hpos.2.2, List.length_map]
  refine (Lockstep.refl _).bind ?_
  intro i i₀ hi
  subst hi
  have hvalue : (data₀.map (Option.map f))[i]?.join = data₀[i]?.join.map f := by
    rw [List.getElem?_map]
    rcases data₀[i]? with _ | _ | a <;> rfl
  rw [hvalue]
  refine .ok (alike_of_new ?_ (SameTable.lookup s _) (SameTable.lookup t _) hresult ?_)
  · rw [lookup_heap, lookup_heap]
    exact Moves.refl h.embeds
  · rw [lookup_heap]
    cases hi : data₀[i]?.join with
    | none => trivial
    | some c =>
      have hmem := List.mem_of_getElem? (Option.join_eq_some_iff.mp hi)
      exact wellTyped_at h.embeds.wellTyped (astsAt_eq_ok.mp hget) c hmem

/-- A zeroed array in both memories. -/
theorem Moves.calloc (h : Embeds f s.heap t.heap) (elem : Elem) (callocs : Bool) (size : Int) :
    ∃ f', Moves f f' s.heap t.heap (calloc elem callocs size s).2.heap (calloc elem callocs size t).2.heap ∧
      (Process.calloc elem callocs size s).1 = (Process.calloc elem callocs size t).1.map f' := by
  unfold Process.calloc
  split
  · have hzeros : (elem.zeros size.toNat : Obj S).rename f = elem.zeros size.toNat := by
      cases elem with
      | char => rfl
      | ast => exact congrArg Obj.asts List.map_replicate
    have htyped : (elem.zeros size.toNat : Obj S).WellTyped (kindAt t.heap) := by
      cases elem with
      | char => trivial
      | ast => exact fun b hb => nomatch List.eq_of_mem_replicate hb
    have happend := Moves.append h htyped
    rw [hzeros] at happend
    refine ⟨_, happend, ?_⟩
    show some s.heap.length = some (Function.update f t.heap.length s.heap.length t.heap.length)
    rw [Function.update_self]
  · exact ⟨f, Moves.refl h, rfl⟩

theorem Related.memAlloc (h : Related f N s t) (hplays : Plays N r r₀) (elem : Elem) (resp resp₀ : ChannelResponse)
    (hresult : resp.result = resp₀.result) :
    Lockstep (Alike f s t resp.assignedId resp₀.assignedId) (librarylinkMemAlloc elem {} r s resp)
      (librarylinkMemAlloc elem {} r₀ t resp₀) := by
  unfold librarylinkMemAlloc
  refine (hplays.argument 0).bind ?_
  intro a a₀ ha
  rw [ha.2.2]
  obtain ⟨-, hcell⟩ := h.embeds.wellTyped.calloc elem true a₀.value.intValue
  obtain ⟨f', hmoves, hvalue⟩ := Moves.calloc h.embeds elem true a₀.value.intValue
  simp only [hvalue]
  exact .ok (alike_of_new hmoves (SameTable.calloc _ _ _ s) (SameTable.calloc _ _ _ t) hresult hcell)

theorem Related.strlen (h : Related f N s t)
    (hkeys : List.Forall₂ N (Action.strlen.keys r) (Action.strlen.keys r₀)) (resp resp₀ : ChannelResponse) :
    Lockstep (Alike f s t resp.assignedId resp₀.assignedId) (librarylinkStrlen r s resp) (librarylinkStrlen r₀ t resp₀) := by
  obtain _ | ⟨hkey, -⟩ := hkeys
  unfold librarylinkStrlen
  simp only [lookup_fst, lookup_heap, h.entries _ _ hkey]
  refine (h.embeds.arrayOf .charPointer (h.below _)).bind ?_
  intro b b₀ hb
  obtain ⟨rfl, hlt⟩ := hb
  refine (h.embeds.charsAt hlt).bind ?_
  intro data data₀ hdata
  subst hdata
  refine (Lockstep.refl _).bind ?_
  intro n n₀ hn
  subst hn
  refine .ok (alike_of_same ?_ (SameTable.lookup s _) (SameTable.lookup t _) rfl ⟨rfl, rfl⟩)
  rw [lookup_heap, lookup_heap]
  exact Moves.refl h.embeds

/-! ## Serving -/

/-- A branch does the same in both states. -/
theorem Related.run (h : Related f N s t) (hplays : Plays N r r₀) {action : Action}
    (hkeys : List.Forall₂ N (action.keys r) (action.keys r₀)) (hret : action.returnsObject = true) (lib : Library S)
    (resp resp₀ : ChannelResponse) (hresult : resp.result = resp₀.result) :
    Lockstep (Alike f s t resp.assignedId resp₀.assignedId) (action.run lib {} r s resp) (action.run lib {} r₀ t resp₀) := by
  rcases action with handler | (_ | _) | (_ | _) | elem | _
  · exact h.handler hplays hkeys hret lib resp resp₀ hresult
  · exact h.setChar hplays hkeys resp resp₀ hresult
  · exact h.set hplays hkeys resp resp₀ hresult
  · exact h.getChar hplays hkeys resp resp₀
  · exact h.get hplays hkeys resp resp₀ hresult
  · exact h.memAlloc hplays elem resp resp₀ hresult
  · exact h.strlen hkeys resp resp₀

/-- The receiver does the same in both states. -/
theorem Related.serve (h : Related f N s t) (hplays : Plays N r r₀) (lib : Library S) :
    Lockstep (Alike f s.drawId.2 t.drawId.2 s.drawId.1 t.drawId.1) (serve lib {} ⟨some r, ""⟩ s) (serve lib {} ⟨some r₀, ""⟩ t) := by
  have hdrawn : Related f N s.drawId.2 t.drawId.2 := ⟨h.embeds, h.entries, h.below⟩
  show Lockstep _ (processRequest lib {} r s.drawId.2 _) (processRequest lib {} r₀ t.drawId.2 _)
  unfold processRequest
  rw [← hplays.dispatch]
  cases hdispatch : Process.dispatch r with
  | none => exact .error _ _
  | some action =>
    exact hdrawn.run hplays (hplays.keys action hdispatch) (returnsObject_of_dispatch hdispatch) lib { assignedId := s.drawId.1 }
      { assignedId := t.drawId.1 } rfl

end LibraryLink.Cpp.Process
