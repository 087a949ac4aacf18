import LibraryLink.Lemmas.HeapTypes

/-!
# Helpers for `Theorems/Clients.lean`: a memory inside another one

A client that shares the receiver with others has its arrays and objects at other addresses than a client alone. `Embeds f` says
that a memory contains a copy of a smaller one, with every address `a` replaced by `f a`; what is read in the one is then found in
the other, and what one step changes (`Moves`) stays inside the copy.
-/

namespace LibraryLink.Cpp.Process

open Outcome

variable {S : Type}

/-! ## Addresses renamed -/

/-- A thing in memory with other addresses. -/
def Obj.rename (f : Addr → Addr) : Obj S → Obj S
  | .cell type value => .cell type (value.map f)
  | .chars data => .chars data
  | .asts data => .asts (data.map (Option.map f))
  | .object state => .object state

/-- An address below a bound, if it is one. -/
def Below (n : Nat) (p : Option Addr) : Prop := ∀ a, p = some a → a < n

/-- A copy of a memory in another one. -/
structure Embeds (f : Addr → Addr) (heap inner : List (Obj S)) : Prop where
  objects : ∀ a o, inner[a]? = some o → heap[f a]? = some (o.rename f)
  injective : ∀ a b, a < inner.length → b < inner.length → f a = f b → a = b
  wellTyped : WellTyped inner

variable {f f' : Addr → Addr} {heap inner heap' inner' : List (Obj S)}

theorem embeds_nil (f : Addr → Addr) (heap : List (Obj S)) : Embeds f heap [] :=
  ⟨nofun, nofun, wellTyped_nil⟩

theorem lt_of_kindAt {heap : List (Obj S)} {a : Addr} {k : Kind} (h : kindAt heap a = some k) : a < heap.length := by
  obtain ⟨o, ho, -⟩ := exists_of_kindAt h
  exact (List.getElem?_eq_some_iff.mp ho).1

/-- The addresses in a well-typed thing are in use. -/
theorem below_of_wellTyped {heap : List (Obj S)} {o : Obj S} (h : o.WellTyped (kindAt heap)) :
    (∀ type value, o = .cell type value → Below heap.length value) ∧
      ∀ data, o = .asts data → ∀ p ∈ data, Below heap.length p := by
  constructor
  · rintro type value rfl a rfl
    exact lt_of_kindAt h
  · rintro data rfl p hp a rfl
    exact lt_of_kindAt (h a hp)

/-- Functions that agree on the addresses in use rename a well-typed thing alike. -/
theorem rename_congr {heap : List (Obj S)} {o : Obj S} (h : o.WellTyped (kindAt heap)) (hf : ∀ a < heap.length, f' a = f a) :
    o.rename f' = o.rename f := by
  obtain ⟨hcell, hasts⟩ := below_of_wellTyped h
  cases o with
  | cell type value => exact congrArg (Obj.cell type) (Option.map_congr fun a ha => hf a (hcell type value rfl a ha))
  | asts data =>
    refine congrArg Obj.asts (List.map_congr_left fun p hp => ?_)
    exact Option.map_congr fun a ha => hf a (hasts data rfl p hp a ha)
  | chars data => rfl
  | object state => rfl

/-- An address in use stands for one in use. -/
theorem Embeds.lt (h : Embeds f heap inner) {a : Addr} (ha : a < inner.length) : f a < heap.length := by
  have hget := h.objects a _ (List.getElem?_eq_getElem ha)
  exact (List.getElem?_eq_some_iff.mp hget).1

/-- What stands at an address in use. -/
theorem Embeds.exists_at (h : Embeds f heap inner) {a : Addr} (ha : a < inner.length) :
    ∃ o, inner[a]? = some o ∧ heap[f a]? = some (o.rename f) ∧ o.WellTyped (kindAt inner) :=
  ⟨inner[a], List.getElem?_eq_getElem ha, h.objects a _ (List.getElem?_eq_getElem ha), h.wellTyped _ (List.getElem_mem ha)⟩

/-! ## Reading -/

/-- The same variable is read through both memories. -/
theorem Embeds.deref (h : Embeds f heap inner) (type : CType) {p : Option Addr} (hp : Below inner.length p) :
    Lockstep (fun v v₀ => v = v₀.map f ∧ Below inner.length v₀ ∧ (Obj.cell type v₀ : Obj S).WellTyped (kindAt inner))
      (deref heap type (p.map f)) (deref inner type p) := by
  cases p with
  | none => exact .error _ _
  | some a =>
    obtain ⟨o, ha, hget, htyped⟩ := h.exists_at (hp a rfl)
    simp only [Process.deref, Option.map_some, ha, hget]
    cases o with
    | cell t value =>
      simp only [Obj.rename]
      by_cases ht : t = type
      · subst ht
        rw [if_pos rfl, if_pos rfl]
        exact .ok ⟨rfl, (below_of_wellTyped htyped).1 _ _ rfl, htyped⟩
      · rw [if_neg ht, if_neg ht]
        exact .error _ _
    | _ => exact .error _ _

/-- The same array of `char` is read. -/
theorem Embeds.charsAt (h : Embeds f heap inner) {b : Addr} (hb : b < inner.length) :
    Lockstep Eq (charsAt heap (f b)) (charsAt inner b) := by
  obtain ⟨o, hget, hget', -⟩ := h.exists_at hb
  simp only [Process.charsAt, hget, hget']
  cases o with
  | chars data => exact .ok rfl
  | _ => exact .error _ _

/-- The same array of `Z3_ast` is read. -/
theorem Embeds.astsAt (h : Embeds f heap inner) {b : Addr} (hb : b < inner.length) :
    Lockstep (fun d d₀ => d = d₀.map (Option.map f) ∧ ∀ p ∈ d₀, Below inner.length p) (astsAt heap (f b)) (astsAt inner b) := by
  obtain ⟨o, hget, hget', htyped⟩ := h.exists_at hb
  simp only [Process.astsAt, hget, hget']
  cases o with
  | asts data => exact .ok ⟨rfl, (below_of_wellTyped htyped).2 data rfl⟩
  | _ => exact .error _ _

/-- The same object is read. -/
theorem Embeds.objectAt (h : Embeds f heap inner) {a : Addr} (ha : a < inner.length) :
    Lockstep Eq (objectAt heap (f a)) (objectAt inner a) := by
  obtain ⟨o, hget, hget', -⟩ := h.exists_at ha
  simp only [Process.objectAt, hget, hget']
  cases o with
  | object state => exact .ok rfl
  | _ => exact .error _ _

/-- A pointer to a pointer leads to the same array. -/
theorem Embeds.arrayOf (h : Embeds f heap inner) (type : CType) {p : Option Addr} (hp : Below inner.length p) :
    Lockstep (fun b b₀ => b = f b₀ ∧ b₀ < inner.length) (arrayOf heap type (p.map f)) (arrayOf inner type p) := by
  refine (h.deref type hp).bind ?_
  intro v v₀ hv
  obtain ⟨rfl, hbelow, -⟩ := hv
  cases v₀ with
  | none => exact .error _ _
  | some b => exact .ok ⟨rfl, hbelow b rfl⟩

/-! ## Changing -/

/-- What a step does to a memory and the smaller one: the copy changes and grows at new addresses, and what is not in the copy
stays as it is. -/
structure Moves (f f' : Addr → Addr) (heap inner heap' inner' : List (Obj S)) : Prop where
  embeds : Embeds f' heap' inner'
  agrees : ∀ a < inner.length, f' a = f a
  fresh : ∀ a, inner.length ≤ a → a < inner'.length → heap.length ≤ f' a
  frame : ∀ b < heap.length, (∀ a < inner.length, f a ≠ b) → heap'[b]? = heap[b]?
  grows : heap.length ≤ heap'.length
  grows_inner : inner.length ≤ inner'.length

theorem Moves.refl (h : Embeds f heap inner) : Moves f f heap inner heap inner :=
  ⟨h, fun _ _ => rfl, fun _ ha ha' => absurd ha' (Nat.not_lt.mpr ha), fun _ _ _ => rfl, Nat.le_refl _, Nat.le_refl _⟩

theorem Moves.trans {f'' : Addr → Addr} {heap'' inner'' : List (Obj S)} (h : Moves f f' heap inner heap' inner')
    (h' : Moves f' f'' heap' inner' heap'' inner'') : Moves f f'' heap inner heap'' inner'' := by
  refine ⟨h'.embeds, ?_, ?_, ?_, Nat.le_trans h.grows h'.grows, Nat.le_trans h.grows_inner h'.grows_inner⟩
  · intro a ha
    rw [h'.agrees a (Nat.lt_of_lt_of_le ha h.grows_inner), h.agrees a ha]
  · intro a ha ha'
    by_cases hmid : a < inner'.length
    · rw [h'.agrees a hmid]
      exact h.fresh a ha hmid
    · exact Nat.le_trans h.grows (h'.fresh a (Nat.not_lt.mp hmid) ha')
  · intro b hb hout
    rw [h'.frame b (Nat.lt_of_lt_of_le hb h.grows) ?_, h.frame b hb hout]
    intro a ha
    by_cases hold : a < inner.length
    · rw [h.agrees a hold]
      exact hout a hold
    · intro heq
      have hfresh := h.fresh a (Nat.not_lt.mp hold) ha
      rw [heq] at hfresh
      exact absurd hb (Nat.not_lt.mpr hfresh)

/-- Something new in both memories. -/
theorem Moves.append (h : Embeds f heap inner) {o : Obj S} (ho : o.WellTyped (kindAt inner)) :
    Moves f (Function.update f inner.length heap.length) heap inner (heap ++ [o.rename f]) (inner ++ [o]) := by
  have hagrees : ∀ a < inner.length, Function.update f inner.length heap.length a = f a :=
    fun a ha => Function.update_of_ne (Nat.ne_of_lt ha) _ _
  have hnew : Function.update f inner.length heap.length inner.length = heap.length := Function.update_self _ _ _
  have hcases : ∀ a, a < (inner ++ [o]).length → a < inner.length ∨ a = inner.length := by
    intro a ha
    rw [List.length_append, List.length_singleton] at ha
    omega
  refine ⟨⟨?_, ?_, ?_⟩, hagrees, ?_, ?_, ?_, ?_⟩
  · intro a o' ha
    rcases hcases a (List.getElem?_eq_some_iff.mp ha).1 with hlt | rfl
    · rw [List.getElem?_append_left hlt] at ha
      rw [hagrees a hlt, List.getElem?_append_left (h.lt hlt), h.objects a o' ha,
        rename_congr (wellTyped_at h.wellTyped ha) hagrees]
    · rw [List.getElem?_concat_length] at ha
      rw [hnew, List.getElem?_concat_length, ← Option.some.inj ha, rename_congr ho hagrees]
  · intro a b ha hb heq
    rcases hcases a ha with ha | rfl
    · rcases hcases b hb with hb | rfl
      · rw [hagrees a ha, hagrees b hb] at heq
        exact h.injective a b ha hb heq
      · rw [hagrees a ha, hnew] at heq
        exact absurd heq (Nat.ne_of_lt (h.lt ha))
    · rcases hcases b hb with hb | rfl
      · rw [hagrees b hb, hnew] at heq
        exact absurd heq.symm (Nat.ne_of_lt (h.lt hb))
      · rfl
  · have halloc : WellTyped (({ heap := inner } : State S).alloc o).2.heap := WellTyped.alloc h.wellTyped ho
    exact halloc
  · intro a ha ha'
    rcases hcases a ha' with hlt | rfl
    · omega
    · exact Nat.le_of_eq hnew.symm
  · intro b hb _
    exact List.getElem?_append_left hb
  · rw [List.length_append]
    exact Nat.le_add_right _ _
  · rw [List.length_append]
    exact Nat.le_add_right _ _

/-- Another content of the same kind in both memories. -/
theorem Moves.set (h : Embeds f heap inner) {b : Addr} {o q : Obj S} (hb : inner[b]? = some o) (hkind : q.kind = o.kind)
    (hq : q.WellTyped (kindAt inner)) : Moves f f heap inner (heap.set (f b) (q.rename f)) (inner.set b q) := by
  have hlt := (List.getElem?_eq_some_iff.mp hb).1
  refine ⟨⟨?_, ?_, h.wellTyped.set hb hkind hq⟩, fun _ _ => rfl, ?_, ?_, ?_, ?_⟩
  · intro a x ha
    have halt := (List.getElem?_eq_some_iff.mp ha).1
    rw [List.length_set] at halt
    by_cases hab : b = a
    · subst hab
      rw [List.getElem?_set_self hlt] at ha
      rw [List.getElem?_set_self (h.lt hlt), Option.some.inj ha]
    · rw [List.getElem?_set_ne hab] at ha
      rw [List.getElem?_set_ne fun heq => hab (h.injective b a hlt halt heq)]
      exact h.objects a x ha
  · intro a a' ha ha'
    rw [List.length_set] at ha ha'
    exact h.injective a a' ha ha'
  · intro a ha ha'
    rw [List.length_set] at ha'
    omega
  · intro a _ hout
    exact List.getElem?_set_ne fun heq => hout b hlt heq
  · rw [List.length_set]
  · rw [List.length_set]

end LibraryLink.Cpp.Process
