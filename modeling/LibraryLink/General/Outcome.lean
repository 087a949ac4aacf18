import Mathlib.Data.List.Forall2

/-!
# Computations that may fail

Rules for `Except`: what a sequence that succeeds went through, and two computations that go in lockstep, both failing in the
same way or both succeeding with related results.
-/

namespace Outcome

variable {ε α β γ δ : Type}

/-- A sequence that succeeds is two computations that do. -/
theorem bind_eq_ok {x : Except ε α} {f : α → Except ε β} {b : β} :
    (x >>= f) = .ok b ↔ ∃ a, x = .ok a ∧ f a = .ok b := by
  constructor
  · intro h
    cases x with
    | error e => cases h
    | ok a => exact ⟨a, rfl, h⟩
  · rintro ⟨a, rfl, h⟩
    exact h

/-- A list of computations succeeds when each one does, with the list of their results. -/
theorem mapM_eq_ok {f : α → Except ε β} {l : List α} {bs : List β} :
    l.mapM f = .ok bs ↔ List.Forall₂ (fun a b => f a = .ok b) l bs := by
  induction l generalizing bs with
  | nil =>
    rw [List.mapM_nil]
    constructor
    · rintro ⟨⟩
      exact .nil
    · rintro ⟨⟩
      rfl
  | cons a l ih =>
    rw [List.mapM_cons, bind_eq_ok]
    constructor
    · rintro ⟨b, hb, h⟩
      obtain ⟨bs', hbs, h⟩ := bind_eq_ok.mp h
      cases h
      exact .cons hb (ih.mp hbs)
    · rintro (_ | ⟨hb, hbs⟩)
      exact ⟨_, hb, bind_eq_ok.mpr ⟨_, ih.mpr hbs, rfl⟩⟩

/-- A sequence succeeds when its first computation does and the rest does on the result. -/
theorem exists_bind_eq_ok {x : Except ε α} {f : α → Except ε β} :
    (∃ b, (x >>= f) = .ok b) ↔ ∃ a, x = .ok a ∧ ∃ b, f a = .ok b := by
  constructor
  · rintro ⟨b, h⟩
    obtain ⟨a, ha, h⟩ := bind_eq_ok.mp h
    exact ⟨a, ha, b, h⟩
  · rintro ⟨a, ha, b, h⟩
    exact ⟨b, bind_eq_ok.mpr ⟨a, ha, h⟩⟩

/-- A list of computations succeeds when each one does. -/
theorem exists_mapM_eq_ok {f : α → Except ε β} {l : List α} : (∃ bs, l.mapM f = .ok bs) ↔ ∀ a ∈ l, ∃ b, f a = .ok b := by
  induction l with
  | nil => exact ⟨fun _ => nofun, fun _ => ⟨[], rfl⟩⟩
  | cons a l ih =>
    rw [List.mapM_cons, exists_bind_eq_ok, List.forall_mem_cons, ← ih]
    constructor
    · rintro ⟨b, hb, h⟩
      obtain ⟨bs, hbs, -⟩ := exists_bind_eq_ok.mp h
      exact ⟨⟨b, hb⟩, bs, hbs⟩
    · rintro ⟨⟨b, hb⟩, bs, hbs⟩
      exact ⟨b, hb, exists_bind_eq_ok.mpr ⟨bs, hbs, _, rfl⟩⟩

/-- Each result of a list of computations is the result of one of them. -/
theorem of_mapM_eq_ok {f : α → Except ε β} {l : List α} {bs : List β} (h : l.mapM f = .ok bs) {b : β} (hb : b ∈ bs) :
    ∃ a ∈ l, f a = .ok b := by
  induction mapM_eq_ok.mp h with
  | nil => cases hb
  | @cons a b' l bs ha hl ih =>
    rcases List.mem_cons.mp hb with rfl | hb
    · exact ⟨a, List.mem_cons_self, ha⟩
    · obtain ⟨a', ha', h'⟩ := ih (mapM_eq_ok.mpr hl) hb
      exact ⟨a', List.mem_cons_of_mem a ha', h'⟩

/-- Both fail, or both succeed with related results. -/
inductive Lockstep (R : α → β → Prop) : Except ε α → Except ε β → Prop
  | error (e e' : ε) : Lockstep R (.error e) (.error e')
  | ok {a : α} {b : β} : R a b → Lockstep R (.ok a) (.ok b)

/-- What succeeds under the same condition, with related results. -/
theorem Lockstep.of_iff {R : α → β → Prop} {x : Except ε α} {y : Except ε β} (h : (∃ a, x = .ok a) ↔ ∃ b, y = .ok b)
    (hR : ∀ a b, x = .ok a → y = .ok b → R a b) : Lockstep R x y := by
  cases x with
  | ok a =>
    obtain ⟨b, rfl⟩ := h.mp ⟨a, rfl⟩
    exact .ok (hR a b rfl rfl)
  | error e =>
    cases y with
    | ok b =>
      obtain ⟨a, ha⟩ := h.mpr ⟨b, rfl⟩
      cases ha
    | error e' => exact .error e e'

/-- A computation and itself. -/
theorem Lockstep.refl (x : Except ε α) : Lockstep Eq x x := by
  cases x with
  | ok a => exact .ok rfl
  | error e => exact .error e e

/-- Sequences of computations in lockstep are in lockstep. -/
theorem Lockstep.bind {R : α → β → Prop} {Q : γ → δ → Prop} {x : Except ε α} {y : Except ε β} {f : α → Except ε γ}
    {g : β → Except ε δ} (h : Lockstep R x y) (hf : ∀ a b, R a b → Lockstep Q (f a) (g b)) :
    Lockstep Q (x >>= f) (y >>= g) := by
  cases h with
  | error e e' => exact .error e e'
  | ok hab => exact hf _ _ hab

/-- A weaker relation of the results. -/
theorem Lockstep.mono {R Q : α → β → Prop} {x : Except ε α} {y : Except ε β} (h : Lockstep R x y)
    (hQ : ∀ a b, R a b → Q a b) : Lockstep Q x y := by
  cases h with
  | error e e' => exact .error e e'
  | ok hab => exact .ok (hQ _ _ hab)

/-- The results are those of the second computation. -/
theorem Lockstep.and_right {R : α → β → Prop} {x : Except ε α} {y : Except ε β} (h : Lockstep R x y) :
    Lockstep (fun a b => R a b ∧ y = .ok b) x y := by
  cases h with
  | error e e' => exact .error e e'
  | ok hab => exact .ok ⟨hab, rfl⟩

/-- The results are those of the first computation. -/
theorem Lockstep.and_left {R : α → β → Prop} {x : Except ε α} {y : Except ε β} (h : Lockstep R x y) :
    Lockstep (fun a b => R a b ∧ x = .ok a) x y := by
  cases h with
  | error e e' => exact .error e e'
  | ok hab => exact .ok ⟨hab, rfl⟩

/-- Where one succeeds, the other does. -/
theorem Lockstep.exists_right {R : α → β → Prop} {x : Except ε α} {y : Except ε β} (h : Lockstep R x y) {a : α}
    (ha : x = .ok a) : ∃ b, y = .ok b ∧ R a b := by
  cases h with
  | error e e' => cases ha
  | ok hab =>
    cases ha
    exact ⟨_, rfl, hab⟩

/-- Where the other succeeds, the one does. -/
theorem Lockstep.exists_left {R : α → β → Prop} {x : Except ε α} {y : Except ε β} (h : Lockstep R x y) {b : β}
    (hb : y = .ok b) : ∃ a, x = .ok a ∧ R a b := by
  cases h with
  | error e e' => cases hb
  | ok hab =>
    cases hb
    exact ⟨_, rfl, hab⟩

/-- Lists of computations in lockstep are in lockstep. -/
theorem Lockstep.mapM {P : α → β → Prop} {R : γ → δ → Prop} {f : α → Except ε γ} {g : β → Except ε δ} {l : List α}
    {m : List β} (h : List.Forall₂ P l m) (hf : ∀ a b, P a b → Lockstep R (f a) (g b)) :
    Lockstep (List.Forall₂ R) (l.mapM f) (m.mapM g) := by
  induction h with
  | nil =>
    rw [List.mapM_nil, List.mapM_nil]
    exact .ok .nil
  | cons hab _ ih =>
    rw [List.mapM_cons, List.mapM_cons]
    exact (hf _ _ hab).bind fun c d hcd => ih.bind fun cs ds hcs => .ok (.cons hcd hcs)

end Outcome
