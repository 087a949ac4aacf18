import Mathlib.Logic.Relation

/-!
# Runs of a step relation

A run is a chain of steps (`Relation.ReflTransGen`). The rule for invariants, once: what holds at the start and is kept by each
step holds of every state a run reaches. Where each state of a run has at most one step, all runs are parts of one; where each step
goes down in some order, all come to their end.
-/

namespace Runs

open Relation

variable {α : Type*} {step : α → α → Prop}

/-- What a step keeps, a run keeps. -/
theorem invariant {I : α → Prop} (hstep : ∀ a b, I a → step a b → I b) {a b : α} (h : ReflTransGen step a b) (ha : I a) :
    I b := by
  induction h with
  | refl => exact ha
  | tail _ hs ih => exact hstep _ _ ih hs

/-- A run keeps a relation to its start that each step keeps. -/
theorem grows {r : α → α → Prop} (hrefl : ∀ a, r a a) (htrans : ∀ a b c, r a b → r b c → r a c)
    (hstep : ∀ a b, step a b → r a b) {a b : α} (h : ReflTransGen step a b) : r a b := by
  induction h with
  | refl => exact hrefl a
  | tail _ hs ih => exact htrans _ _ _ ih (hstep _ _ hs)

/-- Where each step of one relation can be followed in another, so can a run. -/
theorem simulates {β : Type*} {step' : β → β → Prop} {R : α → β → Prop}
    (hsim : ∀ a b c, R a b → step a c → ∃ d, ReflTransGen step' b d ∧ R c d) {a c : α} {b : β} (h : ReflTransGen step a c)
    (hab : R a b) : ∃ d, ReflTransGen step' b d ∧ R c d := by
  induction h with
  | refl => exact ⟨b, .refl, hab⟩
  | tail _ hs ih =>
    obtain ⟨d, hbd, hR⟩ := ih
    obtain ⟨d', hdd', hR'⟩ := hsim _ _ _ hR hs
    exact ⟨d', hbd.trans hdd', hR'⟩

/-- No step leaves the state. -/
def Final (step : α → α → Prop) (a : α) : Prop := ∀ b, ¬step a b

/-- Where an invariant allows at most one step, every run that starts like a run to a final state is a part of it. -/
theorem reaches_final {I : α → Prop} (hI : ∀ a b, I a → step a b → I b)
    (hdet : ∀ a b c, I a → step a b → step a c → b = c) {a b c : α} (hab : ReflTransGen step a b)
    (hac : ReflTransGen step a c) (ha : I a) (hc : Final step c) : ReflTransGen step b c := by
  induction hab with
  | refl => exact hac
  | @tail b b' hab hs ih =>
    rcases ReflTransGen.cases_head ih with rfl | ⟨d, hd, hdc⟩
    · exact absurd hs (hc b')
    · rw [hdet b b' d (invariant hI hab ha) hs hd]
      exact hdc

/-- Where an invariant allows at most one step, a run to a final state leaves no infinite run from its start. -/
theorem terminates {I : α → Prop} (hI : ∀ a b, I a → step a b → I b) (hdet : ∀ a b c, I a → step a b → step a c → b = c)
    {a c : α} (h : ReflTransGen step a c) (ha : I a) (hc : Final step c) : Acc (fun y x => step x y) a := by
  induction h using ReflTransGen.head_induction_on with
  | refl => exact Acc.intro c fun y hy => absurd hy (hc y)
  | @head a b hab _ ih =>
    refine Acc.intro a ?_
    intro y hy
    rw [hdet a y b ha hy hab]
    exact ih (hI a b ha hab)

/-- Where each step keeps an invariant and goes down in a well-founded order, there is no infinite run. -/
theorem terminates_of_rank {β : Type*} {I : α → Prop} {lt : β → β → Prop} (hwf : WellFounded lt) (rank : α → β)
    (hstep : ∀ a b, I a → step a b → I b ∧ lt (rank b) (rank a)) {a : α} (ha : I a) : Acc (fun y x => step x y) a := by
  induction h : rank a using hwf.induction generalizing a with
  | _ r ih =>
    subst h
    refine Acc.intro a ?_
    intro b hs
    obtain ⟨hb, hlt⟩ := hstep a b ha hs
    exact ih (rank b) hlt hb rfl

/-- Where there is no infinite run, every state has a run to a final one. -/
theorem exists_final (hwf : WellFounded fun b a => step a b) (a : α) : ∃ b, ReflTransGen step a b ∧ Final step b := by
  induction a using hwf.induction with
  | _ a ih =>
    by_cases h : Final step a
    · exact ⟨a, .refl, h⟩
    · obtain ⟨b, hb⟩ := Classical.not_forall.mp h
      obtain ⟨c, hc, hfinal⟩ := ih b (Classical.not_not.mp hb)
      exact ⟨c, .head (Classical.not_not.mp hb) hc, hfinal⟩

end Runs
