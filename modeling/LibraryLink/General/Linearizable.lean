import LibraryLink.General.Runs
import Mathlib.Data.List.Nodup
import Mathlib.Logic.Function.Basic

/-!
# Linearizable histories

Threads call the operations of one object, and their calls return. A history is linearizable if its calls can be put in one order in
which the object, used by nobody else, gives the same results, and in which a call that returned before another was made comes first.

An object that carries out each operation at one moment, somewhere between the call and its return, has linearizable histories only.
-/

namespace Linearizable

open Relation

variable {τ Op R S : Type*}

/-! ## Histories -/

/-- A thread makes the call with some number, or the call with some number returns. -/
inductive Event (τ Op R : Type*) where
  | call (n : Nat) (t : τ) (op : Op)
  | ret (n : Nat) (r : R)

/-- One call after the other, with the results that the object gives. -/
def Legal (apply : Op → S → Option (R × S)) : S → List (Nat × Op × R) → S → Prop
  | s, [], s' => s' = s
  | s, c :: order, s' => ∃ m, apply c.2.1 s = some (c.2.2, m) ∧ Legal apply m order s'

theorem Legal.concat {apply : Op → S → Option (R × S)} {s s' s'' : S} {order : List (Nat × Op × R)} (h : Legal apply s order s')
    {n : Nat} {op : Op} {r : R} (happly : apply op s' = some (r, s'')) : Legal apply s (order ++ [(n, op, r)]) s'' := by
  induction order generalizing s with
  | nil =>
    obtain rfl : s' = s := h
    exact ⟨s'', happly, rfl⟩
  | cons c order ih =>
    obtain ⟨m, hfirst, hrest⟩ := h
    exact ⟨m, hfirst, ih hrest⟩

/-- The first comes before the second in a list. -/
def Before {α : Type*} (l : List α) (a b : α) : Prop := List.Sublist [a, b] l

theorem Before.append {α : Type*} {l : List α} {a b : α} (h : Before l a b) (l' : List α) : Before (l ++ l') a b :=
  List.Sublist.trans h (List.sublist_append_left l l')

theorem Before.mem {α : Type*} {l : List α} {a b : α} (h : Before l a b) : a ∈ l ∧ b ∈ l :=
  ⟨h.subset List.mem_cons_self, h.subset (List.mem_cons_of_mem _ List.mem_cons_self)⟩

theorem before_concat {α : Type*} {l : List α} {a b c : α} : Before (l ++ [c]) a b ↔ Before l a b ∨ a ∈ l ∧ b = c := by
  have hwhole : Before (l ++ [c]) a b ↔ List.Sublist [b, a] (c :: l.reverse) := by
    rw [Before, ← List.reverse_sublist, List.reverse_append]
    rfl
  have hfront : Before l a b ↔ List.Sublist [b, a] l.reverse := List.reverse_sublist.symm
  rw [hwhole, hfront, List.cons_sublist_cons', List.singleton_sublist, List.mem_reverse, and_comm]

/-- An order of calls in which a history can be explained, and the object's state after it. -/
structure Linearization (apply : Op → S → Option (R × S)) (s₀ : S) (history : List (Event τ Op R)) (order : List (Nat × Op × R))
    (s : S) : Prop where
  nodup : (order.map Prod.fst).Nodup
  legal : Legal apply s₀ order s
  called : ∀ c ∈ order, ∃ t, Event.call c.1 t c.2.1 ∈ history
  returned : ∀ n r, Event.ret n r ∈ history → ∃ op, (n, op, r) ∈ order
  realTime : ∀ n r m t op, Before history (.ret n r) (.call m t op) → m ∈ order.map Prod.fst → Before (order.map Prod.fst) n m

/-- A thread makes a call after its last one has returned, and every call has a number of its own. -/
structure WellFormed (history : List (Event τ Op R)) : Prop where
  own : ∀ n t t' op op', Event.call n t op ∈ history → Event.call n t' op' ∈ history → t = t' ∧ op = op'
  sequential : ∀ n m t op op', Before history (.call n t op) (.call m t op') → ∃ r, Before history (.ret n r) (.call m t op')

/-! ## An object that is used by one thread at a time -/

/-- Where a thread stands: it has no call, its call has not been carried out, or it has. -/
inductive Status (Op R : Type*) where
  | idle
  | called (n : Nat) (op : Op)
  | answered (n : Nat) (r : R)

/-- The object, where each thread stands, the number of calls so far, the history, and the calls carried out in order. -/
structure State (τ Op R S : Type*) where
  object : S
  status : τ → Status Op R := fun _ => .idle
  calls : Nat := 0
  history : List (Event τ Op R) := []
  order : List (Nat × Op × R) := []

/-- A thread makes a call, its call is carried out, or it returns. -/
inductive Step [DecidableEq τ] (apply : Op → S → Option (R × S)) : State τ Op R S → State τ Op R S → Prop
  | call (v : State τ Op R S) (t : τ) (op : Op) : v.status t = .idle →
      Step apply v { v with
        status := Function.update v.status t (.called v.calls op), calls := v.calls + 1,
        history := v.history ++ [.call v.calls t op] }
  | commit (v : State τ Op R S) (t : τ) (n : Nat) (op : Op) (r : R) (s : S) : v.status t = .called n op →
      apply op v.object = some (r, s) →
      Step apply v { v with
        object := s, status := Function.update v.status t (.answered n r), order := v.order ++ [(n, op, r)] }
  | ret (v : State τ Op R S) (t : τ) (n : Nat) (r : R) : v.status t = .answered n r →
      Step apply v { v with status := Function.update v.status t .idle, history := v.history ++ [.ret n r] }

/-- A call has returned. -/
def Done (history : List (Event τ Op R)) (n : Nat) : Prop := ∃ r, Event.ret n r ∈ history

theorem Done.append {history : List (Event τ Op R)} {n : Nat} (h : Done history n) (events : List (Event τ Op R)) :
    Done (history ++ events) n := by
  obtain ⟨r, h⟩ := h
  exact ⟨r, List.mem_append_left _ h⟩

/-- What a thread's calls have come to, by where it stands. -/
inductive Standing (history : List (Event τ Op R)) (order : List (Nat × Op × R)) (t : τ) : Status Op R → Prop
  | idle : (∀ m op, Event.call m t op ∈ history → Done history m) → Standing history order t .idle
  | called (n : Nat) (op : Op) : Event.call n t op ∈ history → n ∉ order.map Prod.fst →
      (∀ m op, Event.call m t op ∈ history → m ≠ n → Done history m) → Standing history order t (.called n op)
  | answered (n : Nat) (op : Op) (r : R) : (n, op, r) ∈ order →
      (∀ m op, Event.call m t op ∈ history → m ≠ n → Done history m) → Standing history order t (.answered n r)

/-- Events without a call of a thread change nothing for it. -/
theorem Standing.append {history : List (Event τ Op R)} {order : List (Nat × Op × R)} {t : τ} {status : Status Op R}
    (h : Standing history order t status) {events : List (Event τ Op R)} (hevents : ∀ m op, Event.call m t op ∉ events) :
    Standing (history ++ events) order t status := by
  have hold : ∀ m op, Event.call m t op ∈ history ++ events → Event.call m t op ∈ history :=
    fun m op hmem => (List.mem_append.mp hmem).resolve_right (hevents m op)
  cases h with
  | idle hdone => exact .idle fun m op hmem => (hdone m op (hold m op hmem)).append _
  | called n op hcall hopen hdone =>
    exact .called n op (List.mem_append_left _ hcall) hopen fun m op hmem hm => (hdone m op (hold m op hmem) hm).append _
  | answered n op r horder hdone =>
    exact .answered n op r horder fun m op hmem hm => (hdone m op (hold m op hmem) hm).append _

/-- Another call carried out changes nothing for a thread. -/
theorem Standing.concat {history : List (Event τ Op R)} {order : List (Nat × Op × R)} {t : τ} {status : Status Op R}
    (h : Standing history order t status) {c : Nat × Op × R} (hc : ∀ op, Event.call c.1 t op ∉ history) :
    Standing history (order ++ [c]) t status := by
  cases h with
  | idle hdone => exact .idle hdone
  | called n op hcall hopen hdone =>
    refine .called n op hcall ?_ hdone
    intro hmem
    rw [List.map_append, List.mem_append, List.map_singleton, List.mem_singleton] at hmem
    rcases hmem with hmem | rfl
    · exact hopen hmem
    · exact hc op hcall
  | answered n op r horder hdone => exact .answered n op r (List.mem_append_left _ horder) hdone

/-- The invariant of the runs: the order explains the history so far. -/
structure Inv (apply : Op → S → Option (R × S)) (s₀ : S) (v : State τ Op R S) : Prop where
  linearization : Linearization apply s₀ v.history v.order v.object
  wellFormed : WellFormed v.history
  numbered : ∀ n t op, Event.call n t op ∈ v.history → n < v.calls
  standing : ∀ t, Standing v.history v.order t (v.status t)

variable [DecidableEq τ] {apply : Op → S → Option (R × S)} {s₀ : S}

theorem Inv.call {v : State τ Op R S} (h : Inv apply s₀ v) {t : τ} (op : Op) (ht : v.status t = .idle) :
    Inv apply s₀ { v with
      status := Function.update v.status t (.called v.calls op), calls := v.calls + 1,
      history := v.history ++ [.call v.calls t op] } := by
  have hnew : v.calls ∉ v.order.map Prod.fst := by
    intro hmem
    obtain ⟨c, hc, hnumber⟩ := List.mem_map.mp hmem
    obtain ⟨t', hcalled⟩ := h.linearization.called c hc
    have := h.numbered _ _ _ hcalled
    omega
  have hfresh : ∀ t' op', Event.call v.calls t' op' ∉ v.history := by
    intro t' op' hmem
    exact absurd (h.numbered _ _ _ hmem) (Nat.lt_irrefl _)
  have hdone : ∀ m op', Event.call m t op' ∈ v.history → Done v.history m := by
    have hstanding := h.standing t
    rw [ht] at hstanding
    cases hstanding with
    | idle hdone => exact hdone
  constructor
  · exact {
      nodup := h.linearization.nodup
      legal := h.linearization.legal
      called := by
        intro c hc
        obtain ⟨t', hcalled⟩ := h.linearization.called c hc
        exact ⟨t', List.mem_append_left _ hcalled⟩
      returned := by
        intro n r hret
        simp only [List.mem_append, List.mem_singleton, reduceCtorEq, or_false] at hret
        exact h.linearization.returned n r hret
      realTime := by
        intro n r m t' op' hbefore hm
        rcases before_concat.mp hbefore with hbefore | ⟨-, heq⟩
        · exact h.linearization.realTime n r m t' op' hbefore hm
        · cases heq
          exact absurd hm hnew }
  · constructor
    · intro n t₁ t₂ op₁ op₂ h₁ h₂
      simp only [List.mem_append, List.mem_singleton] at h₁ h₂
      rcases h₁ with h₁ | h₁ <;> rcases h₂ with h₂ | h₂
      · exact h.wellFormed.own n t₁ t₂ op₁ op₂ h₁ h₂
      · cases h₂
        exact absurd h₁ (hfresh _ _)
      · cases h₁
        exact absurd h₂ (hfresh _ _)
      · cases h₁
        cases h₂
        exact ⟨rfl, rfl⟩
    · intro n m t' op₁ op₂ hbefore
      rcases before_concat.mp hbefore with hbefore | ⟨hmem, heq⟩
      · obtain ⟨r, hret⟩ := h.wellFormed.sequential n m t' op₁ op₂ hbefore
        exact ⟨r, hret.append _⟩
      · cases heq
        obtain ⟨r, hret⟩ := hdone n op₁ hmem
        exact ⟨r, before_concat.mpr (.inr ⟨hret, rfl⟩)⟩
  · intro n t' op' hmem
    simp only [List.mem_append, List.mem_singleton] at hmem
    rcases hmem with hmem | hmem
    · exact Nat.lt_succ_of_lt (h.numbered n t' op' hmem)
    · cases hmem
      exact Nat.lt_succ_self _
  · intro t'
    by_cases ht' : t' = t
    · subst ht'
      simp only [Function.update_self]
      refine .called _ _ (List.mem_append_right _ List.mem_cons_self) hnew ?_
      intro m op' hmem hm
      simp only [List.mem_append, List.mem_singleton] at hmem
      rcases hmem with hmem | hmem
      · exact (hdone m op' hmem).append _
      · cases hmem
        exact absurd rfl hm
    · simp only [Function.update_of_ne ht']
      refine (h.standing t').append ?_
      intro m op' hmem
      cases List.mem_singleton.mp hmem
      exact ht' rfl

theorem Inv.commit {v : State τ Op R S} (h : Inv apply s₀ v) {t : τ} {n : Nat} {op : Op} {r : R} {s : S}
    (ht : v.status t = .called n op) (happly : apply op v.object = some (r, s)) :
    Inv apply s₀ { v with
      object := s, status := Function.update v.status t (.answered n r), order := v.order ++ [(n, op, r)] } := by
  have hstanding := h.standing t
  rw [ht] at hstanding
  obtain ⟨hcall, hopen, hdone⟩ : Event.call n t op ∈ v.history ∧ n ∉ v.order.map Prod.fst ∧
      ∀ m op', Event.call m t op' ∈ v.history → m ≠ n → Done v.history m := by
    cases hstanding with
    | called _ _ hcall hopen hdone => exact ⟨hcall, hopen, hdone⟩
  refine ⟨?_, h.wellFormed, h.numbered, ?_⟩
  · exact {
      nodup := by
        rw [List.map_append, List.map_singleton, ← List.concat_eq_append]
        exact h.linearization.nodup.concat hopen
      legal := h.linearization.legal.concat happly
      called := by
        intro c hc
        rcases List.mem_append.mp hc with hc | hc
        · exact h.linearization.called c hc
        · cases List.mem_singleton.mp hc
          exact ⟨t, hcall⟩
      returned := by
        intro m r' hret
        obtain ⟨op', hmem⟩ := h.linearization.returned m r' hret
        exact ⟨op', List.mem_append_left _ hmem⟩
      realTime := by
        intro k r' m t' op' hbefore hm
        rw [List.map_append, List.map_singleton] at hm ⊢
        rcases List.mem_append.mp hm with hm | hm
        · exact (h.linearization.realTime k r' m t' op' hbefore hm).append _
        · -- a call that has returned has been carried out
          obtain ⟨op'', hmem⟩ := h.linearization.returned k r' hbefore.mem.1
          exact before_concat.mpr (.inr ⟨List.mem_map_of_mem hmem, List.mem_singleton.mp hm⟩) }
  · intro t'
    by_cases ht' : t' = t
    · subst ht'
      simp only [Function.update_self]
      exact .answered _ op _ (List.mem_append_right _ List.mem_cons_self) hdone
    · simp only [Function.update_of_ne ht']
      refine (h.standing t').concat ?_
      intro op' hmem
      exact ht' (h.wellFormed.own n t' t op' op hmem hcall).1

theorem Inv.ret {v : State τ Op R S} (h : Inv apply s₀ v) {t : τ} {n : Nat} {r : R} (ht : v.status t = .answered n r) :
    Inv apply s₀ { v with status := Function.update v.status t .idle, history := v.history ++ [.ret n r] } := by
  have hstanding := h.standing t
  rw [ht] at hstanding
  obtain ⟨⟨op, horder⟩, hdone⟩ : (∃ op, (n, op, r) ∈ v.order) ∧
      ∀ m op', Event.call m t op' ∈ v.history → m ≠ n → Done v.history m := by
    cases hstanding with
    | answered _ op _ horder hdone => exact ⟨⟨op, horder⟩, hdone⟩
  have hold : ∀ m t' op', Event.call m t' op' ∈ v.history ++ [.ret n r] → Event.call m t' op' ∈ v.history := by
    intro m t' op' hmem
    exact (List.mem_append.mp hmem).resolve_right (by simp)
  refine ⟨?_, ?_, fun m t' op' hmem => h.numbered m t' op' (hold m t' op' hmem), ?_⟩
  · exact {
      nodup := h.linearization.nodup
      legal := h.linearization.legal
      called := by
        intro c hc
        obtain ⟨t', hcalled⟩ := h.linearization.called c hc
        exact ⟨t', List.mem_append_left _ hcalled⟩
      returned := by
        intro m r' hret
        rcases List.mem_append.mp hret with hret | hret
        · exact h.linearization.returned m r' hret
        · cases List.mem_singleton.mp hret
          exact ⟨op, horder⟩
      realTime := by
        intro k r' m t' op' hbefore hm
        rcases before_concat.mp hbefore with hbefore | ⟨-, heq⟩
        · exact h.linearization.realTime k r' m t' op' hbefore hm
        · cases heq }
  · constructor
    · intro m t₁ t₂ op₁ op₂ h₁ h₂
      exact h.wellFormed.own m t₁ t₂ op₁ op₂ (hold _ _ _ h₁) (hold _ _ _ h₂)
    · intro k m t' op₁ op₂ hbefore
      rcases before_concat.mp hbefore with hbefore | ⟨-, heq⟩
      · obtain ⟨r', hret⟩ := h.wellFormed.sequential k m t' op₁ op₂ hbefore
        exact ⟨r', hret.append _⟩
      · cases heq
  · intro t'
    by_cases ht' : t' = t
    · subst ht'
      simp only [Function.update_self]
      refine .idle ?_
      intro m op' hmem
      by_cases hm : m = n
      · subst hm
        exact ⟨r, List.mem_append_right _ List.mem_cons_self⟩
      · exact (hdone m op' (hold m t' op' hmem) hm).append _
    · simp only [Function.update_of_ne ht']
      exact (h.standing t').append (by simp)

/-- The invariant holds in every run; so each of its histories is well formed, and explained by the order in which the calls were carried
out. -/
theorem invariant {v : State τ Op R S} (h : ReflTransGen (Step apply) { object := s₀ } v) : Inv apply s₀ v := by
  refine Runs.invariant ?_ h ?_
  · rintro a b ha (⟨t, op, ht⟩ | ⟨t, n, op, r, s, ht, happly⟩ | ⟨t, n, r, ht⟩)
    · exact ha.call op ht
    · exact ha.commit ht happly
    · exact ha.ret ht
  · refine ⟨⟨List.nodup_nil, rfl, nofun, nofun, ?_⟩, ⟨nofun, ?_⟩, nofun, fun t => .idle nofun⟩
    · rintro n r m t op hbefore
      cases hbefore.mem.1
    · rintro n m t op op' hbefore
      cases hbefore.mem.1

/-- A system that simulates such an object. -/
theorem of_simulation {σ : Type*} {step : σ → σ → Prop} {rel : σ → State τ Op R S → Prop}
    (hsim : ∀ x a y, rel x a → step x y → ∃ b, ReflTransGen (Step apply) a b ∧ rel y b) {x y : σ} (hinit : rel x { object := s₀ })
    (h : ReflTransGen step x y) : ∃ b, rel y b ∧ Inv apply s₀ b := by
  obtain ⟨b, hb, hrel⟩ := Runs.simulates hsim h hinit
  exact ⟨b, hrel, invariant hb⟩

end Linearizable
