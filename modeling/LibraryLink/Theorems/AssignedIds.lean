import LibraryLink.Lemmas.AssignedIds
import LibraryLink.General.Runs

/-!
# Assigned ids are never reused

All channels and `do_callback` draw from one counter and write one table. As long as fewer than 2^64 ids are drawn: the ids are
pairwise different, no assignment to `persistence` replaces a pointer, and a pointer stays under its id.
-/

namespace LibraryLink.Cpp.Process

open Relation

variable {S : Type}

/-- A step of the receiver: the loop of some channel serves a request that has no id, or `do_callback` is called. The library
may be another one at each step, so that nothing is assumed about what it does. A request that ends in a fault stops the
receiver and is no step. -/
inductive IdStep : State S → State S → Prop
  | request (lib : Library S) (env : Env) (rq : Request) (s s' : State S) (resp : ChannelResponse) :
      rq.assignedId = "" → serve lib env rq s = .ok (resp, s') → IdStep s s'
  | callback (methodName type : String) (args : List CallbackArg) (s : State S) :
      IdStep s (doCallback methodName type args s).2

/-- A step keeps the ids apart and the pointers under their keys. -/
theorem IdStep.keeps {s s' : State S} (h : IdStep s s') : Keeps none none s s' := by
  cases h with
  | request lib env rq s s' resp hid h => exact Keeps.serve hid h
  | callback methodName type args s => exact Keeps.doCallback none methodName type args s

/-- A run does, too. -/
theorem keeps_of_run {s s' : State S} (h : ReflTransGen IdStep s s') : Keeps none none s s' :=
  Runs.grows (fun s => (SameTable.refl s).keeps none) (fun _ _ _ h h' => h.trans h') (fun _ _ hs => hs.keeps) h

/-- In every run of the steps of any channels and of `do_callback` in which fewer than 2^64 ids are drawn: all ids drawn are
different, every assignment to `persistence` replaces an absent or null entry, and what is stored under a key in some state is
stored under it in every later one. -/
theorem assigned_ids {s₀ s : State S} (h₀ : ReflTransGen IdStep {} s₀) (h : ReflTransGen IdStep s₀ s)
    (hlen : s.drawn.length < 2 ^ 64) :
    s.drawn.Nodup ∧ (∀ o ∈ s.overwritten, o = none) ∧
      ∀ key a, s₀.persistence key = some (some a) → s.persistence key = some (some a) := by
  have hk₀ := keeps_of_run h₀
  have hk := keeps_of_run h
  have hle₀ : s₀.drawn.length ≤ 2 ^ 64 := Nat.le_trans hk.drawn.length_le (Nat.le_of_lt hlen)
  have hi₀ := hk₀.ids hle₀ Ids.start
  have hi := hk.ids (Nat.le_of_lt hlen) hi₀
  refine ⟨?_, hi.overwritten, ?_⟩
  · rw [hi.drawn]
    exact List.nodup_range.map Decimals.toString_injective
  · intro key a ha
    have hentry := hk.entry (Nat.le_of_lt hlen) hi₀ key a (by rw [State.entry, ha]; rfl)
    rw [State.entry] at hentry
    exact Option.join_eq_some_iff.mp hentry

/-- The receiver after it has served one request, for an array of two characters. -/
def withArray : State Unit where
  assignedIdCounter := 1
  persistence := Function.update (fun _ => none) "0" (some (some 1))
  heap := [.chars [0, 0], .cell .charPointer (some 0)]
  drawn := ["0"]
  overwritten := [none]

/-- The receiver after `do_callback` has registered the array's pointer once more. -/
def withCallback : State Unit := (doCallback "write" "Writer" [.persistence (some 1)] withArray).2

/-- The rule at a run with an array, a callback that registers its pointer, and a length asked for. -/
theorem assigned_ids_array :
    ∃ s : State Unit, ReflTransGen IdStep {} withArray ∧ ReflTransGen IdStep withArray s ∧ s.drawn = ["0", "1", "2"] ∧
      (s.drawn.Nodup ∧ (∀ o ∈ s.overwritten, o = none) ∧
        ∀ key a, withArray.persistence key = some (some a) → s.persistence key = some (some a)) := by
  let lib : Library Unit := fun _ _ states => some ⟨states, 0, .null⟩
  have h₁ : ReflTransGen IdStep {} withArray :=
    .single (.request lib {} ⟨some ⟨"mem_alloc<char>", "", "Char[]", [⟨.inplace, .int 2⟩]⟩, ""⟩ {} withArray ⟨"0", none⟩ rfl rfl)
  have h₂ : ReflTransGen IdStep withArray withCallback := .single (.callback "write" "Writer" [.persistence (some 1)] withArray)
  have h₃ : IdStep withCallback { withCallback with assignedIdCounter := 3, drawn := ["0", "1", "2"] } :=
    .request lib {} ⟨some ⟨"strlen", "1", "", []⟩, ""⟩ _ _ ⟨"2", some (.returnValue 0)⟩ rfl rfl
  exact ⟨_, h₁, h₂.tail h₃, rfl, assigned_ids h₁ (h₂.tail h₃) (by decide)⟩

end LibraryLink.Cpp.Process
