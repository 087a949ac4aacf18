import Mathlib.Data.List.Basic
import Mathlib.Data.List.Induction
import Mathlib.Logic.Function.Basic

/-!
# Stores of arrays

Numbered arrays that are allocated and written to. An array that is allocated again is a new one, zeroed. What stands at a place of an
array is the value last written there since the array was allocated, or zero.
-/

namespace Arrays

variable {V : Type*} {zero : V}

/-- A change of a store: an array is allocated, or an element of one is written. -/
inductive Update (V : Type*) where
  | allocate (array size : Nat)
  | write (array index : Nat) (value : V)

/-- The arrays by their number. -/
abbrev Store (V : Type*) := Nat → List V

/-- The store after a change. -/
def Update.apply (zero : V) (store : Store V) : Update V → Store V
  | .allocate array size => Function.update store array (List.replicate size zero)
  | .write array index value => Function.update store array ((store array).set index value)

/-- The store after some changes of an empty one. -/
def contents (zero : V) (updates : List (Update V)) : Store V := updates.foldl (Update.apply zero) fun _ => []

/-- The value last written at a place after a change, from the one before it. -/
def Update.last (zero : V) (array index : Nat) (value : V) : Update V → V
  | .allocate array' _ => if array' = array then zero else value
  | .write array' index' value' => if array' = array ∧ index' = index then value' else value

/-- The value last written at a place of an array since it was allocated, or zero. -/
def lastWritten (zero : V) (array index : Nat) (updates : List (Update V)) : V :=
  updates.foldl (Update.last zero array index) zero

theorem contents_append_singleton (updates : List (Update V)) (u : Update V) :
    contents zero (updates ++ [u]) = u.apply zero (contents zero updates) := by
  unfold contents
  rw [List.foldl_append]
  rfl

theorem lastWritten_append_singleton (array index : Nat) (updates : List (Update V)) (u : Update V) :
    lastWritten zero array index (updates ++ [u]) = u.last zero array index (lastWritten zero array index updates) := by
  unfold lastWritten
  rw [List.foldl_append]
  rfl

/-- What stands at a place of an array is the value last written there. -/
theorem getElem?_contents {array index : Nat} {updates : List (Update V)} (h : index < (contents zero updates array).length) :
    (contents zero updates array)[index]? = some (lastWritten zero array index updates) := by
  induction updates using List.reverseRecOn with
  | nil => exact absurd h (Nat.not_lt_zero index)
  | append_singleton updates u ih =>
    rw [contents_append_singleton] at h ⊢
    rw [lastWritten_append_singleton]
    cases u with
    | allocate array' size =>
      rw [Update.apply] at h ⊢
      rw [Update.last]
      by_cases ha : array' = array
      · subst ha
        rw [Function.update_self] at h ⊢
        rw [List.length_replicate] at h
        rw [if_pos rfl, List.getElem?_replicate_of_lt h]
      · rw [Function.update_of_ne (Ne.symm ha)] at h ⊢
        rw [if_neg ha, ih h]
    | write array' index' value =>
      rw [Update.apply] at h ⊢
      rw [Update.last]
      by_cases ha : array' = array
      · subst ha
        rw [Function.update_self] at h ⊢
        rw [List.length_set] at h
        by_cases hi : index' = index
        · subst hi
          rw [if_pos ⟨rfl, rfl⟩, List.getElem?_set_self h]
        · rw [if_neg fun hand => hi hand.2, List.getElem?_set_ne hi, ih h]
      · rw [Function.update_of_ne (Ne.symm ha)] at h ⊢
        rw [if_neg fun hand => ha hand.1, ih h]

/-- What is last written is as all that is written is, and zero. -/
theorem lastWritten_of_forall {P : V → Prop} (hzero : P zero) {updates : List (Update V)}
    (hwrites : ∀ array index value, .write array index value ∈ updates → P value) (array index : Nat) :
    P (lastWritten zero array index updates) := by
  induction updates using List.reverseRecOn with
  | nil => exact hzero
  | append_singleton updates u ih =>
    have hlast := ih fun a i v hmem => hwrites a i v (List.mem_append_left _ hmem)
    rw [lastWritten_append_singleton]
    cases u with
    | allocate array' size =>
      rw [Update.last]
      split
      · exact hzero
      · exact hlast
    | write array' index' value =>
      rw [Update.last]
      split
      · exact hwrites array' index' value (List.mem_append_right _ List.mem_cons_self)
      · exact hlast

end Arrays
