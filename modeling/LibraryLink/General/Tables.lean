import Mathlib.Data.List.Nodup
import Mathlib.Logic.Function.Basic

/-!
# Tables

A list of entries with distinct keys, as an ordered dictionary keeps them: an assignment to a key that is there leaves it in its
place, any other one adds an entry at the end.
-/

variable {κ α : Type} [DecidableEq κ]

/-- An entry is found under its key. -/
theorem Tables.lookup_eq_some_of_mem {entries : List (κ × α)} (hnodup : (entries.map Prod.fst).Nodup) {e : κ × α}
    (he : e ∈ entries) : entries.lookup e.1 = some e.2 := by
  induction entries with
  | nil => cases he
  | cons f entries ih =>
    rw [List.map_cons, List.nodup_cons] at hnodup
    rcases List.mem_cons.mp he with rfl | he
    · exact List.lookup_cons_self
    · have hne : e.1 ≠ f.1 := by
        intro heq
        exact hnodup.1 (heq ▸ List.mem_map_of_mem he)
      rw [List.lookup_cons, beq_eq_false_iff_ne.mpr hne]
      exact ih hnodup.2 he

/-- What is found is an entry. -/
theorem Tables.mem_of_lookup {entries : List (κ × α)} {key : κ} {value : α} (h : entries.lookup key = some value) :
    (key, value) ∈ entries := by
  obtain ⟨before, after, rfl, -⟩ := List.lookup_eq_some_iff.mp h
  exact List.mem_append_right before List.mem_cons_self

/-- Entries with distinct keys. -/
structure Table (κ α : Type) where
  items : List (κ × α) := []
  nodup : (items.map Prod.fst).Nodup := by exact List.nodup_nil

namespace Table

/-- The value under a key. -/
def get (d : Table κ α) (key : κ) : Option α := d.items.lookup key

/-- An assignment. -/
def set (d : Table κ α) (key : κ) (value : α) : Table κ α :=
  if h : key ∈ d.items.map Prod.fst then
    { items := d.items.map fun e => if e.1 = key then (key, value) else e
      nodup := by
        have hkeys : (d.items.map fun e => if e.1 = key then (key, value) else e).map Prod.fst = d.items.map Prod.fst := by
          rw [List.map_map]
          refine List.map_congr_left fun e _ => ?_
          by_cases he : e.1 = key
          · simp [he]
          · simp [he]
        rw [hkeys]
        exact d.nodup }
  else
    { items := d.items ++ [(key, value)]
      nodup := by
        rw [List.map_append]
        exact d.nodup.append (List.nodup_singleton key) (List.disjoint_singleton.mpr h) }

/-- The entries under other keys. -/
def del (d : Table κ α) (key : κ) : Table κ α where
  items := d.items.filter fun e => e.1 ≠ key
  nodup := d.nodup.sublist (List.filter_sublist.map Prod.fst)

theorem get_eq_some_iff {d : Table κ α} {key : κ} {value : α} : d.get key = some value ↔ (key, value) ∈ d.items :=
  ⟨Tables.mem_of_lookup, fun h => Tables.lookup_eq_some_of_mem d.nodup h⟩

theorem get_set_self (d : Table κ α) (key : κ) (value : α) : (d.set key value).get key = some value := by
  refine get_eq_some_iff.mpr ?_
  unfold set
  split
  · rename_i hmem
    obtain ⟨e, he, hkey⟩ := List.mem_map.mp hmem
    exact List.mem_map.mpr ⟨e, he, if_pos hkey⟩
  · exact List.mem_append_right _ (List.mem_singleton_self _)

/-- What is found depends on the entries only. -/
theorem get_congr {d d' : Table κ α} {key : κ} (h : ∀ value, (key, value) ∈ d.items ↔ (key, value) ∈ d'.items) :
    d.get key = d'.get key :=
  Option.ext fun value => get_eq_some_iff.trans ((h value).trans get_eq_some_iff.symm)

/-- An assignment leaves the other keys as they are. -/
theorem get_set_of_ne (d : Table κ α) {key key' : κ} (value : α) (h : key' ≠ key) : (d.set key value).get key' = d.get key' := by
  refine get_congr fun v => ?_
  unfold set
  split
  · constructor
    · intro hmem
      obtain ⟨e, he, heq⟩ := List.mem_map.mp hmem
      split at heq
      · exact absurd (Prod.mk.inj heq).1.symm h
      · exact heq ▸ he
    · intro hmem
      exact List.mem_map.mpr ⟨(key', v), hmem, if_neg h⟩
  · rw [List.mem_append, List.mem_singleton]
    exact or_iff_left fun heq => h (Prod.mk.inj heq).1

/-- A deletion leaves the other keys as they are. -/
theorem get_del_of_ne (d : Table κ α) {key key' : κ} (h : key' ≠ key) : (d.del key).get key' = d.get key' := by
  refine get_congr fun v => ?_
  show (key', v) ∈ d.items.filter _ ↔ _
  rw [List.mem_filter, decide_eq_true_iff]
  exact and_iff_left h

/-- A key that was deleted is not there. -/
theorem get_del_self (d : Table κ α) (key : κ) : (d.del key).get key = none := by
  refine Option.eq_none_iff_forall_ne_some.mpr fun v hv => ?_
  have hmem : (key, v) ∈ d.items.filter fun e => e.1 ≠ key := get_eq_some_iff.mp hv
  exact of_decide_eq_true (List.mem_filter.mp hmem).2 rfl

/-! ## The entries with one value -/

variable [DecidableEq α]

/-- The entries with a value, in their order. -/
def having (d : Table κ α) (value : α) : List (κ × α) := d.items.filter fun e => e.2 = value

/-- The keys of a value are those of its entries. -/
theorem mem_having_iff {d : Table κ α} {key : κ} {value : α} : (key, value) ∈ d.having value ↔ d.get key = some value := by
  rw [having, List.mem_filter, decide_eq_true_iff, and_iff_left rfl, get_eq_some_iff]

/-- An assignment that gives no key a value, and takes it from none, leaves the entries with this value as they are. -/
theorem having_set {d : Table κ α} {key : κ} {v value : α} (h : d.get key = some value ↔ v = value) :
    (d.set key v).having value = d.having value := by
  unfold having set
  split
  · rename_i hmem
    rw [List.filter_map]
    have hsame : ∀ e ∈ d.items, ((fun e => decide (e.2 = value)) ∘ fun e => if e.1 = key then (key, v) else e) e =
        decide (e.2 = value) := by
      intro e he
      show decide ((if e.1 = key then (key, v) else e).2 = value) = _
      split
      · rename_i hkey
        have hget : d.get key = some e.2 := get_eq_some_iff.mpr (hkey ▸ he)
        rw [hget, Option.some.injEq] at h
        exact decide_eq_decide.mpr h.symm
      · rfl
    rw [List.filter_congr hsame]
    refine (List.map_congr_left fun e he => ?_).trans (List.map_id _)
    obtain ⟨hitem, hvalue⟩ := List.mem_filter.mp he
    have hvalue : e.2 = value := of_decide_eq_true hvalue
    split
    · rename_i hkey
      have hget : d.get key = some value := get_eq_some_iff.mpr (hvalue ▸ hkey ▸ hitem)
      exact Prod.ext hkey.symm ((h.mp hget).trans hvalue.symm)
    · rfl
  · rename_i hmem
    have hnone : d.get key ≠ some value := fun hget => hmem (List.mem_map_of_mem (get_eq_some_iff.mp hget))
    have hne : v ≠ value := fun heq => hnone (h.mpr heq)
    have hlast : [(key, v)].filter (fun e => decide (e.2 = value)) = [] := List.filter_cons_of_neg (by simpa using hne)
    rw [List.filter_append, hlast, List.append_nil]

/-- The deletion of a key that has another value leaves the entries with this value as they are. -/
theorem having_del {d : Table κ α} {key : κ} {value : α} (h : d.get key ≠ some value) : (d.del key).having value = d.having value := by
  unfold having del
  rw [List.filter_filter]
  refine List.filter_congr fun e he => ?_
  by_cases hvalue : e.2 = value
  · have hkey : e.1 ≠ key := fun hkey => h (get_eq_some_iff.mpr (hvalue ▸ hkey ▸ he))
    simp [hvalue, hkey]
  · simp [hvalue]

end Table

/-! ## What some keys have -/

/-- The values that a function has at the keys of a list, with that of one key first. -/
theorem Tables.filterMap_perm {keys : List κ} {key : κ} (hmem : key ∈ keys) (f : κ → Option α) :
    (keys.filterMap f).Perm ((f key).toList ++ (keys.erase key).filterMap f) := by
  refine ((List.perm_cons_erase hmem).filterMap f).trans (List.Perm.of_eq ?_)
  cases hvalue : f key <;> simp [hvalue]

/-- The same where the function is changed at this key. -/
theorem Tables.filterMap_update_perm {keys : List κ} (hnodup : keys.Nodup) {key : κ} (hmem : key ∈ keys) (f : κ → Option α)
    (value : Option α) : (keys.filterMap (Function.update f key value)).Perm (value.toList ++ (keys.erase key).filterMap f) := by
  have hrest : (keys.erase key).filterMap (Function.update f key value) = (keys.erase key).filterMap f := by
    refine List.filterMap_congr fun other hother => ?_
    exact Function.update_of_ne (hnodup.mem_erase_iff.mp hother).1 _ _
  have hperm := Tables.filterMap_perm hmem (Function.update f key value)
  rwa [Function.update_self, hrest] at hperm
