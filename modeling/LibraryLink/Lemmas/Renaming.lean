import LibraryLink.Lemmas.Clients
import Mathlib.Logic.Equiv.Fintype

/-!
# Helpers for `Theorems/Clients.lean`: renaming ids

Two orders in which the same requests of each client come name the same request by different ids. One renaming takes the ids of
the one order to those of the other, and the requests with it.
-/

namespace LibraryLink.Cpp.Process

variable {C : Type} [DecidableEq C]

/-! ## The renaming -/

/-- The id at a place in the order names a request. -/
theorem exists_named_at {order : List C} {i : Nat} (hi : i < order.length) : ∃ c k, Named order c (toString i) k := by
  refine ⟨order[i], _, order.take i, order.drop (i + 1), ?_, rfl, ?_⟩
  · rw [List.getElem_cons_drop, List.take_append_drop]
  · rw [List.length_take_of_le (Nat.le_of_lt hi)]

/-- There are fewer requests before a request of a client than the client has. -/
theorem Named.lt_count {order : List C} {c : C} {key : String} {k : Nat} (h : Named order c key k) : k < order.count c := by
  obtain ⟨before, after, rfl, rfl, -⟩ := h
  rw [List.count_append, List.count_cons_self]
  omega

/-- One renaming takes the ids in one order to those in another order of the same requests. -/
theorem exists_renaming {order₁ order₂ : List C} (hcount : ∀ c, order₁.count c = order₂.count c) :
    ∃ ρ : Equiv.Perm String, ∀ c key k, Named order₁ c key k → Named order₂ c (ρ key) k := by
  have himage : ∀ i : Fin order₁.length, ∃ key', ∀ c k, Named order₁ c (toString i.val) k → Named order₂ c key' k := by
    intro i
    obtain ⟨c, k, hnamed⟩ := exists_named_at i.isLt
    obtain ⟨key', hkey'⟩ := exists_named (hcount c ▸ hnamed.lt_count)
    refine ⟨key', fun d l h => ?_⟩
    obtain ⟨rfl, rfl⟩ := hnamed.injective h
    exact hkey'
  choose image himage using himage
  have hinjective : Function.Injective image := by
    intro i j heq
    obtain ⟨c, k, hi⟩ := exists_named_at i.isLt
    obtain ⟨d, l, hj⟩ := exists_named_at j.isLt
    have himagei := himage i c k hi
    rw [heq] at himagei
    obtain ⟨rfl, rfl⟩ := himagei.injective (himage j d l hj)
    exact Fin.ext (Decimals.toString_injective (hi.unique hj))
  have hnumbers : Function.Injective fun i : Fin order₁.length => (toString i.val : String) :=
    fun i j heq => Fin.ext (Decimals.toString_injective heq)
  obtain ⟨ρ, hρ⟩ := Equiv.Perm.exists_extending_pair _ _ hnumbers hinjective
  refine ⟨ρ, fun c key k hnamed => ?_⟩
  obtain ⟨before, after, horder, -, rfl⟩ := id hnamed
  have hlt : before.length < order₁.length := by
    rw [horder, List.length_append, List.length_cons]
    omega
  rw [show ρ (toString before.length) = image ⟨before.length, hlt⟩ from hρ ⟨before.length, hlt⟩]
  exact himage ⟨before.length, hlt⟩ c k hnamed

/-! ## Renamed requests -/

theorem argumentValue_rename (f : String → String) (r : MethodCallRequest) (i : Nat) :
    argumentValue (r.rename f) i = (argumentValue r i).rename f := by
  unfold argumentValue MethodCallRequest.rename
  rw [List.getElem?_map]
  rcases r.arg[i]? with _ | a <;> rfl

/-- The id in a value, where it is not empty. -/
theorem stringValue_rename (f : String → String) {value : Value} (h : value.stringValue ≠ "") :
    (value.rename f).stringValue = f value.stringValue := by
  cases value with
  | string text => rfl
  | _ => exact absurd rfl h

theorem intValue_rename (f : String → String) (value : Value) : (value.rename f).intValue = value.intValue := by
  cases value <;> rfl

/-- The ids that a parameter takes from a renamed request. -/
theorem Param.keys_rename (f : String → String) {r : MethodCallRequest} {p : Param} (h : ∀ key ∈ p.keys r, key ≠ "") :
    p.keys (r.rename f) = (p.keys r).map f := by
  cases p with
  | self type => rfl
  | ref type i =>
    show [(argumentValue (r.rename f) i).stringValue] = [f (argumentValue r i).stringValue]
    rw [argumentValue_rename, stringValue_rename f (h _ List.mem_cons_self)]
  | int i => rfl
  | bool i => rfl

/-- The ids that a branch takes from a renamed request. -/
theorem Action.keys_rename (f : String → String) {r : MethodCallRequest} {action : Action}
    (h : ∀ key ∈ action.keys r, key ≠ "") : action.keys (r.rename f) = (action.keys r).map f := by
  rcases action with handler | (_ | _) | (_ | _) | elem | _
  · show handler.params.flatMap _ = (handler.params.flatMap _).map f
    rw [List.map_flatMap]
    exact List.flatMap_congr fun p hp => Param.keys_rename f fun key hkey => h key (List.mem_flatMap.mpr ⟨p, hp, hkey⟩)
  · rfl
  · show [f r.objectId, (argumentValue (r.rename f) 1).stringValue] = [f r.objectId, f (argumentValue r 1).stringValue]
    rw [argumentValue_rename, stringValue_rename f (h _ (List.mem_cons_of_mem _ List.mem_cons_self))]
  all_goals rfl

theorem dispatch_rename (f : String → String) (r : MethodCallRequest) : dispatch (r.rename f) = dispatch r := rfl

/-- A renamed request plays the same request. -/
theorem Plays.rename {N N' : String → String → Prop} {r r₀ : MethodCallRequest} (h : Plays N r r₀) {f : String → String}
    (hN : ∀ key key₀, N key key₀ → key ≠ "" ∧ N' (f key) key₀) : Plays N' (r.rename f) r₀ := by
  refine ⟨h.type, h.methodName, ?_, ?_, ?_⟩
  · rw [← h.length]
    exact List.length_map _
  · intro i
    rw [argumentValue_rename, intValue_rename, h.ints]
  · intro action hdispatch
    have hkeys := (h.keys action (dispatch_rename f r ▸ hdispatch)).imp hN
    obtain ⟨hne, hkeys⟩ := (List.forall₂_and_left _ _).mp hkeys
    rw [Action.keys_rename f hne, List.forall₂_map_left_iff]
    exact hkeys

/-! ## The requests of one client -/

theorem toString_ne_empty (n : Nat) : toString n ≠ "" := fun h => Nat.toDigits_ne_nil (String.ofList_injective h)

theorem Named.ne_empty {order : List C} {c : C} {key : String} {k : Nat} (h : Named order c key k) : key ≠ "" := by
  obtain ⟨before, after, -, -, rfl⟩ := h
  exact toString_ne_empty _

/-- The ids that a request uses are ids of requests of its client. -/
def KeysNamed (order : List C) (c : C) (r : MethodCallRequest) : Prop :=
  ∀ action, dispatch r = some action → ∀ key ∈ action.keys r, ∃ k, Named order c key k

/-- The ids of a client, as they are where it is alone. -/
theorem exists_alone (order : List C) (c : C) :
    ∃ f : String → String, ∀ r, KeysNamed order c r → Plays (OwnId order c) r (r.rename f) := by
  have hkey : ∀ key, ∃ key₀, (∃ k, Named order c key k) → OwnId order c key key₀ := by
    intro key
    by_cases h : ∃ k, Named order c key k
    · obtain ⟨k, hk⟩ := h
      exact ⟨toString k, fun _ => ⟨k, hk, rfl⟩⟩
    · exact ⟨key, fun h' => absurd h' h⟩
  choose f hf using hkey
  refine ⟨f, fun r hr => ⟨rfl, rfl, ?_, ?_, ?_⟩⟩
  · exact (List.length_map _).symm
  · intro i
    rw [argumentValue_rename, intValue_rename]
  · intro action hdispatch
    have hnamed := hr action hdispatch
    rw [Action.keys_rename f fun key hkey => (hnamed key hkey).choose_spec.ne_empty, List.forall₂_map_right_iff, List.forall₂_same]
    exact fun key hkey => hf key (hnamed key hkey)

omit [DecidableEq C] in
/-- The clients of a renamed schedule are the same. -/
theorem map_fst_renameAll (f : String → String) (schedule : List (C × MethodCallRequest)) :
    (renameAll f schedule).map Prod.fst = schedule.map Prod.fst := by
  unfold renameAll
  rw [List.map_map]
  rfl

theorem ofClient_renameAll (f : String → String) (c : C) (schedule : List (C × MethodCallRequest)) :
    ofClient c (renameAll f schedule) = (ofClient c schedule).map (MethodCallRequest.rename f) := by
  induction schedule with
  | nil => rfl
  | cons entry schedule ih =>
    obtain ⟨d, r⟩ := entry
    show ofClient c ((d, r.rename f) :: renameAll f schedule) = _
    by_cases hd : d = c
    · subst hd
      rw [ofClient_cons_self, ofClient_cons_self, ih, List.map_cons]
    · rw [ofClient_cons_ne hd, ofClient_cons_ne hd, ih]

/-- A client occurs as often as it has requests. -/
theorem count_map_fst {β : Type} (c : C) (l : List (C × β)) : (l.map Prod.fst).count c = (ofClient c l).length := by
  induction l with
  | nil => rfl
  | cons entry l ih =>
    obtain ⟨d, b⟩ := entry
    rw [List.map_cons]
    by_cases hd : d = c
    · subst hd
      rw [ofClient_cons_self, List.count_cons_self, ih, List.length_cons]
    · rw [ofClient_cons_ne hd, List.count_cons_of_ne hd, ih]

/-- A schedule in another order, with the ids renamed, plays the same requests. -/
theorem PlaysAll.rename {schedule₁ schedule₂ : List (C × MethodCallRequest)} {order₁ order₂ : List C}
    {q : C → List MethodCallRequest} (h : PlaysAll order₁ schedule₁ q) (hsame : ∀ c, ofClient c schedule₁ = ofClient c schedule₂)
    {f : String → String} (hf : ∀ c key k, Named order₁ c key k → Named order₂ c (f key) k) :
    PlaysAll order₂ (renameAll f schedule₂) q := by
  intro c
  rw [ofClient_renameAll, List.forall₂_map_left_iff, ← hsame c]
  refine (h c).imp fun r r₀ hplays => hplays.rename ?_
  rintro key key₀ ⟨k, hnamed, hkey₀⟩
  exact ⟨hnamed.ne_empty, k, hf c key k hnamed, hkey₀⟩

/-- Responses that are the same where the client is alone are the same up to the renaming. -/
theorem rename_responses {order₁ order₂ : List C} {c : C} {f : String → String}
    (hf : ∀ c key k, Named order₁ c key k → Named order₂ c (f key) k) {l₁ l₂ l₀ : List ChannelResponse}
    (h₁ : List.Forall₂ (Answers order₁ c) l₁ l₀) (h₂ : List.Forall₂ (Answers order₂ c) l₂ l₀) :
    l₁.map (ChannelResponse.rename f) = l₂ := by
  induction h₁ generalizing l₂ with
  | nil => exact (List.forall₂_nil_right_iff.mp h₂).symm
  | @cons resp₁ resp₀ l₁ l₀ hhead _ ih =>
    obtain ⟨resp₂, l₂, hhead₂, hrest, rfl⟩ := List.forall₂_cons_right_iff.mp h₂
    rw [List.map_cons, ih hrest]
    congr 1
    obtain ⟨hresult₁, k, hnamed₁, hkey₁⟩ := hhead
    obtain ⟨hresult₂, l, hnamed₂, hkey₂⟩ := hhead₂
    obtain rfl : k = l := Decimals.toString_injective (hkey₁.symm.trans hkey₂)
    have hid := (hf c _ k hnamed₁).unique hnamed₂
    obtain ⟨id₁, result₁⟩ := resp₁
    obtain ⟨id₂, result₂⟩ := resp₂
    show ChannelResponse.mk (f id₁) result₁ = _
    exact congrArg₂ ChannelResponse.mk hid (hresult₁.trans hresult₂.symm)

end LibraryLink.Cpp.Process
