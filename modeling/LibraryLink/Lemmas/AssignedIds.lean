import LibraryLink.Lemmas.CppReceiver
import LibraryLink.General.Decimals
import Mathlib.Data.List.Nodup

/-!
# Helpers for `Theorems/AssignedIds.lean`: the counter and the table

The ids drawn so far are the decimal texts of the numbers below the counter, until it wraps. A key with a pointer is one of
them, and the id of the request being served has none yet; so every pointer is stored where there was none.
-/

namespace LibraryLink.Cpp.Process

open Outcome

variable {S : Type}

/-- The callbacks that a branch lets the library make. -/
def Action.callbacks (env : Env) : Action → List Callback
  | .library _ => env.callbacks
  | _ => []

/-- What serving a request does to the table: lookups and changes of the memory, the callbacks of the library, and last of all
at most one pointer stored under the assigned id. -/
theorem run_table {lib : Library S} {env : Env} {r : MethodCallRequest} {s s' : State S} {resp resp' : ChannelResponse}
    {action : Action} (h : action.run lib env r s resp = .ok (resp', s')) :
    ∃ s₁ s₂, SameTable s s₁ ∧ SameTable (runCallbacks (action.callbacks env) s₁) s₂ ∧
      (s' = s₂ ∨ ∃ a, s' = s₂.store resp.assignedId (some a)) := by
  cases action with
  | library handler =>
    obtain ⟨s₁, passed, states, effect, -, htable, -, rfl⟩ := handler_eq_ok h
    refine ⟨s₁, ?_⟩
    cases handler.ret with
    | handle type =>
      exact ⟨_, htable, ((SameTable.heap _ _).trans (SameTable.produce _ _ _)).trans (SameTable.alloc _ _), Or.inr ⟨_, rfl⟩⟩
    | _ => exact ⟨_, htable, SameTable.heap _ _, Or.inl rfl⟩
  | set elem =>
    cases elem with
    | char =>
      obtain ⟨-, -, -, -, -, htable⟩ := setChar_eq_ok h
      exact ⟨s, _, SameTable.refl s, htable, Or.inl rfl⟩
    | ast =>
      obtain ⟨-, -, -, -, -, -, -, -, htable⟩ := set_eq_ok h
      exact ⟨s, _, SameTable.refl s, htable, Or.inl rfl⟩
  | get elem =>
    cases elem with
    | char => exact ⟨s, _, SameTable.refl s, (getChar_eq_ok h).2, Or.inl rfl⟩
    | ast =>
      obtain ⟨-, -, value, s₁, -, -, -, htable, rfl⟩ := get_eq_ok h
      exact ⟨s, _, SameTable.refl s, htable.trans (SameTable.alloc _ _), Or.inr ⟨_, rfl⟩⟩
  | memAlloc elem =>
    obtain ⟨size, array, rfl, rfl⟩ := memAlloc_eq_ok h
    exact ⟨s, _, SameTable.refl s, (SameTable.calloc _ _ _ s).trans (SameTable.alloc _ _), Or.inr ⟨_, rfl⟩⟩
  | strlen => exact ⟨s, _, SameTable.refl s, (strlen_eq_ok h).2, Or.inl rfl⟩

/-- A response has the assigned id that was given to it. -/
theorem run_assignedId {lib : Library S} {env : Env} {r : MethodCallRequest} {s s' : State S} {resp resp' : ChannelResponse}
    {action : Action} (h : action.run lib env r s resp = .ok (resp', s')) :
    resp'.assignedId = resp.assignedId := by
  rcases action with handler | (_ | _) | (_ | _) | elem | _
  · obtain ⟨locals, -, h⟩ := bind_eq_ok.mp h
    obtain ⟨operands, -, h⟩ := bind_eq_ok.mp h
    obtain ⟨states, -, h⟩ := bind_eq_ok.mp h
    obtain rfl : _ = resp' := congrArg Prod.fst (Except.ok.inj h)
    cases handler.ret <;> rfl
  · obtain ⟨pos, -, h⟩ := bind_eq_ok.mp h
    obtain ⟨value, -, h⟩ := bind_eq_ok.mp h
    obtain ⟨b, -, h⟩ := bind_eq_ok.mp h
    obtain ⟨data, -, h⟩ := bind_eq_ok.mp h
    obtain ⟨i, -, h⟩ := bind_eq_ok.mp h
    obtain rfl : _ = resp' := congrArg Prod.fst (Except.ok.inj h)
    rfl
  · obtain ⟨pos, -, h⟩ := bind_eq_ok.mp h
    obtain ⟨argument, -, h⟩ := bind_eq_ok.mp h
    obtain ⟨value, -, h⟩ := bind_eq_ok.mp h
    obtain ⟨b, -, h⟩ := bind_eq_ok.mp h
    obtain ⟨data, -, h⟩ := bind_eq_ok.mp h
    obtain ⟨i, -, h⟩ := bind_eq_ok.mp h
    obtain rfl : _ = resp' := congrArg Prod.fst (Except.ok.inj h)
    rfl
  · obtain ⟨pos, -, h⟩ := bind_eq_ok.mp h
    obtain ⟨b, -, h⟩ := bind_eq_ok.mp h
    obtain ⟨data, -, h⟩ := bind_eq_ok.mp h
    obtain ⟨i, -, h⟩ := bind_eq_ok.mp h
    obtain rfl : _ = resp' := congrArg Prod.fst (Except.ok.inj h)
    rfl
  · obtain ⟨pos, -, h⟩ := bind_eq_ok.mp h
    obtain ⟨b, -, h⟩ := bind_eq_ok.mp h
    obtain ⟨data, -, h⟩ := bind_eq_ok.mp h
    obtain ⟨i, -, h⟩ := bind_eq_ok.mp h
    obtain rfl : _ = resp' := congrArg Prod.fst (Except.ok.inj h)
    rfl
  · obtain ⟨size, -, h⟩ := bind_eq_ok.mp h
    obtain rfl : _ = resp' := congrArg Prod.fst (Except.ok.inj h)
    rfl
  · obtain ⟨b, -, h⟩ := bind_eq_ok.mp h
    obtain ⟨data, -, h⟩ := bind_eq_ok.mp h
    obtain ⟨n, -, h⟩ := bind_eq_ok.mp h
    obtain rfl : _ = resp' := congrArg Prod.fst (Except.ok.inj h)
    rfl

/-- Without callbacks one id is drawn for a request that has none. -/
theorem drawn_of_serve {lib : Library S} {rq : Request} {s s' : State S} {resp : ChannelResponse} (hid : rq.assignedId = "")
    (h : serve lib {} rq s = .ok (resp, s')) :
    s'.drawn = s.drawn ++ [s.drawId.1] ∧ s'.assignedIdCounter = s.assignedIdCounter + 1 := by
  have hcases := serve_cases h
  rw [assignId_eq_drawId hid] at hcases
  rcases hcases with ⟨-, -, rfl⟩ | ⟨r, action, -, -, hrun⟩
  · exact ⟨rfl, rfl⟩
  · obtain ⟨s₁, s₂, h₁, h₂, h₃⟩ := run_table hrun
    have hnone : action.callbacks {} = [] := by cases action <;> rfl
    rw [hnone] at h₂
    have hsame : SameTable s.drawId.2 s₂ := h₁.trans h₂
    rcases h₃ with rfl | ⟨a, rfl⟩
    · exact ⟨hsame.drawn, hsame.counter⟩
    · exact ⟨hsame.drawn, hsame.counter⟩

/-- The response to a request that has no id has the one drawn for it. -/
theorem assignedId_of_serve {lib : Library S} {env : Env} {rq : Request} {s s' : State S} {resp : ChannelResponse}
    (hid : rq.assignedId = "") (h : serve lib env rq s = .ok (resp, s')) : resp.assignedId = s.drawId.1 := by
  rw [← assignId_eq_drawId hid]
  rcases serve_cases h with ⟨-, rfl, -⟩ | ⟨r, action, -, -, hrun⟩
  · rfl
  · exact run_assignedId hrun

/-! ## The invariant -/

/-- The ids drawn are the texts of the first numbers; a key with a pointer is one of them and not the pending one, which is the
id of the request being served; and no pointer was replaced. -/
structure Ids (s : State S) (pending : Option String) : Prop where
  counter : s.assignedIdCounter = UInt64.ofNat s.drawn.length
  drawn : s.drawn = (List.range s.drawn.length).map toString
  stored : ∀ key a, s.entry key = some a → key ∈ s.drawn ∧ some key ≠ pending
  pending : ∀ key, pending = some key → key ∈ s.drawn
  overwritten : ∀ o ∈ s.overwritten, o = none

theorem Ids.start : Ids ({} : State S) none := by
  refine ⟨rfl, rfl, ?_, nofun, nofun⟩
  intro key a h
  cases h

/-- From the first state to the second ids are only added, and unless the counter wraps the invariant is kept, with a change of
the pending id, and every pointer stays under its key. -/
structure Keeps (pending pending' : Option String) (s s' : State S) : Prop where
  drawn : s.drawn <+: s'.drawn
  ids : s'.drawn.length ≤ 2 ^ 64 → Ids s pending → Ids s' pending'
  entry : s'.drawn.length ≤ 2 ^ 64 → Ids s pending → ∀ key a, s.entry key = some a → s'.entry key = some a

theorem Keeps.trans {p q r : Option String} {s s' s'' : State S} (h : Keeps p q s s') (h' : Keeps q r s' s'') :
    Keeps p r s s'' := by
  have hle : s''.drawn.length ≤ 2 ^ 64 → s'.drawn.length ≤ 2 ^ 64  := Nat.le_trans h'.drawn.length_le
  exact ⟨h.drawn.trans h'.drawn, fun hlen hi => h'.ids hlen (h.ids (hle hlen) hi),
    fun hlen hi key a ha => h'.entry hlen (h.ids (hle hlen) hi) key a (h.entry (hle hlen) hi key a ha)⟩

/-- What leaves the table as it is keeps everything. -/
theorem SameTable.keeps {s s' : State S} (h : SameTable s s') (p : Option String) : Keeps p p s s' := by
  refine ⟨h.drawn ▸ List.prefix_rfl, fun _ hi => ?_, fun _ _ key a ha => (h.entry key).trans ha⟩
  refine ⟨by rw [h.counter, h.drawn, hi.counter], by rw [h.drawn, ← hi.drawn], ?_, ?_, by rw [h.overwritten]; exact hi.overwritten⟩
  · intro key a ha
    rw [h.drawn]
    exact hi.stored key a ((h.entry key).symm.trans ha)
  · intro key hkey
    rw [h.drawn]
    exact hi.pending key hkey

/-- Without a request being served nothing is pending. -/
theorem Keeps.served (p : Option String) (s : State S) : Keeps p none s s :=
  ⟨List.prefix_rfl, fun _ hi => ⟨hi.counter, hi.drawn, fun key a ha => ⟨(hi.stored key a ha).1, nofun⟩, nofun, hi.overwritten⟩,
    fun _ _ _ _ ha => ha⟩

/-- The next id is the text of the number of ids drawn. -/
theorem Ids.drawId_fst {s : State S} {p : Option String} (h : Ids s p) (hlen : s.drawn.length < 2 ^ 64) :
    s.drawId.1 = toString s.drawn.length := by
  unfold State.drawId
  rw [h.counter, UInt64.toNat_ofNat_of_lt' hlen]

/-- The next id is new. -/
theorem Ids.drawId_not_mem {s : State S} {p : Option String} (h : Ids s p) (hlen : s.drawn.length < 2 ^ 64) :
    s.drawId.1 ∉ s.drawn := by
  rw [h.drawId_fst hlen, h.drawn]
  intro hmem
  obtain ⟨n, hn, heq⟩ := List.mem_map.mp hmem
  rw [List.length_map, List.length_range] at heq
  have := Decimals.toString_injective heq
  have := List.mem_range.mp hn
  omega

/-- Drawing an id keeps the rest. -/
theorem Ids.drawId {s : State S} {p : Option String} (h : Ids s p) (hlen : s.drawn.length < 2 ^ 64) :
    Ids s.drawId.2 p ∧ ∀ key a, s.entry key = some a → key ≠ s.drawId.1 := by
  have hlast : s.drawId.2.drawn = s.drawn ++ [toString s.drawn.length] := by
    rw [← h.drawId_fst hlen]
    rfl
  refine ⟨⟨?_, ?_, ?_, ?_, h.overwritten⟩, ?_⟩
  · rw [hlast, List.length_append, List.length_singleton]
    show s.assignedIdCounter + 1 = _
    rw [h.counter]
    exact (UInt64.ofNat_add _ _).symm
  · rw [hlast, List.length_append, List.length_singleton, List.range_succ, List.map_append, ← h.drawn]
    rfl
  · intro key a ha
    rw [hlast]
    exact ⟨List.mem_append_left _ (h.stored key a ha).1, (h.stored key a ha).2⟩
  · intro key hkey
    rw [hlast]
    exact List.mem_append_left _ (h.pending key hkey)
  · rintro key a ha rfl
    exact h.drawId_not_mem hlen (h.stored _ a ha).1

/-- Drawing an id adds one. -/
theorem length_lt_of_drawId {s : State S} {n : Nat} (h : s.drawId.2.drawn.length ≤ n) : s.drawn.length < n := by
  have hlen : s.drawId.2.drawn.length = s.drawn.length + 1 := by
    unfold State.drawId
    rw [List.length_append, List.length_singleton]
  omega

/-- The id drawn for a request is pending. -/
theorem Keeps.drawId (s : State S) : Keeps none (some s.drawId.1) s s.drawId.2 := by
  have hlen : s.drawId.2.drawn.length ≤ 2 ^ 64 → s.drawn.length < 2 ^ 64 := fun hle => length_lt_of_drawId hle
  refine ⟨List.prefix_append _ _, fun hle hi => ?_, fun _ _ key a ha => ha⟩
  obtain ⟨hids, hne⟩ := hi.drawId (hlen hle)
  refine ⟨hids.counter, hids.drawn, fun key a ha => ⟨(hids.stored key a ha).1, ?_⟩, ?_, hids.overwritten⟩
  · intro heq
    exact hne key a ha (Option.some.inj heq)
  · intro key hkey
    rw [← Option.some.inj hkey]
    exact List.mem_append_right _ List.mem_cons_self

/-- A pointer stored under the pending id replaces none. -/
theorem Keeps.store (s : State S) (key : String) (a : Addr) : Keeps (some key) none s (s.store key (some a)) := by
  refine ⟨List.prefix_rfl, ?_, ?_⟩
  · intro _ hi
    have hnone : s.entry key = none := by
      cases hkey : s.entry key with
      | none => rfl
      | some b => exact absurd rfl (hi.stored key b hkey).2
    refine ⟨hi.counter, hi.drawn, fun key' a' ha => ⟨?_, nofun⟩, nofun, fun o ho => ?_⟩
    · by_cases hk : key' = key
      · rw [hk]
        exact hi.pending key rfl
      · rw [store_entry_ne s _ hk] at ha
        exact (hi.stored key' a' ha).1
    · rw [store_overwritten] at ho
      rcases List.mem_append.mp ho with ho | ho
      · exact hi.overwritten o ho
      · rw [List.mem_singleton.mp ho, hnone]
  · intro _ hi key' a' ha
    have hne : key' ≠ key := by
      rintro rfl
      exact (hi.stored key' a' ha).2 rfl
    rw [store_entry_ne s _ hne, ha]

/-- A pointer registered under an id drawn for it replaces none, and is not stored under the pending id. -/
theorem Keeps.register (p : Option String) (s : State S) (ptr : Option Addr) :
    Keeps p p s (s.drawId.2.store s.drawId.1 ptr) := by
  have hlen : (s.drawId.2.store s.drawId.1 ptr).drawn.length ≤ 2 ^ 64 → s.drawn.length < 2 ^ 64 :=
    fun hle => length_lt_of_drawId hle
  refine ⟨List.prefix_append _ _, ?_, ?_⟩
  · intro hle hi
    obtain ⟨hids, hne⟩ := hi.drawId (hlen hle)
    refine ⟨hids.counter, hids.drawn, fun key a ha => ?_, hids.pending, fun o ho => ?_⟩
    · by_cases hk : key = s.drawId.1
      · rw [hk]
        refine ⟨List.mem_append_right _ List.mem_cons_self, fun heq => ?_⟩
        exact hi.drawId_not_mem (hlen hle) (hi.pending _ heq.symm)
      · rw [store_entry_ne _ _ hk] at ha
        exact hids.stored key a ha
    · rw [store_overwritten] at ho
      rcases List.mem_append.mp ho with ho | ho
      · exact hids.overwritten o ho
      · rw [List.mem_singleton.mp ho]
        cases hentry : s.drawId.2.entry s.drawId.1 with
        | none => rfl
        | some b => exact absurd rfl (hne _ b hentry)
  · intro hle hi key a ha
    rw [store_entry_ne _ _ ((hi.drawId (hlen hle)).2 key a ha)]
    exact ha

/-- A callback keeps everything. -/
theorem Keeps.doCallback (p : Option String) (methodName type : String) (args : List CallbackArg) (s : State S) :
    Keeps p p s (doCallback methodName type args s).2 := by
  induction args generalizing s with
  | nil => exact (SameTable.refl s).keeps p
  | cons arg args ih =>
    cases arg with
    | inplace value => exact ih s
    | persistence ptr => exact (Keeps.register p s ptr).trans (ih _)

/-- The callbacks of the library keep everything. -/
theorem Keeps.runCallbacks (p : Option String) (callbacks : List Callback) (s : State S) :
    Keeps p p s (runCallbacks callbacks s) := by
  induction callbacks generalizing s with
  | nil => exact (SameTable.refl s).keeps p
  | cons c callbacks ih => exact (Keeps.doCallback p c.methodName c.type c.args s).trans (ih _)

/-- Serving a request that has no id keeps everything. -/
theorem Keeps.serve {lib : Library S} {env : Env} {rq : Request} {s s' : State S} {resp : ChannelResponse}
    (hid : rq.assignedId = "") (h : serve lib env rq s = .ok (resp, s')) : Keeps none none s s' := by
  have hcases := serve_cases h
  rw [assignId_eq_drawId hid] at hcases
  refine (Keeps.drawId s).trans ?_
  rcases hcases with ⟨-, -, rfl⟩ | ⟨r, action, -, -, hrun⟩
  · exact Keeps.served _ _
  · obtain ⟨s₁, s₂, h₁, h₂, h₃⟩ := run_table hrun
    have hkeeps := ((h₁.keeps _).trans (Keeps.runCallbacks (some s.drawId.1) _ s₁)).trans (h₂.keeps _)
    rcases h₃ with rfl | ⟨a, rfl⟩
    · exact hkeeps.trans (Keeps.served _ _)
    · exact hkeeps.trans (Keeps.store _ _ a)

end LibraryLink.Cpp.Process
