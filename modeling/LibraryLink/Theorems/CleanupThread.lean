import LibraryLink.CleanupThread
import LibraryLink.General.Runs

/-!
# When the cleanup thread deletes what is in use

All responses have the empty assigned id, so all handles that are bound share it, and the first reference that the thread takes
deletes the id of all of them. This goes well as long as no two handles that are bound are alive one after the other without the
deletion in between.
-/

namespace LibraryLink.Kotlin

open Relation

/-! ## The condition -/

/-- A reference whose handle is unreachable, and whose message was not sent yet. -/
def Client.Pending (c : Client) (reference : Nat) : Prop :=
  ∃ ref h, c.references[reference]? = some ref ∧ c.handles[ref.handle]? = some h ∧ h.reachable = false ∧
    (ref.enqueued = false ∨ reference ∈ c.refqueue)

/-- A handle that is bound becomes unreachable only when no other one that is bound is reachable, and a handle is bound only when no
reference of an unreachable handle waits for its message. -/
def Client.Allowed (c : Client) : ClientAction → Prop
  | .drop handle => ∀ h, c.handles[handle]? = some h → h.reachable = true → h.assignedID ≠ none →
      ∀ other h', other ≠ handle → c.handles[other]? = some h' → h'.reachable = true → h'.assignedID = none
  | .bindTo _ _ => ∀ reference, ¬c.Pending reference
  | _ => True

/-- A step of any kind. -/
def ClientStep (c c' : Client) : Prop := ∃ a, c.step a = some c'

/-- A step that meets the condition. -/
def AllowedClientStep (c c' : Client) : Prop := ∃ a, c.step a = some c' ∧ c.Allowed a

/-! ## Live handles -/

theorem Client.live_eq_nil_iff (c : Client) :
    c.live = [] ↔ ∀ (i : Nat) (h : HandleObject), c.handles[i]? = some h → h.reachable = true → h.assignedID = none := by
  unfold Client.live
  rw [List.filterMap_eq_nil_iff]
  constructor
  · intro hall i h hget hreachable
    have := hall h (List.mem_of_getElem? hget)
    rwa [if_pos hreachable] at this
  · intro hall h hmem
    obtain ⟨i, hget⟩ := List.getElem?_of_mem hmem
    by_cases hreachable : h.reachable = true
    · rw [if_pos hreachable]
      exact hall i h hget hreachable
    · rw [if_neg hreachable]

/-! ## The invariant -/

/-- Every reference is of a handle that is bound, every one in the queue is of an unreachable handle, and while a reference waits for
its message no handle that is bound is alive. -/
structure Client.Inv (c : Client) : Prop where
  bound : ∀ ref ∈ c.references, ∃ h, c.handles[ref.handle]? = some h ∧ h.assignedID ≠ none
  queued : ∀ i ∈ c.refqueue, c.Pending i
  alone : ∀ i, c.Pending i → c.live = []
  safe : c.Safe

theorem Client.Inv.start : Client.Inv {} := by
  refine ⟨List.forall_mem_nil _, List.forall_mem_nil _, ?_, List.forall_mem_nil _⟩
  rintro i ⟨ref, h, href, -⟩
  cases href

/-- A new handle changes nothing. -/
theorem Client.Inv.create {c : Client} (hi : c.Inv) : Client.Inv { c with handles := c.handles ++ [{}] } := by
  have hlive : Client.live { c with handles := c.handles ++ [{}] } = c.live := by
    simp [Client.live]
  have hpending : ∀ i, Client.Pending { c with handles := c.handles ++ [{}] } i → c.Pending i := by
    rintro i ⟨ref, h, href, hget, hreachable, hwaits⟩
    rcases Nat.lt_or_ge ref.handle c.handles.length with hlt | hge
    · rw [List.getElem?_append_left hlt] at hget
      exact ⟨ref, h, href, hget, hreachable, hwaits⟩
    · rw [List.getElem?_append_right hge] at hget
      obtain rfl := List.mem_singleton.mp (List.mem_of_getElem? hget)
      cases hreachable
  refine ⟨?_, ?_, ?_, hi.safe⟩
  · intro ref href
    obtain ⟨h, hget, hbound⟩ := hi.bound ref href
    exact ⟨h, (List.getElem?_append_left (List.getElem?_eq_some_iff.mp hget).1).trans hget, hbound⟩
  · intro i hmem
    obtain ⟨ref, h, href, hget, hwaits⟩ := hi.queued i hmem
    exact ⟨ref, h, href, (List.getElem?_append_left (List.getElem?_eq_some_iff.mp hget).1).trans hget, hwaits⟩
  · intro i hwaits
    rw [hlive]
    exact hi.alone i (hpending i hwaits)

/-- A handle after another one, or itself, was changed. -/
theorem getElem?_set_cases {handles : List HandleObject} {k i : Nat} {h h' : HandleObject}
    (hget : (handles.set k h')[i]? = some h) : (i = k ∧ h = h') ∨ (i ≠ k ∧ handles[i]? = some h) := by
  by_cases hik : i = k
  · subst hik
    rw [List.getElem?_set_self (by simpa using (List.getElem?_eq_some_iff.mp hget).1)] at hget
    exact Or.inl ⟨rfl, (Option.some.inj hget).symm⟩
  · rw [List.getElem?_set_ne (Ne.symm hik)] at hget
    exact Or.inr ⟨hik, hget⟩

/-- The handle of an index after a change of one that keeps what is bound, bound. -/
theorem exists_getElem?_set {handles : List HandleObject} {k i : Nat} {h h' : HandleObject} {p : HandleObject → Prop}
    (hget : handles[i]? = some h) (hp : p h) (hk : i = k → p h') : ∃ h₁, (handles.set k h')[i]? = some h₁ ∧ p h₁ := by
  by_cases hik : i = k
  · subst hik
    exact ⟨h', List.getElem?_set_self (List.getElem?_eq_some_iff.mp hget).1, hk rfl⟩
  · exact ⟨h, (List.getElem?_set_ne (Ne.symm hik)).trans hget, hp⟩

/-- A handle is bound where no reference waits. -/
theorem Client.Inv.bindTo {c : Client} (hi : c.Inv) {handle : Nat} {h : HandleObject} {id : String}
    (hget : c.handles[handle]? = some h) (hreachable : h.reachable = true) (hnone : ∀ i, ¬c.Pending i) :
    Client.Inv { c with handles := c.handles.set handle { h with assignedID := some id },
                        references := c.references ++ [{ handle, assignedID := id }] } := by
  have hqueue : c.refqueue = [] := List.eq_nil_iff_forall_not_mem.mpr fun i hmem => hnone i (hi.queued i hmem)
  have hnone' : ∀ i, ¬Client.Pending { c with handles := c.handles.set handle { h with assignedID := some id },
                                              references := c.references ++ [{ handle, assignedID := id }] } i := by
    rintro i ⟨ref, h₁, href, hget₁, hun, hwaits⟩
    rcases getElem?_set_cases hget₁ with ⟨-, rfl⟩ | ⟨hne, hget₁⟩
    · exact absurd (hreachable.symm.trans hun) Bool.noConfusion
    · rcases Nat.lt_or_ge i c.references.length with hlt | hge
      · exact hnone i ⟨ref, h₁, (List.getElem?_append_left hlt).symm.trans href, hget₁, hun, hwaits⟩
      · have hnew : ref ∈ [({ handle, assignedID := id } : PhantomReference)] :=
          List.mem_of_getElem? ((List.getElem?_append_right hge).symm.trans href)
        rw [List.mem_singleton.mp hnew] at hne
        exact hne rfl
  refine ⟨?_, ?_, fun i hwaits => absurd hwaits (hnone' i), hi.safe⟩
  · intro ref href
    rcases List.mem_append.mp href with href | hnew
    · obtain ⟨h₁, hget₁, hbound⟩ := hi.bound ref href
      exact exists_getElem?_set (p := fun h => h.assignedID ≠ none) hget₁ hbound fun _ => Option.some_ne_none id
    · rw [List.mem_singleton.mp hnew]
      exact ⟨_, List.getElem?_set_self (List.getElem?_eq_some_iff.mp hget).1, Option.some_ne_none id⟩
  · intro i hmem
    replace hmem : i ∈ c.refqueue := hmem
    rw [hqueue] at hmem
    cases hmem

/-- A handle becomes unreachable where no other one that is bound is reachable. -/
theorem Client.Inv.drop {c : Client} (hi : c.Inv) {handle : Nat} {h : HandleObject} (hget : c.handles[handle]? = some h)
    (hallowed : c.Allowed (.drop handle)) :
    Client.Inv { c with handles := c.handles.set handle { h with reachable := false } } := by
  refine ⟨?_, ?_, ?_, hi.safe⟩
  · intro ref href
    obtain ⟨h₁, hget₁, hbound⟩ := hi.bound ref href
    refine exists_getElem?_set (p := fun h => h.assignedID ≠ none) hget₁ hbound fun heq => ?_
    obtain rfl := Option.some.inj (hget₁.symm.trans (heq ▸ hget))
    exact hbound
  · intro i hmem
    obtain ⟨ref, h₁, href, hget₁, hun, hwaits⟩ := hi.queued i hmem
    have hafter : ∃ h₂, (c.handles.set handle { h with reachable := false })[ref.handle]? = some h₂ ∧ h₂.reachable = false :=
      exists_getElem?_set (p := fun h => h.reachable = false) hget₁ hun fun _ => rfl
    obtain ⟨h₂, hget₂, hun₂⟩ := hafter
    exact ⟨ref, h₂, href, hget₂, hun₂, hwaits⟩
  · rintro i ⟨ref, h₁, href, hget₁, hun, hwaits⟩
    rw [Client.live_eq_nil_iff]
    intro j h₂ hget₂ hreachable₂
    rcases getElem?_set_cases hget₂ with ⟨-, rfl⟩ | ⟨hne, hother⟩
    · cases hreachable₂
    · rcases getElem?_set_cases hget₁ with ⟨heq, rfl⟩ | ⟨-, hget₁⟩
      · -- The reference is one of the handle that becomes unreachable, or that was so before.
        obtain ⟨h₃, hget₃, hbound⟩ := hi.bound ref (List.mem_of_getElem? href)
        obtain rfl := Option.some.inj (hget₃.symm.trans (heq ▸ hget))
        by_cases hreachable : h₃.reachable = true
        · exact hallowed h₃ hget hreachable hbound j h₂ hne hother hreachable₂
        · have hwas : c.Pending i := ⟨ref, h₃, href, hget₃, Bool.eq_false_iff.mpr hreachable, hwaits⟩
          exact c.live_eq_nil_iff.mp (hi.alone i hwas) j h₂ hother hreachable₂
      · exact c.live_eq_nil_iff.mp (hi.alone i ⟨ref, h₁, href, hget₁, hun, hwaits⟩) j h₂ hother hreachable₂

/-- A reference of an unreachable handle is put into the queue. -/
theorem Client.Inv.enqueue {c : Client} (hi : c.Inv) {reference : Nat} {ref : PhantomReference} {h : HandleObject}
    (href : c.references[reference]? = some ref) (hget : c.handles[ref.handle]? = some h) (hun : h.reachable = false)
    (henqueued : ref.enqueued = false) :
    Client.Inv { c with references := c.references.set reference { ref with enqueued := true },
                        refqueue := c.refqueue ++ [reference] } := by
  have hlt := (List.getElem?_eq_some_iff.mp href).1
  have hpending : ∀ i, Client.Pending { c with references := c.references.set reference { ref with enqueued := true },
                                               refqueue := c.refqueue ++ [reference] } i → c.Pending i := by
    rintro i ⟨ref₁, h₁, href₁, hget₁, hun₁, hwaits⟩
    by_cases heq : i = reference
    · subst heq
      exact ⟨ref, h, href, hget, hun, Or.inl henqueued⟩
    · replace href₁ : c.references[i]? = some ref₁ := (List.getElem?_set_ne (Ne.symm heq)).symm.trans href₁
      refine ⟨ref₁, h₁, href₁, hget₁, hun₁, hwaits.imp_right fun hmem => ?_⟩
      exact (List.mem_append.mp hmem).resolve_right fun hnew => heq (List.mem_singleton.mp hnew)
  refine ⟨?_, ?_, fun i hwaits => hi.alone i (hpending i hwaits), hi.safe⟩
  · intro ref₁ hmem
    rcases List.mem_or_eq_of_mem_set hmem with hmem | rfl
    · exact hi.bound ref₁ hmem
    · exact hi.bound ref (List.mem_of_getElem? href)
  · intro i hmem
    by_cases heq : i = reference
    · subst heq
      exact ⟨_, h, List.getElem?_set_self hlt, hget, hun, Or.inr hmem⟩
    · obtain ⟨ref₁, h₁, href₁, hget₁, hun₁, -⟩ :=
        hi.queued i ((List.mem_append.mp hmem).resolve_right fun hnew => heq (List.mem_singleton.mp hnew))
      exact ⟨ref₁, h₁, (List.getElem?_set_ne (Ne.symm heq)).trans href₁, hget₁, hun₁, Or.inr hmem⟩

/-- The thread takes a reference from the queue: no handle that is bound is alive. -/
theorem Client.Inv.cleanup {c : Client} (hi : c.Inv) {reference : Nat} {refqueue : List Nat} {running : Bool}
    {ref : PhantomReference} (hqueue : c.refqueue = reference :: refqueue) :
    Client.Inv { c with refqueue, running, deletions := c.deletions ++ [{ assignedID := ref.assignedID, live := c.live }] } := by
  have hlive : c.live = [] := hi.alone reference (hi.queued reference (hqueue ▸ List.mem_cons_self))
  refine ⟨hi.bound, ?_, fun i hwaits => hlive, ?_⟩
  · intro i hmem
    obtain ⟨ref₁, h₁, href₁, hget₁, hun₁, -⟩ := hi.queued i (hqueue ▸ List.mem_cons_of_mem _ hmem)
    exact ⟨ref₁, h₁, href₁, hget₁, hun₁, Or.inr hmem⟩
  · intro d hd
    rcases List.mem_append.mp hd with hd | hd
    · exact hi.safe d hd
    · rw [List.mem_singleton.mp hd]
      show ref.assignedID ∉ c.live
      rw [hlive]
      exact List.not_mem_nil

/-- A step that meets the condition keeps the invariant. -/
theorem Client.Inv.step {c c' : Client} (hi : c.Inv) (hs : AllowedClientStep c c') : c'.Inv := by
  obtain ⟨a, hs, hallowed⟩ := hs
  cases a with
  | request channelResponse =>
    simp only [Client.step] at hs
    split at hs
    · obtain rfl := Option.some.inj hs
      exact ⟨hi.bound, hi.queued, hi.alone, hi.safe⟩
    · obtain rfl := Option.some.inj hs
      exact hi
  | create =>
    obtain rfl := Option.some.inj hs
    exact hi.create
  | bindTo response handle =>
    simp only [Client.step] at hs
    split at hs
    · split at hs
      · rename_i r h hr hget hreachable
        obtain rfl := Option.some.inj hs
        exact hi.bindTo hget hreachable hallowed
      · cases hs
    · cases hs
  | drop handle =>
    simp only [Client.step] at hs
    split at hs
    · rename_i h hget
      obtain rfl := Option.some.inj hs
      exact hi.drop hget hallowed
    · cases hs
  | enqueue reference =>
    simp only [Client.step] at hs
    split at hs
    · rename_i ref href
      split at hs
      · rename_i h hget
        split at hs
        · rename_i hun
          obtain rfl := Option.some.inj hs
          exact hi.enqueue href hget hun.1 hun.2
        · cases hs
      · cases hs
    · cases hs
  | cleanup throws =>
    simp only [Client.step] at hs
    split at hs
    · rename_i reference refqueue hrunning hqueue
      split at hs
      · obtain rfl := Option.some.inj hs
        exact hi.cleanup hqueue
      · cases hs
    · cases hs

/-! ## Runs -/

/-- In every run in which a handle that is bound becomes unreachable only when no other one is reachable, and none is bound while a
reference of an unreachable one waits for its message: a message to delete an id is sent only when no live handle has that id. -/
theorem safe_of_allowed {c : Client} (h : ReflTransGen AllowedClientStep {} c) : c.Safe :=
  (Runs.invariant (fun _ _ hi hs => hi.step hs) h Client.Inv.start).safe

/-- A response and a handle for it. -/
def answered : Client where
  responses := [.primitive .null ""]
  handles := [{}]

/-- The handle was bound. -/
def boundOne : Client where
  responses := [.primitive .null ""]
  handles := [{ assignedID := some "" }]
  references := [{ handle := 0, assignedID := "" }]

/-- The handle was collected, and the message sent. -/
def deletedOne : Client where
  responses := [.primitive .null ""]
  handles := [{ assignedID := some "", reachable := false }]
  references := [{ handle := 0, assignedID := "", enqueued := true }]
  deletions := [{ assignedID := "", live := [] }]

/-- The rule at a run with one handle. -/
theorem safe_of_allowed_one : ReflTransGen AllowedClientStep {} deletedOne ∧ deletedOne.Safe := by
  have hrequest : AllowedClientStep {} { responses := [.primitive .null ""] } := ⟨.request {}, rfl, trivial⟩
  have hcreate : AllowedClientStep { responses := [.primitive .null ""] } answered := ⟨.create, rfl, trivial⟩
  have hbind : AllowedClientStep answered boundOne := by
    refine ⟨.bindTo 0 0, rfl, ?_⟩
    rintro reference ⟨ref, h, href, -⟩
    cases href
  have hdrop : AllowedClientStep boundOne { boundOne with handles := [{ assignedID := some "", reachable := false }] } := by
    refine ⟨.drop 0, rfl, ?_⟩
    intro h _ _ _ other h' hne hget _
    rcases other with _ | other
    · exact absurd rfl hne
    · cases hget
  have henqueue : AllowedClientStep { boundOne with handles := [{ assignedID := some "", reachable := false }] }
      { deletedOne with refqueue := [0], deletions := [] } := ⟨.enqueue 0, rfl, trivial⟩
  have hcleanup : AllowedClientStep { deletedOne with refqueue := [0], deletions := [] } deletedOne :=
    ⟨.cleanup false, rfl, trivial⟩
  have h : ReflTransGen AllowedClientStep {} deletedOne :=
    .head hrequest (.head hcreate (.head hbind (.head hdrop (.head henqueue (.single hcleanup)))))
  exact ⟨h, safe_of_allowed h⟩

/-- The steps of a run are steps. -/
theorem run_of_actions {actions : List ClientAction} {c c' : Client} (h : actions.foldlM Client.step c = some c') :
    ReflTransGen ClientStep c c' := by
  induction actions generalizing c with
  | nil =>
    obtain rfl := Option.some.inj h
    exact .refl
  | cons a actions ih =>
    rw [List.foldlM_cons] at h
    obtain ⟨c₁, hs, h⟩ := Option.bind_eq_some_iff.mp h
    exact .head ⟨a, hs⟩ (ih h)

/-- Two handles are bound to the responses of two requests, and the first one is collected. -/
def collectFirst : List ClientAction :=
  [.request {}, .create, .bindTo 0 0, .request {}, .create, .bindTo 1 1, .drop 0, .enqueue 0, .cleanup false]

/-- The message to delete the empty id is sent while the second handle has it. -/
theorem not_safe : ∃ c, ReflTransGen ClientStep {} c ∧ c.deletions = [{ assignedID := "", live := [""] }] ∧ ¬c.Safe := by
  have hrun : collectFirst.foldlM Client.step {} = some _ := rfl
  refine ⟨_, run_of_actions hrun, rfl, ?_⟩
  intro hsafe
  exact hsafe _ List.mem_cons_self List.mem_cons_self

end LibraryLink.Kotlin
