import LibraryLink.PersistenceKeys
import LibraryLink.General.Decimals
import LibraryLink.General.Runs

/-!
# What a name in the persistence denotes

`Inv` is what holds in all runs that leave the module's variables alone: these are there, and a name that begins like those of the
counter is one of those that the counter has made. So the next one is new (`Inv.fresh`), and what a call answers is the first name of
the object, or this new one (`callbackArgument_cases`).
-/

namespace LibraryLink.Python.PersistenceKeys

open Relation

/-! ## Names of the counter -/

/-- The counter makes each name once. -/
theorem newKey_injective {n n' : Nat} (h : newKey n = newKey n') : n = n' := by
  have hlists : "callback_var".toList ++ (toString n).toList = "callback_var".toList ++ (toString n').toList := by
    rw [← String.toList_append, ← String.toList_append]
    exact congrArg String.toList h
  exact Decimals.toString_injective (String.toList_inj.mp (List.append_cancel_left hlists))

/-- The names of the counter begin alike. -/
theorem isPrefix_newKey (n : Nat) : "callback_var".toList <+: (newKey n).toList := by
  rw [newKey, String.toList_append]
  exact List.prefix_append _ _

/-! ## The invariant -/

/-- The module's variables are there, and the names that begin like those of the counter are of the counter. -/
structure Inv (s : State) : Prop where
  globals : ∀ name ∈ usedGlobals, (s.globals.get name).isSome = true
  keys : ∀ name value, s.persistence.get name = some value → "callback_var".toList <+: name.toList →
    ∃ n < s.callbackIndex, name = newKey n

/-- The next name of the counter is new. -/
theorem Inv.fresh {s : State} (h : Inv s) : s.persistence.get (newKey s.callbackIndex) = none := by
  refine Option.eq_none_iff_forall_ne_some.mpr fun value hvalue => ?_
  obtain ⟨n, hn, hname⟩ := h.keys _ _ hvalue (isPrefix_newKey _)
  exact absurd (newKey_injective hname) (Nat.ne_of_gt hn)

/-- A variable of the module that the methods use is found. -/
theorem Inv.lookupGlobal_eq {s : State} (h : Inv s) {name : String} (hname : name ∈ usedGlobals) : lookupGlobal name s = .ok () :=
  if_pos (h.globals name hname)

/-- As long as the variables of the module are there, `callback_argument` is what it is without them. -/
theorem Inv.callbackArgument_eq {s : State} (h : Inv s) (arg : Value) :
    callbackArgument arg s = (.ok (Python.callbackArgument arg s).1, (Python.callbackArgument arg s).2) := by
  have hbuiltins : lookupGlobal "__builtins__" s = .ok () := h.lookupGlobal_eq (by decide)
  have hreceiver : lookupGlobal "RequestsReceiver" s = .ok () := h.lookupGlobal_eq (by decide)
  have hlogging : lookupGlobal "logging" s = .ok () := h.lookupGlobal_eq (by decide)
  -- the counter is advanced before `logging` is looked up
  have hlogging' : lookupGlobal "logging" { s with callbackIndex := s.callbackIndex + 1 } = .ok () := hlogging
  unfold callbackArgument Python.callbackArgument
  rw [hbuiltins, hreceiver, hlogging]
  cases arg with
  | object id =>
    cases s.persistence.items.find? fun e => decide (e.2 = Value.object id) with
    | some e => rfl
    | none =>
      simp only [hlogging']
      rfl
  | int n => rfl
  | bool b => rfl
  | str t => rfl

/-- What a call does: a number or a text is answered as it is, an object by its first name, or by a new one, which it is given. -/
theorem callbackArgument_cases {s : State} (h : Inv s) (arg : Value) :
    ((∀ id, arg ≠ .object id) ∧ callbackArgument arg s = (.ok { value := arg, type := .inplace }, s)) ∨
      ((∃ id, arg = .object id) ∧ ∃ key, (s.persistence.having arg).head? = some (key, arg) ∧
        callbackArgument arg s = (.ok { value := .str key, type := .persistence }, s)) ∨
      ((∃ id, arg = .object id) ∧ (∀ name, s.persistence.get name ≠ some arg) ∧
        callbackArgument arg s = (.ok { value := .str (newKey s.callbackIndex), type := .persistence },
          { s with persistence := s.persistence.set (newKey s.callbackIndex) arg, callbackIndex := s.callbackIndex + 1 })) := by
  rw [h.callbackArgument_eq]
  unfold Python.callbackArgument
  cases arg with
  | object id =>
    right
    cases hfind : s.persistence.items.find? fun e => decide (e.2 = Value.object id) with
    | some e =>
      have hvalue : e.2 = .object id :=
        of_decide_eq_true (List.find?_some (p := fun e : String × Value => decide (e.2 = Value.object id)) hfind)
      have hhead : (s.persistence.having (.object id)).head? = some e := List.head?_filter.trans hfind
      exact Or.inl ⟨⟨id, rfl⟩, e.1, hhead.trans (congrArg some (Prod.ext rfl hvalue)), rfl⟩
    | none =>
      refine Or.inr ⟨⟨id, rfl⟩, fun name hname => ?_, rfl⟩
      exact List.find?_eq_none.mp hfind _ (Table.get_eq_some_iff.mp hname) (decide_eq_true rfl)
  | int n => exact Or.inl ⟨fun id => Value.noConfusion, rfl⟩
  | bool b => exact Or.inl ⟨fun id => Value.noConfusion, rfl⟩
  | str t => exact Or.inl ⟨fun id => Value.noConfusion, rfl⟩

/-! ## Steps -/

/-- What an action does to the persistence: nothing, an assignment, or a deletion. -/
theorem perform_persistence (s : State) (action : Action) :
    (action.perform s).persistence = s.persistence ∨
      (∃ key value, (action.perform s).persistence = s.persistence.set key value) ∨
      ∃ key, (action.perform s).persistence = s.persistence.del key := by
  cases action with
  | call arg =>
    simp only [Action.perform, callbackArgument]
    repeat' split
    all_goals first
      | exact Or.inl rfl
      | exact Or.inr (Or.inl ⟨_, _, rfl⟩)
  | assign name value => exact Or.inr (Or.inl ⟨name, value, rfl⟩)
  | delete name =>
    simp only [Action.perform, deleteFromPersistence, Python.deleteFromPersistence]
    repeat' split
    all_goals first
      | exact Or.inl rfl
      | exact Or.inr (Or.inr ⟨_, rfl⟩)

/-- A step that leaves the names of an object as they are leaves their order. -/
theorem having_step {allowed : State → Action → Prop} {arg : Value} {s s' : State} (h : Step allowed s s')
    (hsame : SameNames arg s s') : s'.persistence.having arg = s.persistence.having arg := by
  obtain ⟨action, -, rfl⟩ := h
  rcases perform_persistence s action with hp | ⟨key, value, hp⟩ | ⟨key, hp⟩
  · rw [hp]
  · rw [hp]
    refine Table.having_set ?_
    rw [hsame key, hp, Table.get_set_self, Option.some.injEq]
  · rw [hp]
    refine Table.having_del ?_
    rw [Ne, hsame key, hp, Table.get_del_self]
    exact fun hnone => by cases hnone

/-- The counter does not go back. -/
theorem callbackIndex_le_of_step {allowed : State → Action → Prop} {s s' : State} (h : Step allowed s s') :
    s.callbackIndex ≤ s'.callbackIndex := by
  obtain ⟨action, -, rfl⟩ := h
  cases action with
  | call arg =>
    simp only [Action.perform, callbackArgument]
    repeat' split
    all_goals first
      | exact Nat.le_refl _
      | exact Nat.le_succ _
  | assign name value => exact Nat.le_refl _
  | delete name =>
    simp only [Action.perform, deleteFromPersistence, Python.deleteFromPersistence]
    repeat' split
    all_goals exact Nat.le_refl _

/-- An assignment of a name that is not like those of the counter, or of the next of these, keeps the invariant. -/
theorem Inv.assign {s : State} (h : Inv s) {name : String} {value : Value} {callbackIndex : Nat}
    (hindex : s.callbackIndex ≤ callbackIndex)
    (hname : "callback_var".toList <+: name.toList → ∃ n < callbackIndex, name = newKey n) :
    Inv { s with persistence := s.persistence.set name value, callbackIndex } := by
  refine ⟨h.globals, fun key v hget hkey => ?_⟩
  by_cases heq : key = name
  · exact heq ▸ hname (heq ▸ hkey)
  · have hold : s.persistence.get key = some v := (Table.get_set_of_ne _ _ heq).symm.trans hget
    obtain ⟨n, hn, rfl⟩ := h.keys key v hold hkey
    exact ⟨n, Nat.lt_of_lt_of_le hn hindex, rfl⟩

/-- A deletion that does not take a variable of the module that the methods use keeps the invariant. -/
theorem Inv.delete {s : State} (h : Inv s) {name : String}
    (hname : name ∈ usedGlobals → (s.persistence.get name).isSome = true) : Inv (Python.deleteFromPersistence name s) := by
  unfold Python.deleteFromPersistence
  split
  · refine ⟨h.globals, fun key v hget hkey => ?_⟩
    have hne : key ≠ name := by
      rintro rfl
      rw [Table.get_del_self] at hget
      cases hget
    exact h.keys key v ((Table.get_del_of_ne _ hne).symm.trans hget) hkey
  · rename_i hnot
    split
    · refine ⟨fun key hkey => ?_, h.keys⟩
      have hne : key ≠ name := fun heq => hnot (hname (heq ▸ hkey))
      rw [Table.get_del_of_ne _ hne]
      exact h.globals key hkey
    · exact h

/-- An action that spares the module's variables keeps the invariant. -/
theorem Inv.step {s s' : State} (h : Inv s) (hstep : Step SparesGlobals s s') : Inv s' := by
  obtain ⟨action, ⟨hclient, hspares⟩, rfl⟩ := hstep
  cases action with
  | call arg =>
    rcases callbackArgument_cases h arg with ⟨-, heq⟩ | ⟨-, key, -, heq⟩ | ⟨-, -, heq⟩
    · rw [Action.perform, heq]
      exact h
    · rw [Action.perform, heq]
      exact h
    · rw [Action.perform, heq]
      exact h.assign (Nat.le_succ _) fun _ => ⟨s.callbackIndex, Nat.lt_succ_self _, rfl⟩
  | assign name value => exact h.assign (Nat.le_refl _) fun hbegins => absurd hbegins hclient
  | delete name =>
    have hdelete : deleteFromPersistence name s = (.ok (), Python.deleteFromPersistence name s) := by
      rw [deleteFromPersistence, h.lookupGlobal_eq (by decide), h.lookupGlobal_eq (by decide)]
    rw [Action.perform, hdelete]
    exact h.delete fun hname => hspares name hname rfl

/-! ## Calls -/

/-- The first name of an object that has one name. -/
theorem head?_having {d : Dict} {arg : Value} {key : String} (h : ∀ name, d.get name = some arg ↔ name = key) :
    (d.having arg).head? = some (key, arg) := by
  have hmem : (key, arg) ∈ d.having arg := Table.mem_having_iff.mpr ((h key).mpr rfl)
  cases hlist : d.having arg with
  | nil =>
    rw [hlist] at hmem
    cases hmem
  | cons e rest =>
    have he : e ∈ d.having arg := hlist ▸ List.mem_cons_self
    have hvalue : e.2 = arg := of_decide_eq_true (List.mem_filter.mp he).2
    have hkey : e.1 = key := (h e.1).mp (Table.mem_having_iff.mp (hvalue ▸ he))
    exact congrArg some (Prod.ext hkey hvalue)

/-- What is answered with the type `persistence` is the first name of the object in the state that the call leaves. -/
theorem answered {s : State} (h : Inv s) {arg : Value} {entry : Entry} (hanswer : (callbackArgument arg s).1 = .ok entry)
    (htype : entry.type = .persistence) :
    (∃ id, arg = .object id) ∧ ∃ key, entry = { value := .str key, type := .persistence } ∧
      ((callbackArgument arg s).2.persistence.having arg).head? = some (key, arg) := by
  rcases callbackArgument_cases h arg with ⟨-, heq⟩ | ⟨hobject, key, hhead, heq⟩ | ⟨hobject, hnone, heq⟩
  · rw [heq] at hanswer
    cases hanswer
    cases htype
  · rw [heq] at hanswer ⊢
    exact ⟨hobject, key, (Except.ok.inj hanswer).symm, hhead⟩
  · rw [heq] at hanswer ⊢
    refine ⟨hobject, newKey s.callbackIndex, (Except.ok.inj hanswer).symm, head?_having fun name => ?_⟩
    constructor
    · intro hname
      by_contra hne
      exact hnone name ((Table.get_set_of_ne _ _ hne).symm.trans hname)
    · rintro rfl
      exact Table.get_set_self _ _ _

/-- The first name of an object is answered for it. -/
theorem answer_of_head? {s : State} (h : Inv s) {id : Nat} {key : String}
    (hhead : (s.persistence.having (.object id)).head? = some (key, .object id)) :
    (callbackArgument (.object id) s).1 = .ok { value := .str key, type := .persistence } := by
  rcases callbackArgument_cases h (.object id) with ⟨hnot, -⟩ | ⟨-, key', hhead', heq⟩ | ⟨-, hnone, -⟩
  · exact absurd rfl (hnot id)
  · rw [hhead] at hhead'
    rw [heq, (Prod.mk.inj (Option.some.inj hhead')).1]
  · exact absurd (Table.mem_having_iff.mp (List.mem_of_head? hhead)) (hnone key)

/-- A call binds no name anew that was there. -/
theorem get_of_call {s : State} (h : Inv s) (arg : Value) {name : String} {value : Value}
    (hname : s.persistence.get name = some value) : (callbackArgument arg s).2.persistence.get name = some value := by
  rcases callbackArgument_cases h arg with ⟨-, heq⟩ | ⟨-, key, -, heq⟩ | ⟨-, -, heq⟩
  · rw [heq]
    exact hname
  · rw [heq]
    exact hname
  · rw [heq]
    have hne : name ≠ newKey s.callbackIndex := by
      rintro rfl
      rw [h.fresh] at hname
      cases hname
    exact (Table.get_set_of_ne _ _ hne).trans hname

/-- A name that is given to an object is the next of the counter, and this goes on. -/
theorem Generates.eq_newKey {s : State} (h : Inv s) {arg : Value} {key : String} (hkey : Generates arg s key) :
    key = newKey s.callbackIndex ∧ (callbackArgument arg s).2.callbackIndex = s.callbackIndex + 1 := by
  obtain ⟨hanswer, hnone⟩ := hkey
  rcases callbackArgument_cases h arg with ⟨-, heq⟩ | ⟨-, key', hhead, -⟩ | ⟨-, -, heq⟩
  · rw [heq] at hanswer
    cases hanswer
  · exact absurd (Table.mem_having_iff.mp (List.mem_of_head? hhead)) (hnone key')
  · rw [heq] at hanswer ⊢
    cases hanswer
    exact ⟨rfl, rfl⟩

/-! ## Runs -/

/-- The invariant holds in all runs that spare the module's variables. -/
theorem Inv.run {s s' : State} (h : Inv s) (hrun : ReflTransGen (Step SparesGlobals) s s') : Inv s' :=
  Runs.invariant (fun _ _ hinv hstep => hinv.step hstep) hrun h

/-- A call is a step that spares the module's variables. -/
theorem step_call (s : State) (arg : Value) : Step SparesGlobals s (callbackArgument arg s).2 :=
  ⟨.call arg, ⟨trivial, fun _ _ hdelete => by cases hdelete⟩, rfl⟩

/-- A run that leaves the names of an object as they are leaves their order. -/
theorem having_run {allowed : State → Action → Prop} {arg : Value} {s s' : State}
    (h : ReflTransGen (fun a b => Step allowed a b ∧ SameNames arg a b) s s') :
    s'.persistence.having arg = s.persistence.having arg :=
  Runs.grows (r := fun a b : State => b.persistence.having arg = a.persistence.having arg) (fun _ => rfl)
    (fun _ _ _ hab hbc => hbc.trans hab) (fun _ _ hstep => having_step hstep.1 hstep.2) h

/-- The module's variables are there when it is loaded, and nothing has a name. -/
theorem Inv.start {g : Dict} (hg : ∀ name ∈ usedGlobals, (g.get name).isSome = true) : Inv { globals := g } :=
  ⟨hg, fun _ _ hget => by cases hget⟩

/-- In all runs that spare the module's variables, names are right. -/
theorem right_of_globals {g : Dict} (hg : ∀ name ∈ usedGlobals, (g.get name).isSome = true) :
    Right SparesGlobals { globals := g } where
  denotes s arg entry hrun hanswer htype := by
    obtain ⟨-, key, rfl, hhead⟩ := answered ((Inv.start hg).run hrun) hanswer htype
    exact ⟨key, rfl, Table.mem_having_iff.mp (List.mem_of_head? hhead)⟩
  keeps s arg name value hrun hname := get_of_call ((Inv.start hg).run hrun) arg hname
  once s arg key s' arg' hrun hkey hrun' hkey' := by
    have h : Inv s := (Inv.start hg).run hrun
    have h' : Inv s' := (h.step (step_call s arg)).run hrun'
    obtain ⟨hname, hindex⟩ := hkey.eq_newKey h
    obtain ⟨hname', -⟩ := hkey'.eq_newKey h'
    have hle : (callbackArgument arg s).2.callbackIndex ≤ s'.callbackIndex :=
      Runs.grows (r := fun a b : State => a.callbackIndex ≤ b.callbackIndex) (fun _ => Nat.le_refl _)
        (fun _ _ _ => Nat.le_trans) (fun _ _ => callbackIndex_le_of_step) hrun'
    rw [hindex] at hle
    exact Nat.ne_of_lt hle (newKey_injective (hname.symm.trans hname'))
  stable s arg entry s' hrun hanswer htype hrun' := by
    have h : Inv s := (Inv.start hg).run hrun
    have h' : Inv s' := Runs.invariant (fun _ _ hinv hstep => hinv.step hstep.1) hrun' (h.step (step_call s arg))
    obtain ⟨⟨id, rfl⟩, key, rfl, hhead⟩ := answered h hanswer htype
    exact answer_of_head? h' ((congrArg List.head? (having_run hrun')).trans hhead)

/-- The variables that the methods use, as the module has them when it is loaded. -/
def loadedGlobals : Dict := ((({} : Dict).set "__builtins__" (.object 0)).set "logging" (.object 1)).set "RequestsReceiver" (.object 2)

theorem right_of_loadedGlobals : Right SparesGlobals { globals := loadedGlobals } := right_of_globals (by decide)

/-- After `RequestsReceiver` was deleted from the variables of the module, nothing is answered for an object. -/
theorem not_right_after_delete : ¬ Right ClientNames { globals := loadedGlobals } := by
  intro h
  let s : State := (callbackArgument (.object 7) { globals := loadedGlobals }).2
  let s' : State := (deleteFromPersistence "RequestsReceiver" s).2
  have hanswer : (callbackArgument (.object 7) { globals := loadedGlobals }).1 =
      .ok { value := .str "callback_var0", type := .persistence } := by decide
  have hstep : Step ClientNames s s' := ⟨.delete "RequestsReceiver", trivial, rfl⟩
  have hsame : SameNames (.object 7) s s' := fun name => Iff.rfl
  have hagain : (callbackArgument (.object 7) s').1 = .error ⟨"RequestsReceiver"⟩ := by decide
  have hstable := h.stable { globals := loadedGlobals } (.object 7) _ s' .refl hanswer rfl (.single ⟨hstep, hsame⟩)
  rw [hagain] at hstable
  cases hstable

end LibraryLink.Python.PersistenceKeys
