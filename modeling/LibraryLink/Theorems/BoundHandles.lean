import LibraryLink.BoundHandles
import LibraryLink.Lemmas.HeapTypes
import LibraryLink.Lemmas.KotlinExchange
import LibraryLink.General.Runs

/-!
# Which handles are valid

The client takes each response without an exception for a handle, and `process_channel` answers each frame with a fresh id, whether it
executes the request or not: it does for method calls only. Where all requests are method calls, every handle that was bound has a
pointer from then on.
-/

namespace LibraryLink.Kotlin

open Relation Outcome
open Cpp.Process (State Env Callback CallbackArg Action dispatch serve doCallback runCallbacks SameTable assignId)

variable {S : Type}

/-! ## Pointers stay -/

/-- What has a pointer in the one state, of some ids, has one in the other. -/
def KeepsPointers (bound : List String) (s s' : State S) : Prop := ∀ key ∈ bound, s.entry key ≠ none → s'.entry key ≠ none

variable {bound : List String}

theorem KeepsPointers.trans {s s' s'' : State S} (h : KeepsPointers bound s s') (h' : KeepsPointers bound s' s'') :
    KeepsPointers bound s s'' :=
  fun key hbound hkey => h' key hbound (h key hbound hkey)

theorem KeepsPointers.of_sameTable {s s' : State S} (h : SameTable s s') : KeepsPointers bound s s' := by
  intro key _ hkey
  rw [h.entry]
  exact hkey

/-- An assignment that assigns no null to one of the ids. -/
theorem KeepsPointers.store (s : State S) (key : String) {p : Option Cpp.Process.Addr} (hp : p = none → key ∉ bound) :
    KeepsPointers bound s (s.store key p) := by
  intro key' hbound hkey'
  by_cases hk : key' = key
  · rw [hk, Cpp.Process.store_entry]
    intro hnone
    exact hp hnone (hk ▸ hbound)
  · rw [Cpp.Process.store_entry_ne s _ hk]
    exact hkey'

/-- A harmless call of `do_callback`. -/
theorem KeepsPointers.doCallback (methodName type : String) {args : List CallbackArg} {s : State S}
    (h : Harmless bound args s) : KeepsPointers bound s (doCallback methodName type args s).2 := by
  induction args generalizing s with
  | nil => exact fun key _ hkey => hkey
  | cons arg args ih =>
    cases arg with
    | inplace value => exact ih h
    | persistence p => exact KeepsPointers.trans (KeepsPointers.store s.drawId.2 _ h.1) (ih h.2)

theorem KeepsPointers.runCallbacks {callbacks : List Callback} {s : State S} (h : HarmlessCallbacks bound callbacks s) :
    KeepsPointers bound s (runCallbacks callbacks s) := by
  induction callbacks generalizing s with
  | nil => exact fun key _ hkey => hkey
  | cons c callbacks ih => exact (KeepsPointers.doCallback c.methodName c.type h.1).trans (ih h.2)

/-- Registering a pointer, after other lookups. -/
theorem sameTable_register {s s' : State S} (h : SameTable s s') (p : Option Cpp.Process.Addr) :
    s'.drawId.1 = s.drawId.1 ∧ SameTable (s.drawId.2.store s.drawId.1 p) (s'.drawId.2.store s'.drawId.1 p) := by
  have hid : s'.drawId.1 = s.drawId.1 := by
    unfold State.drawId
    rw [h.counter]
  rw [hid]
  refine ⟨rfl, ?_, ?_, ?_, ?_⟩
  · intro key
    by_cases hk : key = s.drawId.1
    · rw [hk, Cpp.Process.store_entry, Cpp.Process.store_entry]
    · rw [Cpp.Process.store_entry_ne _ _ hk, Cpp.Process.store_entry_ne _ _ hk]
      exact h.entry key
  · show s'.drawn ++ [s'.drawId.1] = s.drawn ++ [s.drawId.1]
    rw [h.drawn, hid]
  · show s'.assignedIdCounter + 1 = s.assignedIdCounter + 1
    rw [h.counter]
  · rw [Cpp.Process.store_overwritten, Cpp.Process.store_overwritten]
    show s'.overwritten ++ [s'.entry s.drawId.1] = s.overwritten ++ [s.entry s.drawId.1]
    rw [h.overwritten, h.entry]

/-- What is harmless depends on the table only. -/
theorem harmless_congr {args : List CallbackArg} {s s' : State S} (h : SameTable s s') (hs : Harmless bound args s) :
    Harmless bound args s' := by
  induction args generalizing s s' with
  | nil => trivial
  | cons arg args ih =>
    cases arg with
    | inplace value => exact ih h hs
    | persistence p =>
      obtain ⟨hid, htable⟩ := sameTable_register h p
      refine ⟨?_, ih htable hs.2⟩
      rw [hid]
      exact hs.1

/-- What a call of `do_callback` does to the table depends on the table only. -/
theorem sameTable_doCallback (methodName type : String) (args : List CallbackArg) {s s' : State S} (h : SameTable s s') :
    SameTable (doCallback methodName type args s).2 (doCallback methodName type args s').2 := by
  induction args generalizing s s' with
  | nil => exact h
  | cons arg args ih =>
    cases arg with
    | inplace value => exact ih h
    | persistence p => exact ih (sameTable_register h p).2

theorem harmlessCallbacks_congr {callbacks : List Callback} {s s' : State S} (h : SameTable s s')
    (hs : HarmlessCallbacks bound callbacks s) : HarmlessCallbacks bound callbacks s' := by
  induction callbacks generalizing s s' with
  | nil => trivial
  | cons c callbacks ih => exact ⟨harmless_congr h hs.1, ih (sameTable_doCallback _ _ _ h) hs.2⟩

/-! ## Requests -/

/-- A branch keeps the pointers. -/
theorem KeepsPointers.run {lib : Cpp.Process.Library S} {env : Env} {r : Cpp.Process.MethodCallRequest} {s s' : State S}
    {resp resp' : Cpp.Process.ChannelResponse} {action : Action} (h : action.run lib env r s resp = .ok (resp', s'))
    (hs : HarmlessCallbacks bound (action.callbacks env) s) : KeepsPointers bound s s' := by
  obtain ⟨s₁, s₂, h₁, h₂, h₃⟩ := Cpp.Process.run_table h
  have hkeeps : KeepsPointers bound s s₂ := ((KeepsPointers.of_sameTable h₁).trans
    (KeepsPointers.runCallbacks (harmlessCallbacks_congr h₁ hs))).trans (KeepsPointers.of_sameTable h₂)
  rcases h₃ with rfl | ⟨a, rfl⟩
  · exact hkeeps
  · exact hkeeps.trans (KeepsPointers.store _ _ nofun)

/-- A branch for a method with a reference return stores a pointer under the assigned id. -/
theorem run_stores {lib : Cpp.Process.Library S} {env : Env} {r : Cpp.Process.MethodCallRequest} {s s' : State S}
    {resp resp' : Cpp.Process.ChannelResponse} {action : Action} (h : action.run lib env r s resp = .ok (resp', s'))
    (hret : returnsReference action = true) : s'.entry resp.assignedId ≠ none := by
  rcases action with handler | (_ | _) | (_ | _) | elem | _
  · obtain ⟨s₁, passed, states, effect, -, -, -, rfl⟩ := Cpp.Process.handler_eq_ok h
    obtain ⟨function, params, ret⟩ := handler
    cases ret with
    | handle type =>
      show (State.store _ _ _).entry _ ≠ none
      rw [Cpp.Process.store_entry]
      exact Option.some_ne_none _
    | _ => cases hret
  · cases hret
  · cases hret
  · cases hret
  · obtain ⟨-, -, value, s₁, -, -, -, -, rfl⟩ := Cpp.Process.get_eq_ok h
    rw [Cpp.Process.store_entry]
    exact Option.some_ne_none _
  · obtain ⟨size, array, rfl, rfl⟩ := Cpp.Process.memAlloc_eq_ok h
    rw [Cpp.Process.store_entry]
    exact Option.some_ne_none _
  · cases hret

/-- The id of a response is drawn without a change of the pointers. -/
theorem keepsPointers_assignId (rq : Cpp.Process.Request) (s : State S) : KeepsPointers bound s (assignId rq s).2 := by
  intro key _ hkey
  unfold State.entry at hkey ⊢
  rw [Cpp.Process.assignId_persistence]
  exact hkey

/-- A method call that is served is executed and keeps the pointers, and one with a reference return stores a pointer under the id of
its response. -/
theorem serve_methodCall {lib : Cpp.Process.Library S} {env : Env} {rq : Cpp.Process.Request}
    {r : Cpp.Process.MethodCallRequest} {s s' : State S} {resp : Cpp.Process.ChannelResponse} (hr : rq.methodCall = some r)
    (hs : ∀ action, dispatch r = some action → HarmlessCallbacks bound (action.callbacks env) (assignId rq s).2)
    (h : serve lib env rq s = .ok (resp, s')) :
    ∃ action, dispatch r = some action ∧ KeepsPointers bound s s' ∧
      (returnsReference action = true → s'.entry resp.assignedId ≠ none) := by
  rcases Cpp.Process.serve_cases h with ⟨hnone, -⟩ | ⟨r', action, hr', hdispatch, hrun⟩
  · rw [hr] at hnone
    cases hnone
  · obtain rfl : r = r' := Option.some.inj (hr.symm.trans hr')
    refine ⟨action, hdispatch, (keepsPointers_assignId rq s).trans (KeepsPointers.run hrun (hs action hdispatch)), fun hret => ?_⟩
    rw [Cpp.Process.run_assignedId hrun]
    exact run_stores hrun hret

/-! ## Sessions -/

/-- Every id that was bound has a pointer, and what was answered as a success was executed. -/
structure Inv (s : Session S) : Prop where
  bound : ∀ id ∈ s.bound, s.receiver.entry id ≠ none
  executed : ∀ rq ∈ s.successes, Executed rq

/-- A step that meets the condition keeps the invariant. -/
theorem Inv.step {s s' : Session S} (hi : Inv s) (h : AllowedSessionStep s s') : Inv s' := by
  obtain ⟨e, hs, hallowed⟩ := h
  cases hs with
  | bind lib env request m answer s receiver hm hbinds hmake =>
    obtain ⟨r, hr, hharmless⟩ := hallowed
    obtain ⟨m', resp, hm', hserve, hanswer⟩ := makeRequest_eq_ok.mp hmake
    obtain rfl : m = m' := Except.ok.inj (hm.symm.trans hm')
    have hid : answer.assignedID = resp.assignedId := assignedID_of_response hanswer
    obtain ⟨action, hdispatch, hkeeps, hstores⟩ := serve_methodCall hr hharmless hserve
    have hreturns : returnsReference action = true := by
      obtain ⟨request', assignedId⟩ := m
      rcases request' with _ | (call | _ | _ | _ | _)
      case some.methodCall =>
        obtain rfl : call.read = r := Option.some.inj hr
        exact hbinds action hdispatch
      all_goals cases hr
    refine ⟨?_, ?_⟩
    · intro id hmem
      rcases List.mem_append.mp hmem with hmem | hmem
      · exact hkeeps id hmem (hi.bound id hmem)
      · rw [List.mem_singleton.mp hmem, hid]
        exact hstores hreturns
    · intro rq hmem
      rcases List.mem_append.mp hmem with hmem | hmem
      · exact hi.executed rq hmem
      · rw [List.mem_singleton.mp hmem]
        exact ⟨r, action, hr, hdispatch⟩
  | payload lib env parse bytes resp s receiver hserve =>
    obtain ⟨r, hr, hharmless⟩ := hallowed
    obtain ⟨action, hdispatch, hkeeps, -⟩ := serve_methodCall hr hharmless hserve
    refine ⟨fun id hmem => hkeeps id hmem (hi.bound id hmem), ?_⟩
    intro rq hmem
    replace hmem : rq ∈ if isException resp then s.successes else s.successes ++ [parse bytes] := hmem
    split at hmem
    · exact hi.executed rq hmem
    · rcases List.mem_append.mp hmem with hmem | hmem
      · exact hi.executed rq hmem
      · rw [List.mem_singleton.mp hmem]
        exact ⟨r, action, hr, hdispatch⟩
  | callback methodName type args s =>
    exact ⟨fun id hmem => KeepsPointers.doCallback methodName type hallowed id hmem (hi.bound id hmem), hi.executed⟩

/-- In every session in which all requests that are served are method calls, and no call of `do_callback` registers null under
an id of a handle: in every state reached, each handle that was bound has a pointer, and what was answered as a success was executed. -/
theorem valid_of_allowed {s : Session S} (h : ReflTransGen AllowedSessionStep {} s) : Valid s := by
  have hi : Inv s := Runs.invariant (fun _ _ hi hs => hi.step hs) h ⟨nofun, nofun⟩
  refine ⟨?_, hi.executed⟩
  intro id hmem
  obtain ⟨a, ha⟩ := Option.ne_none_iff_exists'.mp (hi.bound id hmem)
  exact ⟨a, Option.join_eq_some_iff.mp ha⟩

/-- A library that makes a new object each time. -/
def makesObjects : Cpp.Process.Library Unit := fun _ _ states => some ⟨states, 0, .fresh ()⟩

/-- The call of `Z3_mk_config`. -/
def mkConfigRequest : Request Argument := .methodCall { methodName := "Z3_mk_config", type := "Z3_config" }

/-- The rule at a session in which a configuration is made. -/
theorem valid_of_allowed_config : ∃ s : Session Unit, ReflTransGen AllowedSessionStep {} s ∧ s.bound = ["0"] ∧ Valid s := by
  have hdispatch : dispatch ⟨"Z3_mk_config", "", "Z3_config", []⟩ = some (.library Cpp.Process.librarylinkZ3MkConfig) := by
    decide
  have hbinds : BindsHandle ⟨some (.methodCall { methodName := "Z3_mk_config", type := "Z3_config" }), ""⟩ := by
    intro action h
    obtain rfl := Option.some.inj (hdispatch.symm.trans h)
    rfl
  have hs : SessionStep ({} : Session Unit) _ _ := .bind makesObjects {} mkConfigRequest _ _ {} _ rfl hbinds rfl
  have hallowed : Allowed ({} : Session Unit) (.served {} ⟨some ⟨"Z3_mk_config", "", "Z3_config", []⟩, ""⟩) := by
    refine ⟨_, rfl, ?_⟩
    intro action h
    obtain rfl := Option.some.inj (hdispatch.symm.trans h)
    trivial
  have h : ReflTransGen AllowedSessionStep {} _ := .single ⟨_, hs, hallowed⟩
  exact ⟨_, h, rfl, valid_of_allowed h⟩

/-- A session in which the constructor of `Z3_config` was called, and then a payload sent that is no request. -/
def constructed : Session Unit where
  receiver := { assignedIdCounter := 2, drawn := ["0", "1"] }
  bound := ["0"]
  successes := [⟨none, ""⟩, ⟨none, ""⟩]

/-- Neither of the two is executed and both are answered: a handle is bound to an id that has no entry. -/
theorem not_valid : ReflTransGen AnySessionStep {} constructed ∧ ¬Valid constructed := by
  have hs : SessionStep ({} : Session Unit) _
      { receiver := { assignedIdCounter := 1, drawn := ["0"] }, bound := ["0"], successes := [⟨none, ""⟩] } :=
    .bind makesObjects {} (.constructor { className := "Z3_config" }) ⟨some (.constructor ⟨"Z3_config", []⟩), ""⟩ (.handle "0") {} _
      rfl trivial rfl
  have hs' : SessionStep _ _ constructed := .payload makesObjects {} (fun _ => ⟨none, ""⟩) [255] ⟨"1", none⟩
    { receiver := { assignedIdCounter := 1, drawn := ["0"] }, bound := ["0"], successes := [⟨none, ""⟩] } _ rfl
  refine ⟨(ReflTransGen.single ⟨_, hs⟩).tail ⟨_, hs'⟩, ?_⟩
  intro hvalid
  obtain ⟨a, ha⟩ := hvalid.bound "0" List.mem_cons_self
  cases ha

end LibraryLink.Kotlin
