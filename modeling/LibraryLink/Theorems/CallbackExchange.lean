import LibraryLink.CallbackExchange
import LibraryLink.CppReceiver
import Mathlib.Data.List.Forall2

/-!
# What a callback reaches the Kotlin code with

`toMethodCallRequest` copies neither the assigned id of the message around the call nor the call's arguments. So all callbacks of an
exchange share the object that was made for the first of them, and a receiver gets the arguments of `do_callback` only where there
are none.
-/

namespace LibraryLink.Kotlin

variable {ω C K : Type} {program : Program ω C K}

namespace CallbackDataExchange

/-! ## The objects of an exchange -/

@[simp] theorem localPersistence_register (s : CallbackDataExchange ω C K) (r : Registration C K) :
    (s.register r).localPersistence = s.localPersistence := by
  cases r <;> rfl

@[simp] theorem objects_register (s : CallbackDataExchange ω C K) (r : Registration C K) :
    (s.register r).objects = s.objects := by
  cases r <;> rfl

/-- Registrations leave the table of objects as it is. -/
theorem foldl_register (l : List (Registration C K)) (s : CallbackDataExchange ω C K) :
    (l.foldl register s).localPersistence = s.localPersistence ∧ (l.foldl register s).objects = s.objects := by
  induction l generalizing s with
  | nil => exact ⟨rfl, rfl⟩
  | cons r l ih =>
    rw [List.foldl_cons, (ih _).1, (ih _).2, localPersistence_register, objects_register]
    exact ⟨rfl, rfl⟩

/-- A registered constructor gives a new object. -/
theorem invokeConstructor_registered (program : Program ω C K) {s : CallbackDataExchange ω C K} {request : MethodCallRequest Argument}
    (hc : s.callbackConstructorsMap request.objectID ≠ none) :
    (s.invokeConstructor program request).1 = some s.objects ∧
      (s.invokeConstructor program request).2.localPersistence = s.localPersistence ∧
      (s.invokeConstructor program request).2.objects = s.objects + 1 := by
  obtain ⟨receiver, hreceiver⟩ := Option.ne_none_iff_exists'.mp hc
  unfold invokeConstructor
  rw [hreceiver]
  exact ⟨rfl, foldl_register _ _⟩

/-- Where a constructor is registered, a request gets the object under its id, or a new one that is put there. -/
theorem objectFor_registered (program : Program ω C K) {s : CallbackDataExchange ω C K} (request : MethodCallRequest Argument)
    (hc : s.callbackConstructorsMap request.objectID ≠ none) :
    ∃ o, (s.objectFor program request).1 = some o ∧ (s.objectFor program request).2.localPersistence request.assignedID = some o ∧
      (s.localPersistence request.assignedID = none ∧ (s.objectFor program request).2.objects = s.objects + 1 ∨
        s.localPersistence request.assignedID = some o ∧ (s.objectFor program request).2.objects = s.objects) := by
  unfold objectFor
  cases hobject : s.localPersistence request.assignedID with
  | some o => exact ⟨o, rfl, hobject, Or.inr ⟨rfl, rfl⟩⟩
  | none =>
    obtain ⟨hobj, -, hobjects⟩ := invokeConstructor_registered program hc
    exact ⟨s.objects, hobj, (Function.update_self ..).trans hobj, Or.inl ⟨rfl, hobjects⟩⟩

/-- A request is handled with the object of the empty id: the one in the table, or a new one that is put there. -/
theorem handleRequest_eq_some {s s' : CallbackDataExchange ω C K} {m : Exchange.Request} {call : Exchange.MethodCallRequest}
    {handled : Handled} (hm : m.request = some (.methodCall call)) (hc : s.callbackConstructorsMap call.objectId ≠ none)
    (h : s.handleRequest program m = some (handled, s')) :
    ∃ o, handled.obj = some o ∧ s'.localPersistence "" = some o ∧
      (s.localPersistence "" = none ∧ handled.constructed = true ∨
        s.localPersistence "" = some o ∧ handled.constructed = false) := by
  obtain ⟨o, hobj, htable, hcase⟩ := objectFor_registered program (toMethodCallRequest call) hc
  unfold handleRequest at h
  rw [hm] at h
  dsimp only at h
  split at h
  · cases h
  · obtain ⟨rfl, rfl⟩ := Prod.mk.inj (Option.some.inj h)
    refine ⟨o, hobj, by rw [(foldl_register _ _).1]; exact htable, ?_⟩
    rcases hcase with ⟨hnone, hobjects⟩ | ⟨hsome, hobjects⟩
    · have hflag : ((s.objectFor program (toMethodCallRequest call)).2.objects != s.objects) = true := by
        rw [hobjects]
        exact bne_iff_ne.mpr (Nat.succ_ne_self _)
      exact Or.inl ⟨hnone, hflag⟩
    · have hflag : ((s.objectFor program (toMethodCallRequest call)).2.objects != s.objects) = false := by
        rw [hobjects]
        exact bne_self_eq_false _
      exact Or.inr ⟨hsome, hflag⟩

/-- In a run all requests are given one object, and a constructor is invoked for the first of them only. -/
theorem Run.one_object {s s' : CallbackDataExchange ω C K} {l : List (Exchange.Request × Handled)}
    (hs : s.localPersistence "" = none) (h : Run program s l s') :
    (l = [] ∧ s'.localPersistence "" = none) ∨
      ∃ o first rest, l = first :: rest ∧ s'.localPersistence "" = some o ∧ (∀ a ∈ l, a.2.obj = some o) ∧
        first.2.constructed = true ∧ ∀ a ∈ rest, a.2.constructed = false := by
  induction h with
  | start => exact Or.inl ⟨rfl, hs⟩
  | register r _ ih =>
    rw [localPersistence_register]
    exact ih
  | @handle l s' s'' m call handled _ hm hc hhandle ih =>
    obtain ⟨o, hobj, htable, hcase⟩ := handleRequest_eq_some hm hc hhandle
    refine Or.inr ?_
    rcases ih with ⟨rfl, hnone⟩ | ⟨o', first, rest, rfl, htable', hall, hfirst, hrest⟩
    · rcases hcase with ⟨-, hmade⟩ | ⟨hsome, -⟩
      · refine ⟨o, (m, handled), [], rfl, htable, ?_, hmade, List.forall_mem_nil _⟩
        intro a ha
        rw [List.mem_singleton.mp ha]
        exact hobj
      · rw [hnone] at hsome
        cases hsome
    · rcases hcase with ⟨hnone, -⟩ | ⟨hsome, hnot⟩
      · rw [htable'] at hnone
        cases hnone
      · have ho : o' = o := Option.some.inj (htable'.symm.trans hsome)
        subst ho
        refine ⟨o', first, rest ++ [(m, handled)], rfl, htable, ?_, hfirst, ?_⟩
        · intro a ha
          rcases List.mem_append.mp ha with ha | ha
          · exact hall a ha
          · rw [List.mem_singleton.mp ha]
            exact hobj
        · intro a ha
          rcases List.mem_append.mp ha with ha | ha
          · exact hrest a ha
          · rw [List.mem_singleton.mp ha]
            exact hnot

/-- Two requests are given the same object exactly when they carry the same assigned id, and a constructor is invoked exactly for
the first request of each id. -/
structure OneObjectPerId (l : List (Exchange.Request × Handled)) : Prop where
  given : ∀ a ∈ l, a.2.obj ≠ none
  same : ∀ a b : Exchange.Request × Handled, a ∈ l → b ∈ l → (a.2.obj = b.2.obj ↔ a.1.assignedId = b.1.assignedId)
  once : ∀ (i : Nat) (a : Exchange.Request × Handled), l[i]? = some a →
    (a.2.constructed = true ↔ ∀ (j : Nat) (b : Exchange.Request × Handled), j < i → l[j]? = some b → b.1.assignedId ≠ a.1.assignedId)

/-- In every run of an exchange that has made no objects yet, with any registrations between the requests: there is one object for
each assigned id if and only if all requests carry the same one. -/
theorem oneObjectPerId_iff {s s' : CallbackDataExchange ω C K} {l : List (Exchange.Request × Handled)}
    (hs : ∀ id, s.localPersistence id = none) (h : Run program s l s') :
    OneObjectPerId l ↔ ∀ a ∈ l, ∀ b ∈ l, a.1.assignedId = b.1.assignedId := by
  rcases h.one_object (hs "") with ⟨rfl, -⟩ | ⟨o, first, rest, rfl, -, hall, hfirst, hrest⟩
  · exact ⟨fun _ => List.forall_mem_nil _, fun _ => ⟨List.forall_mem_nil _, by simp, by simp⟩⟩
  · constructor
    · intro hone a ha b hb
      exact (hone.same a b ha hb).mp ((hall a ha).trans (hall b hb).symm)
    · intro hid
      refine ⟨?_, ?_, ?_⟩
      · intro a ha
        rw [hall a ha]
        exact Option.some_ne_none o
      · intro a b ha hb
        exact ⟨fun _ => hid a ha b hb, fun _ => (hall a ha).trans (hall b hb).symm⟩
      · intro i a ha
        cases i with
        | zero =>
          rw [← Option.some.inj ha, hfirst]
          exact ⟨fun _ j _ hj => absurd hj (Nat.not_lt_zero j), fun _ => rfl⟩
        | succ i =>
          have hmem : a ∈ rest := List.mem_of_getElem? ha
          rw [hrest a hmem]
          constructor
          · exact nofun
          · intro hnew
            exact absurd (hid first List.mem_cons_self a (List.mem_cons_of_mem first hmem))
              (hnew 0 first (Nat.zero_lt_succ i) rfl)

/-- An exchange with a constructor for `Writer` and a receiver for its method `write`. -/
def writers : CallbackDataExchange Unit Unit Unit where
  world := ()
  callbackReceiversMap key := if key = ("write", "Writer") then some () else none
  callbackConstructorsMap className := if className = "Writer" then some () else none

/-- Constructors that register nothing, and receivers that return nothing. -/
def idle : Program Unit Unit Unit where
  construct _ _ w := ([], w)
  receive _ _ _ w := (.null, [], w)

/-- A call of `write` with an assigned id. -/
def writeCall (assignedId : String) : Exchange.Request where
  request := some (.methodCall { methodName := "write", objectId := "Writer", type := "Writer" })
  assignedId

/-- What the call is handled with. -/
def written (constructed : Bool) : Handled where
  request := { methodName := "write", objectID := "Writer", type := "Writer" }
  obj := some 0
  constructed
  response := ⟨some (.returnValue .notSet), ""⟩

theorem run_writeCalls (id id' : String) :
    ∃ s', Run idle writers [(writeCall id, written true), (writeCall id', written false)] s' :=
  ⟨_, ((Run.start.handle (writeCall id) _ (written true) rfl (by decide) rfl).handle (writeCall id') _ (written false) rfl
    (by decide) rfl)⟩

/-- The rule at two requests with one id. -/
theorem oneObjectPerId_iff_once : OneObjectPerId [(writeCall "7", written true), (writeCall "7", written false)] := by
  obtain ⟨s', h⟩ := run_writeCalls "7" "7"
  refine (oneObjectPerId_iff (fun _ => rfl) h).mpr ?_
  simp [writeCall]

/-- Two requests of different foreign objects are given the same Kotlin object. -/
theorem not_oneObjectPerId :
    ∃ l s', Run idle writers l s' ∧ l.map (·.1) = [writeCall "1", writeCall "2"] ∧ l.map (·.2.obj) = [some 0, some 0] ∧
      ¬OneObjectPerId l := by
  obtain ⟨s', h⟩ := run_writeCalls "1" "2"
  refine ⟨_, s', h, rfl, rfl, ?_⟩
  intro hone
  have hid := (hone.same _ _ List.mem_cons_self (List.mem_cons_of_mem _ List.mem_cons_self)).mp rfl
  exact absurd hid (by decide)

end CallbackDataExchange

/-! ## The arguments of a callback -/

/-- An argument stands for one of `do_callback`: the integer itself, or a key under which the receiver's table has the pointer. -/
def Stands {S : Type} (s : Cpp.Process.State S) : Cpp.Process.CallbackArg → Argument → Prop
  | .inplace value, a => a.type = "inplace" ∧ a.value = .number ((value : Int).bmod (2 ^ 64))
  | .persistence p, a => a.type = "persistence" ∧ ∃ key, a.value = .string key ∧ s.persistence key = some p

/-- A request has the method, the type and the arguments that `do_callback` was given. -/
structure Delivered {S : Type} (methodName type : String) (args : List Cpp.Process.CallbackArg) (s : Cpp.Process.State S)
    (request : MethodCallRequest Argument) : Prop where
  methodName : request.methodName = methodName
  type : request.type = type
  args : List.Forall₂ (Stands s) args request.args

/-- The message of `do_callback` has its method and type. -/
theorem doCallback_fst {S : Type} (methodName type : String) (args : List Cpp.Process.CallbackArg) (s : Cpp.Process.State S) :
    (Cpp.Process.doCallback methodName type args s).1.methodName = methodName ∧
      (Cpp.Process.doCallback methodName type args s).1.type = type := by
  induction args generalizing s with
  | nil => exact ⟨rfl, rfl⟩
  | cons arg args ih =>
    cases arg with
    | inplace value => exact ih s
    | persistence p => exact ih _

namespace CallbackDataExchange

/-- A receiver that is registered for a key stays registered for it, or another one is. -/
theorem foldl_register_ne_none {s : CallbackDataExchange ω C K} {key : String × String} (l : List (Registration C K))
    (h : s.callbackReceiversMap key ≠ none) : (l.foldl register s).callbackReceiversMap key ≠ none := by
  induction l generalizing s with
  | nil => exact h
  | cons r l ih =>
    refine ih ?_
    cases r with
    | callback methodName type receiver =>
      by_cases hkey : key = (methodName, type)
      · simp [register, hkey]
      · simp [register, Function.update_of_ne hkey, h]
    | constructorCallback className receiver => exact h

/-- Finding the object for a request leaves a receiver registered. -/
theorem objectFor_ne_none (program : Program ω C K) {s : CallbackDataExchange ω C K} {key : String × String}
    (request : MethodCallRequest Argument) (h : s.callbackReceiversMap key ≠ none) : (s.objectFor program request).2.callbackReceiversMap key ≠ none := by
  unfold objectFor
  cases s.localPersistence request.assignedID with
  | some o => exact h
  | none =>
    show (s.invokeConstructor program request).2.callbackReceiversMap key ≠ none
    unfold invokeConstructor
    cases s.callbackConstructorsMap request.objectID with
    | none => exact h
    | some receiver => exact foldl_register_ne_none _ h

/-- A receiver that is registered is handed what `toMethodCallRequest` makes of the message. -/
theorem handleRequest_registered (program : Program ω C K) {s : CallbackDataExchange ω C K} {m : Exchange.Request}
    (call : Exchange.MethodCallRequest) (hm : m.request = some (.methodCall call))
    (hc : s.callbackReceiversMap (call.methodName, call.type) ≠ none) :
    ∃ handled s', s.handleRequest program m = some (handled, s') ∧ handled.request = toMethodCallRequest call := by
  obtain ⟨callback, hcallback⟩ :=
    Option.ne_none_iff_exists'.mp (objectFor_ne_none program (toMethodCallRequest call) hc)
  unfold handleRequest
  rw [hm]
  dsimp only
  rw [show ((toMethodCallRequest call).methodName, (toMethodCallRequest call).type) = (call.methodName, call.type) from rfl,
    hcallback]
  exact ⟨_, _, rfl, rfl⟩

/-- For every call of `do_callback` and every exchange with a receiver for its method and type: the receiver is handed the method,
the type and the arguments of the call if and only if there are no arguments. -/
theorem delivered_iff {S : Type} (program : Program ω C K) (s : CallbackDataExchange ω C K) (methodName type : String)
    (args : List Cpp.Process.CallbackArg) (receiver : Cpp.Process.State S) (h : s.callbackReceiversMap (methodName, type) ≠ none) :
    ∃ handled s', s.handleRequest program (.ofCallback (Cpp.Process.doCallback methodName type args receiver).1) =
        some (handled, s') ∧
      (Delivered methodName type args (Cpp.Process.doCallback methodName type args receiver).2 handled.request ↔ args = []) := by
  obtain ⟨hmethod, htype⟩ := doCallback_fst methodName type args receiver
  have hc : s.callbackReceiversMap ((Cpp.Process.doCallback methodName type args receiver).1.methodName,
      (Cpp.Process.doCallback methodName type args receiver).1.type) ≠ none := by
    rw [hmethod, htype]
    exact h
  obtain ⟨call, hm, hname, htype'⟩ : ∃ call, (Exchange.Request.ofCallback
      (Cpp.Process.doCallback methodName type args receiver).1).request = some (.methodCall call) ∧
      call.methodName = (Cpp.Process.doCallback methodName type args receiver).1.methodName ∧
      call.type = (Cpp.Process.doCallback methodName type args receiver).1.type := ⟨_, rfl, rfl, rfl⟩
  rw [← hname, ← htype'] at hc
  obtain ⟨handled, s', hhandle, hrequest⟩ := handleRequest_registered program call hm hc
  refine ⟨handled, s', hhandle, ?_⟩
  rw [hrequest]
  constructor
  · intro hdelivered
    exact List.forall₂_nil_right_iff.mp hdelivered.args
  · rintro rfl
    exact ⟨hname.trans hmethod, htype'.trans htype, .nil⟩

/-- The rule at a call without arguments. -/
theorem delivered_iff_nil :
    ∃ handled s', writers.handleRequest idle
        (.ofCallback (Cpp.Process.doCallback "write" "Writer" [] ({} : Cpp.Process.State Unit)).1) =
        some (handled, s') ∧
      (Delivered "write" "Writer" [] (Cpp.Process.doCallback "write" "Writer" [] ({} : Cpp.Process.State Unit)).2 handled.request ↔
        ([] : List Cpp.Process.CallbackArg) = []) :=
  delivered_iff idle writers "write" "Writer" [] {} (by decide)

/-- A call with an integer: the message has it, and the receiver is handed no arguments. -/
theorem not_delivered :
    ∃ handled s', writers.handleRequest idle
        (.ofCallback (Cpp.Process.doCallback "write" "Writer" [.inplace 5] ({} : Cpp.Process.State Unit)).1) = some (handled, s') ∧
      handled.request.args = [] ∧
      ¬Delivered "write" "Writer" [.inplace 5] (Cpp.Process.doCallback "write" "Writer" [.inplace 5] ({} : Cpp.Process.State Unit)).2
        handled.request := by
  have hc : writers.callbackReceiversMap ("write", "Writer") ≠ none := by decide
  have hm : (Exchange.Request.ofCallback
      (Cpp.Process.doCallback "write" "Writer" [.inplace 5] ({} : Cpp.Process.State Unit)).1).request =
        some (.methodCall { methodName := "write", type := "Writer", arg := [⟨.inplace, .int 5, ""⟩] }) := rfl
  obtain ⟨handled, s', hhandle, hrequest⟩ := handleRequest_registered idle _ hm hc
  refine ⟨handled, s', hhandle, by rw [hrequest]; rfl, ?_⟩
  intro hdelivered
  have hargs := hdelivered.args
  rw [hrequest] at hargs
  cases hargs

end CallbackDataExchange

end LibraryLink.Kotlin
