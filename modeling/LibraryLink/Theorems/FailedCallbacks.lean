import LibraryLink.FailedCallbacks
import LibraryLink.Theorems.CallbackExchange

/-!
# What a callback leaves that no receiver is registered for

The object that was made for it, in the table and in what the constructor did, or a key with null. It leaves nothing only where there
was nothing to do for it (`leavesNothing_iff`).
-/

namespace LibraryLink.Kotlin.NullableExchange

open CallbackDataExchange (idle writeCall)

variable {ω C K : Type}

/-- What a request that is handled does is what it does to an exchange whose failures are not looked at. -/
theorem handleRequest_toCallbackDataExchange (program : Program ω C K) (m : Exchange.Request) (s : NullableExchange ω C K) :
    s.toCallbackDataExchange.handleRequest program m =
      match s.handleRequest program m with
      | (.handled handled, s') => some (handled, s'.toCallbackDataExchange)
      | _ => none := by
  unfold handleRequest CallbackDataExchange.handleRequest
  cases m.request with
  | none => rfl
  | some case =>
    cases case with
    | methodCall call =>
      dsimp only
      cases (s.objectFor program (toMethodCallRequest call)).2.callbackReceiversMap
          ((toMethodCallRequest call).methodName, (toMethodCallRequest call).type) with
      | none => rfl
      | some callback => rfl
    | _ => rfl

/-- A request for which there is no receiver is a method call, and leaves what `objectFor` does. -/
theorem handleRequest_of_noReceiver {program : Program ω C K} {m : Exchange.Request} {s : NullableExchange ω C K}
    (h : (s.handleRequest program m).1.isNoReceiver = true) :
    ∃ call, m.request = some (.methodCall call) ∧
      (s.handleRequest program m).2 =
        { toCallbackDataExchange := (s.objectFor program (toMethodCallRequest call)).2,
          nullKeys := s.nullKeysAfter (toMethodCallRequest call).assignedID
            (s.objectFor program (toMethodCallRequest call)).1 } := by
  unfold handleRequest at *
  cases hm : m.request with
  | none =>
    rw [hm] at h
    cases h
  | some case =>
    cases case with
    | methodCall call =>
      rw [hm] at h
      dsimp only at h ⊢
      cases hreceiver : (s.objectFor program (toMethodCallRequest call)).2.callbackReceiversMap
          ((toMethodCallRequest call).methodName, (toMethodCallRequest call).type) with
      | none => exact ⟨call, rfl, rfl⟩
      | some callback =>
        rw [hreceiver] at h
        cases h
    | _ =>
      rw [hm] at h
      cases h

/-- Without an object and a constructor the exchange stays as it is, but for a key with null. -/
theorem objectFor_unregistered (program : Program ω C K) {s : NullableExchange ω C K} {request : MethodCallRequest Argument}
    (hobject : s.localPersistence request.assignedID = none) (hconstructor : s.callbackConstructorsMap request.objectID = none) :
    s.objectFor program request = (none, s.toCallbackDataExchange) ∧
      s.nullKeysAfter request.assignedID none = Function.update s.nullKeys request.assignedID true := by
  have htable : Function.update s.localPersistence request.assignedID none = s.localPersistence := by
    rw [← hobject, Function.update_eq_self]
  unfold CallbackDataExchange.objectFor CallbackDataExchange.invokeConstructor nullKeysAfter
  rw [hobject, hconstructor]
  exact ⟨by dsimp only; rw [htable], rfl⟩

/-- Where there is an object, or null and no constructor, a request for which there is no receiver changes nothing. -/
theorem handleRequest_of_settled {program : Program ω C K} {m : Exchange.Request} {s : NullableExchange ω C K}
    (h : (s.handleRequest program m).1.isNoReceiver = true) (hsettled : s.Settled m) : (s.handleRequest program m).2 = s := by
  obtain ⟨call, hm, hstate⟩ := handleRequest_of_noReceiver h
  obtain ⟨call', hm', hcase⟩ := hsettled
  obtain rfl := Exchange.RequestCase.methodCall.inj (Option.some.inj (hm'.symm.trans hm))
  rw [hstate]
  by_cases hobject : s.localPersistence (toMethodCallRequest call').assignedID = none
  · obtain ⟨hnull, hconstructor⟩ := hcase.resolve_left fun hne => hne hobject
    obtain ⟨hsame, hkeys⟩ := objectFor_unregistered program hobject hconstructor
    rw [hsame, hkeys, ← hnull, Function.update_eq_self]
  · obtain ⟨o, ho⟩ := Option.ne_none_iff_exists'.mp hobject
    unfold nullKeysAfter CallbackDataExchange.objectFor
    rw [ho]

/-- Where there is no object, a request for which there is no receiver invokes the constructor or adds a key with null. -/
theorem settled_of_unchanged {program : Program ω C K} {m : Exchange.Request} {s : NullableExchange ω C K}
    (h : (s.handleRequest program m).1.isNoReceiver = true) (hkeys : (s.handleRequest program m).2.nullKeys = s.nullKeys)
    (hobjects : (s.handleRequest program m).2.objects = s.objects) : s.Settled m := by
  obtain ⟨call, hm, hstate⟩ := handleRequest_of_noReceiver h
  refine ⟨call, hm, ?_⟩
  rw [hstate] at hkeys hobjects
  by_cases hobject : s.localPersistence (toMethodCallRequest call).assignedID = none
  · refine Or.inr ?_
    by_cases hconstructor : s.callbackConstructorsMap call.objectId = none
    · refine ⟨?_, hconstructor⟩
      obtain ⟨hsame, hkeysAfter⟩ := objectFor_unregistered program hobject hconstructor
      dsimp only at hkeys
      rw [hsame, hkeysAfter] at hkeys
      have hkey := congrFun hkeys (toMethodCallRequest call).assignedID
      rw [Function.update_self] at hkey
      exact hkey.symm
    · obtain ⟨o, -, -, ⟨-, hmade⟩ | ⟨hsome, -⟩⟩ :=
        CallbackDataExchange.objectFor_registered program (toMethodCallRequest call) hconstructor
      · have hsame : s.objects + 1 = s.objects := hmade.symm.trans hobjects
        omega
      · rw [hobject] at hsome
        cases hsome
  · exact Or.inl hobject

/-- A request for which there is no receiver leaves nothing exactly when there was nothing to do for it. -/
theorem leavesNothing_iff {program : Program ω C K} {m : Exchange.Request} {s : NullableExchange ω C K}
    (h : (s.handleRequest program m).1.isNoReceiver = true) : s.LeavesNothing program m ↔ s.Settled m := by
  constructor
  · rintro ⟨⟨-, hkeys⟩, hobjects, -⟩
    exact settled_of_unchanged h hkeys hobjects
  · intro hsettled
    have hsame := handleRequest_of_settled h hsettled
    unfold LeavesNothing
    rw [hsame]
    exact ⟨⟨rfl, rfl⟩, rfl, fun _ => rfl⟩

/-- Among the failures are requests for which there was no receiver. -/
theorem isNoReceiver_of_mem_failures {program : Program ω C K} {actions : List (Action C K)} {s : NullableExchange ω C K}
    {f : NullableExchange ω C K × Exchange.Request} (hf : f ∈ failures program actions s) :
    (f.1.handleRequest program f.2).1.isNoReceiver = true := by
  induction actions generalizing s with
  | nil => cases hf
  | cons action actions ih =>
    cases action with
    | register r => exact ih hf
    | request m =>
      simp only [failures] at hf
      split at hf
      · rename_i hno
        rcases List.mem_cons.mp hf with rfl | hf
        · exact hno
        · exact ih hf
      · exact ih hf

/-- In every sequence of registrations and requests, the requests for which there is no receiver leave nothing exactly when for each
of them there was nothing to do. -/
theorem failures_leaveNothing_iff (program : Program ω C K) (world : ω) (actions : List (Action C K)) :
    (∀ f ∈ failures program actions { world }, f.1.LeavesNothing program f.2) ↔
      ∀ f ∈ failures program actions { world }, f.1.Settled f.2 :=
  forall₂_congr fun _ hf => leavesNothing_iff (isNoReceiver_of_mem_failures hf)

/-- A request that arrives when a constructor is registered, and no receiver, leaves the object that was made for it. -/
theorem not_leavesNothing :
    ¬ ∀ f ∈ failures idle [.register (.constructorCallback "Writer" ()), .request (writeCall "7")] { world := () },
      f.1.LeavesNothing idle f.2 := by
  intro h
  obtain ⟨-, hobjects, -⟩ := h _ List.mem_cons_self
  exact absurd hobjects (by decide)

end LibraryLink.Kotlin.NullableExchange
