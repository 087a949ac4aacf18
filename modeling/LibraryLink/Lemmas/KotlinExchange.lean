import LibraryLink.KotlinExchange
import LibraryLink.General.Outcome

/-!
# Helpers about the Kotlin exchange and the C++ receiver

A request that succeeds is a message that was served, and its answer has the id of the response.
-/

namespace LibraryLink.Kotlin

open Outcome

variable {S : Type} {lib : Cpp.Process.Library S} {env : Cpp.Process.Env} {s s' : Cpp.Process.State S}

/-- `sendRequest` returns what the receiver answers. -/
theorem sendRequest_eq_ok {m : Exchange.Request} {response : Exchange.ChannelResponse} :
    sendRequest lib env m s = .ok (response, s') ↔
      ∃ resp, Cpp.Process.serve lib env m.read s = .ok (resp, s') ∧ .ofReceiver resp = response := by
  unfold sendRequest
  cases Cpp.Process.serve lib env m.read s with
  | error e =>
    constructor
    · rintro ⟨⟩
    · rintro ⟨resp, h, -⟩
      cases h
  | ok out =>
    constructor
    · intro h
      obtain ⟨rfl, rfl⟩ := Prod.mk.inj (Except.ok.inj h)
      exact ⟨out.1, rfl, rfl⟩
    · rintro ⟨resp, h, rfl⟩
      rw [Except.ok.inj h]

/-- A request that succeeds is served, and its answer is made of the response. -/
theorem makeRequest_eq_ok {request : Request Argument} {answer : ProcessExchangeResponse} :
    makeRequest (sendRequest lib env) request s = .ok (answer, s') ↔
      ∃ m resp, request.toProtobuf = .ok m ∧ Cpp.Process.serve lib env m.read s = .ok (resp, s') ∧
        toProcessExchangeResponse (.ofReceiver resp) = .ok answer := by
  constructor
  · intro h
    obtain ⟨m, hm, h⟩ := bind_eq_ok.mp h
    obtain ⟨⟨response, s₁⟩, hsend, h⟩ := bind_eq_ok.mp h
    obtain ⟨answer', hanswer, h⟩ := bind_eq_ok.mp h
    obtain ⟨rfl, rfl⟩ := Prod.mk.inj (Except.ok.inj h)
    obtain ⟨resp, hserve, rfl⟩ := sendRequest_eq_ok.mp hsend
    exact ⟨m, resp, hm, hserve, hanswer⟩
  · rintro ⟨m, resp, hm, hserve, hanswer⟩
    exact bind_eq_ok.mpr ⟨m, hm, bind_eq_ok.mpr ⟨_, sendRequest_eq_ok.mpr ⟨resp, hserve, rfl⟩,
      bind_eq_ok.mpr ⟨answer, hanswer, rfl⟩⟩⟩

/-- An answer has the id of the response. -/
theorem assignedID_of_response {response : Exchange.ChannelResponse} {answer : ProcessExchangeResponse}
    (h : toProcessExchangeResponse response = .ok answer) : answer.assignedID = response.assignedId := by
  unfold toProcessExchangeResponse at h
  split at h
  all_goals first
    | exact Except.ok.inj h ▸ rfl
    | cases h

end LibraryLink.Kotlin
