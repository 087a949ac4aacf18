import LibraryLink.CallbackExchange

/-!
# Callbacks that no receiver is registered for

`handleRequest` with the state that it leaves when it throws, and with the keys of `localPersistence` that have null told from those
that are absent. The object for the request is made and put into the table before the receiver is looked up.
-/

namespace LibraryLink.Kotlin

/-- `class CallbackDataExchange`, with the keys that have null in `localPersistence`. -/
structure NullableExchange (ω C K : Type) extends CallbackDataExchange ω C K where
  nullKeys : String → Bool := fun _ => false

/-- How `handleRequest` ends: the receiver has answered, there is no receiver, or the message has no method call. -/
inductive Attempt where
  | handled (handled : Handled)
  | noReceiver
  | noMethodCall

/-- The `TODO()` of the receiver that is looked up. -/
def Attempt.isNoReceiver : Attempt → Bool
  | .noReceiver => true
  | _ => false

namespace NullableExchange

variable {ω C K : Type}

/-- `registerCallback`, `registerConstructorCallback` -/
def register (s : NullableExchange ω C K) (r : Registration C K) : NullableExchange ω C K :=
  { s with toCallbackDataExchange := s.toCallbackDataExchange.register r }

/-- The keys that have null after `if (existingObject == null) localPersistence[request.assignedID] = obj`. -/
def nullKeysAfter (s : NullableExchange ω C K) (id : String) (obj : Option Nat) : String → Bool :=
  match s.localPersistence id with
  | some _ => s.nullKeys
  | none => Function.update s.nullKeys id obj.isNone

/-- `handleRequest` -/
def handleRequest (program : Program ω C K) (requestWrapped : Exchange.Request) (s : NullableExchange ω C K) :
    Attempt × NullableExchange ω C K :=
  match requestWrapped.request with
  | some (.methodCall call) =>
    let request := toMethodCallRequest call
    let obj := s.objectFor program request
    let nullKeys := s.nullKeysAfter request.assignedID obj.1
    match obj.2.callbackReceiversMap (request.methodName, request.type) with
    | none => (.noReceiver, { toCallbackDataExchange := obj.2, nullKeys })
    | some callback =>
      let returned := program.receive callback request obj.1 obj.2.world
      let response : Exchange.ChannelResponse := ⟨some (.returnValue returned.1.toValue), request.assignedID⟩
      (.handled ⟨request, obj.1, obj.2.objects != s.objects, response⟩,
        { toCallbackDataExchange := returned.2.1.foldl CallbackDataExchange.register { obj.2 with world := returned.2.2 },
          nullKeys })
  | _ => (.noMethodCall, s)

/-! ## Sequences of registrations and requests -/

/-- What happens to an exchange: something is registered, or a request arrives. -/
inductive Action (C K : Type) where
  | register (r : Registration C K)
  | request (m : Exchange.Request)

/-- The requests for which there was no receiver, each with the exchange that it reached. -/
def failures (program : Program ω C K) :
    List (Action C K) → NullableExchange ω C K → List (NullableExchange ω C K × Exchange.Request)
  | [], _ => []
  | .register r :: actions, s => failures program actions (s.register r)
  | .request m :: actions, s =>
    let attempt := s.handleRequest program m
    if attempt.1.isNoReceiver then (s, m) :: failures program actions attempt.2 else failures program actions attempt.2

/-- A failed request has left nothing: the table of objects is as before, no constructor was invoked, and after any registrations the
same request is handled as if the first had not been there. -/
def LeavesNothing (program : Program ω C K) (s : NullableExchange ω C K) (m : Exchange.Request) : Prop :=
  let s' := (s.handleRequest program m).2
  (s'.localPersistence = s.localPersistence ∧ s'.nullKeys = s.nullKeys) ∧ s'.objects = s.objects ∧
    ∀ registrations : List (Registration C K),
      (registrations.foldl register s').handleRequest program m = (registrations.foldl register s).handleRequest program m

/-- The table has an object for the request already, or it has null for it and there is no constructor. -/
def Settled (s : NullableExchange ω C K) (m : Exchange.Request) : Prop :=
  ∃ call, m.request = some (.methodCall call) ∧
    (s.localPersistence (toMethodCallRequest call).assignedID ≠ none ∨
      (s.nullKeys (toMethodCallRequest call).assignedID = true ∧ s.callbackConstructorsMap call.objectId = none))

end NullableExchange

end LibraryLink.Kotlin
