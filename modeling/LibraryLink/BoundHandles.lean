import LibraryLink.KotlinExchange
import LibraryLink.Lemmas.AssignedIds

/-!
# Handles and the receiver's table

Sessions of any number of Kotlin clients with one C++ receiver, at the level of whole requests: `bindTo` gives a handle the assigned id
of a response, and `process_channel` answers every request frame that it reads, of whatever kind.
-/

namespace LibraryLink.Kotlin

open Cpp.Process (State Env Callback CallbackArg Action dispatch serve doCallback)

variable {S : Type}

/-- A receiver with what its clients know: the ids that handles were bound to, and the requests answered as a success, without an
exception message. -/
structure Session (S : Type) where
  receiver : State S := {}
  bound : List String := []
  successes : List Cpp.Process.Request := []

/-- A branch of `process_request` was taken for a request. -/
def Executed (rq : Cpp.Process.Request) : Prop := ∃ r action, rq.methodCall = some r ∧ dispatch r = some action

/-- A branch for a method with a reference return. -/
def returnsReference : Action → Bool
  | .library handler =>
    match handler.ret with
    | .handle _ => true
    | _ => false
  | .get .ast => true
  | .memAlloc _ => true
  | _ => false

/-- The client binds a handle to the response: a constructor, or a call of a method with a reference return. -/
def BindsHandle (m : Exchange.Request) : Prop :=
  match m.request with
  | some (.constructor _) => True
  | some (.methodCall call) => ∀ action, dispatch call.read = some action → returnsReference action = true
  | _ => False

/-- The response carries an exception message. -/
def isException (resp : Cpp.Process.ChannelResponse) : Bool :=
  match resp.result with
  | some (.exceptionMessage _) => true
  | _ => false

/-- What a step deals with: a request that was read, with what the receiver does not decide, or a call of `do_callback`. -/
inductive Event where
  | served (env : Env) (rq : Cpp.Process.Request)
  | callback (args : List CallbackArg)

/-- A step: a client makes a request and binds a handle to the response; a payload that anyone sent, of any kind, is parsed in
whatever way and answered; or the library calls back. -/
inductive SessionStep : Session S → Event → Session S → Prop
  | bind (lib : Cpp.Process.Library S) (env : Env) (request : Request Argument) (m : Exchange.Request)
      (answer : ProcessExchangeResponse) (s : Session S) (receiver : State S) : request.toProtobuf = .ok m → BindsHandle m →
      makeRequest (sendRequest lib env) request s.receiver = .ok (answer, receiver) →
      SessionStep s (.served env m.read)
        { receiver, bound := s.bound ++ [answer.assignedID], successes := s.successes ++ [m.read] }
  | payload (lib : Cpp.Process.Library S) (env : Env) (parse : List UInt8 → Cpp.Process.Request) (bytes : List UInt8)
      (resp : Cpp.Process.ChannelResponse) (s : Session S) (receiver : State S) :
      serve lib env (parse bytes) s.receiver = .ok (resp, receiver) →
      SessionStep s (.served env (parse bytes))
        { s with receiver, successes := if isException resp then s.successes else s.successes ++ [parse bytes] }
  | callback (methodName type : String) (args : List CallbackArg) (s : Session S) :
      SessionStep s (.callback args) { s with receiver := (doCallback methodName type args s.receiver).2 }

/-- Every handle that was bound has a pointer in the receiver's table, and what was answered as a success was executed. -/
structure Valid (s : Session S) : Prop where
  bound : ∀ id ∈ s.bound, ∃ a, s.receiver.persistence id = some (some a)
  executed : ∀ rq ∈ s.successes, Executed rq

/-! ## The steps without the defect -/

/-- A call of `do_callback` registers no null pointer under an id of a handle. -/
def Harmless (bound : List String) : List CallbackArg → State S → Prop
  | [], _ => True
  | .inplace _ :: args, s => Harmless bound args s
  | .persistence p :: args, s => (p = none → s.drawId.1 ∉ bound) ∧ Harmless bound args (s.drawId.2.store s.drawId.1 p)

/-- The calls of `do_callback` that the library makes register no null pointer under an id of a handle. -/
def HarmlessCallbacks (bound : List String) : List Callback → State S → Prop
  | [], _ => True
  | c :: callbacks, s =>
    Harmless bound c.args s ∧ HarmlessCallbacks bound callbacks (doCallback c.methodName c.type c.args s).2

/-- The request is a method call, and no null pointer is registered under an id that a handle was bound to. -/
def Allowed (s : Session S) : Event → Prop
  | .served env rq => ∃ r, rq.methodCall = some r ∧ ∀ action, dispatch r = some action →
      HarmlessCallbacks s.bound (action.callbacks env) (Cpp.Process.assignId rq s.receiver).2
  | .callback args => Harmless s.bound args s.receiver

/-- A step of any kind. -/
def AnySessionStep (s s' : Session S) : Prop := ∃ e, SessionStep s e s'

/-- A step that meets the condition. -/
def AllowedSessionStep (s s' : Session S) : Prop := ∃ e, SessionStep s e s' ∧ Allowed s e

end LibraryLink.Kotlin
