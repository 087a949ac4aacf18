import LibraryLink.Framing
import Mathlib.Logic.Relation
import Mathlib.Logic.Function.Basic

/-!
# Threads that share one request generator

`BlockingRequestGenerator.sendRequest` and `sendRequests`, called by any number of threads on one framing. Both run under
`synchronized(framing)`; every write of a frame, every setting of `buffering` and every read of a response is a step of its
own. The other end is any receiver that takes the frames in order, answers each REQUEST frame with one RESPONSE frame, in
order, sooner or later, and leaves the others unanswered.

Frames are whole here; `Framing` has their bytes. Calls are numbered in the order they were made in; the numbers are not on
the wire.
-/

namespace LibraryLink.Shared

/-- A call of one of the two functions. -/
inductive Call where
  | sendRequest (requestMessage : Message)
  | sendRequests (requestMessages : List Message)

/-- The messages of a call. -/
def Call.messages : Call → List Message
  | .sendRequest message => [message]
  | .sendRequests messages => messages

/-- What a call does with the framing before it reads its responses. -/
def Call.operations : Call → List FramingOp
  | .sendRequest message => [.request message]
  | .sendRequests messages => .buffering true :: (messages.map .request ++ [.buffering false])

/-- Where a thread stands: outside of both functions, at the lock, or inside, with the operations still to be done and the
responses already read. -/
inductive Thread where
  | idle
  | blocked (number : Nat) (call : Call)
  | inside (number : Nat) (call : Call) (operations : List FramingOp) (responses : List Message)

/-- A call that has returned, and the responses it returned. -/
structure Return where
  number : Nat
  call : Call
  responses : List Message

/-- The threads, the framing they share and the frames on their way. `buffered` are the frames in the output stream's buffer.
From `calls` on the fields record what happened: the number of calls made, the messages of the REQUEST frames written, each
with the number of its call, the messages taken by the receiver, those answered, with the responses, and the calls that have
returned, all in order. -/
structure State (τ : Type) where
  threads : τ → Thread := fun _ => .idle
  owner : Option τ := none
  buffering : Bool := false
  buffered : List Frame := []
  toReceiver : List Frame := []
  toClient : List Frame := []
  calls : Nat := 0
  sent : List (Nat × Message) := []
  taken : List Message := []
  answered : List (Message × Message) := []
  returns : List Return := []

variable {τ : Type} [DecidableEq τ]

/-- `framing.write` -/
def State.write (s : State τ) (f : Frame) : State τ :=
  if s.buffering then { s with buffered := s.buffered ++ [f] }
  else { s with buffered := [], toReceiver := s.toReceiver ++ (s.buffered ++ [f]) }

/-- `outputStream.flush` -/
def State.flush (s : State τ) : State τ := { s with buffered := [], toReceiver := s.toReceiver ++ s.buffered }

/-- An operation on the framing by the call with this number. -/
def State.perform (s : State τ) (number : Nat) : FramingOp → State τ
  | .request message => { s.write ⟨.request, message⟩ with sent := s.sent ++ [(number, message)] }
  | .buffering value => (State.write { s with buffering := value } (FramingOp.buffering value).frame).flush

/-- A thread goes on to another place. -/
def State.goto (s : State τ) (t : τ) (place : Thread) : State τ :=
  { s with threads := Function.update s.threads t place }

/-- A thread makes a call. -/
inductive CallStep (t : τ) : State τ → State τ → Prop
  | call (s : State τ) (call : Call) : s.threads t = .idle →
      CallStep t s { s.goto t (.blocked s.calls call) with calls := s.calls + 1 }

/-- A thread goes on with its call. -/
inductive ThreadStep (t : τ) : State τ → State τ → Prop
  | enter (s : State τ) (number : Nat) (call : Call) : s.threads t = .blocked number call → s.owner = none →
      ThreadStep t s { s.goto t (.inside number call call.operations []) with owner := some t }
  | perform (s : State τ) (number : Nat) (call : Call) (op : FramingOp) (operations : List FramingOp)
      (responses : List Message) : s.threads t = .inside number call (op :: operations) responses →
      ThreadStep t s ((s.perform number op).goto t (.inside number call operations responses))
  /-- `readResponse` at a frame that is not a CALLBACK_REQUEST -/
  | read (s : State τ) (number : Nat) (call : Call) (responses : List Message) (f : Frame) (queue : List Frame) :
      s.threads t = .inside number call [] responses → responses.length < call.messages.length → s.toClient = f :: queue →
      f.tag ≠ .callbackRequest →
      ThreadStep t s { s.goto t (.inside number call [] (responses ++ [f.message])) with toClient := queue }
  /-- `readResponse` at a CALLBACK_REQUEST -/
  | callback (s : State τ) (number : Nat) (call : Call) (responses : List Message) (f : Frame) (queue : List Frame)
      (callbackResponse : Message) :
      s.threads t = .inside number call [] responses → responses.length < call.messages.length → s.toClient = f :: queue →
      f.tag = .callbackRequest →
      ThreadStep t s (State.write { s with toClient := queue } ⟨.callbackResponse, callbackResponse⟩)
  | leave (s : State τ) (number : Nat) (call : Call) (responses : List Message) :
      s.threads t = .inside number call [] responses → responses.length = call.messages.length →
      ThreadStep t s { s.goto t .idle with owner := none, returns := s.returns ++ [⟨number, call, responses⟩] }

/-- The message of a REQUEST frame. -/
def requestOf (f : Frame) : List Message := if f.tag = .request then [f.message] else []

/-- The output stream writes out a part of what it buffers, or the receiver does something. -/
inductive ReceiverStep : State τ → State τ → Prop
  | overflow (s : State τ) (f : Frame) (rest : List Frame) : s.buffered = f :: rest →
      ReceiverStep s { s with buffered := rest, toReceiver := s.toReceiver ++ [f] }
  | take (s : State τ) (f : Frame) (queue : List Frame) : s.toReceiver = f :: queue →
      ReceiverStep s { s with toReceiver := queue, taken := s.taken ++ requestOf f }
  | answer (s : State τ) (request response : Message) : s.taken[s.answered.length]? = some request →
      ReceiverStep s { s with
        answered := s.answered ++ [(request, response)], toClient := s.toClient ++ [⟨.response, response⟩] }

/-- A step other than a new call. -/
def Work (s s' : State τ) : Prop := (∃ t, ThreadStep t s s') ∨ ReceiverStep s s'

/-- A step of the system. -/
def Step (s s' : State τ) : Prop := (∃ t, CallStep t s s') ∨ Work s s'

end LibraryLink.Shared
