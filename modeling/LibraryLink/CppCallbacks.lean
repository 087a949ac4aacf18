import LibraryLink.Framing
import Mathlib.Logic.Relation

/-!
# Callbacks of the C++ receiver

The loop of `process_channel` against a client thread in `BlockingRequestGenerator.sendRequest`. The client's `readResponse`
answers every `CALLBACK_REQUEST` with a `CALLBACK_RESPONSE` frame. The receiver's `do_callback` writes the `CALLBACK_REQUEST`
and returns: its `read_frame(wrapper_fd)` is commented out, and the frames the client writes meanwhile wait for the loop.

The frames are a queue in each direction. What a handler does is a `Receiver`; what the client sends, and what its callback
receivers answer or send themselves, is left open.
-/

namespace LibraryLink.Cpp.Callbacks

/-- What `process_channel` does between parsing a payload and writing the response: the calls of `do_callback` in turn, and the
response, or none where an exception leaves the handler. -/
structure Handling where
  callbacks : List (List UInt8)
  response : Option (List UInt8)

/-- Parsing and `process_request`, on the state of the receiver's program. -/
structure Receiver (σ : Type) where
  processRequest : σ → List UInt8 → Handling × σ

/-- Which frame is handled: the REQUEST with this number among those taken, or a frame with another tag. -/
inductive Origin where
  | request (number : Nat)
  | other (tag : Tag)
  deriving DecidableEq, Repr

/-- Where `process_channel` stands: in `read_frame`, in a handler, or past its loop. -/
inductive Loop where
  | reading
  | handling (origin : Origin) (rest : Handling)
  | ended

/-- The client, the receiver and the frames between them. `waiting` lists the numbers of the `sendRequest` calls under way,
the innermost first, and `running` says that the client's own code runs, not `readResponse`. From `requests` on the fields
record the payloads of the requests written, in order, the frames taken for requests, the responses written, and what the
`sendRequest` calls returned. -/
structure State (σ : Type) where
  world : σ
  loop : Loop := .reading
  waiting : List Nat := []
  running : Bool := true
  toReceiver : List (Tag × List UInt8) := []
  toClient : List (Tag × List UInt8) := []
  requests : List (List UInt8) := []
  taken : List (Tag × List UInt8) := []
  responses : List (Origin × List UInt8) := []
  returns : List (Nat × List UInt8) := []

variable {σ : Type}

/-- No call has been made. -/
def start (world : σ) : State σ := { world }

/-- The payloads of the REQUEST frames among some frames. -/
def requestsOf (frames : List (Tag × List UInt8)) : List (List UInt8) :=
  frames.filterMap fun f => if f.1 = .request then some f.2 else none

/-- The payloads of the REQUEST frames that the receiver has taken. -/
def State.takenRequests (s : State σ) : List (List UInt8) := requestsOf s.taken

/-- The origin of the next frame with a tag. -/
def State.origin (s : State σ) (tag : Tag) : Origin :=
  if tag = .request then .request s.takenRequests.length else .other tag

/-- A step of the client. -/
inductive ClientStep : State σ → State σ → Prop
  /-- `framing.write(Tag.REQUEST, requestMessage)`, and on to `readResponse` -/
  | sendRequest (s : State σ) (message : List UInt8) : s.running = true →
      ClientStep s { s with
        waiting := s.requests.length :: s.waiting, running := false, toReceiver := s.toReceiver ++ [(.request, message)],
        requests := s.requests ++ [message] }
  /-- `readResponse` takes a CALLBACK_REQUEST, and `handleRequest` runs -/
  | handleRequest (s : State σ) (message : List UInt8) (queue : List (Tag × List UInt8)) : s.running = false →
      s.toClient = (.callbackRequest, message) :: queue → ClientStep s { s with running := true, toClient := queue }
  /-- `framing.write(Tag.CALLBACK_RESPONSE, callbackResponse)`, and on in `readResponse` -/
  | callbackResponse (s : State σ) (response : List UInt8) : s.running = true → s.waiting ≠ [] →
      ClientStep s { s with running := false, toReceiver := s.toReceiver ++ [(.callbackResponse, response)] }
  /-- `readResponse` returns what it takes for the response -/
  | readResponse (s : State σ) (number : Nat) (waiting : List Nat) (tag : Tag) (response : List UInt8)
      (queue : List (Tag × List UInt8)) : s.running = false → s.waiting = number :: waiting →
      s.toClient = (tag, response) :: queue → tag ≠ .callbackRequest →
      ClientStep s { s with
        waiting, running := true, toClient := queue, returns := s.returns ++ [(number, response)] }

/-- A step of the receiver. -/
inductive ReceiverStep (receiver : Receiver σ) : State σ → State σ → Prop
  /-- `read_frame` throws for an empty payload, and the tag 8 is `break` -/
  | leave (s : State σ) (tag : Tag) (message : List UInt8) (queue : List (Tag × List UInt8)) : s.loop = .reading →
      s.toReceiver = (tag, message) :: queue → message = [] ∨ tag = .stopReceiver →
      ReceiverStep receiver s { s with loop := .ended, toReceiver := queue }
  /-- any other frame is parsed and handled as a request -/
  | take (s : State σ) (tag : Tag) (message : List UInt8) (queue : List (Tag × List UInt8)) : s.loop = .reading →
      s.toReceiver = (tag, message) :: queue → message ≠ [] → tag ≠ .stopReceiver →
      ReceiverStep receiver s { s with
        world := (receiver.processRequest s.world message).2,
        loop := .handling (s.origin tag) (receiver.processRequest s.world message).1, toReceiver := queue,
        taken := s.taken ++ [(tag, message)] }
  /-- `do_callback` -/
  | doCallback (s : State σ) (origin : Origin) (message : List UInt8) (callbacks : List (List UInt8))
      (response : Option (List UInt8)) : s.loop = .handling origin ⟨message :: callbacks, response⟩ →
      ReceiverStep receiver s { s with
        loop := .handling origin ⟨callbacks, response⟩, toClient := s.toClient ++ [(.callbackRequest, message)] }
  /-- `write_frame(fd, 1, response_bytes)` -/
  | respond (s : State σ) (origin : Origin) (response : List UInt8) : s.loop = .handling origin ⟨[], some response⟩ →
      ReceiverStep receiver s { s with
        loop := .reading, toClient := s.toClient ++ [(.response, response)],
        responses := s.responses ++ [(origin, response)] }
  /-- an exception leaves `process_channel` -/
  | terminate (s : State σ) (origin : Origin) : s.loop = .handling origin ⟨[], none⟩ →
      ReceiverStep receiver s { s with loop := .ended }

/-- A step of the system: either side moves. -/
def Step (receiver : Receiver σ) (s s' : State σ) : Prop := ClientStep s s' ∨ ReceiverStep receiver s s'

/-- The handler that the receiver begins next does not call `do_callback`. -/
def NoCallback (receiver : Receiver σ) (s : State σ) : Prop :=
  s.loop = .reading → ∀ tag message queue, s.toReceiver = (tag, message) :: queue → message ≠ [] → tag ≠ .stopReceiver →
    (receiver.processRequest s.world message).1.callbacks = []

/-- A step of the system in which no handler that calls `do_callback` is begun. -/
def QuietStep (receiver : Receiver σ) (s s' : State σ) : Prop :=
  ClientStep s s' ∨ ReceiverStep receiver s s' ∧ NoCallback receiver s

end LibraryLink.Cpp.Callbacks
