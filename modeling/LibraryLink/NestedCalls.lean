import LibraryLink.Framing

/-!
# Calls nested between the Kotlin client and the Python receiver

A client thread in `BlockingRequestGenerator.sendRequest` writes a `REQUEST` frame and loops in `readResponse`; the receiver
takes it in `receive`, and executing it may call back: `callback_handler` writes a `CALLBACK_REQUEST` frame and loops for the
answer. Each loop serves the calls of the other side that arrive meanwhile, so both sides recurse. No frame says which call it
answers.

What the two sides' own code does is a `Body`, and payloads are opaque: the bodies of a request and of a callback are given by
`Code`. Numbers on the stacks count the requests the client has written and the receiver has taken, the callbacks the receiver
has written and the client has taken, each side by itself: they are not on the wire.
-/

namespace LibraryLink.Nested

/-- What a side does for a call: work on the state of the two programs, call the other side, and end with a reply. -/
inductive Body (σ P : Type) where
  | done (reply : P)
  | act (f : σ → σ) (next : σ → Body σ P)
  | call (message : P) (next : P → Body σ P)

/-- What the receiver does for a request, and what the client's callback receivers do for a callback. -/
structure Code (σ P : Type) where
  processRequest : P → Body σ P
  handleRequest : P → Body σ P

/-- An activation on the client's stack. Its origin is the callback it handles, or none for the code that calls the outermost
`sendRequest`; `waiting` is a `sendRequest` in the loop of `readResponse`, with the number of its request. -/
inductive ClientFrame (σ P : Type) where
  | running (origin : Option Nat) (body : Body σ P)
  | waiting (origin : Option Nat) (request : Nat) (next : P → Body σ P)

/-- An activation on the receiver's stack: a `process_request`, with the number of its request; `waiting` is one whose
execution is in the loop of `callback_handler`, with the number of its callback. -/
inductive ReceiverFrame (σ P : Type) where
  | running (request : Nat) (body : Body σ P)
  | waiting (request : Nat) (callback : Nat) (next : P → Body σ P)

/-- The two programs and the frames between them. The fields from `requests` on record what happened: the messages of the
requests written and taken and of the callbacks written and taken, in order, and for the numbers of the calls the payloads
that the one side answered with and the other side got. -/
structure State (σ P : Type) where
  world : σ
  client : List (ClientFrame σ P)
  receiver : List (ReceiverFrame σ P) := []
  toReceiver : List (Tag × P) := []
  toClient : List (Tag × P) := []
  /-- A `process_request` raised: the frame's tag was not one it serves. -/
  raised : Bool := false
  requests : List P := []
  processed : List P := []
  callbacks : List P := []
  handled : List P := []
  responses : List (Nat × P) := []
  returns : List (Nat × P) := []
  callbackResponses : List (Nat × P) := []
  callbackReturns : List (Nat × P) := []

variable {σ P : Type}

/-- The client calls the outermost `sendRequest`; the receiver is in `receive`. -/
def start (world : σ) (message : P) : State σ P :=
  { world, client := [.running none (.call message .done)] }

/-- One step of the client's thread; `none` where it waits for a frame or has come to its end. -/
def clientStep (code : Code σ P) (s : State σ P) : Option (State σ P) :=
  match s.client with
  | .running o (.act f next) :: cs =>
    some { s with world := f s.world, client := .running o (next (f s.world)) :: cs }
  | .running o (.call message next) :: cs =>
    -- `sendRequest`: `framing.write(Tag.REQUEST, requestMessage)`
    some { s with client := .waiting o s.requests.length next :: cs, toReceiver := s.toReceiver ++ [(.request, message)],
                  requests := s.requests ++ [message] }
  | .running (some m) (.done reply) :: cs =>
    -- `framing.write(Tag.CALLBACK_RESPONSE, callbackResponse)`, and back to the loop of `readResponse`
    some { s with client := cs, toReceiver := s.toReceiver ++ [(.callbackResponse, reply)],
                  callbackResponses := s.callbackResponses ++ [(m, reply)] }
  | .running none (.done _) :: _ => none
  | .waiting o n next :: cs =>
    match s.toClient with
    | [] => none
    | (tag, payload) :: queue =>
      if tag = .callbackRequest then
        some { s with client := .running (some s.handled.length) (code.handleRequest payload) :: .waiting o n next :: cs,
                      toClient := queue, handled := s.handled ++ [payload] }
      else
        some { s with client := .running o (next payload) :: cs, toClient := queue, returns := s.returns ++ [(n, payload)] }
  | [] => none

/-- `process_request` on a frame: a request starts an execution, any other tag ends in an exception. -/
def processRequest (code : Code σ P) (s : State σ P) (tag : Tag) (payload : P) : State σ P :=
  if tag = .request then
    { s with receiver := .running s.processed.length (code.processRequest payload) :: s.receiver,
             processed := s.processed ++ [payload] }
  else { s with raised := true }

/-- One step of the receiver's thread; `none` where it waits for a frame or has ended. -/
def receiverStep (code : Code σ P) (s : State σ P) : Option (State σ P) :=
  if s.raised then none else
  match s.receiver with
  | [] =>
    -- the loop of `receive`
    match s.toReceiver with
    | [] => none
    | (tag, payload) :: queue => some (processRequest code { s with toReceiver := queue } tag payload)
  | .running n (.act f next) :: rs =>
    some { s with world := f s.world, receiver := .running n (next (f s.world)) :: rs }
  | .running n (.call message next) :: rs =>
    -- `callback_handler`: `self.framing.write(…, Tag.CALLBACK_REQUEST.value)`
    some { s with receiver := .waiting n s.callbacks.length next :: rs,
                  toClient := s.toClient ++ [(.callbackRequest, message)], callbacks := s.callbacks ++ [message] }
  | .running n (.done reply) :: rs =>
    some { s with receiver := rs, toClient := s.toClient ++ [(.response, reply)],
                  responses := s.responses ++ [(n, reply)] }
  | .waiting n m next :: rs =>
    -- the loop of `callback_handler`: a frame with any other tag is dropped
    match s.toReceiver with
    | [] => none
    | (tag, payload) :: queue =>
      if tag = .callbackResponse then
        some { s with receiver := .running n (next payload) :: rs, toReceiver := queue,
                      callbackReturns := s.callbackReturns ++ [(m, payload)] }
      else if tag = .request then
        some (processRequest code { s with toReceiver := queue } tag payload)
      else some { s with toReceiver := queue }

/-- A step of the system: either side moves. -/
def Step (code : Code σ P) (s s' : State σ P) : Prop := clientStep code s = some s' ∨ receiverStep code s = some s'

/-- The outermost `sendRequest` has returned. -/
def Finished (s : State σ P) : Prop := ∃ reply, s.client = [.running none (.done reply)]

/-- The client waits in `framing.read` and there is no frame for it. -/
def ClientWaits (s : State σ P) : Prop := (∃ o n next cs, s.client = .waiting o n next :: cs) ∧ s.toClient = []

/-- The receiver waits in `framing.read`, of `receive` or of `callback_handler`, and there is no frame for it. -/
def ReceiverWaits (s : State σ P) : Prop :=
  (s.receiver = [] ∨ ∃ n m next rs, s.receiver = .waiting n m next :: rs) ∧ s.toReceiver = []

/-! ## What the nested calls mean -/

/-- A finite tree of calls: the message, the calls made back while it is served, and the reply. -/
inductive CallTree (P : Type) where
  | node (message : P) (nested : List (CallTree P)) (reply : P)

/-- A body run as if each call were a call of the other side's body on the spot: from one state to another, through a finite
list of call trees, to a reply. `self` is what the running side does for a call, `peer` what the other side does. -/
inductive Evaluates : (self peer : P → Body σ P) → σ → Body σ P → List (CallTree P) → σ → P → Prop
  | done {self peer w reply} : Evaluates self peer w (.done reply) [] w reply
  | act {self peer w f next ts w' reply} :
      Evaluates self peer (f w) (next (f w)) ts w' reply → Evaluates self peer w (.act f next) ts w' reply
  | call {self peer w message next ts w₁ value us w₂ reply} :
      Evaluates peer self w (peer message) ts w₁ value → Evaluates self peer w₁ (next value) us w₂ reply →
        Evaluates self peer w (.call message next) (.node message ts value :: us) w₂ reply

/-- A request that the receiver serves through a finite tree of calls. -/
def Serves (code : Code σ P) (w : σ) (tree : CallTree P) (w' : σ) : Prop :=
  match tree with
  | .node message nested reply =>
    Evaluates code.processRequest code.handleRequest w (code.processRequest message) nested w' reply

end LibraryLink.Nested
