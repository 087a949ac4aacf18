import LibraryLink.Framing
import Mathlib.Logic.Relation

/-!
# Nested calls and exceptions

The loops of `NestedCalls` once more, for callback receivers that may throw. An exception of a callback receiver goes through
`handleRequest`, `readResponse` and `sendRequest` to the code that called `sendRequest`: another callback receiver, or the
outermost caller. Nothing is written on its way, so the receiver stays where it is, in `callback_handler`. On the other side an
exception of Python code ends in `execute_command`, but one of `process_request` itself goes on to the loop that called it.

What either side's own code does next is an `Action`; payloads are opaque. The outermost calls may be made by any threads:
`synchronized(framing)` lets one go on at a time.
-/

namespace LibraryLink.Throwing

/-- A `sendRequest` under way, with the number of its request. `left` records of the callback receiver that runs on top of it
that an exception has left a `sendRequest` which that receiver called. -/
structure Waiting where
  request : Nat
  left : Bool := false
  deriving DecidableEq, Repr

/-- The two sides and the frames between them.

On the client's side `waiting` has the `sendRequest` calls under way, the innermost first; `running` says that the client's own
code runs, on top of the innermost, and not `readResponse`. On the receiver's side `executing` has the numbers of the requests
under way, the innermost first; `reading` says that the receiver is in a loop, of `callback_handler` or, where nothing is under
way, of `receive`. The fields from `requests` on record the messages of the requests written and taken, in order, and the payloads
that requests were answered with and that `sendRequest` calls returned. -/
structure State (P : Type) where
  waiting : List Waiting := []
  running : Bool := true
  executing : List Nat := []
  reading : Bool := true
  ended : Bool := false
  toReceiver : List (Tag × P) := []
  toClient : List (Tag × P) := []
  requests : List P := []
  taken : List P := []
  responses : List (Nat × P) := []
  returns : List (Nat × P) := []

variable {P : Type}

/-- What happens next. The client's code calls `sendRequest`, or is a callback receiver that returns or throws; `readResponse`
takes a frame. The receiver's loop takes a frame; the code that it executes calls back, or comes to its end, or
`process_request` raises. -/
inductive Action (P : Type) where
  | sendRequest (message : P)
  | returnCallback (response : P)
  | throwCallback
  | readResponse
  | take
  | doCallback (message : P)
  | respond (response : P)
  | raise

/-- `left` is set of the callback receiver that an exception has come to, if it has come to one. -/
def markLeft : List Waiting → List Waiting
  | [] => []
  | w :: ws => { w with left := true } :: ws

/-- A step of `readResponse` and the code around it. -/
def clientStep (s : State P) : Action P → Option (State P)
  | .sendRequest message =>
    -- `framing.write(Tag.REQUEST, requestMessage)`
    if s.running then
      some { s with waiting := { request := s.requests.length } :: s.waiting, running := false,
                    toReceiver := s.toReceiver ++ [(.request, message)], requests := s.requests ++ [message] }
    else none
  | .returnCallback response =>
    -- `framing.write(Tag.CALLBACK_RESPONSE, callbackResponse)`
    if s.running ∧ s.waiting ≠ [] then
      some { s with running := false, toReceiver := s.toReceiver ++ [(.callbackResponse, response)] }
    else none
  | .throwCallback =>
    match s.running, s.waiting with
    | true, _ :: ws => some { s with waiting := markLeft ws }
    | _, _ => none
  | .readResponse =>
    match s.running, s.waiting, s.toClient with
    | false, w :: ws, (tag, payload) :: queue =>
      if tag = .callbackRequest then
        some { s with waiting := { w with left := false } :: ws, running := true, toClient := queue }
      else
        some { s with waiting := ws, running := true, toClient := queue, returns := s.returns ++ [(w.request, payload)] }
    | _, _, _ => none
  | _ => none

/-- A step of `receive`, `callback_handler` and `process_request`. -/
def receiverStep (s : State P) : Action P → Option (State P)
  | .take =>
    match s.reading, s.toReceiver with
    | true, (tag, payload) :: queue =>
      if tag = .request then
        some { s with executing := s.taken.length :: s.executing, reading := false, toReceiver := queue,
                      taken := s.taken ++ [payload] }
      else if s.executing = [] then
        -- `process_request` raises for any other tag, and `receive` ends
        some { s with reading := false, ended := true, toReceiver := queue }
      else if tag = .callbackResponse then some { s with reading := false, toReceiver := queue }
      else some { s with toReceiver := queue }
    | _, _ => none
  | .doCallback message =>
    match s.reading, s.executing with
    | false, _ :: _ => some { s with reading := true, toClient := s.toClient ++ [(.callbackRequest, message)] }
    | _, _ => none
  | .respond response =>
    match s.reading, s.executing with
    | false, n :: ns =>
      some { s with executing := ns, reading := true, toClient := s.toClient ++ [(.response, response)],
                    responses := s.responses ++ [(n, response)] }
    | _, _ => none
  | .raise =>
    match s.reading, s.executing with
    | false, [_] => some { s with executing := [], ended := true }
    | false, _ :: n :: ns =>
      -- through the `callback_handler` that called `process_request`, into the code that had called back
      some { s with executing := n :: ns }
    | _, _ => none
  | _ => none

/-- A step of the system; none where the action is not possible. -/
def step (s : State P) (a : Action P) : Option (State P) := (clientStep s a).or (receiverStep s a)

/-- No callback receiver returns after an exception has left a `sendRequest` that it called, and no `process_request` that
`callback_handler` called raises. -/
def Allowed (s : State P) : Action P → Prop
  | .returnCallback _ => ∀ w ∈ s.waiting.head?, w.left = false
  | .raise => s.executing.length ≤ 1
  | _ => True

/-- A step in which nothing of this happens. -/
def AllowedStep (s s' : State P) : Prop := ∃ a, step s a = some s' ∧ Allowed s a

/-- Any step. -/
def AnyStep (s s' : State P) : Prop := ∃ a, step s a = some s'

/-- Requests are taken in the order they were written in, each one is answered once at most, and every `sendRequest` that has
returned has the response to its own request. -/
structure Right (s : State P) : Prop where
  inOrder : s.taken <+: s.requests
  oneResponse : (s.responses.map Prod.fst).Nodup
  returned : ∀ n payload, (n, payload) ∈ s.returns → (n, payload) ∈ s.responses

end LibraryLink.Throwing
