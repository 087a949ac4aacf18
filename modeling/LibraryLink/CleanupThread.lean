import LibraryLink.Framing
import LibraryLink.KotlinExchange

/-!
# The cleanup thread

`SimpleTextProcessDataExchange` with `bindTo`, `registerReference` and `HandleReferenceQueue` of `ProcessDataExchange.kt`: a handle
that is bound gets a phantom reference with the id it has then; the garbage collector puts the reference of a handle that is
unreachable into the queue; and the cleanup thread sends a message to delete the id for each reference that it takes from there.
-/

namespace LibraryLink.Kotlin

/-! ## Messages -/

/-- A digit of an escape. -/
def hexDigit (n : Nat) : Char := if n < 10 then Char.ofNat (48 + n) else Char.ofNat (55 + n)

/-- A character in a string that `mapper.writeValueAsString` writes. -/
def escape (c : Char) : List Char :=
  if c = '"' then ['\\', '"']
  else if c = '\\' then ['\\', '\\']
  else if c = '\x08' then ['\\', 'b']
  else if c = '\t' then ['\\', 't']
  else if c = '\n' then ['\\', 'n']
  else if c = '\x0c' then ['\\', 'f']
  else if c = '\r' then ['\\', 'r']
  else if c.toNat < 32 then ['\\', 'u', '0', '0', hexDigit (c.toNat / 16), hexDigit (c.toNat % 16)]
  else [c]

/-- `mapper.writeValueAsString(mapOf("delete" to id))` -/
def deleteMessage (id : String) : String :=
  "\x7b\"delete\":\"" ++ String.ofList (id.toList.flatMap escape) ++ "\"\x7d"

/-- What `makeChannelRequest` has `sendRequest` write: the text as UTF-8, in a frame of a request. -/
def channelRequest (requestMessage : String) : Tag × List UInt8 := (.request, requestMessage.toUTF8.data.toList)

/-- `class ChannelResponse` -/
structure ChannelResponse where
  returnValue : AnyValue := .null
  exceptionMessage : Option String := none

/-- `makeRequest`, from the response on. -/
def textResponse (channelResponse : ChannelResponse) : Except Thrown ProcessExchangeResponse :=
  match channelResponse.exceptionMessage with
  | some message => .error (.libraryLink message)
  | none => .ok (.primitive channelResponse.returnValue "")

/-! ## Handles and references -/

/-- A `Handle`, and whether the program can reach it. -/
structure HandleObject where
  assignedID : Option String := none
  reachable : Bool := true

/-- A `HandlePhantomReference`, and whether it was put into the queue. -/
structure PhantomReference where
  handle : Nat
  assignedID : String
  enqueued : Bool := false

/-- A message of the cleanup thread, with the ids that live handles had when it was sent. -/
structure Deletion where
  assignedID : String
  live : List String
  deriving DecidableEq, Repr

/-- The responses, the handles and their references, the queue with the numbers of references, whether the thread still runs, and the
messages it has sent. -/
structure Client where
  responses : List ProcessExchangeResponse := []
  handles : List HandleObject := []
  references : List PhantomReference := []
  refqueue : List Nat := []
  running : Bool := true
  deletions : List Deletion := []

/-- The ids of the live handles. -/
def Client.live (c : Client) : List String := c.handles.filterMap fun h => if h.reachable then h.assignedID else none

/-- What happens next: a request is made and answered, a handle is created, a response is bound to a handle, a handle becomes
unreachable, the collector enqueues a reference, or the thread takes one; an exception in it, such as one of `sendRequest`, ends the
thread. -/
inductive ClientAction where
  | request (channelResponse : ChannelResponse)
  | create
  | bindTo (response handle : Nat)
  | drop (handle : Nat)
  | enqueue (reference : Nat)
  | cleanup (throws : Bool)

/-- A step. -/
def Client.step (c : Client) : ClientAction → Option Client
  | .request channelResponse =>
    match textResponse channelResponse with
    | .ok response => some { c with responses := c.responses ++ [response] }
    | .error _ => some c
  | .create => some { c with handles := c.handles ++ [{}] }
  | .bindTo response handle =>
    match c.responses[response]?, c.handles[handle]? with
    | some r, some h =>
      if h.reachable then
        -- `handle.assignedID = this.assignedID`, then `registerReference()`
        some { c with handles := c.handles.set handle { h with assignedID := some r.assignedID },
                      references := c.references ++ [{ handle, assignedID := r.assignedID }] }
      else none
    | _, _ => none
  | .drop handle =>
    match c.handles[handle]? with
    | some h => some { c with handles := c.handles.set handle { h with reachable := false } }
    | none => none
  | .enqueue reference =>
    match c.references[reference]? with
    | some ref =>
      match c.handles[ref.handle]? with
      | some h =>
        if h.reachable = false ∧ ref.enqueued = false then
          some { c with references := c.references.set reference { ref with enqueued := true },
                        refqueue := c.refqueue ++ [reference] }
        else none
      | none => none
    | none => none
  | .cleanup throws =>
    match c.running, c.refqueue with
    | true, reference :: refqueue =>
      match c.references[reference]? with
      | some ref =>
        some { c with refqueue, running := !throws, deletions := c.deletions ++ [{ assignedID := ref.assignedID, live := c.live }] }
      | none => none
    | _, _ => none

/-- The property: a message to delete an id is sent only when no live handle has that id. -/
def Client.Safe (c : Client) : Prop := ∀ d ∈ c.deletions, d.assignedID ∉ d.live

end LibraryLink.Kotlin
