import LibraryLink.CppFraming
import LibraryLink.Z3Receiver

/-!
# One request after the other, and a batch

`BlockingRequestGenerator.sendRequest` and `sendRequests` on a channel that `process_channel` serves, down to the bytes. A read
gives what it is asked for as soon as it is there, and no callbacks are made, so that the bytes written decide what each side
does next: the receiver goes on as long as there are bytes for it, and a call of the client returns if it then finds its
responses.

Parsing a request and serializing a response are protobuf's and are parameters.
-/

namespace LibraryLink.Cpp.Batch

open Process

variable {S : Type}

/-- What the receiver is linked with: the wrapped library, `ParseFromArray` and `SerializeToString`. -/
structure Linked (S : Type) where
  lib : Library S
  parse : List UInt8 → Request
  serialize : ChannelResponse → List UInt8

/-- A channel: the client's framing, how many of the bytes written out the receiver has read, the bytes on their way to the
client, and the receiver, whose loop may have ended. -/
structure Channel (S : Type) where
  framing : SimpleBinaryFraming := {}
  consumed : Nat := 0
  toClient : List UInt8 := []
  receiver : State S := {}
  ended : Bool := false

/-- The bytes that the receiver can read. -/
def Channel.toReceiver (c : Channel S) : List UInt8 := c.framing.outputStream.base.drop c.consumed

/-- Read calls that give whatever they are asked for. -/
def whole : Cuts := Cuts.const (2 ^ 32) (by decide)

/-- The loop of `process_channel`, at most `n` times, until it waits in `read` or has ended. -/
def processChannel (linked : Linked S) : Nat → Channel S → Channel S
  | 0, c => c
  | n + 1, c =>
    if c.ended ∨ c.toReceiver = [] then c
    else
      match readFrame ⟨c.toReceiver, whole⟩ with
      | .error _ => { c with ended := true }
      | .ok (request, fd) =>
        if request.tag = Tag.stopReceiver.code then { c with ended := true }
        else
          match serve linked.lib {} (linked.parse request.data) c.receiver with
          | .ok (response, s) =>
            processChannel linked n { c with
              consumed := c.framing.outputStream.base.length - fd.bytes.length,
              toClient := c.toClient ++ writeFrame Tag.response.code (linked.serialize response), receiver := s }
          | .error _ => { c with ended := true }

/-- The receiver goes on until it waits; every pass of its loop reads at least one byte. -/
def run (linked : Linked S) (c : Channel S) : Channel S := processChannel linked c.toReceiver.length c

/-- `readByteArray`; none where the bytes do not come. -/
def readByteArray (stream : List UInt8) (length : Nat) : Option (List UInt8 × List UInt8) :=
  if length ≤ stream.length then some (stream.take length, stream.drop length) else none

/-- `SimpleBinaryFraming.read`: the code of the tag, the payload and the rest of the stream. -/
def read (stream : List UInt8) : Option (Nat × List UInt8 × List UInt8) := do
  let (length, stream) ← readByteArray stream 4
  let (tagCode, stream) ← readByteArray stream 4
  let (data, stream) ← readByteArray stream (LittleEndian.decode length)
  return (LittleEndian.decode tagCode, data, stream)

/-- `readResponse`; none where it does not return. There are no callbacks here. -/
def readResponse (c : Channel S) : Option (List UInt8 × Channel S) := do
  let (tag, data, rest) ← read c.toClient
  if tag = Tag.callbackRequest.code then none else return (data, { c with toClient := rest })

/-- Operations on the client's framing. -/
def Channel.perform (c : Channel S) (ops : List FramingOp) : Channel S :=
  { c with framing := ops.foldl SimpleBinaryFraming.perform c.framing }

/-- `sendRequest`; none where it does not return. -/
def sendRequest (linked : Linked S) (c : Channel S) (message : Message) : Option (List UInt8 × Channel S) :=
  readResponse (run linked (c.perform [.request message]))

/-- As many responses as there are messages. -/
def readResponses : List Message → Channel S → Option (List (List UInt8) × Channel S)
  | [], c => some ([], c)
  | _ :: messages, c => do
    let (response, c) ← readResponse c
    let (responses, c) ← readResponses messages c
    return (response :: responses, c)

/-- `sendRequests`; none where it does not return. The receiver may read while the client still writes; what it does depends
on the bytes only. -/
def sendRequests (linked : Linked S) (c : Channel S) (messages : List Message) : Option (List (List UInt8) × Channel S) :=
  readResponses messages (run linked (c.perform (batch messages)))

/-- `sendRequest` on each message in order. -/
def sendEach (linked : Linked S) : Channel S → List Message → Option (List (List UInt8) × Channel S)
  | c, [] => some ([], c)
  | c, message :: messages => do
    let (response, c) ← sendRequest linked c message
    let (responses, c) ← sendEach linked c messages
    return (response :: responses, c)

/-- Between two calls: the framing holds nothing back, and each side has read what the other wrote. -/
structure Channel.Idle (c : Channel S) : Prop where
  buffering : c.framing.buffering = false
  buffer : c.framing.outputStream.buffer = []
  consumed : c.consumed = c.framing.outputStream.base.length
  toClient : c.toClient = []
  ended : c.ended = false

/-- The batch and the single requests return the same responses and leave the receiver in the same state. -/
def SameResult (linked : Linked S) (c : Channel S) (messages : List Message) : Prop :=
  ∃ responses c₁ c₂, sendRequests linked c messages = some (responses, c₁) ∧
    sendEach linked c messages = some (responses, c₂) ∧ c₁.receiver = c₂.receiver

end LibraryLink.Cpp.Batch
