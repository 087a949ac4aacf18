import LibraryLink.CppBytes
import LibraryLink.TypedSessions

/-!
# Sessions over the bytes of a channel

`ProtoBufDataExchange.makeRequest` down to the channel: `toByteArray`, `sendRequest` of a `BlockingRequestGenerator` to
`process_channel`, and `parseFrom`. The class that parses a response is generated when the client is built, and a parameter.
-/

namespace LibraryLink.Cpp.Process

/-- A number as the 64 bits in which it is sent. -/
def Result.toInt64 : Result → Result
  | .returnValue n => .returnValue (n.bmod (2 ^ 64))
  | result => result

/-- A response with its number so. -/
def ChannelResponse.toInt64 (resp : ChannelResponse) : ChannelResponse := { resp with result := resp.result.map Result.toInt64 }

end LibraryLink.Cpp.Process

namespace LibraryLink.Kotlin

open Cpp.Batch (Linked Channel)

variable {S : Type}

/-- Protobuf as the client has it: whether a method call has the field `doGetReturnValue`, and `parseFrom` of a `ChannelResponse`. -/
structure Protocol where
  declared : Bool
  parseFrom : List UInt8 → Exchange.ChannelResponse

/-- `parseFrom` reads what the receiver serializes. -/
structure Protocol.Lawful (protocol : Protocol) : Prop where
  parseFrom : ∀ resp : Cpp.Process.ChannelResponse,
    (Protobuf.encode (Exchange.ChannelResponse.ofReceiver resp).fields).length < 2 ^ 31 →
      protocol.parseFrom (Protobuf.encode (Exchange.ChannelResponse.ofReceiver resp).fields) = .ofReceiver resp.toInt64

/-- Both sides have protobuf: the receiver the classes generated for it, over a library that reads what is written, and the client. -/
structure Connected (linked : Linked S) (protocol : Protocol) : Prop where
  receiver : ∃ w : Protobuf.WireReader, w.Lawful ∧ Cpp.Messages.Generated w linked
  client : protocol.Lawful

/-- `sendRequest` between `toByteArray` and `parseFrom`, on a channel; a message that is no array is not sent. -/
def sendBinary (linked : Linked S) (protocol : Protocol) (requestMessage : Exchange.Request) (c : Channel S) :
    Except Thrown (Exchange.ChannelResponse × Channel S) :=
  if h : (Protobuf.encode (requestMessage.fields protocol.declared)).length < 2 ^ 31 then
    match Cpp.Batch.sendRequest linked c ⟨_, h⟩ with
    | some (responseBinary, c) => .ok (protocol.parseFrom responseBinary, c)
    | none => .error .closed
  else .error .closed

namespace Z3Kotlin

/-- A size and an index are of type `Int`. -/
def Call.InInts : Call → Prop
  | .wrapper _ _ _ => True
  | .makeArray _ size => size < 2 ^ 31
  | .get _ _ index => index < 2 ^ 31
  | .set _ _ index _ => index < 2 ^ 31

/-- The sessions on a channel that has just been opened to a receiver that has just started: well-typed calls that returned, for each
of which there was an id left, and in between what the receiver does for others. -/
inductive ByteSession (linked : Linked S) (protocol : Protocol) : Context → Channel S → Prop
  | start : ByteSession linked protocol [] {}
  | call (call : Call) (returned : Option Instance) (Γ : Context) (c c' : Channel S) : ByteSession linked protocol Γ c →
      c.receiver.drawn.length < 2 ^ 64 → call.WellTyped Γ → call.InInts →
      call.run (sendBinary linked protocol) c = .ok (returned, c') → ByteSession linked protocol (Γ.bind call.returned returned) c'
  | other (Γ : Context) (c : Channel S) (s : Cpp.Process.State S) : ByteSession linked protocol Γ c →
      Cpp.Process.IdStep c.receiver s → ByteSession linked protocol Γ { c with receiver := s }

end Z3Kotlin

end LibraryLink.Kotlin
