import LibraryLink.CppBatch
import LibraryLink.CppChannels
import LibraryLink.General.Linearizable

/-!
# A channel for each thread

`ThreadLocalRequestGenerator.sendRequest`, called by any number of threads, on the C++ receiver: each thread has a framing of its
own, on a channel of its own, and each channel has a loop of `process_channel`. Writing a request, a turn of a loop and reading a
response are one step each; the steps of different threads come in any order. No callbacks are made, and a
read returns all that it asks for.

A channel has the number of its thread, the `channelID` of the Kotlin side.
-/

namespace LibraryLink.ThreadLocalGenerator

open Linearizable (Event)
open Cpp (readFrame writeFrame ChannelRequest)
open Cpp.Process (Server State serve)
open Cpp.Batch (Linked whole)

variable {S : Type}

/-- What a thread has of its channel: the framing, how many of the bytes written out the receiver has read, how many of those that the
receiver wrote the thread has read, and the call that it is in. -/
structure Link where
  framing : SimpleBinaryFraming := {}
  consumed : Nat := 0
  received : Nat := 0
  call : Option Nat := none

/-- The bytes that the loop of the channel can read. -/
def Link.toReceiver (link : Link) : List UInt8 := link.framing.outputStream.base.drop link.consumed

/-- What `read_frame` returns or throws in the loop of the channel. -/
def Link.readFrame (link : Link) : Except String (ChannelRequest × Cut) := Cpp.readFrame ⟨link.toReceiver, whole⟩

/-- The frame is read. -/
def Link.advance (link : Link) : Link :=
  match link.readFrame with
  | .ok (_, fd) => { link with consumed := link.framing.outputStream.base.length - fd.bytes.length }
  | .error _ => link

/-- The receiver, whether its process still runs, and `localFraming` of each thread, none before its first use. The calls are numbered
in the order they were made in; history and numbers record what happened. -/
structure System (S : Type) where
  server : Server S := {}
  running : Bool := true
  localFraming : Nat → Option Link := fun _ => none
  calls : Nat := 0
  history : List (Event Nat Message (List UInt8)) := []

/-- The bytes that the receiver has written to the channel of a thread. -/
def System.written (linked : Linked S) (v : System S) (t : Nat) : List UInt8 :=
  (v.server.written t).flatMap fun response => writeFrame Tag.response.code (linked.serialize response)

/-- A turn of the loop of a channel; a fault ends the process. -/
def System.turn (linked : Linked S) (v : System S) (t : Nat) (link : Link) : System S :=
  match v.server.turn linked.parse linked.lib {} t (link.readFrame.map Prod.fst) with
  | some server => { v with server, localFraming := Function.update v.localFraming t (some link.advance) }
  | none => { v with running := false }

/-- A step of a thread, or of the loop of its channel. -/
inductive Step (linked : Linked S) (t : Nat) : System S → System S → Prop
  /-- `ThreadLocal.withInitial` -/
  | connect (v : System S) : v.running = true → v.localFraming t = none →
      Step linked t v { v with
        server := v.server.accept t, localFraming := Function.update v.localFraming t (some {}) }
  /-- `framing.write` of `sendRequest` -/
  | write (v : System S) (link : Link) (requestMessage : Message) : v.localFraming t = some link → link.call = none →
      Step linked t v { v with
        localFraming := Function.update v.localFraming t
          (some { link with framing := link.framing.write .request requestMessage, call := some v.calls })
        calls := v.calls + 1
        history := v.history ++ [.call v.calls t requestMessage] }
  /-- a turn of the loop, which waits as long as there is nothing to read -/
  | turn (v : System S) (link : Link) : v.running = true → t ∈ v.server.channels → v.localFraming t = some link →
      link.toReceiver ≠ [] → Step linked t v (v.turn linked t link)
  /-- `readResponse` of `sendRequest`, and its return -/
  | read (v : System S) (link : Link) (n tag : Nat) (data rest : List UInt8) : v.localFraming t = some link →
      link.call = some n → Cpp.Batch.read ((v.written linked t).drop link.received) = some (tag, data, rest) →
      tag ≠ Tag.callbackRequest.code →
      Step linked t v { v with
        localFraming := Function.update v.localFraming t
          (some { link with received := (v.written linked t).length - rest.length, call := none })
        history := v.history ++ [.ret n data] }

/-- The receiver as an object with one operation: a request, with the payload of its response. -/
def request (linked : Linked S) (requestMessage : Message) (s : State S) : Option (List UInt8 × State S) :=
  match serve linked.lib {} (linked.parse requestMessage.bytes) s with
  | .ok out => some (linked.serialize out.1, out.2)
  | .error _ => none

end LibraryLink.ThreadLocalGenerator
