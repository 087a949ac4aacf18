import LibraryLink.General.ByteSource
import LibraryLink.General.LittleEndian

/-!
# Framing in the Python receiver

`UnixSocketServerChannel` and `SimpleBinaryFraming` of `main.py`. Each part of a frame is one call of `send` or `recv`; the count
that `send` returns is not used, and neither is the length of what `recv` gives, except that an empty length ends the receiver.
-/

namespace LibraryLink.Python

/-- What `write` is given: `to_bytes` raises when a number does not fit four bytes. -/
structure TaggedData where
  tag : Nat
  data : List UInt8
  tag_lt : tag < 2 ^ 32
  size_lt : data.length < 2 ^ 32

/-- The whole frame of a message. -/
def TaggedData.encode (m : TaggedData) : List UInt8 :=
  LittleEndian.encode 4 m.data.length ++ LittleEndian.encode 4 m.tag ++ m.data

/-- The pair that `read` has to return for a message. -/
def TaggedData.pair (m : TaggedData) : Nat × List UInt8 := (m.tag, m.data)

/-- The frames of some messages, one after the other. -/
def encodeAll (messages : List TaggedData) : List UInt8 := messages.flatMap TaggedData.encode

/-! ## Writing -/

/-- The sending half of a stream socket: the bytes it has accepted, and the most that each further call of `send` accepts. -/
structure SendingSocket where
  accepted : List UInt8 := []
  cuts : Cuts

/-- `UnixSocketServerChannel.write`: the count that `send` returns, and the socket after it. -/
def SendingSocket.write (data : List UInt8) (channel : SendingSocket) : Nat × SendingSocket :=
  let count := min data.length (channel.cuts.size 0)
  (count, { accepted := channel.accepted ++ data.take count, cuts := channel.cuts.drop 1 })

/-- `SimpleBinaryFraming.write` -/
def write (channel : SendingSocket) (m : TaggedData) : SendingSocket :=
  let (_, channel) := channel.write (LittleEndian.encode 4 m.data.length)
  let (_, channel) := channel.write (LittleEndian.encode 4 m.tag)
  let (_, channel) := channel.write m.data
  channel

/-- The socket after some messages have been written. -/
def writeAll (messages : List TaggedData) (channel : SendingSocket) : SendingSocket := messages.foldl write channel

/-! ## Reading -/

/-- `SimpleBinaryFraming.read`; none where it calls `exit`. -/
def read (channel : Cut) : Option ((Nat × List UInt8) × Cut) :=
  let (lengthBinary, channel) := channel.read 4
  if lengthBinary.length = 0 then none
  else
    let length := LittleEndian.decode lengthBinary
    let (tagBinary, channel) := channel.read 4
    let tag := LittleEndian.decode tagBinary
    let (messageText, channel) := channel.read length
    some ((tag, messageText), channel)

/-- What at most `n` successive calls of `read` return, on a stream that ends after its last byte. -/
def readAll : Nat → Cut → List (Nat × List UInt8)
  | 0, _ => []
  | n + 1, channel =>
    match read channel with
    | none => []
    | some (r, channel) => r :: readAll n channel

/-! ## What a frame is cut to -/

/-- None of the three calls of each frame is partial. -/
def WholeCalls : List TaggedData → Cuts → Prop
  | [], _ => True
  | m :: ms, c => (4 ≤ c.size 0 ∧ 4 ≤ c.size 1 ∧ m.data.length ≤ c.size 2) ∧ WholeCalls ms (c.drop 3)

/-- The bytes accepted are the frames of the messages. -/
def FramesSent (messages : List TaggedData) (sends : Cuts) : Prop :=
  (writeAll messages { cuts := sends }).accepted = encodeAll messages

/-- However often `read` is called on the frames of the messages, what it returns are these messages. -/
def FramesReceived (messages : List TaggedData) (recvs : Cuts) : Prop :=
  ∀ n, readAll n ⟨encodeAll messages, recvs⟩ = (messages.map TaggedData.pair).take n

end LibraryLink.Python
