import LibraryLink.General.LittleEndian

/-!
# Framing on the Kotlin side

`enum class Tag` and `SimpleBinaryFraming` of `ProcessDataExchange.kt`: a frame is the payload's size, the tag's code and the
payload, the two numbers as four bytes each, least significant first. Frames go through a `BufferedOutputStream`, which is
flushed after each frame unless `buffering` is set.
-/

namespace LibraryLink

/-- The tags of the frames. -/
inductive Tag where
  | request
  | response
  | callbackRequest
  | callbackResponse
  | openChannel
  | deleteFromPersistence
  | startBuffering
  | stopBuffering
  | stopReceiver
  deriving DecidableEq, Repr

/-- The code of a tag on the wire. -/
def Tag.code : Tag → Nat
  | .request => 0
  | .response => 1
  | .callbackRequest => 2
  | .callbackResponse => 3
  | .openChannel => 4
  | .deleteFromPersistence => 5
  | .startBuffering => 6
  | .stopBuffering => 7
  | .stopReceiver => 8

/-- Every tag's code fits one byte. -/
theorem Tag.code_lt (t : Tag) : t.code < 256 := by
  cases t <;> decide

/-- Tags are told apart by their codes. -/
theorem Tag.code_injective : Function.Injective Tag.code := by
  intro a b h
  cases a <;> cases b <;> first | rfl | cases h

/-- A `ByteArray` of the JVM: its size is an `Int`. -/
structure Message where
  bytes : List UInt8
  size_lt : bytes.length < 2 ^ 31

/-- The message `ByteArray(0)`. -/
def Message.empty : Message := ⟨[], by decide⟩

/-- `Int.toByteArray`, for an `Int` that is not negative. -/
def toByteArray (n : Nat) : List UInt8 := LittleEndian.encode 4 n

@[simp] theorem length_toByteArray (n : Nat) : (toByteArray n).length = 4 := LittleEndian.length_encode 4 n

/-- A frame: its tag and its payload. -/
structure Frame where
  tag : Tag
  message : Message

/-- The bytes of a frame. -/
def Frame.encode (f : Frame) : List UInt8 :=
  toByteArray f.message.bytes.length ++ toByteArray f.tag.code ++ f.message.bytes

theorem Frame.length_encode (f : Frame) : f.encode.length = 8 + f.message.bytes.length := by
  simp only [Frame.encode, List.length_append, length_toByteArray]

/-- The bytes of a list of frames, one after the other. -/
def encodeAll (fs : List Frame) : List UInt8 := fs.flatMap Frame.encode

@[simp] theorem encodeAll_nil : encodeAll [] = [] := rfl

@[simp] theorem encodeAll_cons (f : Frame) (fs : List Frame) : encodeAll (f :: fs) = f.encode ++ encodeAll fs := rfl

/-! ## The buffered stream -/

/-- `BufferedOutputStream`: the bytes held back and those written to the stream under it. -/
structure BufferedOutputStream where
  base : List UInt8 := []
  buffer : List UInt8 := []

/-- `val bufferSize = 16 * 1024` -/
def bufferSize : Nat := 16 * 1024

/-- The bytes that go to the stream under the buffer sooner or later. -/
def BufferedOutputStream.all (s : BufferedOutputStream) : List UInt8 := s.base ++ s.buffer

/-- `flush` writes out what is held back. -/
def BufferedOutputStream.flush (s : BufferedOutputStream) : BufferedOutputStream := { base := s.base ++ s.buffer }

/-- `write(byte[])`: an array as large as the buffer goes straight out, one that does not fit any more flushes first. -/
def BufferedOutputStream.write (s : BufferedOutputStream) (b : List UInt8) : BufferedOutputStream :=
  if bufferSize ≤ b.length then { base := s.base ++ s.buffer ++ b }
  else if bufferSize - s.buffer.length < b.length then { base := s.base ++ s.buffer, buffer := b }
  else { s with buffer := s.buffer ++ b }

@[simp] theorem BufferedOutputStream.all_flush (s : BufferedOutputStream) : s.flush.all = s.all := by
  simp [flush, all]

@[simp] theorem BufferedOutputStream.all_write (s : BufferedOutputStream) (b : List UInt8) :
    (s.write b).all = s.all ++ b := by
  unfold write
  split
  · simp [all]
  · split <;> simp [all]

/-! ## `SimpleBinaryFraming` -/

/-- The writing half of a `SimpleBinaryFraming`. -/
structure SimpleBinaryFraming where
  outputStream : BufferedOutputStream := {}
  buffering : Bool := false

namespace SimpleBinaryFraming

/-- `write(tag, message)` -/
def write (s : SimpleBinaryFraming) (tag : Tag) (message : Message) : SimpleBinaryFraming :=
  let out := ((s.outputStream.write (toByteArray message.bytes.length)).write (toByteArray tag.code)).write message.bytes
  { s with outputStream := if s.buffering then out else out.flush }

/-- The setter of `buffering`: the flag is set first, then the frame that announces it is written and flushed. -/
def setBuffering (s : SimpleBinaryFraming) (value : Bool) : SimpleBinaryFraming :=
  let s := write { s with buffering := value } (if value then .startBuffering else .stopBuffering) .empty
  { s with outputStream := s.outputStream.flush }

/-- The stream the framing has produced, with what its buffer still holds. -/
def stream (s : SimpleBinaryFraming) : List UInt8 := s.outputStream.all

/-- A frame written is the frame's bytes at the end of the stream, whether it is flushed or held back. -/
@[simp] theorem stream_write (s : SimpleBinaryFraming) (tag : Tag) (message : Message) :
    (s.write tag message).stream = s.stream ++ (Frame.mk tag message).encode := by
  unfold write stream
  cases s.buffering <;> simp [Frame.encode]

/-- Setting `buffering` writes a control frame with an empty payload, whatever the value was before. -/
@[simp] theorem stream_setBuffering (s : SimpleBinaryFraming) (value : Bool) :
    (s.setBuffering value).stream =
      s.stream ++ (Frame.mk (if value then .startBuffering else .stopBuffering) .empty).encode := by
  have h := stream_write { s with buffering := value } (if value then .startBuffering else .stopBuffering) .empty
  simpa [setBuffering, stream] using h

/-- The stream of a list of frames written one after the other. -/
theorem stream_foldl_write (fs : List Frame) (s : SimpleBinaryFraming) :
    (fs.foldl (fun s f => s.write f.tag f.message) s).stream = s.stream ++ encodeAll fs := by
  induction fs generalizing s with
  | nil => simp
  | cons f fs ih => rw [List.foldl_cons, ih, stream_write, encodeAll_cons, List.append_assoc]

end SimpleBinaryFraming

/-! ## Sequences of operations -/

/-- What a caller does with a framing: write a request, or assign `buffering`. -/
inductive FramingOp where
  | request (message : Message)
  | buffering (value : Bool)

/-- The frame that an operation writes. -/
def FramingOp.frame : FramingOp → Frame
  | .request message => ⟨.request, message⟩
  | .buffering value => ⟨if value then .startBuffering else .stopBuffering, .empty⟩

/-- What `sendRequests` does with the framing. -/
def batch (messages : List Message) : List FramingOp := .buffering true :: (messages.map .request ++ [.buffering false])

/-- An operation carried out. -/
def SimpleBinaryFraming.perform (s : SimpleBinaryFraming) : FramingOp → SimpleBinaryFraming
  | .request message => s.write .request message
  | .buffering value => s.setBuffering value

/-- The stream of a sequence of operations is the frames they write. -/
theorem SimpleBinaryFraming.stream_foldl_perform (ops : List FramingOp) (s : SimpleBinaryFraming) :
    (ops.foldl perform s).stream = s.stream ++ encodeAll (ops.map FramingOp.frame) := by
  induction ops generalizing s with
  | nil => simp
  | cons op ops ih =>
    have h : (s.perform op).stream = s.stream ++ op.frame.encode := by
      cases op with
      | request message => exact stream_write s .request message
      | buffering value => exact stream_setBuffering s value
    rw [List.foldl_cons, ih, h, List.map_cons, encodeAll_cons, List.append_assoc]

end LibraryLink
