import LibraryLink.Framing
import LibraryLink.General.ByteSource

/-!
# Framing in the C++ receiver

`read_value`, `read_block`, `read_frame` and `write_frame` of `main.cpp`. Each of the first two makes a single `read` call into
a zeroed buffer and looks at its result only to tell zero from the rest: zero is taken for the end of the stream.
-/

namespace LibraryLink.Cpp

/-- `channel_request`: length, tag, payload. -/
structure ChannelRequest where
  length : Nat
  tag : Nat
  data : List UInt8
  deriving DecidableEq, Repr

/-- What the readers throw when a `read` call returns zero. -/
def connectionClosed : String := "Connection closed"

/-- A zeroed buffer of `n` bytes after `read` has put some bytes at its front. -/
def filled (n : Nat) (got : List UInt8) : List UInt8 := got ++ List.replicate (n - got.length) 0

/-- `read_value<uint32_t>` -/
def readValue (fd : Cut) : Except String (Nat × Cut) :=
  let (got, fd) := fd.read 4
  if got.length = 0 then .error connectionClosed
  else .ok (LittleEndian.decode (filled 4 got), fd)

/-- `read_block` -/
def readBlock (fd : Cut) (length : Nat) : Except String (List UInt8 × Cut) :=
  let (got, fd) := fd.read length
  if got.length = 0 then .error connectionClosed
  else .ok (filled length got, fd)

/-- `read_frame` -/
def readFrame (fd : Cut) : Except String (ChannelRequest × Cut) := do
  let (length, fd) ← readValue fd
  let (tag, fd) ← readValue fd
  let (data, fd) ← readBlock fd length
  return (⟨length, tag, data⟩, fd)

/-- `write_frame` -/
def writeFrame (tag : Nat) (message : List UInt8) : List UInt8 :=
  LittleEndian.encode 4 message.length ++ LittleEndian.encode 4 tag ++ message

/-- At most `n` successive calls of `read_frame`: the frames they return, and what the first call that fails throws. -/
def readFrames : Nat → Cut → List ChannelRequest × Option String
  | 0, _ => ([], none)
  | n + 1, fd =>
    match readFrame fd with
    | .error e => ([], some e)
    | .ok (r, fd) => (r :: (readFrames n fd).1, (readFrames n fd).2)

/-- What `read_frame` has to return for a frame. -/
def expected (f : Frame) : ChannelRequest := ⟨f.message.bytes.length, f.tag.code, f.message.bytes⟩

/-! ## One call -/

/-- `read_value` on a stream that is not at its end. -/
theorem readValue_eq (bytes : List UInt8) (c : Cuts) (h : bytes ≠ []) :
    readValue ⟨bytes, c⟩ =
      .ok (LittleEndian.decode (bytes.take (min 4 (c.size 0))), ⟨bytes.drop (min 4 (c.size 0)), c.drop 1⟩) := by
  have hpos := c.pos 0
  have hlen := List.length_pos_iff.mpr h
  have hne : (bytes.take (min 4 (c.size 0))).length ≠ 0 := by rw [List.length_take]; omega
  simp only [readValue, Cut.read, hne, if_false, filled, LittleEndian.decode_append_zeros]

/-- `read_value` at the end of the stream. -/
theorem readValue_nil (c : Cuts) : readValue ⟨[], c⟩ = .error connectionClosed := by
  simp [readValue, Cut.read]

/-- `read_block` on a stream that is not at its end, asked for at least one byte. -/
theorem readBlock_eq (bytes : List UInt8) (c : Cuts) (n : Nat) (h : bytes ≠ []) (hn : n ≠ 0) :
    readBlock ⟨bytes, c⟩ n =
      .ok (filled n (bytes.take (min n (c.size 0))), ⟨bytes.drop (min n (c.size 0)), c.drop 1⟩) := by
  have hpos := c.pos 0
  have hlen := List.length_pos_iff.mpr h
  have hne : (bytes.take (min n (c.size 0))).length ≠ 0 := by rw [List.length_take]; omega
  simp only [readBlock, Cut.read, hne, if_false]

/-- `read_block` asked for no byte reports a closed connection, wherever the stream stands. -/
theorem readBlock_zero (fd : Cut) : readBlock fd 0 = .error connectionClosed := by
  simp [readBlock, Cut.read]

end LibraryLink.Cpp
