import LibraryLink.General.Duplex
import LibraryLink.GoHandler

/-!
# A batch on a channel of the Go receiver

`BlockingRequestGenerator.sendRequests` on one side and `handler` of `main.go` on the other, with what they do to their buffered
streams in order; the two directions of the socket hold so many bytes. The client writes the whole batch before it reads, while
the receiver writes a response after each request.

What is read and written is given by its size only: `handler` goes through the frames that the client wrote, one after the other,
and answers each request with the same ten bytes; the payloads are ones that `Unmarshal` returns from.
-/

namespace LibraryLink.Go.Batch

open Duplex

/-! ## The buffered streams -/

/-- `BufferedOutputStream` and `BufferedInputStream` of the JVM: an array as large as the buffer goes straight out, one that does
not fit any more flushes first. A read that has got a part returns it when the stream under it has nothing available, and
`readByteArray` then fails. -/
def kotlinStreams (outputStream inputStream : Nat) : Buffering where
  write b n :=
    if outputStream ≤ n then (0, b + n)
    else if outputStream - b < n then (n, b)
    else (b + n, 0)
  conserves b n := by
    split
    · exact Nat.zero_add _
    · split
      · exact Nat.add_comm _ _
      · rfl
  readSize := inputStream
  strict := true

/-- `bufio.Writer` and `bufio.Reader`: what fits stays in the buffer; what does not fit an empty buffer goes straight out;
otherwise the buffer is filled and flushed first. `readNumBytes` reads until it has everything. -/
def goStreams (bufferedWriter bufferedReader : Nat) : Buffering where
  write b n :=
    if n ≤ bufferedWriter - b then (b + n, 0)
    else if b = 0 then (0, n)
    else if n - (bufferedWriter - b) ≤ bufferedWriter then (n - (bufferedWriter - b), b + (bufferedWriter - b))
    else (0, b + n)
  conserves b n := by
    split
    · rfl
    · split
      · omega
      · split <;> omega
  readSize := bufferedReader
  strict := false

/-! ## The two programs -/

/-- `SimpleBinaryFraming.write` -/
def write (buffering : Bool) (size : Nat) : List Op :=
  [.write 4, .write 4, .write size] ++ if buffering then [] else [.flush]

/-- The operations on a framing, as operations on its output stream. -/
def framingOps : Bool → List FramingOp → List Op
  | _, [] => []
  | buffering, .request message :: ops => write buffering message.bytes.length ++ framingOps buffering ops
  | _, .buffering value :: ops => write value 0 ++ [.flush] ++ framingOps value ops

/-- `readResponse` on a response with two bytes. -/
def readResponse : List Op := [.read 4, .read 4, .read 2]

/-- `sendRequests` -/
def sendRequests (messages : List Message) : List Op :=
  framingOps false (batch messages) ++ messages.flatMap fun _ => readResponse

/-- The loop of `handler` on the frames it reads, and the read of the next frame, in which it waits. -/
def handler : Bool → List Frame → List Op
  | _, [] => [.read 4]
  | buffering, f :: frames =>
    [.read 4, .read 4] ++
      match f.tag with
      | .startBuffering => handler true frames
      | .stopBuffering => .flush :: handler false frames
      | _ =>
        [.read f.message.bytes.length, .write 4, .write 4, .write 2] ++ (if buffering then [] else [.flush]) ++
          handler buffering frames

/-- The sizes of the two directions of the socket and of the four buffers. -/
structure Sizes where
  toReceiver : Nat
  toClient : Nat
  outputStream : Nat
  inputStream : Nat
  bufferedWriter : Nat
  bufferedReader : Nat
  toReceiver_pos : 0 < toReceiver
  toClient_pos : 0 < toClient
  outputStream_pos : 0 < outputStream
  inputStream_pos : 0 < inputStream
  bufferedWriter_pos : 0 < bufferedWriter
  bufferedReader_pos : 0 < bufferedReader

/-- The connection of these sizes. -/
def Sizes.link (sizes : Sizes) : Link where
  left := kotlinStreams sizes.outputStream sizes.inputStream
  right := goStreams sizes.bufferedWriter sizes.bufferedReader
  rightward := sizes.toReceiver
  leftward := sizes.toClient

/-- Both sides when `sendRequests` is called, and nothing is on its way. -/
def call (messages : List Message) : Conn :=
  start (sendRequests messages) (handler false ((batch messages).map FramingOp.frame))

/-! ## The streams of the bytes -/

/-- A stream of the bytes holds and writes out as many as `kotlinStreams` says. -/
theorem outputStream_write (s : BufferedOutputStream) (b : List UInt8) (inputStream : Nat) :
    ((s.write b).buffer.length, (s.write b).base.length) =
      (kotlinStreams bufferSize inputStream).perform (s.buffer.length, s.base.length) (.write b.length) := by
  unfold BufferedOutputStream.write Buffering.perform kotlinStreams
  simp only
  split
  · simp
  · split <;> simp

/-- A writer of the bytes holds and sends as many as `goStreams` says. -/
theorem writer_write (w : Writer) (p : List UInt8) (bufferedReader : Nat) :
    ((w.write p).buf.length, (w.write p).conn.length) =
      (goStreams writerSize bufferedReader).perform (w.buf.length, w.conn.length) (.write p.length) := by
  unfold Writer.write Buffering.perform goStreams
  simp only [List.length_eq_zero_iff]
  split
  · simp
  · split
    · simp_all
    · split
      · simp only [List.length_append, List.length_drop, List.length_take, Prod.mk.injEq, true_and]
        omega
      · simp

end LibraryLink.Go.Batch
