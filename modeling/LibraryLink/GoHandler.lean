import LibraryLink.Framing
import LibraryLink.General.ByteSource
import LibraryLink.GoMessages

/-!
# The handler of the Go receiver

`readNumBytes` and `handler` of `main.go`. The connection is read through a `bufio.Reader`, which may give any part of what it
is asked for, and written through a `bufio.Writer`, which holds bytes back until it is full or flushed.
-/

namespace LibraryLink.Go

variable {σ : Type} [ByteSource σ]

/-- The loop of `readNumBytes`: `got` are the bytes before `marker`. A read that gives nothing is the end of the stream, at
which the buffer is returned as it is, zeros and all, with an error. -/
def readLoop (num : Nat) (got : List UInt8) (reader : σ) : List UInt8 × Bool × σ :=
  if got.length < num then
    match ByteSource.read reader (num - got.length) with
    | ([], reader) => (got ++ List.replicate (num - got.length) 0, true, reader)
    | (b :: bs, reader) => readLoop num (got ++ b :: bs) reader
  else (got, false, reader)
termination_by num - got.length
decreasing_by simp only [List.length_append, List.length_cons]; omega

/-- `readNumBytes`: the buffer, whether there was an error, and the reader. -/
def readNumBytes (reader : σ) (num : Nat) : List UInt8 × Bool × σ := readLoop num [] reader

/-! ## The writer -/

/-- A `bufio.Writer` on a connection. -/
structure Writer where
  conn : List UInt8 := []
  buf : List UInt8 := []

/-- `16*1024` -/
def writerSize : Nat := 16 * 1024

namespace Writer

/-- Every byte written, sent or held back. -/
def all (w : Writer) : List UInt8 := w.conn ++ w.buf

/-- `Flush` -/
def flush (w : Writer) : Writer := { conn := w.conn ++ w.buf }

/-- `Write`: what fits the buffer stays there; what does not fit an empty buffer goes straight out; otherwise the buffer is
filled and flushed first. -/
def write (w : Writer) (p : List UInt8) : Writer :=
  let room := writerSize - w.buf.length
  if p.length ≤ room then { w with buf := w.buf ++ p }
  else if w.buf = [] then { conn := w.conn ++ p }
  else if p.length - room ≤ writerSize then { conn := w.conn ++ w.buf ++ p.take room, buf := p.drop room }
  else { conn := w.conn ++ w.buf ++ p }

@[simp] theorem all_flush (w : Writer) : w.flush.all = w.all := by
  simp [flush, all]

@[simp] theorem all_write (w : Writer) (p : List UInt8) : (w.write p).all = w.all ++ p := by
  unfold write
  simp only
  split
  · simp [all]
  · split
    · rename_i h
      simp [all, h]
    · split <;> simp [all]

/-- After some bytes that the buffer has room for when it is empty, there are bytes in the buffer. -/
theorem buf_write_ne_nil (w : Writer) {p : List UInt8} (hp : p ≠ []) (hsize : p.length ≤ writerSize) :
    (w.write p).buf ≠ [] := by
  unfold write
  simp only
  split
  · exact List.append_ne_nil_of_right_ne_nil _ hp
  · split
    · rename_i hroom hnil
      simp only [hnil, List.length_nil] at hroom
      omega
    · split
      · refine List.ne_nil_of_length_pos ?_
        rw [List.length_drop]
        omega
      · omega

end Writer

/-! ## The handler -/

/-- The bytes of the response the handler sends: the length, the tag, and `ChannelResponse` with `ReturnValueInt: 0`. -/
def responseFrame : List UInt8 := toByteArray 2 ++ toByteArray 1 ++ [0x10, 0x00]

/-- The local variables of `handler` at the head of its loop. `seen` is not a variable of the source: it records the tags and
payloads of the frames the loop has gone through. -/
structure Handler (σ : Type) where
  bufferedReader : σ
  bufferedWriter : Writer := {}
  buffering : Bool := false
  seen : List (Nat × List UInt8) := []

/-- How `handler` ends: it returns, or `readProtobuf` ends the process. -/
inductive Ended where
  | returned
  | panicked
  deriving DecidableEq, Repr

/-- One pass through the loop of `handler`. The errors of the second and the third `readNumBytes` are not looked at. -/
def handlerPass (stack : Stack) (h : Handler σ) : Except Ended (Handler σ) :=
  match readNumBytes h.bufferedReader 4 with
  | (_, true, _) => .error .returned
  | (requestLengthBinary, false, reader) =>
    let reqLen := LittleEndian.decode requestLengthBinary
    match readNumBytes reader 4 with
    | (tagBinary, _, reader) =>
      let tag := LittleEndian.decode tagBinary
      if tag = Tag.startBuffering.code then
        .ok { h with bufferedReader := reader, buffering := true, seen := h.seen ++ [(tag, [])] }
      else if tag = Tag.stopBuffering.code then
        .ok { bufferedReader := reader, bufferedWriter := h.bufferedWriter.flush, buffering := false,
              seen := h.seen ++ [(tag, [])] }
      else
        match readNumBytes reader reqLen with
        | (payload, _, reader) =>
          match readProtobuf stack {} payload with
          | none => .error .panicked
          | some _ =>
            let w := ((h.bufferedWriter.write (toByteArray 2)).write (toByteArray 1)).write [0x10, 0x00]
            .ok { h with bufferedReader := reader, bufferedWriter := if h.buffering then w else w.flush,
                         seen := h.seen ++ [(tag, payload)] }

/-- `handler` when it starts on a connection. -/
def Handler.start (reader : σ) : Handler σ := { bufferedReader := reader }

/-- One pass as a step. -/
def Pass (stack : Stack) (a b : Handler σ) : Prop := handlerPass stack a = .ok b

/-! ## What `readNumBytes` gives -/

/-- The loop, started with the bytes already got: when the stream holds the rest it takes exactly that. -/
theorem readLoop_eq (num : Nat) (got : List UInt8) (reader : σ) (hgot : got.length ≤ num)
    (h : num - got.length ≤ (ByteSource.rest reader).length) :
    ∃ reader', readLoop num got reader = (got ++ (ByteSource.rest reader).take (num - got.length), false, reader') ∧
      ByteSource.rest reader' = (ByteSource.rest reader).drop (num - got.length) := by
  fun_induction readLoop num got reader with
  | case1 got reader hlt reader' hread =>
    have hne : ByteSource.rest reader ≠ [] := List.ne_nil_of_length_pos (by omega)
    exact absurd (by rw [hread]) (ByteSource.progress reader (num - got.length) (by omega) hne)
  | case2 got reader hlt b bs reader' hread ih =>
    have hfst := ByteSource.read_fst reader (num - got.length)
    have hrest := ByteSource.rest_read reader (num - got.length)
    have hle := ByteSource.length_le reader (num - got.length)
    rw [hread] at hfst hrest hle
    simp only [List.length_append, List.length_cons] at ih hle hfst hrest
    obtain ⟨r, hr, hd⟩ := ih (by omega) (by rw [hrest, List.length_drop]; omega)
    refine ⟨r, ?_, ?_⟩
    · rw [hr, hfst, hrest, List.append_assoc, ← List.take_add]
      congr 3
      omega
    · rw [hd, hrest, List.drop_drop]
      congr 1
      omega
  | case3 got reader hlt =>
    have h0 : num - got.length = 0 := by omega
    exact ⟨reader, by simp [h0]⟩

/-- The loop at a stream that does not hold the rest: it takes what there is and reports an error. -/
theorem readLoop_short (num : Nat) (got : List UInt8) (reader : σ) (h : got.length + (ByteSource.rest reader).length < num) :
    ∃ reader', readLoop num got reader =
        (got ++ ByteSource.rest reader ++ List.replicate (num - got.length - (ByteSource.rest reader).length) 0, true, reader') ∧
      ByteSource.rest reader' = [] := by
  fun_induction readLoop num got reader with
  | case1 got reader hlt reader' hread =>
    have hnil : ByteSource.rest reader = [] := by
      by_contra hne
      exact ByteSource.progress reader (num - got.length) (by omega) hne (by rw [hread])
    have hend := (ByteSource.read_nil hnil (num - got.length)).2
    rw [hread] at hend
    exact ⟨reader', by simp [hnil], hend⟩
  | case2 got reader hlt b bs reader' hread ih =>
    have hsplit := ByteSource.rest_eq reader (num - got.length)
    rw [hread] at hsplit
    simp only at hsplit
    rw [hsplit] at h ⊢
    simp only [List.length_append, List.length_cons] at ih h ⊢
    obtain ⟨r, hr, hd⟩ := ih (by omega)
    refine ⟨r, ?_, hd⟩
    rw [hr]
    simp only [List.append_assoc]
    congr 5
    omega
  | case3 got reader hlt => omega

/-- `readNumBytes` where the stream holds that many bytes. -/
theorem readNumBytes_eq (reader : σ) (num : Nat) (h : num ≤ (ByteSource.rest reader).length) :
    ∃ reader', readNumBytes reader num = ((ByteSource.rest reader).take num, false, reader') ∧
      ByteSource.rest reader' = (ByteSource.rest reader).drop num := by
  obtain ⟨r, hr, hd⟩ := readLoop_eq num [] reader (Nat.zero_le _) h
  exact ⟨r, by simpa [readNumBytes] using hr, by simpa using hd⟩

/-- `readNumBytes` where the stream ends too early. -/
theorem readNumBytes_short (reader : σ) (num : Nat) (h : (ByteSource.rest reader).length < num) :
    ∃ reader', readNumBytes reader num =
        (ByteSource.rest reader ++ List.replicate (num - (ByteSource.rest reader).length) 0, true, reader') ∧
      ByteSource.rest reader' = [] := by
  obtain ⟨r, hr, hd⟩ := readLoop_short num [] reader (by simpa using h)
  exact ⟨r, by simpa [readNumBytes] using hr, hd⟩

end LibraryLink.Go
