import LibraryLink.Framing
import LibraryLink.General.Decimals
import LibraryLink.General.Protobuf

/-!
# `SimpleTextFraming`

A frame as text: the length in four digits, and the text of the message. The text is what `toString` makes of the array, which is not
its content but its type and its identity hash code; the tag is not written, and every message is read as a RESPONSE. The stream is
its characters, and each read gives all there is of what it is asked for.
-/

namespace LibraryLink.Kotlin.SimpleTextFraming

/-- A `ByteArray` object: its content, and the hash code that the JVM has given it. -/
structure ByteArrayObject where
  bytes : List UInt8
  identityHashCode : UInt32

/-- `message.toString()` -/
def ByteArrayObject.toString (message : ByteArrayObject) : List Char :=
  "[B@".toList ++ Nat.toDigits 16 message.identityHashCode.toNat

/-- `"%04d".format(n)` -/
def format04d (n : Nat) : List Char := Decimals.padded 4 n

/-- `write`: the characters that it adds to the stream. -/
def write (_ : Tag) (message : ByteArrayObject) : List Char :=
  let decodedMsg := message.toString
  format04d decodedMsg.length ++ decodedMsg

/-- What `read` throws: a `check`, `toInt` on a text that is no number, or an array of negative size. -/
inductive ReadException where
  | illegalState
  | numberFormat
  | negativeArraySize
  deriving DecidableEq, Repr

/-- The digits of `toInt`, with at least one. -/
def digits (text : List Char) : Option Nat :=
  if text ≠ [] ∧ text.all Char.isDigit then some (Nat.ofDigitChars 10 text 0) else none

/-- `String.toInt`, of four characters, which are not enough for an overflow; none where it throws. -/
def toInt : List Char → Option Int
  | '-' :: text => (digits text).map fun n => -(n : Int)
  | '+' :: text => (digits text).map Int.ofNat
  | text => (digits text).map Int.ofNat

/-- `read` -/
def read (reader : List Char) : Except ReadException ((Tag × List UInt8) × List Char) :=
  let lengthBuffer := reader.take 4
  let reader := reader.drop 4
  if lengthBuffer.length ≠ 4 then .error .illegalState
  else
    match toInt lengthBuffer with
    | none => .error .numberFormat
    | some length =>
      if length < 0 then .error .negativeArraySize
      else
        let actualData := reader.take length.toNat
        if actualData.length ≠ length.toNat then .error .illegalState
        else .ok ((.response, Protobuf.utf8 (String.ofList actualData)), reader.drop length.toNat)

/-- At most `n` successive calls of `read`: what they return, and what the first call that fails throws. -/
def readAll : Nat → List Char → List (Tag × List UInt8) × Option ReadException
  | 0, _ => ([], none)
  | n + 1, reader =>
    match read reader with
    | .error e => ([], some e)
    | .ok (r, reader) => (r :: (readAll n reader).1, (readAll n reader).2)

/-- The stream of some messages. -/
def written (messages : List (Tag × ByteArrayObject)) : List Char := messages.flatMap fun m => write m.1 m.2

/-- As many calls of `read` as there are messages return their tags and contents, in order. -/
def RoundTrips (messages : List (Tag × ByteArrayObject)) : Prop :=
  readAll messages.length (written messages) = (messages.map fun m => (m.1, m.2.bytes), none)

end LibraryLink.Kotlin.SimpleTextFraming
