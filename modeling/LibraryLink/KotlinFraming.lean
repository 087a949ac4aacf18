import LibraryLink.CppFraming

/-!
# Reading frames on the Kotlin side

`readByteArray` and `read` of `SimpleBinaryFraming`. Each array is read by one call of `InputStream.read`, and the count that the
call returns is checked; the length of the payload is read as an `Int`, so from 2^31 on it is negative.
-/

namespace LibraryLink.Kotlin

/-- What `read` throws: the `check`, an array of negative size, or the `!!` of `Tag.valueFrom`. -/
inductive ReadException where
  | illegalState (message : String)
  | negativeArraySize
  | nullPointer
  deriving DecidableEq, Repr

/-- The count that `inputStream.read(buffer)` returns: 0 for an empty buffer, and -1 at the end of the stream. -/
def receivedDataSize (inputStream : Cut) (n : Nat) : Int :=
  if n = 0 then 0
  else if inputStream.bytes = [] then -1
  else (inputStream.read n).1.length

/-- `readByteArray` -/
def readByteArray (length : Int) (inputStream : Cut) : Except ReadException (List UInt8 × Cut) :=
  if length < 0 then .error .negativeArraySize
  else
    let (got, rest) := inputStream.read length.toNat
    let received := receivedDataSize inputStream length.toNat
    if received = length then .ok (Cpp.filled length.toNat got, rest)
    else .error (.illegalState s!"receivedDataSize({received}) != length({length})")

/-- `ByteArray.toInt`, of four bytes -/
def toInt (bytes : List UInt8) : Int := (LittleEndian.decode bytes : Int).bmod (2 ^ 32)

/-- `Tag.values()` -/
def Tag.values : List Tag :=
  [.request, .response, .callbackRequest, .callbackResponse, .openChannel, .deleteFromPersistence, .startBuffering,
    .stopBuffering, .stopReceiver]

/-- `Tag.valueFrom` -/
def Tag.valueFrom (i : Int) : Except ReadException Tag :=
  match Tag.values.find? fun t => (t.code : Int) == i with
  | some t => .ok t
  | none => .error .nullPointer

/-- `read` -/
def read (inputStream : Cut) : Except ReadException ((Tag × List UInt8) × Cut) := do
  let (length, inputStream) ← readByteArray 4 inputStream
  let (tagCode, inputStream) ← readByteArray 4 inputStream
  let tag ← Tag.valueFrom (toInt tagCode)
  let (actualData, inputStream) ← readByteArray (toInt length) inputStream
  return ((tag, actualData), inputStream)

/-- At most `n` successive calls of `read`: what they return, and what the first call that fails throws. -/
def readAll : Nat → Cut → List (Tag × List UInt8) × Option ReadException
  | 0, _ => ([], none)
  | n + 1, inputStream =>
    match read inputStream with
    | .error e => ([], some e)
    | .ok (r, inputStream) => (r :: (readAll n inputStream).1, (readAll n inputStream).2)

/-! ## One call -/

/-- `readByteArray` returns an array exactly when one call gives all of it. -/
theorem readByteArray_eq_ok {n : Nat} {s : Cut} {p : List UInt8 × Cut} :
    readByteArray n s = .ok p ↔
      n ≤ s.bytes.length ∧ n ≤ s.cuts.size 0 ∧ p = (s.bytes.take n, ⟨s.bytes.drop n, s.cuts.drop 1⟩) := by
  have hsize : receivedDataSize s n = n ↔ n ≤ s.bytes.length ∧ n ≤ s.cuts.size 0 := by
    rw [← s.length_read_eq_iff]
    unfold receivedDataSize
    split
    · rename_i hn
      simp [hn, Cut.read]
    · split
      · rename_i hn hnil
        simp only [Cut.read, hnil, List.take_nil, List.length_nil]
        omega
      · exact Int.ofNat_inj
  unfold readByteArray
  rw [if_neg (by omega), Int.toNat_natCast]
  by_cases hwhole : receivedDataSize s n = n
  · obtain ⟨hbytes, hcut⟩ := hsize.mp hwhole
    have hread : s.read n = (s.bytes.take n, ⟨s.bytes.drop n, s.cuts.drop 1⟩) := by
      rw [Cut.read, Nat.min_eq_left hcut]
    have hfilled : Cpp.filled n (s.bytes.take n) = s.bytes.take n := by
      rw [Cpp.filled, List.length_take, Nat.min_eq_left hbytes, Nat.sub_self, List.replicate_zero, List.append_nil]
    simp only [hwhole, if_true, hread, hfilled, Except.ok.injEq]
    exact ⟨fun h => ⟨hbytes, hcut, h.symm⟩, fun h => h.2.2.symm⟩
  · simp only [hwhole, if_false]
    constructor
    · intro h
      cases h
    · rintro ⟨hbytes, hcut, -⟩
      exact absurd (hsize.mpr ⟨hbytes, hcut⟩) hwhole

/-- The tag of a code. -/
theorem Tag.valueFrom_code (t : Tag) : Tag.valueFrom t.code = .ok t := by
  cases t <;> rfl

end LibraryLink.Kotlin
