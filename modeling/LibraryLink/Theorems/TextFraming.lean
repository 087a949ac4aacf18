import LibraryLink.TextFraming

/-!
# What `SimpleTextFraming` carries

The lengths are read as they were written, since the text of an array object has between 4 and 11 characters; so what each `read`
returns is a RESPONSE with this text (`readAll_texts`), which is the message only where it happens to be its own text.
-/

namespace LibraryLink.Kotlin.SimpleTextFraming

/-! ## Lengths -/

/-- A text of digits is read as its number. -/
theorem toInt_of_digits {text : List Char} (hne : text ≠ []) (hdigits : ∀ c ∈ text, c.isDigit = true) :
    toInt text = some (Int.ofNat (Nat.ofDigitChars 10 text 0)) := by
  have hsome : digits text = some (Nat.ofDigitChars 10 text 0) := if_pos ⟨hne, List.all_eq_true.mpr hdigits⟩
  unfold toInt
  split
  · exact absurd (hdigits '-' List.mem_cons_self) (by decide)
  · exact absurd (hdigits '+' List.mem_cons_self) (by decide)
  · rw [hsome]
    rfl

/-- A length is read as it was written. -/
theorem toInt_format04d (n : Nat) : toInt (format04d n) = some (n : Int) := by
  rw [format04d, toInt_of_digits (Decimals.padded_ne_nil 4 n) (Decimals.isDigit_padded 4 n), Decimals.ofDigitChars_padded]
  rfl

/-- The text of an array object is short. -/
theorem length_toString_lt (message : ByteArrayObject) : message.toString.length < 10 ^ 4 := by
  have hle : (Nat.toDigits 16 message.identityHashCode.toNat).length ≤ 8 :=
    (Nat.length_toDigits_le_iff (by decide) (by decide)).mpr message.identityHashCode.toNat_lt
  have hbegins : "[B@".toList.length = 3 := rfl
  rw [ByteArrayObject.toString, List.length_append, hbegins]
  omega

/-! ## Frames -/

/-- What `read` returns for a message. -/
def returned (message : ByteArrayObject) : Tag × List UInt8 := (.response, Protobuf.utf8 (String.ofList message.toString))

/-- `read` takes the frame of a message, and returns its text. -/
theorem read_write (tag : Tag) (message : ByteArrayObject) (rest : List Char) :
    read (write tag message ++ rest) = .ok (returned message, rest) := by
  have hfour : (format04d message.toString.length).length = 4 :=
    Decimals.length_padded (by decide) (length_toString_lt message)
  have htake : (write tag message ++ rest).take 4 = format04d message.toString.length := by
    rw [write, List.append_assoc, List.take_left' hfour]
  have hdrop : (write tag message ++ rest).drop 4 = message.toString ++ rest := by
    rw [write, List.append_assoc, List.drop_left' hfour]
  simp only [read, htake, hdrop, hfour, toInt_format04d, ne_eq, not_true_eq_false, if_false, Int.toNat_natCast, List.take_left,
    List.drop_left]
  rw [if_neg (by omega)]
  rfl

/-- As many calls of `read` as there are messages return a RESPONSE with the text of each. -/
theorem readAll_texts (messages : List (Tag × ByteArrayObject)) :
    readAll messages.length (written messages) = (messages.map fun m => returned m.2, none) := by
  induction messages with
  | nil => rfl
  | cons m ms ih =>
    have hwritten : written (m :: ms) = write m.1 m.2 ++ written ms := List.flatMap_cons
    rw [hwritten, List.length_cons, readAll, read_write]
    simp only [ih, List.map_cons]

/-- Messages make the round trip exactly when each is a RESPONSE whose content is the text of its array object. -/
theorem roundTrips_text_iff (messages : List (Tag × ByteArrayObject)) :
    RoundTrips messages ↔
      ∀ m ∈ messages, m.1 = .response ∧ m.2.bytes = Protobuf.utf8 (String.ofList ("[B@".toList ++
        Nat.toDigits 16 m.2.identityHashCode.toNat)) := by
  unfold RoundTrips
  rw [readAll_texts, Prod.mk.injEq, and_iff_left rfl, List.map_inj_left]
  refine forall₂_congr fun m _ => ?_
  rw [returned, Prod.mk.injEq]
  exact ⟨fun h => ⟨h.1.symm, h.2.symm⟩, fun h => ⟨h.1.symm, h.2.symm⟩⟩

/-- A RESPONSE with the content `hi` does not make the round trip, and neither does a REQUEST with the text of its array object. -/
theorem not_roundTrips_text :
    ¬ RoundTrips [(.response, ⟨[0x68, 0x69], 1⟩)] ∧ ¬ RoundTrips [(.request, ⟨[0x5B, 0x42, 0x40, 0x31], 1⟩)] := by
  unfold RoundTrips
  simp only [readAll_texts, List.map_cons, List.map_nil, returned]
  constructor <;> intro h <;> revert h <;> decide

end LibraryLink.Kotlin.SimpleTextFraming
