import LibraryLink.General.Protobuf
import Mathlib.Data.List.Basic

/-!
# Parsers of messages in the wire format

A generated parser is a loop over the fields of a message, written with the readers of a runtime library. `WireReader` has the
readers and `WireReader.Lawful` what is documented of them on bytes that follow the format; `merge` is the loop. What the loop does
on the bytes of some fields is what it does on one field after the other: `Absorbs` composes along lists of fields, and
`Absorbs.merge` reads the result off the loop.
-/

namespace Protobuf

/-! ## The readers -/

/-- The tag of a field: its number and wire type. -/
def Field.tag (f : Field) : Nat := 8 * f.number + f.value.wireType

/-- A value that fits its type. -/
def Value.Fits : Value → Prop
  | .varint n => n < 2 ^ 64
  | .fixed64 n => n < 2 ^ 64
  | .bytes b => b.length < 2 ^ 31
  | .fixed32 n => n < 2 ^ 32

/-- A field with a number that the format allows and a value that fits. -/
structure Field.Fits (f : Field) : Prop where
  pos : 0 < f.number
  lt : f.number < 2 ^ 29
  value : f.value.Fits

/-- The readers that a parser uses, each on the bytes up to the end of its message. `readTag` is none at that end; it says besides
the tag whether it is not above a bound. A reader of a value gives the bytes behind it too, if it succeeds; that of a string has the
string that is read into, which may change where it does not. `readMessage` gives the bytes of a message inside the message. -/
structure WireReader where
  readTag : Nat → List UInt8 → Option ((Nat × Bool) × List UInt8)
  readBool : List UInt8 → Option (Bool × List UInt8)
  readEnum : List UInt8 → Option (BitVec 32 × List UInt8)
  readSFixed64 : List UInt8 → Option (BitVec 64 × List UInt8)
  readFixed64 : List UInt8 → Option (BitVec 64 × List UInt8)
  readString : List UInt8 → List UInt8 → List UInt8 × Option (List UInt8)
  readMessage : List UInt8 → Option (List UInt8 × List UInt8)
  verifyUtf8 : List UInt8 → Bool
  skipField : Nat → List UInt8 → Option (List UInt8)

/-- What the readers do on bytes that follow the format. -/
structure WireReader.Lawful (w : WireReader) : Prop where
  tag_end : ∀ cutoff, w.readTag cutoff [] = none
  tag : ∀ (f : Field) cutoff rest, f.Fits →
    w.readTag cutoff (varint f.tag ++ rest) = some ((f.tag, decide (f.tag ≤ cutoff)), rest)
  bool : ∀ n rest, n < 2 ^ 64 → w.readBool (varint n ++ rest) = some (n != 0, rest)
  enum : ∀ n rest, n < 2 ^ 64 → w.readEnum (varint n ++ rest) = some (BitVec.ofNat 32 n, rest)
  sfixed64 : ∀ n rest, n < 2 ^ 64 → w.readSFixed64 (LittleEndian.encode 8 n ++ rest) = some (BitVec.ofNat 64 n, rest)
  fixed64 : ∀ n rest, n < 2 ^ 64 → w.readFixed64 (LittleEndian.encode 8 n ++ rest) = some (BitVec.ofNat 64 n, rest)
  string : ∀ old b rest, b.length < 2 ^ 31 → w.readString old (varint b.length ++ (b ++ rest)) = (b, some rest)
  message : ∀ b rest, b.length < 2 ^ 31 → w.readMessage (varint b.length ++ (b ++ rest)) = some (b, rest)
  utf8 : ∀ s, w.verifyUtf8 (utf8 s) = true
  skip : ∀ (f : Field) rest, f.Fits → w.skipField f.tag (f.value.encode ++ rest) = some rest

/-! ## The loop over the fields -/

/-- How a parser ends: at the end of the message, at a tag that is zero, or where something can not be read. -/
inductive Ended where
  | atEnd
  | zeroTag
  | failed
  deriving DecidableEq, Repr

/-- A case of the `switch` over the numbers of the fields: the tag that is expected, and what is done behind it: the message
afterwards and, if all succeeds, the bytes left. -/
structure Case (M : Type) where
  tag : Nat
  read : List UInt8 → M → M × Option (List UInt8)

/-- A pass of the loop: it ends the loop, or leaves bytes for the next one. -/
inductive Pass (M : Type) where
  | done (ended : Ended) (m : M)
  | next (rest : List UInt8) (m : M)

variable {M N : Type}

/-- What follows the statements of a case. -/
def Pass.ofRead : M × Option (List UInt8) → Pass M
  | (m, some rest) => .next rest m
  | (m, none) => .done .failed m

/-- A pass of the loop; a tag above 127 is none of those that are expected. -/
def pass (w : WireReader) (cases : Nat → Option (Case M)) (bytes : List UInt8) (m : M) : Pass M :=
  match w.readTag 127 bytes with
  | none => .done .atEnd m
  | some ((tag, below), rest) =>
    match ((if below then cases (tag / 8) else none).filter fun c => tag % 256 == c.tag) with
    | some c => .ofRead (c.read rest m)
    | none => if tag = 0 then .done .zeroTag m else .ofRead (m, w.skipField tag rest)

/-- The loop, for as many passes as the first argument says. -/
def mergeLoop (w : WireReader) (cases : Nat → Option (Case M)) : Nat → List UInt8 → M → Ended × M
  | 0, _, m => (.failed, m)
  | passes + 1, bytes, m =>
    match pass w cases bytes m with
    | .done ended m => (ended, m)
    | .next rest m => mergeLoop w cases passes rest m

/-- `MergePartialFromCodedStream`: a pass takes a byte at least, the last one none. -/
def merge (w : WireReader) (cases : Nat → Option (Case M)) (bytes : List UInt8) (m : M) : Ended × M :=
  mergeLoop w cases (bytes.length + 1) bytes m

/-! ## The statements of a case -/

/-- A string is read into a field and checked. -/
def stringCase (w : WireReader) (tag : Nat) (get : M → List UInt8) (set : M → List UInt8 → M) : Case M where
  tag := tag
  read bytes m :=
    let s := w.readString (get m) bytes
    (set m s.1, if w.verifyUtf8 s.1 then s.2 else none)

/-- A value of fixed length or a varint is read and put into a field; before that the field may be cleared. -/
def valueCase {α : Type} (read : List UInt8 → Option (α × List UInt8)) (tag : Nat) (clear : M → M) (set : M → α → M) :
    Case M where
  tag := tag
  read bytes m :=
    match read bytes with
    | some (a, rest) => (set (clear m) a, some rest)
    | none => (clear m, none)

/-- A message inside the message is read into the one that is there, up to its end. -/
def messageCase (w : WireReader) (tag : Nat) (get : M → N) (set : M → N → M) (parse : List UInt8 → N → Ended × N) : Case M where
  tag := tag
  read bytes m :=
    match w.readMessage bytes with
    | some (inner, rest) =>
      let n := parse inner (get m)
      (set m n.2, if n.1 = .atEnd then some rest else none)
    | none => (set m (get m), none)

/-! ## Bytes of fields -/

variable {w : WireReader} {cases : Nat → Option (Case M)} {m m' m'' : M} {f : Field} {fields fields' : List Field}

/-- A pass over the bytes of a field changes the message in a given way. -/
def Absorbs1 (w : WireReader) (cases : Nat → Option (Case M)) (f : Field) (m m' : M) : Prop :=
  ∀ rest, pass w cases (f.encode ++ rest) m = .next rest m'

/-- The loop over the bytes of some fields changes the message in a given way. -/
inductive Absorbs (w : WireReader) (cases : Nat → Option (Case M)) : List Field → M → M → Prop
  | nil (m : M) : Absorbs w cases [] m m
  | cons {f : Field} {fields : List Field} {m m' m'' : M} :
      Absorbs1 w cases f m m' → Absorbs w cases fields m' m'' → Absorbs w cases (f :: fields) m m''

theorem Absorbs.single (h : Absorbs1 w cases f m m') : Absorbs w cases [f] m m' := .cons h (.nil m')

theorem Absorbs.append (h : Absorbs w cases fields m m') (h' : Absorbs w cases fields' m' m'') :
    Absorbs w cases (fields ++ fields') m m'' := by
  induction h with
  | nil => exact h'
  | cons h1 _ ih => exact .cons h1 (ih h')

theorem Field.encode_ne_nil (f : Field) : f.encode ≠ [] := by
  intro h
  have hlen := congrArg List.length h
  have hkey := length_varint_pos (8 * f.number + f.value.wireType)
  rw [Field.encode, List.length_append, List.length_nil] at hlen
  omega

/-- Every field takes a byte. -/
theorem length_le_encode (fields : List Field) : fields.length ≤ (encode fields).length := by
  induction fields with
  | nil => exact Nat.le_refl _
  | cons f fields ih =>
    have hpos := List.length_pos_of_ne_nil f.encode_ne_nil
    rw [encode_cons, List.length_append, List.length_cons]
    omega

/-- The loop on the bytes of fields that it absorbs, at the end of the message. -/
theorem Absorbs.mergeLoop (h : Absorbs w cases fields m m') (hw : w.Lawful) {passes : Nat} (hpasses : fields.length < passes) :
    mergeLoop w cases passes (Protobuf.encode fields) m = (.atEnd, m') := by
  induction h generalizing passes with
  | nil m =>
    cases passes with
    | zero => exact absurd hpasses (Nat.not_lt_zero _)
    | succ passes => simp [Protobuf.mergeLoop, pass, hw.tag_end]
  | @cons f fields m m' m'' h1 _ ih =>
    cases passes with
    | zero => exact absurd hpasses (Nat.not_lt_zero _)
    | succ passes =>
      rw [encode_cons, Protobuf.mergeLoop, h1]
      exact ih (Nat.lt_of_succ_lt_succ hpasses)

/-- What a parser makes of the bytes of fields. -/
theorem Absorbs.merge (h : Absorbs w cases fields m m') (hw : w.Lawful) : merge w cases (encode fields) m = (.atEnd, m') :=
  h.mergeLoop hw (Nat.lt_succ_of_le (length_le_encode fields))

/-- The fields of some messages, one after the other, are absorbed one after the other. -/
theorem Absorbs.flatMap {content : M → List Field} {mergeFrom : M → M → M} {ms : List M}
    (h : ∀ m ∈ ms, ∀ m₀, Absorbs w cases (content m) m₀ (mergeFrom m₀ m)) (m₀ : M) :
    Absorbs w cases (ms.flatMap content) m₀ (ms.foldl mergeFrom m₀) := by
  induction ms generalizing m₀ with
  | nil => exact .nil m₀
  | cons m ms ih =>
    refine (h m List.mem_cons_self m₀).append (ih ?_ _)
    intro m' hm'
    exact h m' (List.mem_cons_of_mem m hm')

/-- What a parser makes of the bytes of some messages, one after the other. -/
theorem merge_flatMap (hw : w.Lawful) {serialize : M → List UInt8} {content : M → List Field} {mergeFrom : M → M → M}
    {ms : List M} (hbytes : ∀ m ∈ ms, serialize m = encode (content m))
    (h : ∀ m ∈ ms, ∀ m₀, Absorbs w cases (content m) m₀ (mergeFrom m₀ m)) (m₀ : M) :
    merge w cases (ms.flatMap serialize) m₀ = (.atEnd, ms.foldl mergeFrom m₀) := by
  have heq : ms.flatMap serialize = encode (ms.flatMap content) := by
    rw [encode, List.flatMap_assoc]
    exact List.flatMap_congr hbytes
  rw [heq]
  exact (Absorbs.flatMap h m₀).merge hw

/-! ## A field and its case -/

/-- A field that has a case is read by it. -/
theorem pass_of_case (hw : w.Lawful) (hf : f.Fits) {c : Case M} (hcase : cases f.number = some c) (htag : c.tag = f.tag)
    (hbelow : f.tag ≤ 127) (rest : List UInt8) (m : M) :
    pass w cases (f.encode ++ rest) m = .ofRead (c.read (f.value.encode ++ rest) m) := by
  have hnumber : f.tag / 8 = f.number := by
    unfold Field.tag
    have hwire : f.value.wireType < 8 := by cases f.value <;> simp [Value.wireType]
    omega
  have hbyte : f.tag % 256 = c.tag := by rw [htag, Nat.mod_eq_of_lt (by omega)]
  have hread := hw.tag f 127 (f.value.encode ++ rest) hf
  rw [decide_eq_true hbelow] at hread
  rw [Field.encode, List.append_assoc]
  unfold pass
  rw [show 8 * f.number + f.value.wireType = f.tag from rfl, hread]
  simp [hnumber, hcase, hbyte, Option.filter]

/-- A field that has a case, of the wire type that is expected. -/
def known (cases : Nat → Option (Case M)) (f : Field) : Bool := (cases f.number).any fun c => f.tag % 256 == c.tag

/-- Any other field is skipped. -/
theorem absorbs1_of_unknown (hw : w.Lawful) (hf : f.Fits) (h : known cases f = false) (m : M) : Absorbs1 w cases f m m := by
  intro rest
  have hwire : f.value.wireType < 8 := by cases f.value <;> simp [Value.wireType]
  have hnumber : f.tag / 8 = f.number := by
    unfold Field.tag
    omega
  have hzero : f.tag ≠ 0 := by
    have := hf.pos
    unfold Field.tag
    omega
  have hskip : ((if decide (f.tag ≤ 127) then cases (f.tag / 8) else none).filter fun c => f.tag % 256 == c.tag) = none := by
    rw [hnumber]
    split
    · refine Option.filter_eq_none_iff.mpr ?_
      intro c hc
      simpa [known, hc] using h
    · rfl
  rw [Field.encode, List.append_assoc]
  unfold pass
  rw [show 8 * f.number + f.value.wireType = f.tag from rfl, hw.tag f 127 _ hf]
  simp only [hskip, hzero, if_false, hw.skip f rest hf, Pass.ofRead]

/-- Fields of which some are those of a message, in order, and the others are none that its parser knows. -/
structure Padded (cases : Nat → Option (Case M)) (content fields : List Field) : Prop where
  fits : ∀ f ∈ fields, f.Fits
  filter_known : fields.filter (known cases) = content

theorem Padded.self (hfits : ∀ f ∈ fields, f.Fits) (hknown : ∀ f ∈ fields, known cases f = true) : Padded cases fields fields :=
  ⟨hfits, List.filter_eq_self.mpr hknown⟩

theorem Padded.content_fits {content : List Field} (h : Padded cases content fields) : ∀ f ∈ content, f.Fits := by
  intro f hf
  rw [← h.filter_known] at hf
  exact h.fits f (List.mem_of_mem_filter hf)

/-- The other fields change nothing, wherever they stand. -/
theorem Padded.absorbs {content : List Field} (h : Padded cases content fields) (hw : w.Lawful)
    (habsorbs : Absorbs w cases content m m') : Absorbs w cases fields m m' := by
  obtain ⟨hfits, rfl⟩ := h
  induction fields generalizing m with
  | nil => exact habsorbs
  | cons f fields ih =>
    obtain ⟨hf, hrest⟩ := List.forall_mem_cons.mp hfits
    cases hknown : known cases f with
    | false =>
      rw [List.filter_cons_of_neg (by simp [hknown])] at habsorbs
      exact .cons (absorbs1_of_unknown hw hf hknown m) (ih hrest habsorbs)
    | true =>
      rw [List.filter_cons_of_pos hknown] at habsorbs
      cases habsorbs with
      | cons h1 habsorbs => exact .cons h1 (ih hrest habsorbs)

/-- A field whose tag is a single byte. -/
theorem Field.fits_of_lt (hpos : 0 < f.number) (hlt : f.number < 16) (hvalue : f.value.Fits) : f.Fits ∧ f.tag ≤ 127 := by
  have hwire : f.value.wireType < 8 := by cases f.value <;> simp [Value.wireType]
  refine ⟨⟨hpos, by omega, hvalue⟩, ?_⟩
  unfold Field.tag
  omega

/-- A string field. -/
theorem absorbs1_string (hw : w.Lawful) {number : Nat} (hpos : 0 < number) (hlt : number < 16) {get : M → List UInt8}
    {set : M → List UInt8 → M} (hcase : cases number = some (stringCase w (8 * number + 2) get set)) {b : List UInt8}
    (hb : b.length < 2 ^ 31) (hutf8 : w.verifyUtf8 b = true) (m : M) : Absorbs1 w cases ⟨number, .bytes b⟩ m (set m b) := by
  intro rest
  obtain ⟨hfits, hbelow⟩ := Field.fits_of_lt (f := ⟨number, .bytes b⟩) hpos hlt hb
  rw [pass_of_case hw hfits hcase rfl hbelow]
  simp only [Value.encode, List.append_assoc, stringCase, hw.string _ b rest hb, hutf8, if_true, Pass.ofRead]

/-- A field with a varint or a value of fixed length. -/
theorem absorbs1_value (hw : w.Lawful) {α : Type} {number : Nat} (value : Value) (hpos : 0 < number) (hlt : number < 16)
    {read : List UInt8 → Option (α × List UInt8)} {clear : M → M} {set : M → α → M}
    (hcase : cases number = some (valueCase read (Field.tag ⟨number, value⟩) clear set)) (hvalue : value.Fits) {a : α}
    (hread : ∀ rest, read (value.encode ++ rest) = some (a, rest)) (m : M) :
    Absorbs1 w cases ⟨number, value⟩ m (set (clear m) a) := by
  intro rest
  obtain ⟨hfits, hbelow⟩ := Field.fits_of_lt (f := ⟨number, value⟩) hpos hlt hvalue
  rw [pass_of_case hw hfits hcase rfl hbelow]
  simp only [valueCase, hread, Pass.ofRead]

/-- A field with a message. -/
theorem absorbs1_message (hw : w.Lawful) {number : Nat} (hpos : 0 < number) (hlt : number < 16) {get : M → N} {set : M → N → M}
    {parse : List UInt8 → N → Ended × N} (hcase : cases number = some (messageCase w (8 * number + 2) get set parse))
    {inner : List UInt8} (hinner : inner.length < 2 ^ 31) {m : M} {n' : N} (hparse : parse inner (get m) = (.atEnd, n')) :
    Absorbs1 w cases ⟨number, .bytes inner⟩ m (set m n') := by
  intro rest
  obtain ⟨hfits, hbelow⟩ := Field.fits_of_lt (f := ⟨number, .bytes inner⟩) hpos hlt hinner
  rw [pass_of_case hw hfits hcase rfl hbelow]
  simp only [Value.encode, List.append_assoc, messageCase, hw.message inner rest hinner, hparse, if_true, Pass.ofRead]

/-! ## Readers by the book -/

/-- A varint of a number of bytes at most. -/
def decodeVarint : Nat → List UInt8 → Option (Nat × List UInt8)
  | 0, _ => none
  | _, [] => none
  | k + 1, b :: bytes =>
    if b.toNat < 128 then some (b.toNat, bytes)
    else (decodeVarint k bytes).map fun p => (b.toNat % 128 + 128 * p.1, p.2)

theorem decodeVarint_of_lt {k n : Nat} (h : n < 128) (rest : List UInt8) :
    decodeVarint (k + 1) ([UInt8.ofNat n] ++ rest) = some (n, rest) := by
  have hmod : n % 2 ^ 8 = n := Nat.mod_eq_of_lt (by omega)
  rw [List.singleton_append, decodeVarint, UInt8.toNat_ofNat', hmod, if_pos h]

theorem decodeVarint_varint {k n : Nat} (h : n < 128 ^ (k + 1)) (rest : List UInt8) :
    decodeVarint (k + 1) (varint n ++ rest) = some (n, rest) := by
  induction k generalizing n with
  | zero =>
    have hn : n < 128 := by simpa using h
    rw [varint_of_lt hn]
    exact decodeVarint_of_lt hn rest
  | succ k ih =>
    by_cases hn : n < 128
    · rw [varint_of_lt hn]
      exact decodeVarint_of_lt hn rest
    · have hdiv : n / 128 < 128 ^ (k + 1) := Nat.div_lt_of_lt_mul (by rw [← pow_succ']; exact h)
      have hbyte : (128 + n % 128) % 2 ^ 8 = 128 + n % 128 := Nat.mod_eq_of_lt (by omega)
      have hvalue : (128 + n % 128) % 128 + 128 * (n / 128) = n := by omega
      rw [varint_of_le (Nat.not_lt.mp hn), List.cons_append, decodeVarint, UInt8.toNat_ofNat', hbyte,
        if_neg (by omega), ih hdiv, Option.map_some, hvalue]

/-- The bytes of a given number, and those behind them. -/
def cut (n : Nat) (bytes : List UInt8) : Option (List UInt8 × List UInt8) :=
  if n ≤ bytes.length then some (bytes.take n, bytes.drop n) else none

theorem cut_append (b rest : List UInt8) : cut b.length (b ++ rest) = some (b, rest) := by
  simp [cut]

/-- The bytes of a string or a message, behind their number. -/
def lengthDelimited (bytes : List UInt8) : Option (List UInt8 × List UInt8) := do
  let (n, bytes) ← decodeVarint 5 bytes
  if n < 2 ^ 31 then cut n bytes else none

theorem lengthDelimited_encode {b : List UInt8} (h : b.length < 2 ^ 31) (rest : List UInt8) :
    lengthDelimited (varint b.length ++ (b ++ rest)) = some (b, rest) := by
  have hlt : b.length < 128 ^ (4 + 1) := Nat.lt_trans h (by decide)
  simp only [lengthDelimited, decodeVarint_varint hlt, Option.bind_eq_bind, Option.bind_some, h, if_true, cut_append]

/-- A tag; where there is none, the bytes are left. -/
def standardTag (cutoff : Nat) : List UInt8 → Option ((Nat × Bool) × List UInt8)
  | [] => none
  | bytes =>
    match decodeVarint 5 bytes with
    | some (t, rest) => some ((t % 2 ^ 32, decide (t % 2 ^ 32 ≤ cutoff)), rest)
    | none => some ((0, false), bytes)

theorem Field.tag_lt {f : Field} (h : f.Fits) : f.tag < 2 ^ 32 := by
  have hlt := h.lt
  have hwire : f.value.wireType < 8 := by cases f.value <;> simp [Value.wireType]
  unfold Field.tag
  omega

theorem standardTag_varint {t : Nat} (h : t < 2 ^ 32) (cutoff : Nat) (rest : List UInt8) :
    standardTag cutoff (varint t ++ rest) = some ((t, decide (t ≤ cutoff)), rest) := by
  have hne : varint t ++ rest ≠ [] := List.append_ne_nil_of_left_ne_nil (List.ne_nil_of_length_pos (length_varint_pos t)) rest
  have hlt : t < 128 ^ (4 + 1) := Nat.lt_trans h (by decide)
  unfold standardTag
  split
  · rename_i hnil
    exact absurd hnil hne
  · simp only [decodeVarint_varint hlt, Nat.mod_eq_of_lt h]

mutual

/-- A field of any wire type is skipped. The first argument bounds the fields of its groups. -/
def standardSkip : Nat → Nat → List UInt8 → Option (List UInt8)
  | 0, _, _ => none
  | fuel + 1, tag, bytes =>
    match tag % 8 with
    | 0 => (decodeVarint 10 bytes).map (·.2)
    | 1 => (cut 8 bytes).map (·.2)
    | 2 => (lengthDelimited bytes).map (·.2)
    | 3 => standardSkipGroup fuel tag bytes
    | 5 => (cut 4 bytes).map (·.2)
    | _ => none

/-- The fields of a group are skipped up to its end. -/
def standardSkipGroup : Nat → Nat → List UInt8 → Option (List UInt8)
  | 0, _, _ => none
  | fuel + 1, start, bytes =>
    match standardTag 127 bytes with
    | none => none
    | some ((tag, _), rest) =>
      if tag % 8 = 4 then if tag = start + 1 then some rest else none
      else (standardSkip fuel tag rest).bind (standardSkipGroup fuel start)

end

theorem standardSkip_encode {f : Field} (h : f.Fits) {fuel : Nat} (rest : List UInt8) :
    standardSkip (fuel + 1) f.tag (f.value.encode ++ rest) = some rest := by
  obtain ⟨number, value⟩ := f
  cases value with
  | varint n =>
    have hn : n < 2 ^ 64 := h.value
    have hmod : Field.tag ⟨number, .varint n⟩ % 8 = 0 := by simp [Field.tag, Value.wireType]
    have hlt : n < 128 ^ (9 + 1) := Nat.lt_trans hn (by decide)
    simp only [standardSkip, hmod, Value.encode, decodeVarint_varint hlt, Option.map_some]
  | fixed64 n =>
    have hmod : Field.tag ⟨number, .fixed64 n⟩ % 8 = 1 := by simp [Field.tag, Value.wireType]
    have hcut := cut_append (LittleEndian.encode 8 n) rest
    rw [LittleEndian.length_encode] at hcut
    simp only [standardSkip, hmod, Value.encode, hcut, Option.map_some]
  | bytes b =>
    have hb : b.length < 2 ^ 31 := h.value
    have hmod : Field.tag ⟨number, .bytes b⟩ % 8 = 2 := by simp [Field.tag, Value.wireType]
    simp only [standardSkip, hmod, Value.encode, List.append_assoc, lengthDelimited_encode hb, Option.map_some]
  | fixed32 n =>
    have hmod : Field.tag ⟨number, .fixed32 n⟩ % 8 = 5 := by simp [Field.tag, Value.wireType]
    have hcut := cut_append (LittleEndian.encode 4 n) rest
    rw [LittleEndian.length_encode] at hcut
    simp only [standardSkip, hmod, Value.encode, hcut, Option.map_some]

/-- A value of 64 bits. -/
def standardFixed64 (bytes : List UInt8) : Option (BitVec 64 × List UInt8) :=
  (cut 8 bytes).map fun p => (BitVec.ofNat 64 (LittleEndian.decode p.1), p.2)

theorem standardFixed64_encode {n : Nat} (h : n < 2 ^ 64) (rest : List UInt8) :
    standardFixed64 (LittleEndian.encode 8 n ++ rest) = some (BitVec.ofNat 64 n, rest) := by
  have hcut := cut_append (LittleEndian.encode 8 n) rest
  rw [LittleEndian.length_encode] at hcut
  have hdecode : LittleEndian.decode (LittleEndian.encode 8 n) = n :=
    LittleEndian.decode_encode_of_lt (Nat.lt_of_lt_of_le h (by decide))
  simp only [standardFixed64, hcut, Option.map_some, hdecode]

/-- The readers as the format is documented. -/
def WireReader.standard : WireReader where
  readTag := standardTag
  readBool bytes := (decodeVarint 10 bytes).map fun p => (p.1 % 2 ^ 64 != 0, p.2)
  readEnum bytes := (decodeVarint 10 bytes).map fun p => (BitVec.ofNat 32 p.1, p.2)
  readSFixed64 := standardFixed64
  readFixed64 := standardFixed64
  readString old bytes :=
    match lengthDelimited bytes with
    | some (b, rest) => (b, some rest)
    | none => (old, none)
  readMessage := lengthDelimited
  verifyUtf8 b := b.toByteArray.validateUTF8
  skipField tag bytes := standardSkip (bytes.length + 1) tag bytes

theorem WireReader.standard_lawful : WireReader.standard.Lawful where
  tag_end _ := rfl
  tag f cutoff rest h := standardTag_varint (Field.tag_lt h) cutoff rest
  bool n rest h := by
    have hlt : n < 128 ^ (9 + 1) := Nat.lt_trans h (by decide)
    simp only [standard, decodeVarint_varint hlt, Option.map_some, Nat.mod_eq_of_lt h]
  enum n rest h := by
    have hlt : n < 128 ^ (9 + 1) := Nat.lt_trans h (by decide)
    simp only [standard, decodeVarint_varint hlt, Option.map_some]
  sfixed64 _ rest h := standardFixed64_encode h rest
  fixed64 _ rest h := standardFixed64_encode h rest
  string old b rest h := by simp only [standard, lengthDelimited_encode h]
  message b rest h := lengthDelimited_encode h rest
  utf8 s := ByteArray.validateUTF8_eq_true_iff.mpr ByteArray.isValidUTF8_utf8Encode
  skip f rest h := standardSkip_encode h rest

end Protobuf
