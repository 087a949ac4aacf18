import LibraryLink.General.Tables

/-!
# Python's string literals in double quotes

A reader of literals, character by character, and which texts it gives back as they are when they stand between quotation marks.

Literals that stand next to each other are one string. Three quotation marks in a row and literals with a prefix or in other
quotation marks are not read. The characters that `\N` names come from a table.
-/

namespace PythonSyntax

/-- A blank between the tokens in brackets, where lines may end. -/
def isBlank (c : Char) : Bool := c == ' ' || c == '\t' || c == '\n' || c == '\r' || c == '\x0c'

/-! ## The reader -/

/-- Where the reader stands: after the opening quotation mark, in the text, in an escape sequence, or after a literal, which was
empty or not. The digits that may follow are counted; the letters of a name are kept in reverse. -/
inductive Mode where
  | opened
  | text
  | backslash
  | octal (value digits : Nat)
  | hex (value digits : Nat)
  | brace
  | name (reversed : List Char)
  | carriage
  | empty
  | closed
  deriving DecidableEq, Repr

/-- The value of a digit to a base of at most sixteen. -/
def digit (base : Nat) (c : Char) : Option Nat :=
  let value :=
    if '0' ≤ c ∧ c ≤ '9' then some (c.toNat - 48)
    else if 'a' ≤ c ∧ c ≤ 'f' then some (c.toNat - 87)
    else if 'A' ≤ c ∧ c ≤ 'F' then some (c.toNat - 55)
    else none
  value.filter (· < base)

/-- The character with a number; a surrogate is none. -/
def character (n : Nat) : Option Char := if n.isValidChar then some (Char.ofNat n) else none

/-- The escape sequences of one character. -/
def simpleEscapes : List (Char × Char) :=
  [('\x5c', '\x5c'), ('\x27', '\x27'), ('\x22', '\x22'), ('a', '\x07'), ('b', '\x08'), ('f', '\x0c'), ('n', '\n'), ('r', '\r'),
   ('t', '\t'), ('v', '\x0b')]

/-- A character in the text. -/
def textStep (c : Char) : Option (Mode × List Char) :=
  if c = '\x5c' then some (.backslash, [])
  else if c = '\x22' then some (.closed, [])
  else if c = '\n' ∨ c = '\r' ∨ c = '\x00' then none
  else some (.text, [c])

/-- The beginnings of longer escape sequences, and a line that ends after a backslash. -/
def escapeModes : List (Char × Mode) :=
  [('x', .hex 0 2), ('u', .hex 0 4), ('U', .hex 0 8), ('N', .brace), ('\n', .text), ('\r', .carriage)]

/-- The character after a backslash; the backslash stays before one that has no meaning there. -/
def escapeStep (c : Char) : Option (Mode × List Char) :=
  match simpleEscapes.lookup c, digit 8 c, escapeModes.lookup c with
  | some e, _, _ => some (.text, [e])
  | none, some value, _ => some (.octal value 2, [])
  | none, none, some mode => some (mode, [])
  | none, none, none => if c = '\x00' then none else some (.text, ['\x5c', c])

/-- What a character adds to the value, and where the reader stands after it. -/
def step (names : List Char → Option Char) : Mode → Char → Option (Mode × List Char)
  | .opened, c => if c = '\x22' then some (.empty, []) else textStep c
  | .text, c => textStep c
  | .backslash, c => escapeStep c
  | .octal value digits, c =>
    match digits, digit 8 c with
    | digits + 1, some v => some (.octal (8 * value + v) digits, [])
    | _, _ => (textStep c).map fun out => (out.1, Char.ofNat value :: out.2)
  | .hex value digits, c =>
    match digit 16 c with
    | none => none
    | some v =>
      if digits ≤ 1 then (character (16 * value + v)).map fun e => (.text, [e])
      else some (.hex (16 * value + v) (digits - 1), [])
  | .brace, c => if c = '\x7b' then some (.name [], []) else none
  | .name reversed, c =>
    if c = '\x7d' then (names reversed.reverse).map fun e => (.text, [e])
    else if c.isAlphanum || c == ' ' || c == '-' then some (.name (c :: reversed), [])
    else none
  | .carriage, c => if c = '\n' then some (.text, []) else textStep c
  | .empty, c => if isBlank c then some (.closed, []) else none
  | .closed, c => if isBlank c then some (.closed, []) else if c = '\x22' then some (.opened, []) else none

/-- Whether the last literal is complete. -/
def Mode.isClosed : Mode → Bool
  | .empty => true
  | .closed => true
  | _ => false

/-- Whether a character is behind the literals. -/
def Mode.ends (mode : Mode) (c : Char) : Bool := mode.isClosed && !isBlank c && c != '\x22'

/-- The value of the literals, and what follows them. -/
def readString (names : List Char → Option Char) : Mode → List Char → Option (List Char × List Char)
  | mode, [] => if mode.isClosed then some ([], []) else none
  | mode, c :: cs =>
    if mode.ends c then some ([], c :: cs)
    else do
      let (mode, out) ← step names mode c
      let (value, rest) ← readString names mode cs
      some (out ++ value, rest)

/-- The value of a text, and where the reader stands after it. -/
def scan (names : List Char → Option Char) : Mode → List Char → Option (Mode × List Char)
  | mode, [] => some (mode, [])
  | mode, c :: cs => do
    let (mode, out) ← step names mode c
    let (mode, value) ← scan names mode cs
    some (mode, out ++ value)

/-! ## Texts that stay as they are -/

/-- A character that means itself in a literal. -/
def ordinary (c : Char) : Bool := c != '\x22' && c != '\n' && c != '\r' && c != '\x00'

/-- A character that means nothing after a backslash. -/
def inert (c : Char) : Bool :=
  (simpleEscapes.lookup c).isNone && (digit 8 c).isNone && (escapeModes.lookup c).isNone && c != '\x00'

/-- The rest of a text, after a backslash or not, has ordinary characters only, and after each backslash an inert one. -/
def plainFrom : Bool → List Char → Bool
  | escaped, [] => !escaped
  | true, c :: cs => inert c && plainFrom false cs
  | false, c :: cs => if c = '\x5c' then plainFrom true cs else ordinary c && plainFrom false cs

/-- A text that stays as it is between quotation marks. -/
def plain (s : List Char) : Bool := plainFrom false s

/-! ## Steps -/

variable {names : List Char → Option Char} {m m' : Mode} {c d : Char} {out : List Char}

/-- What a character in the text does. -/
theorem textStep_cases {r : Mode × List Char} (h : textStep c = some r) :
    (c = '\x5c' ∧ r = (.backslash, [])) ∨ (c = '\x22' ∧ r = (.closed, [])) ∨
      (c ≠ '\x5c' ∧ ordinary c = true ∧ r = (.text, [c])) := by
  unfold textStep at h
  split at h
  · rename_i hc
    exact .inl ⟨hc, (Option.some.inj h).symm⟩
  · rename_i hbackslash
    split at h
    · rename_i hc
      exact .inr (.inl ⟨hc, (Option.some.inj h).symm⟩)
    · rename_i hquote
      split at h
      · cases h
      · rename_i hline
        obtain ⟨hlf, hcr, hnul⟩ := not_or.mp hline |>.imp_right not_or.mp
        exact .inr (.inr ⟨hbackslash, by simp [ordinary, hquote, hlf, hcr, hnul], (Option.some.inj h).symm⟩)

/-- How many more characters than are left may still come out; a closing quotation mark takes one. -/
def Mode.owed : Mode → Nat
  | .backslash => 1
  | .octal _ _ => 1
  | .empty => 1
  | .closed => 1
  | _ => 0

theorem textStep_length (h : textStep c = some (m', out)) : out.length + m'.owed ≤ 1 := by
  rcases textStep_cases h with ⟨-, h⟩ | ⟨-, h⟩ | ⟨-, -, h⟩ <;> obtain ⟨rfl, rfl⟩ := Prod.mk.inj h <;> exact Nat.le_refl _

/-- What a character after a backslash does: it stays together with the backslash, or something shorter comes of it. -/
theorem escapeStep_cases (h : escapeStep c = some (m', out)) :
    (inert c = true ∧ m' = .text ∧ out = ['\x5c', c]) ∨ out.length + m'.owed ≤ 1 := by
  unfold escapeStep at h
  split at h
  · obtain ⟨rfl, rfl⟩ := Prod.mk.inj (Option.some.inj h)
    exact .inr (Nat.le_refl _)
  · obtain ⟨rfl, rfl⟩ := Prod.mk.inj (Option.some.inj h)
    exact .inr (Nat.le_refl _)
  · rename_i mode _ _ hmode
    obtain ⟨rfl, rfl⟩ := Prod.mk.inj (Option.some.inj h)
    have howed : ∀ e ∈ escapeModes, e.2.owed ≤ 1 := by decide
    have hmode := howed _ (Tables.mem_of_lookup hmode)
    rw [List.length_nil, Nat.zero_add]
    exact .inr hmode
  · rename_i hsimple hoctal hmode
    split at h
    · cases h
    · rename_i hnul
      obtain ⟨rfl, rfl⟩ := Prod.mk.inj (Option.some.inj h)
      exact .inl ⟨by simp [inert, hsimple, hoctal, hmode, hnul], rfl, rfl⟩

/-- An inert character stays after a backslash. -/
theorem escapeStep_inert (h : inert c = true) : escapeStep c = some (.text, ['\x5c', c]) := by
  simp only [inert, Bool.and_eq_true, Option.isNone_iff_eq_none, bne_iff_ne] at h
  obtain ⟨⟨⟨hsimple, hoctal⟩, hmode⟩, hnul⟩ := h
  rw [escapeStep, hsimple, hoctal, hmode]
  exact if_neg hnul

/-- What a step adds, where its outcome is known. -/
theorem length_of_eq {r : Mode × List Char} {k : Nat} (hr : r.2.length + r.1.owed ≤ k) (h : r = (m', out)) :
    out.length + m'.owed ≤ k := by
  subst h
  exact hr

/-- A step adds at most the character that it takes and what is owed. -/
theorem step_length (h : step names m c = some (m', out)) : out.length + m'.owed ≤ m.owed + 1 := by
  cases m with
  | opened =>
    simp only [step] at h
    split at h
    · exact length_of_eq (Nat.le_refl _) (Option.some.inj h)
    · exact textStep_length h
  | text => exact textStep_length h
  | backslash =>
    rcases escapeStep_cases h with ⟨-, rfl, rfl⟩ | h
    · exact Nat.le_refl _
    · exact Nat.le_succ_of_le h
  | octal value digits =>
    simp only [step] at h
    split at h
    · exact length_of_eq (Nat.le_succ _) (Option.some.inj h)
    · obtain ⟨r, hr, h⟩ := Option.map_eq_some_iff.mp h
      have hle := textStep_length hr
      refine length_of_eq ?_ h
      show r.2.length + 1 + r.1.owed ≤ 2
      omega
  | hex value digits =>
    simp only [step] at h
    split at h
    · cases h
    · split at h
      · obtain ⟨e, -, h⟩ := Option.map_eq_some_iff.mp h
        exact length_of_eq (Nat.le_refl _) h
      · exact length_of_eq (Nat.zero_le _) (Option.some.inj h)
  | brace =>
    obtain ⟨-, h⟩ := Option.ite_none_right_eq_some.mp h
    exact length_of_eq (Nat.zero_le _) (Option.some.inj h)
  | name reversed =>
    simp only [step] at h
    split at h
    · obtain ⟨e, -, h⟩ := Option.map_eq_some_iff.mp h
      exact length_of_eq (Nat.le_refl _) h
    · obtain ⟨-, h⟩ := Option.ite_none_right_eq_some.mp h
      exact length_of_eq (Nat.zero_le _) (Option.some.inj h)
  | carriage =>
    simp only [step] at h
    split at h
    · exact length_of_eq (Nat.zero_le _) (Option.some.inj h)
    · exact textStep_length h
  | empty =>
    obtain ⟨-, h⟩ := Option.ite_none_right_eq_some.mp h
    exact length_of_eq (Nat.le_succ _) (Option.some.inj h)
  | closed =>
    simp only [step] at h
    split at h
    · exact length_of_eq (Nat.le_succ _) (Option.some.inj h)
    · obtain ⟨-, h⟩ := Option.ite_none_right_eq_some.mp h
      exact length_of_eq (Nat.zero_le _) (Option.some.inj h)

/-- A comma or a closing bracket -/
def IsDelimiter (d : Char) : Prop := d = ',' ∨ d = ')'

/-- A delimiter that is read is the last character that comes out. -/
theorem step_delimiter (hd : IsDelimiter d) (h : step names m d = some (m', out)) : ∃ out', out = out' ++ [d] := by
  have htext : textStep d = some (.text, [d]) := by rcases hd with rfl | rfl <;> decide
  have hlast : ∀ {r : Mode × List Char}, textStep d = some r → r.2 = [] ++ [d] := by
    intro r hr
    rw [← Option.some.inj (htext.symm.trans hr)]
    rfl
  cases m with
  | opened =>
    simp only [step] at h
    split at h
    · rename_i hquote
      rcases hd with rfl | rfl <;> cases hquote
    · exact ⟨[], hlast h⟩
  | text => exact ⟨[], hlast h⟩
  | backslash =>
    have hinert : inert d = true := by rcases hd with rfl | rfl <;> decide
    obtain ⟨-, rfl⟩ := Prod.mk.inj (Option.some.inj ((escapeStep_inert hinert).symm.trans h))
    exact ⟨['\x5c'], rfl⟩
  | octal value digits =>
    have hdigit : digit 8 d = none := by rcases hd with rfl | rfl <;> decide
    simp only [step, hdigit] at h
    obtain ⟨r, hr, h⟩ := Option.map_eq_some_iff.mp h
    obtain ⟨-, rfl⟩ := Prod.mk.inj h
    rw [hlast hr]
    exact ⟨[Char.ofNat value], rfl⟩
  | hex value digits =>
    have hdigit : digit 16 d = none := by rcases hd with rfl | rfl <;> decide
    simp [step, hdigit] at h
  | brace => rcases hd with rfl | rfl <;> simp [step] at h
  | name reversed => rcases hd with rfl | rfl <;> simp [step] at h
  | carriage =>
    simp only [step] at h
    split at h
    · rename_i hline
      rcases hd with rfl | rfl <;> cases hline
    · exact ⟨[], hlast h⟩
  | empty => rcases hd with rfl | rfl <;> simp [step, isBlank] at h
  | closed => rcases hd with rfl | rfl <;> simp [step, isBlank] at h

/-! ## Runs -/

/-- A character at the front. -/
theorem scan_cons {cs value : List Char} : scan names m (c :: cs) = some (m', value) ↔
    ∃ m₁ out rest, step names m c = some (m₁, out) ∧ scan names m₁ cs = some (m', rest) ∧ value = out ++ rest := by
  simp only [scan, Option.bind_eq_bind, Option.bind_eq_some_iff, Option.some.injEq, Prod.mk.injEq, Prod.exists]
  constructor
  · rintro ⟨m₁, out, hstep, m₂, rest, hscan, rfl, rfl⟩
    exact ⟨m₁, out, rest, hstep, hscan, rfl⟩
  · rintro ⟨m₁, out, rest, hstep, hscan, rfl⟩
    exact ⟨m₁, out, hstep, m', rest, hscan, rfl, rfl⟩

/-- One text after the other. -/
theorem scan_append {a b value : List Char} : scan names m (a ++ b) = some (m', value) ↔
    ∃ m₁ v w, scan names m a = some (m₁, v) ∧ scan names m₁ b = some (m', w) ∧ value = v ++ w := by
  induction a generalizing m value with
  | nil =>
    constructor
    · intro h
      exact ⟨m, [], value, rfl, h, rfl⟩
    · rintro ⟨m₁, v, w, hv, hw, rfl⟩
      obtain ⟨rfl, rfl⟩ := Prod.mk.inj (Option.some.inj hv)
      exact hw
  | cons c a ih =>
    rw [List.cons_append, scan_cons]
    constructor
    · rintro ⟨m₁, out, rest, hstep, hscan, rfl⟩
      obtain ⟨m₂, v, w, hv, hw, rfl⟩ := ih.mp hscan
      exact ⟨m₂, out ++ v, w, scan_cons.mpr ⟨m₁, out, v, hstep, hv, rfl⟩, hw, (List.append_assoc _ _ _).symm⟩
    · rintro ⟨m₂, v', w, hv, hw, rfl⟩
      obtain ⟨m₁, out, v, hstep, hscan, rfl⟩ := scan_cons.mp hv
      exact ⟨m₁, out, v ++ w, hstep, ih.mpr ⟨m₂, v, w, hscan, hw, rfl⟩, List.append_assoc _ _ _⟩

/-- The value of a text is at most as long as the text and what is owed. -/
theorem scan_length {cs value : List Char} (h : scan names m cs = some (m', value)) :
    value.length + m'.owed ≤ m.owed + cs.length := by
  induction cs generalizing m value with
  | nil =>
    obtain ⟨rfl, rfl⟩ := Prod.mk.inj (Option.some.inj h)
    exact Nat.le_of_eq (Nat.add_comm _ _)
  | cons c cs ih =>
    obtain ⟨m₁, out, rest, hstep, hscan, rfl⟩ := scan_cons.mp h
    have hfirst := step_length hstep
    have hrest := ih hscan
    rw [List.length_append, List.length_cons]
    omega

/-- The reader of literals goes through a text that leaves the last one complete. -/
theorem readString_eq_some {cs value rest : List Char} (h : readString names m cs = some (value, rest)) :
    ∃ raw m', cs = raw ++ rest ∧ scan names m raw = some (m', value) ∧ m'.isClosed = true := by
  induction cs generalizing m value with
  | nil =>
    rw [readString] at h
    obtain ⟨hclosed, h⟩ := Option.ite_none_right_eq_some.mp h
    obtain ⟨rfl, rfl⟩ := Prod.mk.inj (Option.some.inj h)
    exact ⟨[], m, rfl, rfl, hclosed⟩
  | cons c cs ih =>
    rw [readString] at h
    split at h
    · rename_i hends
      obtain ⟨rfl, rfl⟩ := Prod.mk.inj (Option.some.inj h)
      unfold Mode.ends at hends
      simp only [Bool.and_eq_true] at hends
      exact ⟨[], m, rfl, rfl, hends.1.1⟩
    · simp only [Option.bind_eq_bind, Option.bind_eq_some_iff, Option.some.injEq, Prod.mk.injEq, Prod.exists] at h
      obtain ⟨m₁, out, hstep, v, r, hread, rfl, rfl⟩ := h
      obtain ⟨raw, m', rfl, hscan, hclosed⟩ := ih hread
      exact ⟨c :: raw, m', rfl, scan_cons.mpr ⟨m₁, out, v, hstep, hscan, rfl⟩, hclosed⟩

/-- A character that the reader takes is not behind the literals. -/
theorem ends_of_step (h : step names m c = some (m', out)) : m.ends c = false := by
  cases m with
  | empty =>
    have hblank : isBlank c = true := (Option.ite_none_right_eq_some.mp h).1
    simp [Mode.ends, hblank]
  | closed =>
    by_cases hblank : isBlank c = true
    · simp [Mode.ends, hblank]
    · have hquote : c = '\x22' := (Option.ite_none_right_eq_some.mp ((if_neg hblank).symm.trans h)).1
      simp [Mode.ends, hquote]
  | _ => rfl

/-- The reader stops behind a text that leaves the last literal complete, at a character that is no literal's. -/
theorem readString_of_scan {raw value rest : List Char} (h : scan names m raw = some (m', value)) (hends : m'.ends d = true) :
    readString names m (raw ++ d :: rest) = some (value, d :: rest) := by
  induction raw generalizing m value with
  | nil =>
    obtain ⟨rfl, rfl⟩ := Prod.mk.inj (Option.some.inj h)
    rw [List.nil_append, readString, if_pos hends]
  | cons c raw ih =>
    obtain ⟨m₁, out, v, hstep, hscan, rfl⟩ := scan_cons.mp h
    rw [List.cons_append, readString, if_neg (by rw [ends_of_step hstep]; exact Bool.false_ne_true), hstep]
    show (readString names m₁ (raw ++ d :: rest) >>= _) = _
    rw [ih hscan]
    rfl

/-! ## Plain texts -/

/-- After a complete literal the next character adds nothing. -/
theorem scan_closed_length (hm : m.isClosed = true) {cs value : List Char} (hcs : cs ≠ [])
    (h : scan names m cs = some (m', value)) : value.length + m'.owed ≤ cs.length := by
  obtain ⟨c, cs, rfl⟩ := List.exists_cons_of_ne_nil hcs
  obtain ⟨m₁, out, rest, hstep, hscan, rfl⟩ := scan_cons.mp h
  have hrest := scan_length hscan
  have hfirst : out.length + m₁.owed ≤ 1 := by
    cases m with
    | empty =>
      obtain ⟨-, h⟩ := Option.ite_none_right_eq_some.mp hstep
      obtain ⟨rfl, rfl⟩ := Prod.mk.inj (Option.some.inj h)
      exact Nat.le_refl _
    | closed =>
      simp only [step] at hstep
      split at hstep
      · obtain ⟨rfl, rfl⟩ := Prod.mk.inj (Option.some.inj hstep)
        exact Nat.le_refl _
      · obtain ⟨-, h⟩ := Option.ite_none_right_eq_some.mp hstep
        obtain ⟨rfl, rfl⟩ := Prod.mk.inj (Option.some.inj h)
        exact Nat.zero_le _
    | _ => cases hm
  rw [List.length_append, List.length_cons]
  omega

/-- A step in the text: it stops there, or one at the beginning that is no quotation mark is the same. -/
theorem step_start (hm : m = .opened ∨ m = .text) (h : step names m c = some (m', out)) :
    (m'.isClosed = true ∧ out = []) ∨ textStep c = some (m', out) := by
  rcases hm with rfl | rfl
  · simp only [step] at h
    split at h
    · obtain ⟨rfl, rfl⟩ := Prod.mk.inj (Option.some.inj h)
      exact .inl ⟨rfl, rfl⟩
    · exact .inr h
  · exact .inr h

/-- A text whose literal is as long as itself is plain. -/
theorem plain_of_scan : ∀ (s : List Char) {m : Mode} {value : List Char}, m = .opened ∨ m = .text →
    scan names m (s ++ ['\x22']) = some (m', value) → m'.isClosed = true → s.length ≤ value.length → plainFrom false s = true
  | [], _, _, _, _, _, _ => rfl
  | c :: s, m, value, hm, h, hclosed, hle => by
    obtain ⟨m₁, out, rest, hstep, hscan, rfl⟩ := scan_cons.mp h
    have howed : m'.owed = 1 := by
      cases m' <;> first | rfl | cases hclosed
    have hshort : m₁.isClosed = true → out = [] → False := by
      rintro hm₁ rfl
      have hbound := scan_closed_length hm₁ (List.append_ne_nil_of_right_ne_nil s (List.cons_ne_nil _ _)) hscan
      rw [howed, List.length_append, List.length_singleton] at hbound
      exact absurd (Nat.le_of_succ_le_succ hbound) (Nat.not_le.mpr hle)
    rcases step_start hm hstep with ⟨hm₁, hout⟩ | htext
    · exact absurd hout (hshort hm₁)
    · rcases textStep_cases htext with ⟨rfl, hr⟩ | ⟨rfl, hr⟩ | ⟨hne, hordinary, hr⟩
      · obtain ⟨rfl, rfl⟩ := Prod.mk.inj hr
        match s with
        | [] =>
          -- A backslash at the end hides the quotation mark, and the literal goes on.
          obtain ⟨m₂, out, _, hstep₂, hscan₂, -⟩ := scan_cons.mp hscan
          obtain ⟨rfl, -⟩ := Prod.mk.inj (Option.some.inj hstep₂)
          obtain ⟨rfl, -⟩ := Prod.mk.inj (Option.some.inj hscan₂)
          cases hclosed
        | q :: s =>
          obtain ⟨m₂, out, v, hstep₂, hscan₂, rfl⟩ := scan_cons.mp hscan
          rcases escapeStep_cases hstep₂ with ⟨hinert, rfl, rfl⟩ | hlt
          · have hrest : s.length ≤ v.length := Nat.le_of_succ_le_succ (Nat.le_of_succ_le_succ hle)
            rw [plainFrom, if_pos rfl, plainFrom, hinert, Bool.true_and]
            exact plain_of_scan s (.inr rfl) hscan₂ hclosed hrest
          · have hbound : v.length + m'.owed ≤ m₂.owed + (s ++ ['\x22']).length := scan_length hscan₂
            rw [howed, List.length_append, List.length_singleton] at hbound
            simp only [List.nil_append, List.length_append, List.length_cons] at hle
            omega
      · obtain ⟨rfl, rfl⟩ := Prod.mk.inj hr
        exact absurd rfl (hshort rfl)
      · obtain ⟨rfl, rfl⟩ := Prod.mk.inj hr
        have hrest : s.length ≤ rest.length := Nat.le_of_succ_le_succ hle
        rw [plainFrom, if_neg hne, hordinary, Bool.true_and]
        exact plain_of_scan s (.inr rfl) hscan hclosed hrest

/-- A plain text is its own value. -/
theorem scan_of_plain : ∀ (s : List Char) {m : Mode}, m = .opened ∨ m = .text → plainFrom false s = true →
    ∃ m', (m' = .opened ∨ m' = .text) ∧ scan names m s = some (m', s)
  | [], m, hm, _ => ⟨m, hm, rfl⟩
  | c :: s, m, hm, h => by
    by_cases hc : c = '\x5c'
    · subst hc
      have hstep : step names m '\x5c' = some (.backslash, []) := by rcases hm with rfl | rfl <;> rfl
      rw [plainFrom, if_pos rfl] at h
      match s with
      | [] => cases h
      | q :: s =>
        rw [plainFrom, Bool.and_eq_true] at h
        obtain ⟨m', hm', hscan⟩ := scan_of_plain s (.inr rfl) h.2
        exact ⟨m', hm', scan_cons.mpr ⟨_, _, _, hstep, scan_cons.mpr ⟨_, _, _, escapeStep_inert h.1, hscan, rfl⟩, rfl⟩⟩
    · rw [plainFrom, if_neg hc, Bool.and_eq_true] at h
      obtain ⟨m', hm', hscan⟩ := scan_of_plain s (.inr rfl) h.2
      obtain ⟨hordinary, -⟩ := h
      simp only [ordinary, Bool.and_eq_true, bne_iff_ne] at hordinary
      obtain ⟨⟨⟨hquote, hlf⟩, hcr⟩, hnul⟩ := hordinary
      have htext : textStep c = some (.text, [c]) := by simp [textStep, hc, hquote, hlf, hcr, hnul]
      have hstep : step names m c = some (.text, [c]) := by
        rcases hm with rfl | rfl
        · exact (if_neg hquote).trans htext
        · exact htext
      exact ⟨m', hm', scan_cons.mpr ⟨_, _, _, hstep, hscan, rfl⟩⟩

/-- A delimiter behind a quotation mark ends the literals. -/
theorem ends_delimiter (hd : IsDelimiter d) (hm : m.isClosed = true) : m.ends d = true := by
  unfold Mode.ends
  rw [hm]
  rcases hd with rfl | rfl <;> rfl

/-- A plain text between quotation marks is read as it is. -/
theorem readString_of_plain {s : List Char} (h : plain s = true) (hd : IsDelimiter d) (rest : List Char) :
    readString names .opened (s ++ '\x22' :: d :: rest) = some (s, d :: rest) := by
  obtain ⟨m, hm, hscan⟩ : ∃ m, (m = .opened ∨ m = .text) ∧ scan names .opened s = some (m, s) := scan_of_plain s (.inl rfl) h
  have hclose : ∃ m', m'.isClosed = true ∧ step names m '\x22' = some (m', []) := by
    rcases hm with rfl | rfl
    · exact ⟨.empty, rfl, rfl⟩
    · exact ⟨.closed, rfl, rfl⟩
  obtain ⟨m', hclosed, hstep⟩ := hclose
  have hall : scan names .opened (s ++ ['\x22']) = some (m', s) :=
    scan_append.mpr ⟨m, s, [], hscan, scan_cons.mpr ⟨m', [], [], hstep, rfl, rfl⟩, (List.append_nil s).symm⟩
  have hread : readString names .opened (s ++ ['\x22'] ++ d :: rest) = some (s, d :: rest) :=
    readString_of_scan hall (ends_delimiter hd hclosed)
  rw [List.append_assoc] at hread
  exact hread

/-- The value of a text ends with the delimiter that the text ends with. -/
theorem scan_concat_delimiter (hd : IsDelimiter d) {a value : List Char} (h : scan names m (a ++ [d]) = some (m', value)) :
    ∃ v, value = v ++ [d] := by
  obtain ⟨m₁, v, w, -, hlast, rfl⟩ := scan_append.mp h
  obtain ⟨m₂, out, rest, hstep, hnil, rfl⟩ := scan_cons.mp hlast
  obtain ⟨-, rfl⟩ := Prod.mk.inj (Option.some.inj hnil)
  obtain ⟨out', rfl⟩ := step_delimiter hd hstep
  exact ⟨v ++ out', by simp⟩

/-- A delimiter in a text comes out, not later than it is read. -/
theorem scan_delimiter (hd : IsDelimiter d) {a b value : List Char} (h : scan names .opened (a ++ d :: b) = some (m', value)) :
    ∃ m₁ v w, scan names .opened (a ++ [d]) = some (m₁, v ++ [d]) ∧ value = v ++ d :: w ∧ v.length ≤ a.length := by
  rw [List.append_cons] at h
  obtain ⟨m₁, v', w, hfirst, -, rfl⟩ := scan_append.mp h
  obtain ⟨v, rfl⟩ := scan_concat_delimiter hd hfirst
  have hle : (v ++ [d]).length + m₁.owed ≤ 0 + (a ++ [d]).length := scan_length hfirst
  simp only [List.length_append, List.length_singleton] at hle
  exact ⟨m₁, v, w, hfirst, by simp, by omega⟩

/-- Where the value is the beginning of the text, every delimiter comes out at its own place: if one came out before it, so would the
one that stands in that place. -/
theorem delimiter_in_place (hd : IsDelimiter d) {raw value : List Char} (h : scan names .opened raw = some (m', value))
    (hbeginning : value <+: raw) (n : Nat) : ∀ {a b v w : List Char} {m₁ : Mode}, a.length = n → raw = a ++ d :: b →
    scan names .opened (a ++ [d]) = some (m₁, v ++ [d]) → value = v ++ d :: w → v.length ≤ a.length → v.length = n := by
  induction n using Nat.strongRecOn with
  | ind n ih =>
    intro a b v w m₁ hlen hraw hscan hvalue hle
    rw [hlen] at hle
    by_contra hne
    have hlt : v.length < n := Nat.lt_of_le_of_ne hle hne
    obtain ⟨x, hx⟩ := hbeginning
    have hraw' : raw = v ++ d :: (w ++ x) := by
      rw [← hx, hvalue]
      simp
    obtain ⟨m₂, u, w', hscan', hvalue', hle'⟩ := scan_delimiter hd (hraw' ▸ h)
    have hu : u.length = v.length := ih v.length hlt rfl hraw' hscan' hvalue' hle'
    have hpre : v ++ [d] <+: a := by
      have hv : v ++ [d] <+: raw := ⟨w ++ x, by rw [hraw']; simp⟩
      refine List.prefix_of_prefix_length_le hv ⟨d :: b, hraw.symm⟩ ?_
      rw [List.length_append, List.length_singleton, hlen]
      exact hlt
    obtain ⟨a', rfl⟩ := hpre
    rw [List.append_assoc] at hscan
    obtain ⟨m₃, o, o', hfirst, hlast, heq⟩ := scan_append.mp hscan
    obtain ⟨-, rfl⟩ := Prod.mk.inj (Option.some.inj (hscan'.symm.trans hfirst))
    obtain ⟨o'', rfl⟩ := scan_concat_delimiter hd hlast
    have hlength := congrArg List.length heq
    simp only [List.length_append, List.length_singleton] at hlength
    omega

/-- What is read between quotation marks before a delimiter is the text itself only if the text is plain, and then nothing more is read:
a reader that went past the closing quotation mark would take the delimiter behind it for a part of the value. -/
theorem readString_eq_self {s rest r : List Char} (hd : IsDelimiter d)
    (h : readString names .opened (s ++ '\x22' :: d :: rest) = some (s, r)) : plain s = true ∧ r = d :: rest := by
  obtain ⟨raw, m', hraw, hscan, hclosed⟩ := readString_eq_some h
  have howed : m'.owed = 1 := by
    cases m' <;> first | rfl | cases hclosed
  have hle : s.length + 1 ≤ raw.length := by
    have hbound : s.length + m'.owed ≤ 0 + raw.length := scan_length hscan
    rw [howed, Nat.zero_add] at hbound
    exact hbound
  have hpre : s ++ ['\x22'] <+: raw := by
    have hs : s ++ ['\x22'] <+: s ++ '\x22' :: d :: rest := ⟨d :: rest, by simp⟩
    refine List.prefix_of_prefix_length_le hs ⟨r, hraw.symm⟩ ?_
    rw [List.length_append, List.length_singleton]
    exact hle
  obtain ⟨more, rfl⟩ := hpre
  have hrest : d :: rest = more ++ r := by
    have hcancel : s ++ ['\x22'] ++ (d :: rest) = s ++ ['\x22'] ++ (more ++ r) := by
      rw [← List.append_assoc _ more r, ← hraw]
      simp
    exact List.append_cancel_left hcancel
  cases more with
  | nil =>
    rw [List.append_nil] at hscan
    exact ⟨plain_of_scan s (.inl rfl) hscan hclosed (Nat.le_refl _), hrest.symm⟩
  | cons e more =>
    obtain ⟨rfl, -⟩ := List.cons.inj hrest
    obtain ⟨m₁, v, w, hfirst, hvalue, hv⟩ := scan_delimiter hd hscan
    have hplace := delimiter_in_place hd hscan (⟨'\x22' :: d :: more, by simp⟩) _ rfl rfl hfirst hvalue hv
    have hlength := congrArg List.length hvalue
    rw [hplace] at hv
    simp only [List.length_append, List.length_cons, List.length_nil] at hlength hplace
    omega

end PythonSyntax
