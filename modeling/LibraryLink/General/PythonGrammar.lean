import LibraryLink.General.PythonLiterals
import Mathlib.Data.List.TakeWhile

/-!
# Assignments of calls in Python

A reader of statements that assign the value of one call to a name, and when it gives back what was printed. The arguments of the call
are names, integers and strings in double quotes, with or without a keyword.

Comments, and lines that a backslash continues, are not read.
-/

namespace PythonSyntax

/-! ## Names -/

/-- Which characters names are made of, and the form that names have in a program: identifiers of other scripts, the normal form that
makes names equal, and the names of characters. -/
structure Names where
  start : Char → Bool
  part : Char → Bool
  normalize : List Char → List Char
  character : List Char → Option Char
  start_ascii : ∀ c, c.toNat < 128 → start c = (c.isAlpha || c == '_')
  part_ascii : ∀ c, c.toNat < 128 → part c = (c.isAlphanum || c == '_')
  normalize_prefix : ∀ s t, s <+: normalize t → normalize s = s
  part_normalize : ∀ s, (∀ c ∈ s, part c = true) → ∀ c ∈ normalize s, part c = true
  normalize_ne_nil : ∀ s, s ≠ [] → normalize s ≠ []

/-- The names of a program in ASCII -/
def Names.ascii : Names where
  start c := c.isAlpha || c == '_'
  part c := c.isAlphanum || c == '_'
  normalize := id
  character _ := none
  start_ascii _ _ := rfl
  part_ascii _ _ := rfl
  normalize_prefix _ _ _ := rfl
  part_normalize _ h := h
  normalize_ne_nil _ h := h

/-- The words that are no names. -/
def keywords : List String :=
  ["False", "None", "True", "and", "as", "assert", "async", "await", "break", "class", "continue", "def", "del", "elif", "else", "except",
   "finally", "for", "from", "global", "if", "import", "in", "is", "lambda", "nonlocal", "not", "or", "pass", "raise", "return", "try",
   "while", "with", "yield"]

/-- A name in the form that it has in a program. -/
structure Identifier (names : Names) (n : List Char) : Prop where
  start : ∃ c, n.head? = some c ∧ names.start c = true
  part : ∀ c ∈ n, names.part c = true
  keyword : String.ofList n ∉ keywords
  normal : names.normalize n = n

/-- A name, and what follows it. -/
def readName (names : Names) (text : List Char) : Option (List Char × List Char) :=
  let n := text.takeWhile names.part
  if n.head?.any names.start && !keywords.contains (String.ofList n) then some (names.normalize n, text.dropWhile names.part) else none

/-- A name that a program can use for a variable; `__debug__` is a constant. -/
def isVariable (n : List Char) : Bool := n != "__debug__".toList

/-! ## Expressions -/

/-- An argument. -/
inductive Expr where
  | name (n : List Char)
  | int (n : Int)
  | str (s : List Char)
  deriving DecidableEq, Repr

/-- A decimal number, without needless zeros in front. -/
def readNat (text : List Char) : Option (Nat × List Char) :=
  let digits := text.takeWhile Char.isDigit
  if digits = [] ∨ (digits.head? = some '0' ∧ digits.any (· != '0')) then none
  else some (Nat.ofDigitChars 10 digits 0, text.dropWhile Char.isDigit)

/-- An argument without its keyword, and what follows it. -/
def readExpr (names : Names) : List Char → Option (Expr × List Char)
  | [] => none
  | c :: cs =>
    if c = '\x22' then (readString names.character .opened cs).map fun out => (.str out.1, out.2)
    else if c = '-' then (readNat (cs.dropWhile isBlank)).map fun out => (.int (-out.1), out.2)
    else if c.isDigit then (readNat (c :: cs)).map fun out => (.int out.1, out.2)
    else (readName names (c :: cs)).bind fun out => if isVariable out.1 then some (.name out.1, out.2) else none

/-- An argument with the keyword that it has. -/
abbrev Arg := Option (List Char) × Expr

/-- An argument, and what follows it. -/
def readArg (names : Names) (text : List Char) : Option (Arg × List Char) :=
  match readName names text with
  | some (key, rest) =>
    match rest.dropWhile isBlank with
    | '=' :: rest =>
      if isVariable key then (readExpr names (rest.dropWhile isBlank)).map fun out => ((some key, out.1), out.2) else none
    | _ => if isVariable key then some ((none, .name key), rest) else none
  | none => (readExpr names text).map fun out => ((none, out.1), out.2)

/-- Arguments up to the closing bracket, and what follows it. The first argument bounds their number. -/
def readArgs (names : Names) : Nat → List Char → Option (List Arg × List Char)
  | 0, _ => none
  | fuel + 1, text =>
    match text.dropWhile isBlank with
    | ')' :: rest => some ([], rest)
    | text => do
      let (arg, rest) ← readArg names text
      match rest.dropWhile isBlank with
      | ',' :: rest => do
        let (args, rest) ← readArgs names fuel rest
        some (arg :: args, rest)
      | ')' :: rest => some ([arg], rest)
      | _ => none

/-- No argument without a keyword comes after one with a keyword, and the keywords differ. -/
def wellFormed (args : List Arg) : Bool :=
  (args.dropWhile (·.1.isNone)).all (·.1.isSome) && decide (args.filterMap (·.1)).Nodup

/-! ## Statements -/

/-- `target = callee(args)`, where the callee is a name or an attribute of an object. -/
structure Assignment where
  target : List Char
  callee : List (List Char)
  args : List Arg
  deriving DecidableEq, Repr

/-- A blank in a line -/
def isSpace (c : Char) : Bool := c == ' ' || c == '\t' || c == '\x0c'

/-- Names with dots between them, and what follows them. The first argument bounds their number. -/
def readCallee (names : Names) : Nat → List Char → Option (List (List Char) × List Char)
  | 0, _ => none
  | fuel + 1, text => do
    let (n, rest) ← readName names text
    match rest.dropWhile isSpace with
    | '.' :: rest => do
      let (ns, rest) ← readCallee names fuel (rest.dropWhile isSpace)
      some (n :: ns, rest)
    | rest => some ([n], rest)

/-- A text that is one assignment of one call. -/
def readStatement (names : Names) (text : List Char) : Option Assignment := do
  let (target, rest) ← readName names text
  match rest.dropWhile isSpace with
  | '=' :: rest => do
    let (callee, rest) ← readCallee names text.length (rest.dropWhile isSpace)
    match rest with
    | '(' :: rest => do
      let (args, rest) ← readArgs names text.length rest
      if isVariable target && wellFormed args && rest.all isBlank then some ⟨target, callee, args⟩ else none
    | _ => none
  | _ => none

/-! ## Printing -/

/-- The text of an argument without its keyword -/
def Expr.print : Expr → List Char
  | .name n => n
  | .int n => (toString n).toList
  | .str s => '\x22' :: s ++ ['\x22']

/-- The text of an argument -/
def Arg.print : Arg → List Char
  | (some key, e) => key ++ " = ".toList ++ e.print
  | (none, e) => e.print

/-- The text of arguments, with commas between them -/
def printArgs : List Arg → List Char
  | [] => []
  | [arg] => Arg.print arg
  | arg :: args => Arg.print arg ++ ", ".toList ++ printArgs args

/-- The text of a statement. The callee is a text as well. -/
def printStatement (target callee : List Char) (args : List Arg) : List Char :=
  target ++ " = ".toList ++ callee ++ "(".toList ++ printArgs args ++ ")".toList

/-- Names with dots between them -/
def joinDots : List (List Char) → List Char
  | [] => []
  | [n] => n
  | n :: ns => n ++ '.' :: joinDots ns

/-- An argument whose text is read as the argument. -/
def Expr.Readable (names : Names) : Expr → Prop
  | .name n => Identifier names n ∧ isVariable n = true
  | .int _ => True
  | .str s => plain s = true

/-- An argument whose text is read as the argument, with its keyword. -/
def Arg.Readable (names : Names) (arg : Arg) : Prop :=
  (∀ key ∈ arg.1, Identifier names key ∧ isVariable key = true) ∧ arg.2.Readable names

/-! ## Reading names -/

variable {names : Names} {d : Char} {n r rest text : List Char}

/-- A run that does not begin. -/
theorem dropWhile_head {p : Char → Bool} (hd : p d = false) (rest : List Char) : (d :: rest).dropWhile p = d :: rest :=
  List.dropWhile_cons_of_neg (by rw [hd]; exact Bool.false_ne_true)

/-- What is behind a run. -/
theorem takeWhile_stop {p : Char → Bool} (hrest : ∀ c ∈ rest.head?, p c = false) (l : List Char) :
    (l ++ rest).takeWhile p = l.takeWhile p ∧ (l ++ rest).dropWhile p = l.dropWhile p ++ rest := by
  induction l with
  | nil =>
    cases rest with
    | nil => exact ⟨rfl, rfl⟩
    | cons d rest => simp [hrest d rfl]
  | cons c l ih =>
    by_cases hc : p c = true
    · simp [hc, ih]
    · simp [hc]

/-- A character ends a run. -/
theorem stop_cons {p : Char → Bool} (hd : p d = false) : ∀ c ∈ (d :: rest).head?, p c = false := by
  rintro c hc
  obtain rfl := Option.some.inj hc
  exact hd

/-- A run of characters in front. -/
theorem takeWhile_all {p : Char → Bool} (hp : ∀ c ∈ n, p c = true) (hd : p d = false) (rest : List Char) :
    (n ++ d :: rest).takeWhile p = n ∧ (n ++ d :: rest).dropWhile p = d :: rest := by
  have hstop : ∀ c ∈ (d :: rest).head?, p c = false := stop_cons hd
  obtain ⟨htake, hdrop⟩ := takeWhile_stop hstop n
  rw [htake, hdrop, List.takeWhile_eq_self_iff.mpr hp, List.dropWhile_eq_nil_iff.mpr hp]
  exact ⟨rfl, rfl⟩

/-- What is read as a name. -/
theorem readName_eq_some : readName names text = some (n, r) ↔
    ((text.takeWhile names.part).head?.any names.start = true ∧ String.ofList (text.takeWhile names.part) ∉ keywords) ∧
      names.normalize (text.takeWhile names.part) = n ∧ text.dropWhile names.part = r := by
  simp only [readName, Option.ite_none_right_eq_some, Bool.and_eq_true, Bool.not_eq_true', List.contains_eq_mem, decide_eq_false_iff_not,
    Option.some.injEq, Prod.mk.injEq]

/-- A name that was read has a character, and only characters of names. -/
theorem part_of_readName (h : readName names text = some (n, r)) : n ≠ [] ∧ ∀ c ∈ n, names.part c = true := by
  obtain ⟨⟨hstart, -⟩, rfl, -⟩ := readName_eq_some.mp h
  refine ⟨names.normalize_ne_nil _ ?_, names.part_normalize _ fun c hc => List.mem_takeWhile_imp hc⟩
  intro hnil
  rw [hnil] at hstart
  cases hstart

/-- An identifier is read. -/
theorem Identifier.readName (hn : Identifier names n) (hd : names.part d = false) (rest : List Char) :
    readName names (n ++ d :: rest) = some (n, d :: rest) := by
  obtain ⟨htake, hdrop⟩ := takeWhile_all hn.part hd rest
  obtain ⟨c, hc, hstart⟩ := hn.start
  rw [readName_eq_some, htake, hdrop, hc]
  exact ⟨⟨hstart, hn.keyword⟩, hn.normal, rfl⟩

/-- A text that is read as the name that it is, is an identifier: the name is read from the beginning of the text, and the beginning of a
text in normal form is in normal form. -/
theorem identifier_of_readName (hrest : ∀ c ∈ rest.head?, names.part c = false) (h : readName names (n ++ rest) = some (n, r)) :
    Identifier names n ∧ r = rest := by
  obtain ⟨hpart, hdrop⟩ := takeWhile_stop hrest n
  obtain ⟨⟨hstart, hkeyword⟩, hnormal, hr⟩ := readName_eq_some.mp h
  rw [hpart] at hstart hkeyword hnormal
  have hself : names.normalize (n.takeWhile names.part) = n.takeWhile names.part := by
    refine names.normalize_prefix _ (n.takeWhile names.part) ?_
    rw [hnormal]
    exact List.takeWhile_prefix _
  have htake : n.takeWhile names.part = n := hself.symm.trans hnormal
  rw [htake] at hstart hkeyword hnormal
  have hall := List.takeWhile_eq_self_iff.mp htake
  refine ⟨⟨?_, hall, hkeyword, hnormal⟩, ?_⟩
  · cases hhead : n.head? with
    | none =>
      rw [hhead] at hstart
      cases hstart
    | some c =>
      rw [hhead] at hstart
      exact ⟨c, rfl, hstart⟩
  · rw [← hr, hdrop, List.dropWhile_eq_nil_iff.mpr hall]
    rfl

/-- A character that is no letter, digit or underscore of ASCII is in no name. -/
theorem part_eq_false (names : Names) (hascii : d.toNat < 128) (hd : (d.isAlphanum || d == '_') = false) : names.part d = false :=
  (names.part_ascii d hascii).trans hd

/-- The blanks are five characters of ASCII. -/
theorem isBlank_cases {c : Char} (h : isBlank c = true) : c = ' ' ∨ c = '\t' ∨ c = '\n' ∨ c = '\r' ∨ c = '\x0c' := by
  simpa only [isBlank, Bool.or_eq_true, beq_iff_eq, or_assoc] using h

/-- There are no blanks in names. -/
theorem isBlank_eq_false (hd : names.part d = true) : isBlank d = false := by
  by_contra hblank
  have hpart : names.part d = false := by
    rcases isBlank_cases (Bool.not_eq_false _ ▸ hblank) with rfl | rfl | rfl | rfl | rfl <;>
      exact part_eq_false names (by decide) (by decide)
  rw [hpart] at hd
  cases hd

/-- A text that begins with a name does not begin with a blank. -/
theorem dropWhile_name {p : Char → Bool} (hp : ∀ c, p c = true → isBlank c = true)
    (hn : n ≠ [] ∧ ∀ c ∈ n, names.part c = true) (rest : List Char) : (n ++ rest).dropWhile p = n ++ rest := by
  obtain ⟨c, cs, rfl⟩ := List.exists_cons_of_ne_nil hn.1
  have hc : p c = false := by
    by_contra hc
    have hblank := hp c (Bool.not_eq_false _ ▸ hc)
    rw [isBlank_eq_false (hn.2 c List.mem_cons_self)] at hblank
    cases hblank
  exact dropWhile_head hc _

/-- A text that is read as the name that it is, after blanks at its beginning, is an identifier. -/
theorem identifier_of_dropWhile {p : Char → Bool} (hp : ∀ c, p c = true → isBlank c = true)
    (hrest : ∀ c ∈ rest.head?, names.part c = false) (h : readName names ((n ++ rest).dropWhile p) = some (n, r)) :
    Identifier names n ∧ r = rest := by
  rw [dropWhile_name hp (part_of_readName h)] at h
  exact identifier_of_readName hrest h

/-! ## Reading arguments -/

variable {e : Expr} {arg : Arg} {args : List Arg}

theorem IsDelimiter.part (hd : IsDelimiter d) : names.part d = false := by
  rcases hd with rfl | rfl <;> exact part_eq_false names (by decide) (by decide)

theorem IsDelimiter.isBlank (hd : IsDelimiter d) : isBlank d = false := by
  rcases hd with rfl | rfl <;> rfl

/-- The digits of a number do not begin with a zero, unless it is zero. -/
theorem head_toDigits (n : Nat) : 0 < n → (Nat.toDigits 10 n).head? ≠ some '0' := by
  induction n using Nat.strongRecOn with
  | ind n ih =>
    intro hpos
    by_cases hlt : n < 10
    · rw [Nat.toDigits_of_lt_base hlt, List.head?_cons]
      intro h
      exact absurd (Nat.digitChar_eq_zero.mp (Option.some.inj h)) (Nat.ne_of_gt hpos)
    · rw [Nat.toDigits_of_base_le (by decide) (Nat.not_lt.mp hlt), List.head?_append_of_ne_nil _ Nat.toDigits_ne_nil]
      exact ih (n / 10) (Nat.div_lt_self hpos (by decide)) (by omega)

/-- A number is read. -/
theorem readNat_print (n : Nat) (hd : IsDelimiter d) (rest : List Char) :
    readNat (Nat.toDigits 10 n ++ d :: rest) = some (n, d :: rest) := by
  have hdigit : d.isDigit = false := by rcases hd with rfl | rfl <;> decide
  have hdigits : ∀ c ∈ Nat.toDigits 10 n, c.isDigit = true := fun c hc => Nat.isDigit_of_mem_toDigits (by decide) (by decide) hc
  obtain ⟨htake, hdrop⟩ := takeWhile_all hdigits hdigit rest
  have hzeros : ¬(Nat.toDigits 10 n = [] ∨
      ((Nat.toDigits 10 n).head? = some '0' ∧ (Nat.toDigits 10 n).any (· != '0') = true)) := by
    rintro (hnil | ⟨hhead, hany⟩)
    · exact Nat.toDigits_ne_nil hnil
    · rcases Nat.eq_zero_or_pos n with rfl | hpos
      · rw [Nat.toDigits_zero] at hany
        cases hany
      · exact head_toDigits n hpos hhead
  rw [readNat, htake, hdrop, if_neg hzeros, Nat.ofDigitChars_ten_toDigits]

/-- The digits of a number, the first one in front. -/
theorem toDigits_eq_cons (n : Nat) : ∃ c cs, Nat.toDigits 10 n = c :: cs ∧ c.isDigit = true := by
  have hdigits : ∀ c ∈ Nat.toDigits 10 n, c.isDigit = true := fun c hc => Nat.isDigit_of_mem_toDigits (by decide) (by decide) hc
  cases hcs : Nat.toDigits 10 n with
  | nil => exact absurd hcs Nat.toDigits_ne_nil
  | cons c cs => exact ⟨c, cs, rfl, hdigits c (hcs ▸ List.mem_cons_self)⟩

/-- A number begins with no blank, and with no closing bracket. -/
theorem number_head {c : Char} (hc : c = '-' ∨ c.isDigit = true) : isBlank c = false ∧ c ≠ ')' := by
  constructor
  · by_contra hblank
    rcases isBlank_cases (Bool.not_eq_false _ ▸ hblank) with rfl | rfl | rfl | rfl | rfl <;> rcases hc with hc | hc <;> cases hc
  · rintro rfl
    rcases hc with hc | hc <;> cases hc

/-- The text of a number begins with a digit or a minus, and is read. -/
theorem print_int (names : Names) (k : Int) : ∃ c cs, (Expr.int k).print = c :: cs ∧ (c = '-' ∨ c.isDigit = true) ∧
    ∀ {d : Char}, IsDelimiter d → ∀ rest : List Char, readExpr names (c :: cs ++ d :: rest) = some (.int k, d :: rest) := by
  by_cases hk : 0 ≤ k
  · obtain ⟨c, cs, hcs, hc⟩ := toDigits_eq_cons k.toNat
    have hprint : (Expr.int k).print = c :: cs := by
      rw [Expr.print, Int.toString_eq_repr, Int.repr_eq_if, if_pos hk, Nat.toList_repr, hcs]
    have hquote : c ≠ '\x22' := by
      rintro rfl
      cases hc
    have hminus : c ≠ '-' := by
      rintro rfl
      cases hc
    refine ⟨c, cs, hprint, .inr hc, ?_⟩
    intro d hd rest
    have hread := readNat_print k.toNat hd rest
    rw [hcs] at hread
    rw [List.cons_append, readExpr, if_neg hquote, if_neg hminus, if_pos hc, ← List.cons_append, hread]
    rw [Option.map_some, Int.toNat_of_nonneg hk]
  · obtain ⟨c, cs, hcs, hc⟩ := toDigits_eq_cons (-k).toNat
    have hprint : (Expr.int k).print = '-' :: c :: cs := by
      rw [Expr.print, Int.toString_eq_repr, Int.repr_eq_if, if_neg hk, String.toList_append, Nat.toList_repr, hcs]
      rfl
    refine ⟨'-', c :: cs, hprint, .inl rfl, ?_⟩
    intro d hd rest
    have hread := readNat_print (-k).toNat hd rest
    have hblank : isBlank c = false := (number_head (.inr hc)).1
    have hdrop : (c :: cs ++ d :: rest).dropWhile isBlank = c :: cs ++ d :: rest :=
      dropWhile_head hblank _
    rw [hcs] at hread
    rw [List.cons_append, readExpr, if_neg (by decide), if_pos rfl, hdrop, hread]
    have hneg : -((-k).toNat : Int) = k := by omega
    rw [Option.map_some, hneg]

/-- A digit is no letter. -/
theorem isAlpha_digit {c : Char} (hc : c.isDigit = true) : c.isAlpha = false := by
  have hhigh : c.val.toNat ≤ 57 := (Char.isDigit_iff_toNat.mp hc).2
  have hletter : ∀ n : UInt32, c.val ≥ n → n.toNat ≤ 57 := fun n h => Nat.le_trans (UInt32.le_iff_toNat_le.mp h) hhigh
  refine Bool.eq_false_iff.mpr fun h => ?_
  rcases (Bool.or_eq_true _ _).mp h with hupper | hlower
  · exact absurd (hletter 65 (of_decide_eq_true hupper).1) (by decide)
  · exact absurd (hletter 97 (of_decide_eq_true ((Bool.and_eq_true _ _).mp hlower).1)) (by decide)

/-- No name begins with a digit. -/
theorem start_digit (names : Names) {c : Char} (hc : c.isDigit = true) : names.start c = false := by
  have hhigh : c.toNat ≤ 57 := (Char.isDigit_iff_toNat.mp hc).2
  have hne : (c == '_') = false := by
    refine beq_eq_false_iff_ne.mpr ?_
    rintro rfl
    cases hc
  rw [names.start_ascii c (by omega), isAlpha_digit hc, hne]
  rfl

/-- A character at the beginning of a name begins no other argument. -/
theorem readExpr_name {c : Char} (hc : names.start c = true) (cs : List Char) : readExpr names (c :: cs) =
    (readName names (c :: cs)).bind fun out => if isVariable out.1 then some (.name out.1, out.2) else none := by
  have hother : ∀ c' : Char, names.start c' = false → c ≠ c' := by
    rintro c' hc' rfl
    rw [hc'] at hc
    cases hc
  have hdigit : ¬c.isDigit = true := fun hd => hother c (start_digit names hd) rfl
  rw [readExpr, if_neg (hother _ (names.start_ascii _ (by decide))), if_neg (hother _ (names.start_ascii _ (by decide))),
    if_neg hdigit]

/-- The first character of an argument that is readable: no blank, and no closing bracket. -/
theorem Expr.Readable.print_eq_cons (h : e.Readable names) : ∃ c cs, e.print = c :: cs ∧ isBlank c = false ∧ c ≠ ')' := by
  have hbracket : ∀ {c : Char}, names.part c = true → c ≠ ')' := by
    rintro c hc rfl
    rw [part_eq_false names (by decide) (by decide)] at hc
    cases hc
  cases e with
  | name n =>
    obtain ⟨⟨⟨c, hc, -⟩, hpart, -, -⟩, -⟩ := h
    obtain ⟨cs, rfl⟩ := List.head?_eq_some_iff.mp hc
    have hc := hpart c List.mem_cons_self
    exact ⟨c, cs, rfl, isBlank_eq_false hc, hbracket hc⟩
  | int k =>
    obtain ⟨c, cs, hprint, hc, -⟩ := print_int names k
    exact ⟨c, cs, hprint, number_head hc⟩
  | str s => exact ⟨'\x22', s ++ ['\x22'], rfl, rfl, by decide⟩

/-- An argument that is readable is read. -/
theorem Expr.Readable.readExpr (h : e.Readable names) (hd : IsDelimiter d) (rest : List Char) :
    readExpr names (e.print ++ d :: rest) = some (e, d :: rest) := by
  cases e with
  | name n =>
    obtain ⟨hn, hvariable⟩ := h
    obtain ⟨c, hc, hstart⟩ := hn.start
    obtain ⟨cs, rfl⟩ := List.head?_eq_some_iff.mp hc
    have hread := hn.readName hd.part rest
    show PythonSyntax.readExpr names (c :: (cs ++ d :: rest)) = _
    rw [readExpr_name hstart, ← List.cons_append, hread]
    exact if_pos hvariable
  | int k =>
    obtain ⟨c, cs, hprint, -, hread⟩ := print_int names k
    rw [hprint]
    exact hread hd rest
  | str s =>
    have hread : readString names.character .opened (s ++ '\x22' :: d :: rest) = some (s, d :: rest) := readString_of_plain h hd rest
    show PythonSyntax.readExpr names ('\x22' :: (s ++ ['\x22'] ++ d :: rest)) = _
    rw [PythonSyntax.readExpr, if_pos rfl, List.append_assoc, List.singleton_append, hread]
    rfl

/-- A name that is an argument is read as a name. -/
theorem readName_of_readExpr (h : readExpr names text = some (.name n, r)) : readName names text = some (n, r) ∧ isVariable n = true := by
  cases text with
  | nil => cases h
  | cons c cs =>
    rw [readExpr] at h
    split at h
    · obtain ⟨out, -, h⟩ := Option.map_eq_some_iff.mp h
      cases h
    · split at h
      · obtain ⟨out, -, h⟩ := Option.map_eq_some_iff.mp h
        cases h
      · split at h
        · obtain ⟨out, -, h⟩ := Option.map_eq_some_iff.mp h
          cases h
        · obtain ⟨out, hread, h⟩ := Option.bind_eq_some_iff.mp h
          obtain ⟨hvariable, h⟩ := Option.ite_none_right_eq_some.mp h
          obtain ⟨hn, rfl⟩ := Prod.mk.inj (Option.some.inj h)
          obtain rfl := Expr.name.inj hn
          exact ⟨hread, hvariable⟩

/-- Only an argument that is readable is read from its text, and nothing more is. -/
theorem readable_of_readExpr (hd : IsDelimiter d)
    (h : readExpr names ((e.print ++ d :: rest).dropWhile isBlank) = some (e, r)) : e.Readable names ∧ r = d :: rest := by
  cases e with
  | name n =>
    obtain ⟨hread, hvariable⟩ := readName_of_readExpr h
    obtain ⟨hn, hr⟩ := identifier_of_dropWhile (fun _ hc => hc) (stop_cons hd.part) hread
    exact ⟨⟨hn, hvariable⟩, hr⟩
  | int k =>
    have hint : (Expr.int k).Readable names := trivial
    obtain ⟨c, cs, hprint, hblank, -⟩ := hint.print_eq_cons
    have hdrop : ((Expr.int k).print ++ d :: rest).dropWhile isBlank = (Expr.int k).print ++ d :: rest := by
      rw [hprint]
      exact dropWhile_head hblank _
    have hread : readExpr names ((Expr.int k).print ++ d :: rest) = some (.int k, d :: rest) := hint.readExpr hd rest
    rw [hdrop, hread] at h
    obtain ⟨-, rfl⟩ := Prod.mk.inj (Option.some.inj h)
    exact ⟨trivial, rfl⟩
  | str s =>
    change readExpr names ('\x22' :: (s ++ ['\x22'] ++ d :: rest)) = _ at h
    rw [readExpr, if_pos rfl, List.append_assoc, List.singleton_append] at h
    obtain ⟨⟨s', r'⟩, hread, h⟩ := Option.map_eq_some_iff.mp h
    obtain ⟨hs, rfl⟩ := Prod.mk.inj h
    obtain rfl := Expr.str.inj hs
    exact readString_eq_self hd hread

/-- No name begins a text that begins with a character that no name begins with. -/
theorem readName_eq_none {c : Char} (hc : names.part c = false ∨ names.start c = false) (cs : List Char) :
    readName names (c :: cs) = none := by
  rw [Option.eq_none_iff_forall_ne_some]
  rintro ⟨n, r⟩ h
  obtain ⟨⟨hstart, -⟩, -⟩ := readName_eq_some.mp h
  cases hpart : names.part c with
  | false =>
    rw [List.takeWhile_cons, hpart] at hstart
    cases hstart
  | true =>
    rw [List.takeWhile_cons, hpart, if_pos rfl] at hstart
    have hstart : names.start c = true := hstart
    rw [hpart, hstart] at hc
    rcases hc with hc | hc <;> cases hc

/-- An argument with or without a keyword that is readable is read. -/
theorem Arg.Readable.readArg (h : arg.Readable names) (hd : IsDelimiter d) (rest : List Char) :
    readArg names (arg.print ++ d :: rest) = some (arg, d :: rest) := by
  obtain ⟨key, e⟩ := arg
  obtain ⟨hkey, he⟩ := h
  have he : e.Readable names := he
  have hread := he.readExpr hd rest
  obtain ⟨c, cs, hprint, hblank, -⟩ := he.print_eq_cons
  have hdrop : (e.print ++ d :: rest).dropWhile isBlank = e.print ++ d :: rest := by
    rw [hprint]
    exact dropWhile_head hblank _
  cases key with
  | some key =>
    obtain ⟨hname, hvariable⟩ := hkey key rfl
    have hspace : names.part ' ' = false := part_eq_false names (by decide) (by decide)
    have hsplit : Arg.print (some key, e) ++ d :: rest = key ++ ' ' :: '=' :: ' ' :: (e.print ++ d :: rest) := by
      simp [Arg.print]
    rw [hsplit, PythonSyntax.readArg, hname.readName hspace]
    show (if isVariable key = true then (PythonSyntax.readExpr names ((e.print ++ d :: rest).dropWhile isBlank)).map _ else none) = _
    rw [if_pos hvariable, hdrop, hread]
    rfl
  | none =>
    show PythonSyntax.readArg names (e.print ++ d :: rest) = _
    have hnone : PythonSyntax.readName names (e.print ++ d :: rest) = none →
        PythonSyntax.readArg names (e.print ++ d :: rest) = some ((none, e), d :: rest) := by
      intro hnone
      rw [PythonSyntax.readArg, hnone]
      show (PythonSyntax.readExpr names (e.print ++ d :: rest)).map _ = _
      rw [hread]
      rfl
    cases e with
    | name n =>
      obtain ⟨hname, hvariable⟩ := he
      have hrest : (d :: rest).dropWhile isBlank = d :: rest := dropWhile_head hd.isBlank rest
      show PythonSyntax.readArg names (n ++ d :: rest) = _
      rw [PythonSyntax.readArg, hname.readName hd.part rest]
      show (match (d :: rest).dropWhile isBlank with | '=' :: _ => _ | _ => _) = _
      rw [hrest]
      rcases hd with rfl | rfl <;> exact if_pos hvariable
    | int k =>
      obtain ⟨c, cs, hprint, hc, -⟩ := print_int names k
      refine hnone ?_
      rw [hprint]
      refine readName_eq_none ?_ _
      rcases hc with rfl | hc
      · exact .inl (part_eq_false names (by decide) (by decide))
      · exact .inr (start_digit names hc)
    | str s => exact hnone (readName_eq_none (.inl (part_eq_false names (by decide) (by decide))) _)

/-- Only an argument that is readable is read from its text, with its keyword, and nothing more is. -/
theorem readable_of_readArg (hd : IsDelimiter d)
    (h : readArg names ((arg.print ++ d :: rest).dropWhile isBlank) = some (arg, r)) : arg.Readable names ∧ r = d :: rest := by
  obtain ⟨key, e⟩ := arg
  unfold readArg at h
  cases key with
  | some key =>
    have hsplit : Arg.print (some key, e) ++ d :: rest = key ++ ' ' :: '=' :: ' ' :: (e.print ++ d :: rest) := by
      simp [Arg.print]
    rw [hsplit] at h
    split at h
    · rename_i k r₀ hname
      split at h
      · rename_i r₁ hr₁
        obtain ⟨hvariable, h⟩ := Option.ite_none_right_eq_some.mp h
        obtain ⟨⟨e', r'⟩, hread, h⟩ := Option.map_eq_some_iff.mp h
        obtain ⟨harg, rfl⟩ := Prod.mk.inj h
        obtain ⟨hk, rfl⟩ := Prod.mk.inj harg
        obtain rfl := Option.some.inj hk
        obtain ⟨hkey, rfl⟩ := identifier_of_dropWhile (fun _ hc => hc) (stop_cons (part_eq_false names (by decide) (by decide))) hname
        obtain rfl := (List.cons.inj hr₁).2
        obtain ⟨he, hr⟩ := readable_of_readExpr hd hread
        refine ⟨⟨?_, he⟩, hr⟩
        intro key' hkey'
        obtain rfl := Option.some.inj hkey'
        exact ⟨hkey, hvariable⟩
      · obtain ⟨-, h⟩ := Option.ite_none_right_eq_some.mp h
        cases h
    · obtain ⟨out, -, h⟩ := Option.map_eq_some_iff.mp h
      cases h
  | none =>
    change (match readName names ((e.print ++ d :: rest).dropWhile isBlank) with | some (key, rest) => _ | none => _) = _ at h
    split at h
    · rename_i k r₀ hname
      split at h
      · obtain ⟨-, h⟩ := Option.ite_none_right_eq_some.mp h
        obtain ⟨out, -, h⟩ := Option.map_eq_some_iff.mp h
        cases h
      · obtain ⟨hvariable, h⟩ := Option.ite_none_right_eq_some.mp h
        obtain ⟨harg, rfl⟩ := Prod.mk.inj (Option.some.inj h)
        obtain ⟨-, rfl⟩ := Prod.mk.inj harg
        obtain ⟨hk, hr⟩ := identifier_of_dropWhile (fun _ hc => hc) (stop_cons hd.part) hname
        exact ⟨⟨nofun, hk, hvariable⟩, hr⟩
    · obtain ⟨⟨e', r'⟩, hread, h⟩ := Option.map_eq_some_iff.mp h
      obtain ⟨harg, rfl⟩ := Prod.mk.inj h
      obtain ⟨-, rfl⟩ := Prod.mk.inj harg
      obtain ⟨he, hr⟩ := readable_of_readExpr hd hread
      exact ⟨⟨nofun, he⟩, hr⟩

/-- The first character of an argument with its keyword. -/
theorem Arg.Readable.print_eq_cons (h : arg.Readable names) : ∃ c cs, arg.print = c :: cs ∧ isBlank c = false ∧ c ≠ ')' := by
  obtain ⟨key, e⟩ := arg
  obtain ⟨hkey, he⟩ := h
  cases key with
  | none => exact Expr.Readable.print_eq_cons he
  | some key =>
    obtain ⟨c, cs, hkey, hblank, hbracket⟩ := Expr.Readable.print_eq_cons (show (Expr.name key).Readable names from hkey key rfl)
    have hkey : key = c :: cs := hkey
    exact ⟨c, cs ++ " = ".toList ++ e.print, by rw [Arg.print, hkey]; rfl, hblank, hbracket⟩

/-- The text of several arguments. -/
theorem printArgs_cons_cons (arg arg' : Arg) (args : List Arg) (rest : List Char) :
    printArgs (arg :: arg' :: args) ++ rest = arg.print ++ ',' :: ' ' :: (printArgs (arg' :: args) ++ rest) := by
  simp [printArgs]

/-- Blanks in front of arguments do not matter. -/
theorem readArgs_space (names : Names) (fuel : Nat) (text : List Char) : readArgs names fuel (' ' :: text) = readArgs names fuel text := by
  cases fuel <;> rfl

/-- Where an argument begins, it is read, and what follows it says whether there are more. -/
theorem readArgs_succ (names : Names) (fuel : Nat) {c : Char} (hblank : isBlank c = false) (hbracket : c ≠ ')') (cs : List Char) :
    readArgs names (fuel + 1) (c :: cs) = readArg names (c :: cs) >>= fun out =>
      match out.2.dropWhile isBlank with
      | ',' :: rest => readArgs names fuel rest >>= fun out' => some (out.1 :: out'.1, out'.2)
      | ')' :: rest => some ([out.1], rest)
      | _ => none := by
  have hdrop : (c :: cs).dropWhile isBlank = c :: cs := dropWhile_head hblank cs
  rw [readArgs, hdrop]
  split
  · rename_i heq
    exact absurd (List.cons.inj heq).1 hbracket
  · rfl

/-- Arguments that are readable are read. -/
theorem readArgs_print (hargs : ∀ arg ∈ args, arg.Readable names) (rest : List Char) : ∀ {fuel : Nat}, args.length < fuel →
    readArgs names fuel (printArgs args ++ ')' :: rest) = some (args, rest) := by
  induction args with
  | nil =>
    intro fuel hfuel
    obtain ⟨fuel, rfl⟩ := Nat.exists_eq_add_of_lt hfuel
    rfl
  | cons arg args ih =>
    intro fuel hfuel
    obtain ⟨fuel, rfl⟩ : ∃ fuel', fuel = fuel' + 1 := ⟨fuel - 1, by omega⟩
    have harg := hargs arg List.mem_cons_self
    obtain ⟨c, cs, hprint, hblank, hbracket⟩ := harg.print_eq_cons
    cases args with
    | nil =>
      have hread := harg.readArg (.inr rfl) rest
      show readArgs names (fuel + 1) (arg.print ++ ')' :: rest) = _
      rw [hprint] at hread ⊢
      rw [List.cons_append, readArgs_succ names fuel hblank hbracket, ← List.cons_append, hread]
      rfl
    | cons arg' args =>
      have hread := harg.readArg (.inl rfl) (' ' :: (printArgs (arg' :: args) ++ ')' :: rest))
      rw [printArgs_cons_cons, hprint, List.cons_append, readArgs_succ names fuel hblank hbracket, ← List.cons_append, ← hprint, hread]
      show (readArgs names fuel (' ' :: _) >>= _) = _
      rw [readArgs_space, ih (fun a ha => hargs a (List.mem_cons_of_mem _ ha)) (Nat.lt_of_succ_lt_succ hfuel)]
      rfl

/-- What is read of arguments, one after the other. -/
theorem readArgs_eq_some {fuel : Nat} (h : readArgs names fuel text = some (arg :: args, r)) : ∃ fuel' rest,
    readArg names (text.dropWhile isBlank) = some (arg, rest) ∧
      ((∃ rest', rest.dropWhile isBlank = ',' :: rest' ∧ readArgs names fuel' rest' = some (args, r)) ∨
        (rest.dropWhile isBlank = ')' :: r ∧ args = [])) := by
  cases fuel with
  | zero => cases h
  | succ fuel =>
    rw [readArgs] at h
    split at h
    · cases h
    · obtain ⟨⟨arg', rest⟩, hread, h⟩ := Option.bind_eq_some_iff.mp h
      dsimp only at h
      split at h
      · rename_i rest' hrest
        obtain ⟨⟨args', r'⟩, hmore, h⟩ := Option.bind_eq_some_iff.mp h
        obtain ⟨hargs, rfl⟩ := Prod.mk.inj (Option.some.inj h)
        obtain ⟨rfl, rfl⟩ := List.cons.inj hargs
        exact ⟨fuel, rest, hread, .inl ⟨rest', hrest, hmore⟩⟩
      · rename_i rest' hrest
        obtain ⟨hargs, rfl⟩ := Prod.mk.inj (Option.some.inj h)
        obtain ⟨rfl, rfl⟩ := List.cons.inj hargs
        exact ⟨fuel, rest, hread, .inr ⟨hrest, rfl⟩⟩
      · cases h

/-- Only arguments that are readable are read from their text, and nothing more is. -/
theorem readable_of_readArgs : ∀ {args : List Arg} {fuel : Nat},
    readArgs names fuel (printArgs args ++ ')' :: rest) = some (args, r) → (∀ arg ∈ args, arg.Readable names) ∧ r = rest := by
  intro args
  induction args with
  | nil =>
    intro fuel h
    cases fuel with
    | zero => cases h
    | succ fuel => exact ⟨List.forall_mem_nil _, (Prod.mk.inj (Option.some.inj h)).2.symm⟩
  | cons arg args ih =>
    intro fuel h
    cases args with
    | nil =>
      obtain ⟨fuel', rest₁, harg, hrest⟩ := readArgs_eq_some h
      obtain ⟨hreadable, rfl⟩ := readable_of_readArg (.inr rfl) harg
      rcases hrest with ⟨rest', hrest, -⟩ | ⟨hrest, -⟩
      · cases hrest
      · exact ⟨List.forall_mem_singleton.mpr hreadable, (List.cons.inj hrest).2.symm⟩
    | cons arg' args =>
      rw [printArgs_cons_cons] at h
      obtain ⟨fuel', rest₁, harg, hrest⟩ := readArgs_eq_some h
      obtain ⟨hreadable, rfl⟩ := readable_of_readArg (.inl rfl) harg
      rcases hrest with ⟨rest', hrest, hmore⟩ | ⟨hrest, -⟩
      · obtain rfl := (List.cons.inj hrest).2
        rw [readArgs_space] at hmore
        obtain ⟨hall, hr⟩ := ih hmore
        exact ⟨List.forall_mem_cons.mpr ⟨hreadable, hall⟩, hr⟩
      · cases hrest

/-! ## Reading statements -/

variable {ns : List (List Char)} {target callee : List Char}

/-- A space is a blank. -/
theorem isBlank_of_isSpace (c : Char) (hc : isSpace c = true) : isBlank c = true := by
  simp only [isSpace, Bool.or_eq_true, beq_iff_eq] at hc
  rcases hc with (rfl | rfl) | rfl <;> rfl

/-- What is read of a callee, one name after the other. -/
theorem readCallee_eq_some {fuel : Nat} (h : readCallee names fuel text = some (ns, r)) : ∃ n rest,
    readName names text = some (n, rest) ∧
      ((∃ fuel' rest' ns', rest.dropWhile isSpace = '.' :: rest' ∧ ns = n :: ns' ∧
          readCallee names fuel' (rest'.dropWhile isSpace) = some (ns', r)) ∨
        (ns = [n] ∧ rest.dropWhile isSpace = r)) := by
  cases fuel with
  | zero => cases h
  | succ fuel =>
    rw [readCallee] at h
    obtain ⟨⟨n, rest⟩, hread, h⟩ := Option.bind_eq_some_iff.mp h
    dsimp only at h
    split at h
    · rename_i rest' hrest
      obtain ⟨⟨ns', r'⟩, hmore, h⟩ := Option.bind_eq_some_iff.mp h
      obtain ⟨rfl, rfl⟩ := Prod.mk.inj (Option.some.inj h)
      exact ⟨n, rest, hread, .inl ⟨fuel, rest', ns', hrest, rfl, hmore⟩⟩
    · obtain ⟨rfl, hr⟩ := Prod.mk.inj (Option.some.inj h)
      exact ⟨n, rest, hread, .inr ⟨rfl, hr⟩⟩

/-- A callee that is read from its text consists of identifiers, and nothing more is read. -/
theorem identifiers_of_readCallee (hrest : ∀ c ∈ rest.head?, c = '(') : ∀ {ns : List (List Char)} {fuel : Nat},
    readCallee names fuel ((joinDots ns ++ rest).dropWhile isSpace) = some (ns, r) →
      ns ≠ [] ∧ (∀ n ∈ ns, Identifier names n) ∧ r = rest := by
  have hstop : ∀ c ∈ rest.head?, names.part c = false := by
    intro c hc
    rw [hrest c hc]
    exact part_eq_false names (by decide) (by decide)
  have hspace : rest.dropWhile isSpace = rest := by
    cases rest with
    | nil => rfl
    | cons d rest =>
      obtain rfl := hrest d rfl
      rfl
  intro ns
  induction ns with
  | nil =>
    intro fuel h
    obtain ⟨n, rest', -, ⟨_, _, _, -, hns, -⟩ | ⟨hns, -⟩⟩ := readCallee_eq_some h
    · cases hns
    · cases hns
  | cons n ns ih =>
    intro fuel h
    obtain ⟨n', rest₁, hread, ⟨fuel', rest', ns', hdot, hns, hmore⟩ | ⟨hns, hr⟩⟩ := readCallee_eq_some h
    · obtain ⟨rfl, rfl⟩ := List.cons.inj hns
      cases ns with
      | nil =>
        obtain ⟨_, _, -, ⟨_, _, _, -, hns, -⟩ | ⟨hns, -⟩⟩ := readCallee_eq_some hmore
        · cases hns
        · cases hns
      | cons m ns =>
        have hsplit : joinDots (n :: m :: ns) ++ rest = n ++ '.' :: (joinDots (m :: ns) ++ rest) := by simp [joinDots]
        rw [hsplit] at hread
        obtain ⟨hn, rfl⟩ := identifier_of_dropWhile isBlank_of_isSpace (stop_cons (part_eq_false names (by decide) (by decide))) hread
        obtain rfl := (List.cons.inj hdot).2
        obtain ⟨-, hall, hr⟩ := ih hmore
        exact ⟨List.cons_ne_nil _ _, List.forall_mem_cons.mpr ⟨hn, hall⟩, hr⟩
    · obtain ⟨rfl, rfl⟩ := List.cons.inj hns
      obtain ⟨hn, rfl⟩ := identifier_of_dropWhile isBlank_of_isSpace hstop hread
      exact ⟨List.cons_ne_nil _ _, List.forall_mem_singleton.mpr hn, hr.symm.trans hspace⟩

/-- A callee of identifiers is read. -/
theorem readCallee_print (hns : ns ≠ []) (hall : ∀ n ∈ ns, Identifier names n) (rest : List Char) : ∀ {fuel : Nat},
    ns.length ≤ fuel → readCallee names fuel ((joinDots ns ++ '(' :: rest).dropWhile isSpace) = some (ns, '(' :: rest) := by
  induction ns with
  | nil => exact absurd rfl hns
  | cons n ns ih =>
    intro fuel hfuel
    obtain ⟨fuel, rfl⟩ : ∃ fuel', fuel = fuel' + 1 := ⟨fuel - 1, by rw [List.length_cons] at hfuel; omega⟩
    have hn := hall n List.mem_cons_self
    have hname : n ≠ [] ∧ ∀ c ∈ n, names.part c = true := by
      refine ⟨?_, hn.part⟩
      obtain ⟨c, hc, -⟩ := hn.start
      rintro rfl
      cases hc
    cases ns with
    | nil =>
      show readCallee names (fuel + 1) ((n ++ '(' :: rest).dropWhile isSpace) = _
      rw [dropWhile_name isBlank_of_isSpace hname, readCallee, hn.readName (part_eq_false names (by decide) (by decide))]
      rfl
    | cons m ns =>
      have hsplit : joinDots (n :: m :: ns) ++ '(' :: rest = n ++ '.' :: (joinDots (m :: ns) ++ '(' :: rest) := by simp [joinDots]
      rw [hsplit, dropWhile_name isBlank_of_isSpace hname, readCallee, hn.readName (part_eq_false names (by decide) (by decide))]
      show (readCallee names fuel ((joinDots (m :: ns) ++ '(' :: rest).dropWhile isSpace) >>= _) = _
      rw [ih (List.cons_ne_nil _ _) (fun a ha => hall a (List.mem_cons_of_mem _ ha)) (Nat.le_of_succ_le_succ hfuel)]
      rfl

/-- What is printed as a statement and read as that statement. -/
structure ReadableStatement (names : Names) (target callee : List Char) (args : List Arg) : Prop where
  variable_name : Identifier names target ∧ isVariable target = true
  callee_names : ∃ ns, ns ≠ [] ∧ (∀ n ∈ ns, Identifier names n) ∧ joinDots ns = callee
  readable : ∀ arg ∈ args, arg.Readable names
  order : wellFormed args = true

/-- The text of a statement -/
theorem printStatement_eq (target callee : List Char) (args : List Arg) : printStatement target callee args =
    target ++ ' ' :: '=' :: ' ' :: (callee ++ '(' :: (printArgs args ++ [')'])) := by
  simp [printStatement]

/-- There are no more names in a text than characters. -/
theorem length_le_joinDots (hall : ∀ n ∈ ns, Identifier names n) : ns.length ≤ (joinDots ns).length := by
  induction ns with
  | nil => exact Nat.le_refl _
  | cons n ns ih =>
    have hpos : 0 < n.length := by
      obtain ⟨c, hc, -⟩ := (hall n List.mem_cons_self).start
      obtain ⟨cs, rfl⟩ := List.head?_eq_some_iff.mp hc
      exact Nat.succ_pos _
    have hrest := ih fun a ha => hall a (List.mem_cons_of_mem _ ha)
    cases ns with
    | nil => exact hpos
    | cons m ns =>
      show (n :: m :: ns).length ≤ (n ++ '.' :: joinDots (m :: ns)).length
      simp only [List.length_append, List.length_cons] at hrest ⊢
      omega

/-- There are no more arguments in a text than characters. -/
theorem length_le_printArgs (hargs : ∀ arg ∈ args, arg.Readable names) : args.length ≤ (printArgs args).length := by
  induction args with
  | nil => exact Nat.le_refl _
  | cons arg args ih =>
    have hpos : 0 < arg.print.length := by
      obtain ⟨c, cs, hprint, -⟩ := (hargs arg List.mem_cons_self).print_eq_cons
      rw [hprint]
      exact Nat.succ_pos _
    have hrest := ih fun a ha => hargs a (List.mem_cons_of_mem _ ha)
    cases args with
    | nil => exact hpos
    | cons arg' args =>
      show (arg :: arg' :: args).length ≤ (arg.print ++ ", ".toList ++ printArgs (arg' :: args)).length
      simp only [List.length_append, List.length_cons] at hrest ⊢
      omega

/-- A statement that is readable is read. -/
theorem ReadableStatement.readStatement {args : List Arg} (h : ReadableStatement names target callee args) :
    ∃ ns, readStatement names (printStatement target callee args) = some ⟨target, ns, args⟩ ∧ joinDots ns = callee := by
  obtain ⟨⟨htarget, hvariable⟩, ⟨ns, hns, hall, rfl⟩, hargs, hwell⟩ := h
  refine ⟨ns, ?_, rfl⟩
  have hlength := congrArg List.length (printStatement_eq target (joinDots ns) args)
  simp only [List.length_append, List.length_cons, List.length_nil] at hlength
  have hcallee : readCallee names (printStatement target (joinDots ns) args).length
      ((joinDots ns ++ '(' :: (printArgs args ++ [')'])).dropWhile isSpace) = some (ns, '(' :: (printArgs args ++ [')'])) := by
    refine readCallee_print hns hall _ ?_
    have hle := length_le_joinDots hall
    omega
  have hread : readArgs names (printStatement target (joinDots ns) args).length (printArgs args ++ ')' :: []) = some (args, []) := by
    refine readArgs_print hargs [] ?_
    have hle := length_le_printArgs hargs
    omega
  unfold PythonSyntax.readStatement
  rw [printStatement_eq] at hcallee hread ⊢
  rw [htarget.readName (part_eq_false names (by decide) (by decide))]
  show (readCallee names _ ((joinDots ns ++ '(' :: (printArgs args ++ [')'])).dropWhile isSpace) >>= _) = _
  rw [hcallee]
  show (readArgs names _ (printArgs args ++ ')' :: []) >>= _) = _
  rw [hread]
  show (if (isVariable target && wellFormed args && true) = true then _ else _) = _
  rw [hvariable, hwell]
  rfl

/-- What is read of a statement that begins with its target. -/
theorem readStatement_eq_some {args : List Arg}
    (h : readStatement names (target ++ ' ' :: '=' :: ' ' :: text) = some ⟨target, ns, args⟩) :
    (Identifier names target ∧ isVariable target = true) ∧ wellFormed args = true ∧
      ∃ fuel rest rest', readCallee names fuel (text.dropWhile isSpace) = some (ns, '(' :: rest) ∧
        readArgs names fuel rest = some (args, rest') := by
  unfold readStatement at h
  generalize hfuel : (target ++ ' ' :: '=' :: ' ' :: text).length = fuel at h
  obtain ⟨⟨target', rest⟩, hname, h⟩ := Option.bind_eq_some_iff.mp h
  dsimp only at h
  split at h
  · rename_i rest₁ hrest₁
    obtain ⟨⟨ns', rest₂⟩, hcallee, h⟩ := Option.bind_eq_some_iff.mp h
    dsimp only at h
    split at h
    · rename_i rest₃
      obtain ⟨⟨args', rest₄⟩, hargs, h⟩ := Option.bind_eq_some_iff.mp h
      obtain ⟨hchecks, h⟩ := Option.ite_none_right_eq_some.mp h
      obtain ⟨rfl, rfl, rfl⟩ := Assignment.mk.inj (Option.some.inj h)
      simp only [Bool.and_eq_true] at hchecks
      obtain ⟨⟨hvariable, hwell⟩, -⟩ := hchecks
      obtain ⟨htarget, rfl⟩ := identifier_of_readName (stop_cons (part_eq_false names (by decide) (by decide))) hname
      obtain rfl := (List.cons.inj hrest₁).2
      exact ⟨⟨htarget, hvariable⟩, hwell, fuel, rest₃, rest₄, hcallee, hargs⟩
    · cases h
  · cases h

/-- Only a statement that is readable is read from its text: no part of the text can be taken for something else. -/
theorem readable_of_readStatement {args : List Arg}
    (h : readStatement names (printStatement target (joinDots ns) args) = some ⟨target, ns, args⟩) :
    ReadableStatement names target (joinDots ns) args := by
  rw [printStatement_eq] at h
  obtain ⟨htarget, hwell, fuel, rest, rest', hcallee, hargs⟩ := readStatement_eq_some h
  have hbracket : ∀ c ∈ ('(' :: (printArgs args ++ [')'])).head?, c = '(' := fun c hc => (Option.some.inj hc).symm
  obtain ⟨hns, hall, heq⟩ := identifiers_of_readCallee hbracket hcallee
  obtain rfl := (List.cons.inj heq).2
  exact ⟨htarget, ⟨ns, hns, hall, rfl⟩, (readable_of_readArgs hargs).1, hwell⟩

/-- Names alone are no call. -/
theorem readStatement_names_ne {args : List Arg} :
    readStatement names (target ++ ' ' :: '=' :: ' ' :: joinDots ns) ≠ some ⟨target, ns, args⟩ := by
  intro h
  obtain ⟨-, -, fuel, rest, rest', hcallee, -⟩ := readStatement_eq_some h
  rw [← List.append_nil (joinDots ns)] at hcallee
  obtain ⟨-, -, heq⟩ := identifiers_of_readCallee (by simp) hcallee
  cases heq

/-- No callee begins with a dot. -/
theorem readStatement_dot_ne {args : List Arg} :
    readStatement names (target ++ ' ' :: '=' :: ' ' :: '.' :: text) ≠ some ⟨target, ns, args⟩ := by
  intro h
  obtain ⟨-, -, fuel, rest, rest', hcallee, -⟩ := readStatement_eq_some h
  obtain ⟨n, rest₁, hname, -⟩ := readCallee_eq_some hcallee
  have hname : readName names ('.' :: text) = some (n, rest₁) := hname
  rw [readName_eq_none (.inl (part_eq_false names (by decide) (by decide)))] at hname
  cases hname

/-- A statement is read from its text if and only if it is readable. -/
theorem readStatement_iff {args : List Arg} :
    (∃ ns, readStatement names (printStatement target callee args) = some ⟨target, ns, args⟩ ∧ joinDots ns = callee) ↔
      ReadableStatement names target callee args := by
  constructor
  · rintro ⟨ns, h, rfl⟩
    exact readable_of_readStatement h
  · exact ReadableStatement.readStatement

example : readStatement .ascii "x = a.f(\"\\x41\" \"b\", k = -5)".toList =
    some ⟨['x'], [['a'], ['f']], [(none, .str ['A', 'b']), (some ['k'], .int (-5))]⟩ := by decide

end PythonSyntax
