import LibraryLink.PythonCommands
import LibraryLink.General.Outcome
import LibraryLink.General.PythonGrammar

/-!
# What Python reads of a command

The command that `prepare_command` builds for a method call is read as the call of the message when the texts in it are names, and
strings that stay as they are between quotation marks; a string in which a quotation mark or a backslash stands may change the command.
-/

namespace LibraryLink.Python

open Outcome
open PythonSyntax (Names Expr Arg Identifier isVariable plain wellFormed joinDots printArgs printStatement readStatement
  ReadableStatement readStatement_iff readStatement_names_ne readStatement_dot_ne)

variable {names : Names}

/-! ## Messages of calls -/

/-- The message of a method call, with the attributes that `prepare_command` reads -/
def callMessage (property : Bool) (assignedID objectID methodName : String) (args : List Argument) : Message where
  strings := [("assignedID", assignedID), ("objectID", objectID), ("methodName", methodName)]
  bools := [("property", property)]
  repeated := [("arg", args)]

/-- What is called -/
def callee (objectID methodName : String) : String := if objectID ≠ "" then objectID ++ "." ++ methodName else methodName

/-- The value that an argument stands for: an inplace string or integer, or a name in the persistence -/
def Argument.expr (a : Argument) : Option Expr :=
  match a.type, a.stringValue, a.intValue with
  | .inplace, some s, _ => some (.str s.toList)
  | .inplace, none, some n => some (.int n)
  | .inplace, none, none => none
  | .persistence, s, _ => some (.name (s.getD "").toList)

/-- The key of an argument -/
def Argument.keyword (a : Argument) : Option (List Char) := if a.key = "" then none else some a.key.toList

/-- The argument of a call that an argument of a message stands for -/
def Argument.meaning (a : Argument) : Option Arg := a.expr.map fun e => (a.keyword, e)

/-- The command is read as one assignment to the assigned id, of the call with the arguments that those of the message stand for. -/
def ReadAsCall (names : Names) (property : Bool) (assignedID objectID methodName : String) (args : List Argument) : Prop :=
  ∃ command stmt, prepareCommand (callMessage property assignedID objectID methodName args) = .ok command ∧
    readStatement names command.toList = some stmt ∧ stmt.target = assignedID.toList ∧
    joinDots stmt.callee = (callee objectID methodName).toList ∧ args.map Argument.meaning = stmt.args.map some

/-- An argument that cannot change a command: its key is a name, if it has one; a string stays as it is between quotation marks, an
integer has a key, and what is looked up in the persistence is a name. -/
def Argument.Harmless (names : Names) (a : Argument) : Prop :=
  (a.key ≠ "" → Identifier names a.key.toList ∧ isVariable a.key.toList = true) ∧
    match a.type, a.stringValue, a.intValue with
    | .inplace, some s, _ => plain s.toList = true
    | .inplace, none, some _ => a.key ≠ ""
    | .inplace, none, none => False
    | .persistence, s, _ => Identifier names (s.getD "").toList ∧ isVariable (s.getD "").toList = true

/-- A message whose command is read as the call: it asks for no property, the assigned id is a name, what is called consists of names,
the arguments are harmless, those without a key come first, and the keys differ. -/
structure Harmless (names : Names) (property : Bool) (assignedID objectID methodName : String) (args : List Argument) : Prop where
  call : property = false
  target : Identifier names assignedID.toList ∧ isVariable assignedID.toList = true
  function : ∃ ns, ns ≠ [] ∧ (∀ n ∈ ns, Identifier names n) ∧ joinDots ns = (callee objectID methodName).toList
  harmless : ∀ a ∈ args, a.Harmless names
  positional : ∀ a ∈ args.dropWhile (·.key = ""), a.key ≠ ""
  keys : ((args.map (·.key)).filter (· ≠ "")).Nodup

/-! ## The text of a command -/

/-- What `decode_arg` makes of a value -/
def Decoded.ofExpr : Expr → Decoded
  | .str s => .str ("\"" ++ String.ofList s ++ "\"")
  | .int n => .int n
  | .name n => .str (String.ofList n)

/-- What `decode_arg` makes of a value with its key -/
def Decoded.ofArg : Arg → Decoded
  | (none, e) => .ofExpr e
  | (some key, e) => .str (String.ofList key ++ " = " ++ (Decoded.ofExpr e).format)

/-- Whether an argument is a number without a key -/
def isBare : Arg → Bool
  | (none, .int _) => true
  | _ => false

/-- A value is formatted as its text. -/
theorem format_ofExpr (e : Expr) : (Decoded.ofExpr e).format.toList = e.print := by
  cases e with
  | str s => simp [Decoded.ofExpr, Decoded.format, Expr.print]
  | int n => rfl
  | name n => simp [Decoded.ofExpr, Decoded.format, Expr.print]

/-- Any argument but a number without a key becomes its text. -/
theorem ofArg_eq {arg : Arg} (h : isBare arg = false) : Decoded.ofArg arg = .str (String.ofList arg.print) := by
  obtain ⟨_ | key, e⟩ := arg
  · cases e with
    | str s => simp [Decoded.ofArg, Decoded.ofExpr, Arg.print, Expr.print, ← String.toList_inj]
    | int n => cases h
    | name n => rfl
  · simp [Decoded.ofArg, Arg.print, ← String.toList_inj, format_ofExpr]

/-- A value is decoded if there is one. -/
theorem decodeValue_eq_ok {a : Argument} {d : Decoded} :
    decodeValue a = .ok d ↔ ∃ e, a.expr = some e ∧ d = .ofExpr e := by
  obtain ⟨type, s, n, key⟩ := a
  cases type with
  | persistence => simp [decodeValue, Argument.expr, Decoded.ofExpr, eq_comm]
  | inplace =>
    cases s with
    | some s => simp [decodeValue, Argument.expr, Decoded.ofExpr, eq_comm]
    | none => cases n <;> simp [decodeValue, Argument.expr, Decoded.ofExpr, eq_comm]

/-- An argument is decoded if it stands for one. -/
theorem decodeArg_eq_ok {a : Argument} {d : Decoded} :
    decodeArg a = .ok d ↔ ∃ arg, a.meaning = some arg ∧ d = .ofArg arg := by
  unfold decodeArg Argument.meaning Argument.keyword
  rw [bind_eq_ok]
  constructor
  · rintro ⟨d', hd', h⟩
    obtain ⟨e, he, rfl⟩ := decodeValue_eq_ok.mp hd'
    obtain rfl := Except.ok.inj h
    refine ⟨_, congrArg _ he, ?_⟩
    split
    · rfl
    · rw [Decoded.ofArg, String.ofList_toList]
  · rintro ⟨arg, harg, rfl⟩
    obtain ⟨e, he, rfl⟩ := Option.map_eq_some_iff.mp harg
    refine ⟨_, decodeValue_eq_ok.mpr ⟨e, he, rfl⟩, ?_⟩
    split
    · rfl
    · rw [Decoded.ofArg, String.ofList_toList]
      rfl

/-- Arguments are decoded if each of them stands for one. -/
theorem mapM_decodeArg_eq_ok {args : List Argument} {ds : List Decoded} : args.mapM decodeArg = .ok ds ↔
    ∃ as : List Arg, args.map Argument.meaning = as.map some ∧ ds = as.map Decoded.ofArg := by
  rw [mapM_eq_ok]
  constructor
  · intro h
    induction h with
    | nil => exact ⟨[], rfl, rfl⟩
    | cons hd _ ih =>
      obtain ⟨arg, harg, rfl⟩ := decodeArg_eq_ok.mp hd
      obtain ⟨as, has, rfl⟩ := ih
      exact ⟨arg :: as, by rw [List.map_cons, harg, has]; rfl, rfl⟩
  · rintro ⟨as, has, rfl⟩
    induction as generalizing args with
    | nil =>
      obtain rfl := List.map_eq_nil_iff.mp has
      exact .nil
    | cons arg as ih =>
      obtain ⟨a, args, rfl, harg, hargs⟩ := List.map_eq_cons_iff.mp has
      exact .cons (decodeArg_eq_ok.mpr ⟨arg, harg, rfl⟩) (ih hargs)

/-- Strings are joined to the text of the arguments. -/
theorem join_ofArg {as : List Arg} (h : ∀ arg ∈ as, isBare arg = false) :
    join (as.map Decoded.ofArg) = .ok (String.ofList (printArgs as)) := by
  induction as with
  | nil => rfl
  | cons arg as ih =>
    have hrest := ih fun a ha => h a (List.mem_cons_of_mem _ ha)
    rw [List.map_cons, ofArg_eq (h arg List.mem_cons_self)]
    cases as with
    | nil => rfl
    | cons arg' as =>
      rw [List.map_cons] at hrest ⊢
      rw [join, hrest]
      · simp [Except.map, printArgs, ← String.toList_inj]
      · simp

/-- Only strings are joined. -/
theorem str_of_join : ∀ {ds : List Decoded} {text : String}, join ds = .ok text → ∀ d ∈ ds, ∃ s, d = .str s
  | [], _, _ => List.forall_mem_nil _
  | [.str s], _, _ => List.forall_mem_singleton.mpr ⟨s, rfl⟩
  | .str s :: d :: ds, _, h => by
    cases hrest : join (d :: ds) with
    | error e =>
      rw [join, hrest] at h
      · cases h
      · simp
    | ok text => exact List.forall_mem_cons.mpr ⟨⟨s, rfl⟩, str_of_join hrest⟩
  | .int _ :: _, _, h => nomatch h

/-- The arguments are decoded if each of them stands for one, and none is a number without a key. -/
theorem decodeArgs_eq_ok {args : List Argument} {text : String} : decodeArgs args = .ok text ↔
    ∃ as : List Arg, args.map Argument.meaning = as.map some ∧ (∀ arg ∈ as, isBare arg = false) ∧
      text = String.ofList (printArgs as) := by
  unfold decodeArgs
  rw [bind_eq_ok]
  constructor
  · rintro ⟨ds, hds, h⟩
    obtain ⟨as, has, rfl⟩ := mapM_decodeArg_eq_ok.mp hds
    have hbare : ∀ arg ∈ as, isBare arg = false := by
      intro arg harg
      obtain ⟨s, hs⟩ := str_of_join h _ (List.mem_map_of_mem harg)
      obtain ⟨_ | key, e⟩ := arg
      · cases e with
        | int n => cases hs
        | _ => rfl
      · rfl
    exact ⟨as, has, hbare, (Except.ok.inj ((join_ofArg hbare).symm.trans h)).symm⟩
  · rintro ⟨as, has, hbare, rfl⟩
    exact ⟨_, mapM_decodeArg_eq_ok.mpr ⟨as, has, rfl⟩, join_ofArg hbare⟩

/-- The command of a call is the text of the statement. -/
theorem prepareCommand_eq_ok {assignedID objectID methodName : String} {args : List Argument} {command : String} :
    prepareCommand (callMessage false assignedID objectID methodName args) = .ok command ↔
      ∃ as : List Arg, args.map Argument.meaning = as.map some ∧ (∀ arg ∈ as, isBare arg = false) ∧
        command.toList = printStatement assignedID.toList (callee objectID methodName).toList as := by
  have hcommand : prepareCommand (callMessage false assignedID objectID methodName args) = (decodeArgs args).map fun text =>
      assignedID ++ " = " ++ callee objectID methodName ++ "(" ++ text ++ ")" := by
    have hbool : (callMessage false assignedID objectID methodName args).bool "property" = .ok false := rfl
    have hassigned : (callMessage false assignedID objectID methodName args).str "assignedID" = .ok assignedID := rfl
    have hobject : (callMessage false assignedID objectID methodName args).str "objectID" = .ok objectID := rfl
    have hmethod : (callMessage false assignedID objectID methodName args).str "methodName" = .ok methodName := rfl
    have hargs : (callMessage false assignedID objectID methodName args).args "arg" = .ok args := rfl
    unfold prepareCommand callee
    rw [hbool, hassigned, hobject, hmethod, hargs]
    show (if objectID ≠ "" then _ else _) = _
    split
    · show (decodeArgs args >>= _) = _
      cases decodeArgs args with
      | error e => rfl
      | ok text => exact congrArg Except.ok (String.toList_inj.mp (by simp))
    · show (decodeArgs args >>= _) = _
      cases decodeArgs args with
      | error e => rfl
      | ok text => rfl
  have hmap : ∀ as : List Arg,
      (assignedID ++ " = " ++ callee objectID methodName ++ "(" ++ String.ofList (printArgs as) ++ ")").toList =
        printStatement assignedID.toList (callee objectID methodName).toList as := by
    intro as
    simp [printStatement]
  rw [hcommand]
  constructor
  · intro h
    cases hargs : decodeArgs args with
    | error e =>
      rw [hargs] at h
      cases h
    | ok text =>
      rw [hargs] at h
      obtain rfl := Except.ok.inj h
      obtain ⟨as, has, hbare, rfl⟩ := decodeArgs_eq_ok.mp hargs
      exact ⟨as, has, hbare, hmap as⟩
  · rintro ⟨as, has, hbare, h⟩
    rw [decodeArgs_eq_ok.mpr ⟨as, has, hbare, rfl⟩]
    refine congrArg Except.ok (String.toList_inj.mp ?_)
    exact (hmap as).trans h.symm

/-! ## Harmless messages -/

variable {assignedID objectID methodName : String} {args : List Argument} {as : List Arg}

/-- A harmless argument stands for one. -/
theorem Argument.Harmless.meaning {a : Argument} (h : a.Harmless names) : ∃ arg, a.meaning = some arg := by
  obtain ⟨type, s, n, key⟩ := a
  obtain ⟨-, hvalue⟩ := h
  cases type with
  | persistence => exact ⟨_, rfl⟩
  | inplace =>
    cases s with
    | some s => exact ⟨_, rfl⟩
    | none =>
      cases n with
      | some n => exact ⟨_, rfl⟩
      | none => cases hvalue

/-- An argument is harmless if what it stands for is read from its text, and is no number without a key. -/
theorem Argument.harmless_iff {a : Argument} {arg : Arg} (h : a.meaning = some arg) :
    a.Harmless names ↔ arg.Readable names ∧ isBare arg = false := by
  obtain ⟨type, s, n, key⟩ := a
  obtain ⟨e, he, rfl⟩ := Option.map_eq_some_iff.mp h
  have hkey : (∀ k ∈ Argument.keyword ⟨type, s, n, key⟩, Identifier names k ∧ isVariable k = true) ↔
      (key ≠ "" → Identifier names key.toList ∧ isVariable key.toList = true) := by
    by_cases hempty : key = ""
    · simp [Argument.keyword, hempty]
    · simp [Argument.keyword, hempty]
  have hbare : isBare (Argument.keyword ⟨type, s, n, key⟩, e) = false ↔ ∀ k, e = .int k → key ≠ "" := by
    by_cases hempty : key = ""
    · cases e <;> simp [Argument.keyword, isBare, hempty]
    · simp [Argument.keyword, isBare, hempty]
  rw [Arg.Readable, hbare, hkey, and_assoc]
  refine and_congr_right fun _ => ?_
  cases type with
  | persistence =>
    obtain rfl := Option.some.inj he
    simp [Expr.Readable]
  | inplace =>
    cases s with
    | some s =>
      obtain rfl := Option.some.inj he
      simp [Expr.Readable]
    | none =>
      cases n with
      | some n =>
        obtain rfl := Option.some.inj he
        simp [Expr.Readable]
      | none => cases he

/-- The keywords of what arguments stand for. -/
theorem keywords_eq (has : args.map Argument.meaning = as.map some) : as.map (·.1) = args.map Argument.keyword := by
  induction as generalizing args with
  | nil =>
    obtain rfl := List.map_eq_nil_iff.mp has
    rfl
  | cons arg as ih =>
    obtain ⟨a, args, rfl, harg, hargs⟩ := List.map_eq_cons_iff.mp has
    obtain ⟨e, -, rfl⟩ := Option.map_eq_some_iff.mp harg
    rw [List.map_cons, List.map_cons, ih hargs]

/-- The keywords are the keys that are not empty. -/
theorem filterMap_keyword (args : List Argument) :
    (args.map Argument.keyword).filterMap id = ((args.map (·.key)).filter (· ≠ "")).map String.toList := by
  induction args with
  | nil => rfl
  | cons a args ih =>
    rw [List.map_cons, List.map_cons, Argument.keyword]
    by_cases hempty : a.key = ""
    · rw [if_pos hempty, List.filterMap_cons_none rfl, ih, List.filter_cons_of_neg (by simp [hempty])]
    · have hsome : id (some a.key.toList) = some a.key.toList := rfl
      rw [if_neg hempty, List.filterMap_cons_some hsome, ih, List.filter_cons_of_pos (by simp [hempty]), List.map_cons]

/-- The arguments are well formed if those without a key come first and the keys differ. -/
theorem wellFormed_iff (has : args.map Argument.meaning = as.map some) : wellFormed as = true ↔
    (∀ a ∈ args.dropWhile (·.key = ""), a.key ≠ "") ∧ ((args.map (·.key)).filter (· ≠ "")).Nodup := by
  have hnone : ∀ a : Argument, a.keyword.isNone = decide (a.key = "") := by
    intro a
    by_cases hempty : a.key = "" <;> simp [Argument.keyword, hempty]
  have horder : (as.dropWhile (·.1.isNone)).all (·.1.isSome) = (args.dropWhile (·.key = "")).all (·.key ≠ "") := by
    calc (as.dropWhile (·.1.isNone)).all (·.1.isSome)
        = ((as.map (·.1)).dropWhile Option.isNone).all Option.isSome := by rw [List.dropWhile_map, List.all_map]; rfl
      _ = ((args.map Argument.keyword).dropWhile Option.isNone).all Option.isSome := by rw [keywords_eq has]
      _ = (args.dropWhile (·.key = "")).all (·.key ≠ "") := by
        rw [List.dropWhile_map, List.all_map, funext (f := Option.isNone ∘ Argument.keyword) hnone]
        refine congrArg _ (funext fun a => ?_)
        simp [← Option.not_isNone, hnone]
  have hkeys : as.filterMap (·.1) = ((args.map (·.key)).filter (· ≠ "")).map String.toList := by
    calc as.filterMap (·.1)
        = (as.map (·.1)).filterMap id := by rw [List.filterMap_map]; rfl
      _ = (args.map Argument.keyword).filterMap id := by rw [keywords_eq has]
      _ = ((args.map (·.key)).filter (· ≠ "")).map String.toList := filterMap_keyword args
  have hinj : Function.Injective String.toList := fun _ _ h => String.toList_inj.mp h
  rw [wellFormed, Bool.and_eq_true, horder, decide_eq_true_iff, hkeys, List.nodup_map_iff hinj]
  simp

/-- What is said of the command in terms of what the arguments stand for. -/
theorem readAsCall_iff_readable : ReadAsCall names false assignedID objectID methodName args ↔
    ∃ as : List Arg, args.map Argument.meaning = as.map some ∧ (∀ arg ∈ as, isBare arg = false) ∧
      ReadableStatement names assignedID.toList (callee objectID methodName).toList as := by
  constructor
  · rintro ⟨command, ⟨target, ns, as'⟩, hcommand, hread, rfl, hcallee, hargs⟩
    obtain ⟨as, has, hbare, htext⟩ := prepareCommand_eq_ok.mp hcommand
    obtain rfl : as' = as := (List.map_inj_right fun _ _ h => Option.some.inj h).mp (hargs.symm.trans has)
    rw [htext] at hread
    exact ⟨as', has, hbare, readStatement_iff.mp ⟨ns, hread, hcallee⟩⟩
  · rintro ⟨as, has, hbare, hreadable⟩
    obtain ⟨ns, hread, hcallee⟩ := readStatement_iff.mpr hreadable
    refine ⟨String.ofList (printStatement assignedID.toList (callee objectID methodName).toList as), ⟨_, ns, as⟩,
      prepareCommand_eq_ok.mpr ⟨as, has, hbare, String.toList_ofList⟩, ?_, rfl, hcallee, has⟩
    rw [String.toList_ofList]
    exact hread

/-- Harmless arguments stand for some each. -/
theorem exists_meaning (hharmless : ∀ a ∈ args, a.Harmless names) : ∃ as : List Arg, args.map Argument.meaning = as.map some := by
  induction args with
  | nil => exact ⟨[], rfl⟩
  | cons a args ih =>
    obtain ⟨arg, harg⟩ := (hharmless a List.mem_cons_self).meaning
    obtain ⟨as, has⟩ := ih fun b hb => hharmless b (List.mem_cons_of_mem _ hb)
    exact ⟨arg :: as, by rw [List.map_cons, harg, has, List.map_cons]⟩

/-- What it is to be harmless in terms of what the arguments stand for. -/
theorem harmless_iff_readable : Harmless names false assignedID objectID methodName args ↔
    ∃ as : List Arg, args.map Argument.meaning = as.map some ∧ (∀ arg ∈ as, isBare arg = false) ∧
      ReadableStatement names assignedID.toList (callee objectID methodName).toList as := by
  constructor
  · rintro ⟨-, htarget, hcallee, hharmless, hpositional, hkeys⟩
    obtain ⟨as, has⟩ := exists_meaning hharmless
    have hall : ∀ arg ∈ as, arg.Readable names ∧ isBare arg = false := by
      intro arg harg
      have hmem : some arg ∈ args.map Argument.meaning := has ▸ List.mem_map_of_mem harg
      obtain ⟨a, ha, hmeaning⟩ := List.mem_map.mp hmem
      exact (Argument.harmless_iff hmeaning).mp (hharmless a ha)
    exact ⟨as, has, fun arg harg => (hall arg harg).2,
      htarget, hcallee, fun arg harg => (hall arg harg).1, (wellFormed_iff has).mpr ⟨hpositional, hkeys⟩⟩
  · rintro ⟨as, has, hbare, htarget, hcallee, hreadable, horder⟩
    obtain ⟨hpositional, hkeys⟩ := (wellFormed_iff has).mp horder
    refine ⟨rfl, htarget, hcallee, ?_, hpositional, hkeys⟩
    intro a ha
    have hmem : a.meaning ∈ as.map some := has ▸ List.mem_map_of_mem ha
    obtain ⟨arg, harg, hmeaning⟩ := List.mem_map.mp hmem
    exact (Argument.harmless_iff hmeaning.symm).mpr ⟨hreadable arg harg, hbare arg harg⟩

/-- The command of a property is not read as a call of it. -/
theorem not_readAsCall_property : ¬ReadAsCall names true assignedID objectID methodName args := by
  rintro ⟨command, ⟨target, ns, as⟩, hcommand, hread, rfl, hcallee, -⟩
  obtain rfl : assignedID ++ " = " ++ objectID ++ "." ++ methodName = command := Except.ok.inj hcommand
  have hcallee : joinDots ns = (callee objectID methodName).toList := hcallee
  by_cases hobject : objectID = ""
  · have htext : (assignedID ++ " = " ++ objectID ++ "." ++ methodName).toList =
        assignedID.toList ++ ' ' :: '=' :: ' ' :: '.' :: methodName.toList := by
      simp [hobject]
    rw [htext] at hread
    exact readStatement_dot_ne hread
  · have htext : (assignedID ++ " = " ++ objectID ++ "." ++ methodName).toList =
        assignedID.toList ++ ' ' :: '=' :: ' ' :: joinDots ns := by
      simp [hcallee, callee, hobject]
    rw [htext] at hread
    exact readStatement_names_ne hread

/-- The command of a message is read as its call if and only if the message is harmless. -/
theorem readAsCall_iff {property : Bool} : ReadAsCall names property assignedID objectID methodName args ↔
    Harmless names property assignedID objectID methodName args := by
  cases property with
  | true => exact iff_of_false not_readAsCall_property fun h => Bool.noConfusion h.call
  | false => exact readAsCall_iff_readable.trans harmless_iff_readable.symm

/-- One string in which there are quotation marks and a comma becomes two arguments. -/
theorem not_readAsCall : ¬ReadAsCall .ascii false "x" "" "f" [⟨.inplace, some "a\", \"b", none, ""⟩] := by
  rintro ⟨command, stmt, hcommand, hread, -, -, hargs⟩
  have htext : prepareCommand (callMessage false "x" "" "f" [⟨.inplace, some "a\", \"b", none, ""⟩]) = .ok "x = f(\"a\", \"b\")" := by
    decide
  have htwo : readStatement .ascii "x = f(\"a\", \"b\")".toList =
      some ⟨['x'], [['f']], [(none, .str ['a']), (none, .str ['b'])]⟩ := by decide
  obtain rfl := Except.ok.inj (htext.symm.trans hcommand)
  obtain rfl := Option.some.inj (htwo.symm.trans hread)
  have hlength := congrArg List.length hargs
  cases hlength

end LibraryLink.Python
