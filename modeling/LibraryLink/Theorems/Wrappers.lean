import LibraryLink.Wrappers
import LibraryLink.Theorems.Generator
import LibraryLink.Lemmas.CppReceiver

/-!
# What a handler gets of the arguments of a wrapper

A wrapper puts each argument into the message by its class, the handler takes it out by the type that is declared. `toProtobuf` has
no branch for `Boolean`, so a handler reads zero for each of them: the local variables have what was passed if and only if every
`Boolean` passed is false.
-/

namespace LibraryLink.Generator

open Kotlin (Instance AnyValue)
open Cpp.Process (CType Param Local State loadAll argumentValue Value)

variable {T S : Type} {parser : ModelParser T} {ctype : String → CType}

/-! ## The message -/

/-- The `Value` that is sent for an object. -/
def valueOf : Instance → Value
  | .handle assignedID => .string assignedID
  | .value v => v.toValue

/-- The arguments of a wrapper become messages with the values of the objects passed. -/
theorem values_of_toProtobuf {args : List Arg} {actual : List Instance} (hlen : args.length = actual.length) :
    ∃ messages, (List.zipWith (fun a v => Kotlin.Argument.of v (some a.name)) args actual).mapM Kotlin.Argument.toProtobuf =
        .ok messages ∧ messages.map (·.value) = actual.map valueOf := by
  induction args generalizing actual with
  | nil =>
    obtain rfl := List.eq_nil_of_length_eq_zero hlen.symm
    exact ⟨[], rfl, rfl⟩
  | cons a args ih =>
    obtain ⟨v, actual, rfl⟩ := List.exists_cons_of_length_eq_add_one hlen.symm
    obtain ⟨messages, hmessages, hvalues⟩ := ih (Nat.succ.inj hlen)
    have hone : ∃ type, (Kotlin.Argument.of v (some a.name)).toProtobuf = .ok ⟨type, valueOf v, a.name⟩ := by
      cases v <;> exact ⟨_, rfl⟩
    obtain ⟨type, hone⟩ := hone
    refine ⟨⟨type, valueOf v, a.name⟩ :: messages, ?_, ?_⟩
    · rw [List.zipWith_cons_cons, List.mapM_cons, hone, hmessages]
      rfl
    · rw [List.map_cons, hvalues, List.map_cons]

/-- The value of an argument, from the list of all values. -/
theorem argumentValue_eq (r : Cpp.Process.MethodCallRequest) (i : Nat) :
    argumentValue r i = ((r.arg.map (·.value))[i]?).getD .notSet := by
  unfold argumentValue
  rw [List.getElem?_map]
  cases r.arg[i]? <;> rfl

/-- A 32-bit integer is not changed by a narrowing to 32 bits. -/
theorem bmod_eq_self {n : Int} (hlo : -2 ^ 31 ≤ n) (hhi : n < 2 ^ 31) : n.bmod (2 ^ 32) = n := by
  refine Int.bmod_eq_of_le ?_ ?_ <;> omega

/-! ## The local variables -/

/-- A type is declared as a reference type, or as `Int` or `Boolean`, for both languages. -/
inductive Declared (parser : ModelParser T) (kotlin cpp : List (TypeDecl T)) (type : T) : Prop
  | reference (k c : TypeDecl T) : parser.get kotlin type = some k → parser.get cpp type = some c →
      parser.isReference k.semanticType = true → parser.isReference c.semanticType = true → Declared parser kotlin cpp type
  | int (k c : TypeDecl T) : parser.get kotlin type = some k → parser.get cpp type = some c →
      parser.isReference k.semanticType = false → parser.isReference c.semanticType = false →
      k.codeType = "Int" → c.codeType = "int" → Declared parser kotlin cpp type
  | boolean (k c : TypeDecl T) : parser.get kotlin type = some k → parser.get cpp type = some c →
      parser.isReference k.semanticType = false → parser.isReference c.semanticType = false →
      k.codeType = "Boolean" → c.codeType = "bool" → Declared parser kotlin cpp type

/-- The local variables of a handler hold what was passed: the entry of the object of the call for `self`, and for the other
parameters, in order, the entry under the assigned id of a handle, an integer itself and a truth value itself. -/
inductive Holds (ctype : String → CType) (s : State S) (objectId : String) : List Arg → List Instance → List Local → Prop
  | nil : Holds ctype s objectId [] [] []
  | self {a args actual locals} : a.self = true → Holds ctype s objectId args actual locals →
      Holds ctype s objectId (a :: args) actual (.pointer (ctype a.type) (s.entry objectId) :: locals)
  | handle {a args actual locals} (assignedID : String) : a.self = false → Holds ctype s objectId args actual locals →
      Holds ctype s objectId (a :: args) (.handle assignedID :: actual)
        (.pointer (ctype a.type) (s.entry assignedID) :: locals)
  | int {a args actual locals} (n : Int) : a.self = false → Holds ctype s objectId args actual locals →
      Holds ctype s objectId (a :: args) (.value (.number n) :: actual) (.int n :: locals)
  | boolean {a args actual locals} (b : Bool) : a.self = false → Holds ctype s objectId args actual locals →
      Holds ctype s objectId (a :: args) (.value (.boolean b) :: actual) (.bool b :: locals)

variable {kotlin cpp : List (TypeDecl T)} {r : Cpp.Process.MethodCallRequest} {s : State S}

/-- The variables after that of a parameter other than `self` hold the rest of what was passed. -/
theorem Holds.tail {objectId : String} {a : Arg} {args : List Arg} {v : Instance} {actual : List Instance} {l : Local}
    {locals : List Local} (h : Holds ctype s objectId (a :: args) (v :: actual) (l :: locals)) (ha : a.self = false) :
    Holds ctype s objectId args actual locals := by
  cases h with
  | self hself _ => exact absurd (ha.symm.trans hself) Bool.false_ne_true
  | handle _ _ h => exact h
  | int _ _ h => exact h
  | boolean _ _ h => exact h

/-- What is passed for a parameter of a reference type is a handle. -/
theorem Arg.Accepts.exists_handle {a : Arg} {v : Instance} (h : a.Accepts v) (href : a.reference = true) : ∃ id, v = .handle id := by
  rcases v with id | (_ | _ | _ | _ | _ | _)
  · exact ⟨id, rfl⟩
  all_goals simp [Arg.Accepts, href] at h

/-- What is passed for a parameter of type `Int` is an integer of 32 bits. -/
theorem Arg.Accepts.exists_int {a : Arg} {v : Instance} (h : a.Accepts v) (href : a.reference = false) (htype : a.type = "Int") :
    ∃ n, v = .value (.number n) ∧ -2 ^ 31 ≤ n ∧ n < 2 ^ 31 := by
  rcases v with id | (_ | n | _ | _ | _ | _)
  case value.number => exact ⟨n, rfl, h.2.2⟩
  all_goals simp [Arg.Accepts, href, htype] at h

/-- What is passed for a parameter of type `Boolean` is a truth value. -/
theorem Arg.Accepts.exists_boolean {a : Arg} {v : Instance} (h : a.Accepts v) (href : a.reference = false)
    (htype : a.type = "Boolean") : ∃ b, v = .value (.boolean b) := by
  rcases v with id | (_ | _ | _ | _ | b | _)
  case value.boolean => exact ⟨b, rfl⟩
  all_goals simp [Arg.Accepts, href, htype] at h

/-- What a parameter other than `self` adds: its variable has the object passed unless this is the truth value true. -/
theorem holds_cons_iff (ctype : String → CType) (s : State S) (args : List Arg) (actual : List Instance) (locals : List Local)
    {a : FunctionArgument T} {ak ac : Arg} {v : Instance} {n : Nat} (hself : parser.isSelf a.type = false)
    (hdecl : Declared parser kotlin cpp a.type) (hk : argOf parser kotlin a = some ak)
    (hc : argOf parser cpp a = some ac) (hv : ak.Accepts v) (hr : argumentValue r n = valueOf v) (hlen : n < r.arg.length) :
    ∃ p, Arg.param ctype { ac with index := n } = some p ∧ p.Present r ∧
      (Holds ctype s r.objectId ({ ac with index := n } :: args) (v :: actual) (p.variable r s :: locals) ↔
        v ≠ .value (.boolean true) ∧ Holds ctype s r.objectId args actual locals) := by
  obtain ⟨k', hk', hak⟩ := Option.bind_eq_some_iff.mp hk
  obtain ⟨c', hc', hac⟩ := Option.bind_eq_some_iff.mp hc
  obtain rfl := Option.some.inj hak
  obtain rfl := Option.some.inj hac
  cases hdecl with
  | reference k c hget hget' href href' =>
    obtain rfl : k' = k := Option.some.inj (hk'.symm.trans hget)
    obtain rfl : c' = c := Option.some.inj (hc'.symm.trans hget')
    obtain ⟨id, rfl⟩ := hv.exists_handle href
    refine ⟨.ref (ctype c'.codeType) n, by simp [Arg.param, hself, href'], hlen, ?_⟩
    rw [Param.variable, hr]
    exact ⟨fun h => ⟨by simp, h.tail hself⟩, fun h => .handle id hself h.2⟩
  | int k c hget hget' href href' htype htype' =>
    obtain rfl : k' = k := Option.some.inj (hk'.symm.trans hget)
    obtain rfl : c' = c := Option.some.inj (hc'.symm.trans hget')
    obtain ⟨m, rfl, hlo, hhi⟩ := hv.exists_int href htype
    refine ⟨.int n, by simp [Arg.param, hself, href', htype'], hlen, ?_⟩
    rw [Param.variable, hr]
    show Holds _ _ _ _ _ (.int (Int.bmod m (2 ^ 32)) :: locals) ↔ _
    rw [bmod_eq_self hlo hhi]
    exact ⟨fun h => ⟨by simp, h.tail hself⟩, fun h => .int m hself h.2⟩
  | boolean k c hget hget' href href' htype htype' =>
    obtain rfl : k' = k := Option.some.inj (hk'.symm.trans hget)
    obtain rfl : c' = c := Option.some.inj (hc'.symm.trans hget')
    obtain ⟨b, rfl⟩ := hv.exists_boolean href htype
    refine ⟨.bool n, by simp [Arg.param, hself, href', htype'], hlen, ?_⟩
    rw [Param.variable, hr]
    show Holds _ _ _ _ _ (.bool false :: locals) ↔ _
    constructor
    · intro h
      refine ⟨?_, h.tail hself⟩
      rintro ⟨⟩
      cases h
    · rintro ⟨hb, h⟩
      obtain rfl : b = false := by
        cases b
        · rfl
        · exact absurd rfl hb
      exact .boolean false hself h

/-- `self` has no place among the arguments that are sent, and its variable has the entry of the object. -/
theorem holds_self_iff {a : Arg} {objectId : String} {args : List Arg} {actual : List Instance} {locals : List Local}
    (hself : a.self = true) :
    Holds ctype s objectId (a :: args) actual (.pointer (ctype a.type) (s.entry objectId) :: locals) ↔
      Holds ctype s objectId args actual locals := by
  constructor
  · generalize hl : Local.pointer (ctype a.type) (s.entry objectId) :: locals = all
    intro h
    cases h with
    | self _ h =>
      obtain ⟨-, rfl⟩ := List.cons.inj hl
      exact h
    | handle _ hnot _ => exact absurd (hnot.symm.trans hself) Bool.false_ne_true
    | int _ hnot _ => exact absurd (hnot.symm.trans hself) Bool.false_ne_true
    | boolean _ hnot _ => exact absurd (hnot.symm.trans hself) Bool.false_ne_true
  · exact .self hself

/-- The variables of all parameters of a function: they hold what was passed unless one of the truth values is true. `before` has the
values of the arguments that come before. -/
theorem holds_variables_iff (ctype : String → CType) (s : State S) {args : List (FunctionArgument T)} {ks cs : List Arg}
    {actual : List Instance} {before : List Value}
    (hdecl : ∀ a ∈ args, parser.isSelf a.type = false → Declared parser kotlin cpp a.type)
    (hk : (args.filter fun a => !parser.isSelf a.type).mapM (argOf parser kotlin) = some ks)
    (hc : args.mapM (argOf parser cpp) = some cs) (hfits : List.Forall₂ Arg.Accepts ks actual)
    (hr : r.arg.map (·.value) = before ++ actual.map valueOf) :
    ∃ params, (numbered before.length cs).mapM (Arg.param ctype) = some params ∧ (∀ p ∈ params, p.Present r) ∧
      (Holds ctype s r.objectId (numbered before.length cs) actual (params.map (·.variable r s)) ↔
        .value (.boolean true) ∉ actual) := by
  induction args generalizing ks cs actual before with
  | nil =>
    obtain rfl := Option.some.inj hk
    obtain rfl := Option.some.inj hc
    cases hfits
    exact ⟨[], rfl, List.forall_mem_nil _, fun _ => List.not_mem_nil, fun _ => .nil⟩
  | cons a args ih =>
    obtain ⟨hdeclA, hdeclArgs⟩ := List.forall_mem_cons.mp hdecl
    rw [List.mapM_cons] at hc
    obtain ⟨ac, hac, hc⟩ := Option.bind_eq_some_iff.mp hc
    obtain ⟨cs', hcs', hc⟩ := Option.bind_eq_some_iff.mp hc
    obtain rfl := Option.some.inj hc
    have hacself : ac.self = parser.isSelf a.type := by
      obtain ⟨c, -, hac⟩ := Option.bind_eq_some_iff.mp hac
      rw [← Option.some.inj hac]
    cases hself : parser.isSelf a.type with
    | true =>
      rw [List.filter_cons_of_neg (by simp [hself])] at hk
      obtain ⟨params, hparams, hpresent, hiff⟩ := ih hdeclArgs hk hcs' hfits hr
      have hac' : ac.self = true := hacself.trans hself
      refine ⟨.self (ctype ac.type) :: params, ?_, List.forall_mem_cons.mpr ⟨trivial, hpresent⟩, ?_⟩
      · rw [numbered, if_pos hac', List.mapM_cons, hparams, Arg.param, if_pos hac']
        rfl
      · rw [numbered, if_pos hac', List.map_cons]
        exact (holds_self_iff hac').trans hiff
    | false =>
      rw [List.filter_cons_of_pos (by simp [hself]), List.mapM_cons] at hk
      obtain ⟨ak, hak, hk⟩ := Option.bind_eq_some_iff.mp hk
      obtain ⟨ks', hks', hk⟩ := Option.bind_eq_some_iff.mp hk
      obtain rfl := Option.some.inj hk
      obtain ⟨v, actual, hv, hfits', rfl⟩ := List.forall₂_cons_left_iff.mp hfits
      have hac' : ac.self = false := hacself.trans hself
      rw [List.map_cons, List.append_cons] at hr
      obtain ⟨params, hparams, hpresent, hiff⟩ := ih hdeclArgs hks' hcs' hfits' hr
      have hlen : before.length < r.arg.length := by
        have := congrArg List.length hr
        simp only [List.length_map, List.length_append, List.length_cons, List.length_nil] at this
        omega
      have hvalue : argumentValue r before.length = valueOf v := by
        rw [argumentValue_eq, hr]
        simp
      obtain ⟨p, hp, hpresentP, hiffP⟩ := holds_cons_iff ctype s (numbered (before ++ [valueOf v]).length cs') actual
        (params.map (·.variable r s)) hself (hdeclA hself) hak hac hv hvalue hlen
      rw [List.length_append, List.length_singleton] at hparams hiff hiffP
      refine ⟨p :: params, ?_, List.forall_mem_cons.mpr ⟨hpresentP, hpresent⟩, ?_⟩
      · rw [numbered, if_neg (by simp [hac']), List.mapM_cons, hp, hparams]
        rfl
      · rw [numbered, if_neg (by simp [hac']), List.map_cons]
        rw [hiffP, hiff, List.mem_cons, not_or]
        exact and_congr_left fun _ => ne_comm

/-- What may be passed does not depend on the numbers of the parameters. -/
theorem forall₂_accepts {ks : List Arg} {actual : List Instance} {n : Nat} (h : List.Forall₂ Arg.Accepts (numbered n ks) actual) :
    List.Forall₂ Arg.Accepts ks actual := by
  induction ks generalizing n actual with
  | nil => exact h
  | cons a ks ih =>
    rw [numbered] at h
    split at h
    all_goals
      obtain ⟨v, rest, hv, hrest, rfl⟩ := List.forall₂_cons_left_iff.mp h
      exact .cons hv (ih hrest)

/-- The parameters of the method of a function are those of its declaration, numbered. -/
theorem args_of_methodOf {explicitSelf : Bool} {types typesWithSelf : List (TypeDecl T)} {function : FunctionDecl T}
    {method : Method} (htypes : withSelfTypeDecl parser types function.entity = some typesWithSelf)
    (h : methodOf parser explicitSelf types function = some method) :
    ∃ as, (if explicitSelf then function.args else function.args.filter fun a => !parser.isSelf a.type).mapM
        (argOf parser typesWithSelf) = some as ∧ method.args = numbered 0 as := by
  have hargs := (carries_of_methodOf h).args
  rw [htypes, Option.bind_some] at hargs
  obtain ⟨as, has, hnumbered⟩ := Option.bind_eq_some_iff.mp hargs
  exact ⟨as, has, (Option.some.inj hnumbered).symm⟩

/-- For every function of a model with parameters of the types `Int`, `Boolean` and reference types (and `self`), a handler generated with
an explicit `self` or without, all objects passed to the wrapper, in an object with any id, and every state of the receiver: the call is
sent, the handler loads its local variables, and these hold what was passed if and only if no truth value passed is true. -/
theorem receives_iff (ctype : String → CType) (explicitSelf : Bool) {kotlinTypes cppTypes : List (TypeDecl T)}
    {function : FunctionDecl T} {wrapper handler : Method} (hkotlin : withSelfTypeDecl parser kotlinTypes function.entity = some kotlin)
    (hcpp : withSelfTypeDecl parser cppTypes function.entity = some cpp)
    (hwrapper : methodOf parser false kotlinTypes function = some wrapper)
    (hhandler : methodOf parser explicitSelf cppTypes function = some handler)
    (hdecl : ∀ a ∈ function.args, parser.isSelf a.type = false → Declared parser kotlin cpp a.type) {actual : List Instance}
    (hfits : List.Forall₂ Arg.Accepts wrapper.args actual) (assignedID : String) (s : State S) :
    ∃ m r params locals s', Kotlin.Request.toProtobuf (.methodCall (wrapper.requestObject assignedID actual)) = .ok m ∧
      m.read.methodCall = some r ∧ handler.params ctype = some params ∧ loadAll r params s = .ok (locals, s') ∧
      (Holds ctype s (wrapper.requestObject assignedID actual).objectID handler.args actual locals ↔
        .value (.boolean true) ∉ actual) := by
  obtain ⟨messages, hmessages, hvalues⟩ := values_of_toProtobuf hfits.length_eq
  obtain ⟨ks', hks', hwrapperArgs⟩ := args_of_methodOf hkotlin hwrapper
  obtain ⟨cs', hcs', hhandlerArgs⟩ := args_of_methodOf hcpp hhandler
  rw [hwrapperArgs] at hfits
  -- The parameters that are sent are those of the handler, less `self`.
  set args := if explicitSelf then function.args else function.args.filter fun a => !parser.isSelf a.type with hargs
  have hsent : function.args.filter (fun a => !parser.isSelf a.type) = args.filter fun a => !parser.isSelf a.type := by
    rw [hargs]
    cases explicitSelf
    · exact (List.filter_filter.trans (by simp only [Bool.and_self])).symm
    · rfl
  have hsub : ∀ a ∈ args, a ∈ function.args := by
    rw [hargs]
    cases explicitSelf
    · exact fun a ha => (List.mem_filter.mp ha).1
    · exact fun a ha => ha
  rw [if_neg Bool.false_ne_true, hsent] at hks'
  let call : Exchange.MethodCallRequest := {
    methodName := wrapper.request.methodName, type := wrapper.request.type,
    objectId := (wrapper.requestObject assignedID actual).objectID, arg := messages, static := wrapper.request.isStatic,
    doGetReturnValue := wrapper.request.doGetReturnValue, property := wrapper.request.isProperty }
  have hcall : (wrapper.requestObject assignedID actual).toProtobuf = .ok call := by
    show (List.mapM _ (wrapper.requestObject assignedID actual).args >>= _) = _
    exact Outcome.bind_eq_ok.mpr ⟨messages, hmessages, rfl⟩
  have hr : call.read.arg.map (·.value) = [] ++ actual.map valueOf := by
    rw [List.nil_append, ← hvalues]
    show (messages.map Exchange.Argument.read).map (·.value) = _
    rw [List.map_map]
    rfl
  obtain ⟨params, hparams, hpresent, hiff⟩ := holds_variables_iff ctype s (fun a ha => hdecl a (hsub a ha)) hks' hcs' (forall₂_accepts hfits) hr
  obtain ⟨locals, s', hload⟩ := Cpp.Process.exists_loadAll s hpresent
  obtain ⟨-, rfl, -, -⟩ := Cpp.Process.loadAll_eq_ok hload
  refine ⟨_, call.read, params, _, s', Outcome.bind_eq_ok.mpr ⟨call, hcall, rfl⟩, rfl, ?_, hload, ?_⟩
  · rw [Method.params, hhandlerArgs]
    exact hparams
  · rw [hhandlerArgs]
    exact hiff

/-- `fun Z3_context.Z3_model_eval(c: self, m: Z3_model, t: Z3_ast, model_completion: Boolean, v: Z3_ast): Boolean` -/
def modelEval : FunctionDecl String where
  entity := "Z3_context"
  name := "Z3_model_eval"
  args := [{ name := "c", type := "self" }, { name := "m", type := "Z3_model" }, { name := "t", type := "Z3_ast" },
    { name := "model_completion", type := "Boolean" }, { name := "v", type := "Z3_ast" }]
  returnValue := some "Boolean"

/-- The types of its parameters, with what a language calls the truth values. -/
def modelEvalTypes (boolean : String) : List (TypeDecl String) :=
  [{ semanticType := "Z3_context", codeType := "Z3_context" }, { semanticType := "Z3_model", codeType := "Z3_model" },
    { semanticType := "Z3_ast", codeType := "Z3_ast" }, { semanticType := "Boolean", codeType := boolean }]

/-- Its parameters in C++ are those of the handler of `z3.cpp`. -/
example : (methodOf namedTypes true (modelEvalTypes "bool") modelEval).bind (Method.params z3Type) =
    some Cpp.Process.librarylinkZ3ModelEval.params := by decide

/-- What is passed to it. -/
def modelEvalActual (completion : Bool) : List Instance :=
  [.handle "1", .handle "2", .value (.boolean completion), .handle "3"]

/-- A receiver with the objects passed. -/
def modelEvalState : State Unit where
  persistence key := if key = "0" then some (some 0) else if key = "1" then some (some 1) else if key = "2" then some (some 2)
    else if key = "3" then some (some 3) else none
  heap := [.cell .context none, .cell .model none, .cell .ast none, .cell .ast none]

/-- The rule at a call without completion of the model. -/
theorem receives_iff_modelEval : ∃ wrapper handler m r params locals s',
    methodOf namedTypes false (modelEvalTypes "Boolean") modelEval = some wrapper ∧
      methodOf namedTypes true (modelEvalTypes "bool") modelEval = some handler ∧
      Kotlin.Request.toProtobuf (.methodCall (wrapper.requestObject "0" (modelEvalActual false))) = .ok m ∧
      m.read.methodCall = some r ∧ handler.params z3Type = some params ∧ loadAll r params modelEvalState = .ok (locals, s') ∧
      Holds z3Type modelEvalState "0" handler.args (modelEvalActual false) locals := by
  obtain ⟨wrapper, hwrapper⟩ : ∃ wrapper, methodOf namedTypes false (modelEvalTypes "Boolean") modelEval = some wrapper := ⟨_, rfl⟩
  obtain ⟨handler, hhandler⟩ : ∃ handler, methodOf namedTypes true (modelEvalTypes "bool") modelEval = some handler := ⟨_, rfl⟩
  have hdecl : ∀ a ∈ modelEval.args, namedTypes.isSelf a.type = false → Declared namedTypes
      (modelEvalTypes "Boolean" ++ [⟨"self", "Z3_context"⟩]) (modelEvalTypes "bool" ++ [⟨"self", "Z3_context"⟩]) a.type := by
    intro a ha hself
    simp only [modelEval, List.mem_cons, List.not_mem_nil, or_false] at ha
    rcases ha with rfl | rfl | rfl | rfl | rfl
    · exact absurd hself (by decide)
    · exact .reference _ _ rfl rfl (by decide) (by decide)
    · exact .reference _ _ rfl rfl (by decide) (by decide)
    · exact .boolean _ _ rfl rfl (by decide) (by decide) rfl rfl
    · exact .reference _ _ rfl rfl (by decide) (by decide)
  have hfits : List.Forall₂ Arg.Accepts wrapper.args (modelEvalActual false) := by
    rw [← Option.some.inj hwrapper]
    exact .cons rfl (.cons rfl (.cons ⟨rfl, rfl⟩ (.cons rfl .nil)))
  obtain ⟨m, r, params, locals, s', hm, hr, hparams, hload, hiff⟩ :=
    receives_iff z3Type true rfl rfl hwrapper hhandler hdecl hfits "0" modelEvalState
  have hobject : (wrapper.requestObject "0" (modelEvalActual false)).objectID = "0" := by
    rw [← Option.some.inj hwrapper]
    rfl
  rw [hobject] at hiff
  exact ⟨wrapper, handler, m, r, params, locals, s', hwrapper, hhandler, hm, hr, hparams, hload, hiff.mpr (by decide)⟩

/-- A truth value that was passed is held by some variable. -/
theorem Holds.bool_mem {objectId : String} {args : List Arg} {actual : List Instance} {locals : List Local}
    (h : Holds ctype s objectId args actual locals) {b : Bool} (hb : .value (.boolean b) ∈ actual) : Local.bool b ∈ locals := by
  induction h with
  | nil => cases hb
  | self _ _ ih => exact List.mem_cons_of_mem _ (ih hb)
  | handle _ _ _ ih =>
    rcases List.mem_cons.mp hb with hb | hb
    · cases hb
    · exact List.mem_cons_of_mem _ (ih hb)
  | int _ _ _ ih =>
    rcases List.mem_cons.mp hb with hb | hb
    · cases hb
    · exact List.mem_cons_of_mem _ (ih hb)
  | boolean b' _ _ ih =>
    rcases List.mem_cons.mp hb with hb | hb
    · cases hb
      exact List.mem_cons_self
    · exact List.mem_cons_of_mem _ (ih hb)

/-- A call with completion of the model: the handler's `model_completion` is false. -/
theorem not_receives : ∃ wrapper handler m r locals s',
    methodOf namedTypes false (modelEvalTypes "Boolean") modelEval = some wrapper ∧
      methodOf namedTypes true (modelEvalTypes "bool") modelEval = some handler ∧
      List.Forall₂ Arg.Accepts wrapper.args (modelEvalActual true) ∧
      Kotlin.Request.toProtobuf (.methodCall (wrapper.requestObject "0" (modelEvalActual true))) = .ok m ∧
      m.read.methodCall = some r ∧ loadAll r Cpp.Process.librarylinkZ3ModelEval.params modelEvalState = .ok (locals, s') ∧
      locals[3]? = some (.bool false) ∧ ¬Holds z3Type modelEvalState "0" handler.args (modelEvalActual true) locals := by
  have hload : ∃ wrapper handler m r s', methodOf namedTypes false (modelEvalTypes "Boolean") modelEval = some wrapper ∧
      methodOf namedTypes true (modelEvalTypes "bool") modelEval = some handler ∧
      List.Forall₂ Arg.Accepts wrapper.args (modelEvalActual true) ∧
      Kotlin.Request.toProtobuf (.methodCall (wrapper.requestObject "0" (modelEvalActual true))) = .ok m ∧
      m.read.methodCall = some r ∧ loadAll r Cpp.Process.librarylinkZ3ModelEval.params modelEvalState =
        .ok ([.pointer .context (some 0), .pointer .model (some 1), .pointer .ast (some 2), .bool false, .pointer .ast (some 3)], s') :=
    ⟨_, _, _, _, _, rfl, rfl, .cons rfl (.cons rfl (.cons ⟨rfl, rfl⟩ (.cons rfl .nil))), rfl, rfl, rfl⟩
  obtain ⟨wrapper, handler, m, r, s', hwrapper, hhandler, hfits, hm, hr, hload⟩ := hload
  refine ⟨wrapper, handler, m, r, _, s', hwrapper, hhandler, hfits, hm, hr, hload, rfl, ?_⟩
  intro h
  have hmem := h.bool_mem (b := true) (by decide)
  simp at hmem

end LibraryLink.Generator
