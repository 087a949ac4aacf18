import LibraryLink.Templates
import LibraryLink.Theorems.Generator

/-!
# Which argument a handler reads

The wrapper in Kotlin and the handler in C++ are generated from the same declaration, by two runs that filter its parameters
differently. The position of a parameter among the arguments sent and the index it is read at are both the number of parameters
before it that are not `self`.
-/

namespace LibraryLink.Generator

variable {T : Type} {parser : ModelParser T} {explicitSelf : Bool} {types : List (TypeDecl T)}

/-! ## The parameters that are kept -/

/-- The parameters that are not `self`. -/
def notSelf (parser : ModelParser T) (params : List (FunctionArgument T)) : List (FunctionArgument T) :=
  params.filter fun a => !parser.isSelf a.type

/-- `validArgs` -/
def kept (parser : ModelParser T) (explicitSelf : Bool) (params : List (FunctionArgument T)) : List (FunctionArgument T) :=
  if explicitSelf then params else notSelf parser params

@[simp] theorem kept_false (params : List (FunctionArgument T)) : kept parser false params = notSelf parser params := rfl

@[simp] theorem kept_true (params : List (FunctionArgument T)) : kept parser true params = params := rfl

theorem notSelf_append (params params' : List (FunctionArgument T)) :
    notSelf parser (params ++ params') = notSelf parser params ++ notSelf parser params' :=
  List.filter_append ..

theorem kept_append (params params' : List (FunctionArgument T)) :
    kept parser explicitSelf (params ++ params') = kept parser explicitSelf params ++ kept parser explicitSelf params' := by
  cases explicitSelf
  · exact notSelf_append params params'
  · rfl

/-- A parameter that is not `self` is kept, and so is every parameter with an explicit `self`. -/
theorem kept_cons {p : FunctionArgument T} (params : List (FunctionArgument T)) (h : parser.isSelf p.type = true → explicitSelf = true) :
    kept parser explicitSelf (p :: params) = p :: kept parser explicitSelf params := by
  cases explicitSelf
  · have hp : parser.isSelf p.type = false := by
      cases hself : parser.isSelf p.type
      · rfl
      · cases h hself
    simp [notSelf, hp]
  · rfl

/-- The parameters that are not `self` are those among the kept ones. -/
theorem notSelf_kept (params : List (FunctionArgument T)) : notSelf parser (kept parser explicitSelf params) = notSelf parser params := by
  cases explicitSelf
  · simp [notSelf]
  · rfl

/-! ## The arguments that are generated -/

/-- An `Arg` is of a parameter. -/
structure Of (parser : ModelParser T) (p : FunctionArgument T) (a : Arg) : Prop where
  name : a.name = p.name
  self : a.self = parser.isSelf p.type

theorem of_argOf {p : FunctionArgument T} {a : Arg} (h : argOf parser types p = some a) : Of parser p a := by
  obtain ⟨decl, -, h⟩ := Option.bind_eq_some_iff.mp h
  obtain rfl := Option.some.inj h
  exact ⟨rfl, rfl⟩

/-- The arguments of some parameters, before they are numbered. -/
theorem forall₂_of_mapM {params : List (FunctionArgument T)} {args : List Arg} (h : params.mapM (argOf parser types) = some args) :
    List.Forall₂ (Of parser) params args := by
  induction params generalizing args with
  | nil =>
    rw [List.mapM_nil] at h
    obtain rfl := Option.some.inj h
    exact .nil
  | cons p params ih =>
    rw [List.mapM_cons] at h
    obtain ⟨a, ha, h⟩ := Option.bind_eq_some_iff.mp h
    obtain ⟨args', hargs, h⟩ := Option.bind_eq_some_iff.mp h
    obtain rfl := Option.some.inj h
    exact .cons (of_argOf ha) (ih hargs)

/-- The arguments of some parameters are numbered: those that are not `self` have successive indices from `n` on. -/
inductive Numbered (parser : ModelParser T) : Nat → List (FunctionArgument T) → List Arg → Prop
  | nil (n : Nat) : Numbered parser n [] []
  | self (n : Nat) (p : FunctionArgument T) (a : Arg) (params : List (FunctionArgument T)) (args : List Arg) :
      Of parser p a → a.self = true → Numbered parser n params args → Numbered parser n (p :: params) (a :: args)
  | other (n : Nat) (p : FunctionArgument T) (a : Arg) (params : List (FunctionArgument T)) (args : List Arg) :
      Of parser p a → a.self = false → a.index = n → Numbered parser (n + 1) params args →
      Numbered parser n (p :: params) (a :: args)

theorem numbered_of_forall₂ {params : List (FunctionArgument T)} {args : List Arg} (h : List.Forall₂ (Of parser) params args) (n : Nat) :
    Numbered parser n params (numbered n args) := by
  induction h generalizing n with
  | nil => exact .nil n
  | @cons p a params args ha _ ih =>
    unfold numbered
    by_cases hself : a.self = true
    · rw [if_pos hself]
      exact .self n p a params _ ha hself (ih n)
    · rw [if_neg hself]
      exact .other n p _ params _ ⟨ha.name, ha.self⟩ (Bool.eq_false_iff.mpr hself) rfl (ih (n + 1))

/-- The arguments of the method of a function are numbered from zero on. -/
theorem numbered_of_methodOf {function : FunctionDecl T} {method : Method}
    (h : methodOf parser explicitSelf types function = some method) :
    Numbered parser 0 (kept parser explicitSelf function.args) method.args := by
  obtain ⟨typesWithSelf, -, hargs⟩ := Option.bind_eq_some_iff.mp (carries_of_methodOf h).args
  obtain ⟨generated, hgenerated, hnumbered⟩ := Option.bind_eq_some_iff.mp hargs
  rw [← Option.some.inj hnumbered]
  exact numbered_of_forall₂ (forall₂_of_mapM hgenerated) 0

namespace Numbered

variable {n : Nat} {params : List (FunctionArgument T)} {args : List Arg}

/-- Each parameter has its argument. -/
theorem names (h : Numbered parser n params args) : args.map (·.name) = params.map (·.name) := by
  induction h with
  | nil n => rfl
  | self n p a params args ha _ _ ih => rw [List.map_cons, List.map_cons, ih, ha.name]
  | other n p a params args ha _ _ _ ih => rw [List.map_cons, List.map_cons, ih, ha.name]

/-- The indices that the handler reads are successive. -/
theorem indices (h : Numbered parser n params args) :
    (args.map Arg.declaration).filterMap (fun d => d.source.index) = List.range' n (notSelf parser params).length := by
  induction h with
  | nil n => rfl
  | self n p a params args ha hself _ ih =>
    have hp : parser.isSelf p.type = true := ha.self.symm.trans hself
    have hindex : a.declaration.source.index = none := by simp [Arg.declaration, hself, Source.index]
    rw [List.map_cons, List.filterMap_cons, hindex, ih]
    simp [notSelf, hp]
  | other n p a params args ha hself hn _ ih =>
    have hp : parser.isSelf p.type = false := ha.self.symm.trans hself
    have hindex : a.declaration.source.index = some n := by
      cases hreference : a.reference <;> simp [Arg.declaration, hself, hreference, Source.index, hn]
    rw [List.map_cons, List.filterMap_cons, hindex, ih]
    simp [notSelf, hp, List.range'_succ]

/-- The argument of a parameter: its index is the number of parameters before it that are not `self`. -/
theorem split (h : Numbered parser n params args) {before after : List (FunctionArgument T)} {p : FunctionArgument T}
    (hsplit : params = before ++ p :: after) :
    ∃ a, args[before.length]? = some a ∧ Of parser p a ∧ (a.self = false → a.index = n + (notSelf parser before).length) := by
  induction before generalizing n params args with
  | nil =>
    subst hsplit
    cases h with
    | self _ _ a _ _ ha hself => exact ⟨a, rfl, ha, fun hother => absurd (hself.symm.trans hother) Bool.noConfusion⟩
    | other _ _ a _ _ ha _ hn => exact ⟨a, rfl, ha, fun _ => hn⟩
  | cons q before ih =>
    subst hsplit
    cases h with
    | self _ _ a _ args ha hself hargs =>
      obtain ⟨a', hget, ha', hindex⟩ := ih hargs rfl
      have hq : parser.isSelf q.type = true := ha.self.symm.trans hself
      refine ⟨a', hget, ha', fun hother => ?_⟩
      rw [hindex hother]
      simp [notSelf, hq]
    | other _ _ a _ args ha hother hn hargs =>
      obtain ⟨a', hget, ha', hindex⟩ := ih hargs rfl
      have hq : parser.isSelf q.type = false := ha.self.symm.trans hother
      refine ⟨a', hget, ha', fun hother => ?_⟩
      rw [hindex hother]
      simp [notSelf, hq]
      omega

end Numbered

/-! ## The wrapper and the handler -/

/-- A wrapper and a handler agree on the parameters of a function: each parameter that is not `self` is sent at the position it is
read at, and these are all positions; `self` is read from the object id; and the call gets the parameters that were kept, in order. -/
structure Agree (parser : ModelParser T) (explicitSelf : Bool) (params : List (FunctionArgument T)) (sent : List ArgumentObject)
    (handler : Handler) : Prop where
  listed : sent.map (·.value) = (notSelf parser params).map (·.name)
  read : ∀ before p after, params = before ++ p :: after → parser.isSelf p.type = false →
    ∃ d, handler.declarations[(kept parser explicitSelf before).length]? = some d ∧ d.name = p.name ∧
      d.source.index = some (notSelf parser before).length ∧ sent[(notSelf parser before).length]? = some ⟨p.name, p.name⟩
  object : ∀ before p after, params = before ++ p :: after → parser.isSelf p.type = true → explicitSelf = true →
    ∃ d, handler.declarations[(kept parser explicitSelf before).length]? = some d ∧ d.name = p.name ∧ d.source = .object
  declared : handler.declarations.map (·.name) = (kept parser explicitSelf params).map (·.name)
  indices : handler.declarations.filterMap (·.source.index) = List.range sent.length
  passed : handler.operands.map (·.name) = (kept parser explicitSelf params).map (·.name)

/-- The declaration of a parameter that is kept. -/
theorem exists_declaration {method : Method} {params before after : List (FunctionArgument T)} {p : FunctionArgument T}
    (h : Numbered parser 0 (kept parser explicitSelf params) method.args) (hsplit : params = before ++ p :: after)
    (hp : parser.isSelf p.type = true → explicitSelf = true) :
    ∃ a, method.function.declarations[(kept parser explicitSelf before).length]? = some a.declaration ∧ Of parser p a ∧
      (a.self = false → a.index = (notSelf parser before).length) := by
  obtain ⟨a, hget, ha, hindex⟩ := h.split (by rw [hsplit, kept_append, kept_cons after hp])
  refine ⟨a, ?_, ha, fun hother => ?_⟩
  · rw [Method.function, List.getElem?_map, hget]
    rfl
  · rw [hindex hother, notSelf_kept, Nat.zero_add]

/-- What the wrapper sends for a parameter that is not `self`. -/
theorem exists_argObject {method : Method} {params before after : List (FunctionArgument T)} {p : FunctionArgument T}
    (h : Numbered parser 0 (notSelf parser params) method.args) (hsplit : params = before ++ p :: after)
    (hp : parser.isSelf p.type = false) : method.bigList[(notSelf parser before).length]? = some ⟨p.name, p.name⟩ := by
  have hkept : notSelf parser params = notSelf parser before ++ p :: notSelf parser after := by
    rw [hsplit, notSelf_append]
    simp [notSelf, hp]
  obtain ⟨a, hget, ha, -⟩ := h.split hkept
  rw [Method.bigList, List.getElem?_map, hget, ← ha.name]
  rfl

/-- For every function, with parameters of any kind and `self` anywhere among them, the wrapper generated without an explicit `self`
and the handler generated with or without it agree. -/
theorem arguments_agree (parser : ModelParser T) (explicitSelf : Bool) {kotlinTypes cppTypes : List (TypeDecl T)}
    {function : FunctionDecl T} {wrapper handler : Method} (hwrapper : methodOf parser false kotlinTypes function = some wrapper)
    (hhandler : methodOf parser explicitSelf cppTypes function = some handler) :
    Agree parser explicitSelf function.args wrapper.bigList handler.function := by
  have hw : Numbered parser 0 (notSelf parser function.args) wrapper.args := numbered_of_methodOf hwrapper
  have hh := numbered_of_methodOf hhandler
  have hsent : wrapper.bigList.length = (notSelf parser function.args).length := by
    have hnames := congrArg List.length hw.names
    simpa [Method.bigList] using hnames
  refine ⟨?_, ?_, ?_, ?_, ?_, ?_⟩
  · rw [Method.bigList, List.map_map]
    exact hw.names
  · intro before p after hsplit hp
    obtain ⟨a, hget, ha, hindex⟩ := exists_declaration hh hsplit fun hself => absurd (hself.symm.trans hp) Bool.noConfusion
    have hother : a.self = false := ha.self.trans hp
    refine ⟨a.declaration, hget, ha.name, ?_, exists_argObject hw hsplit hp⟩
    rw [← hindex hother]
    cases hreference : a.reference <;> simp [Arg.declaration, hother, hreference, Source.index]
  · intro before p after hsplit hp hexplicit
    obtain ⟨a, hget, ha, -⟩ := exists_declaration hh hsplit fun _ => hexplicit
    refine ⟨a.declaration, hget, ha.name, ?_⟩
    simp [Arg.declaration, ha.self.trans hp]
  · rw [Method.function, List.map_map]
    exact hh.names
  · rw [Method.function, hh.indices, notSelf_kept, hsent, List.range_eq_range']
  · rw [Method.function, List.map_map]
    exact hh.names

/-- `fun Socket.send(count: Int, socket: self, file: File)` -/
def sendFile : FunctionDecl String where
  entity := "Socket"
  name := "send"
  args := [⟨"count", "Int"⟩, ⟨"socket", "self"⟩, ⟨"file", "File"⟩]

/-- The rule at a function with `self` in the middle. -/
theorem arguments_agree_send : Agree namedTypes true sendFile.args [⟨"count", "count"⟩, ⟨"file", "file"⟩]
    { declarations := [⟨"int", "count", .value 0⟩, ⟨"Socket*", "socket", .object⟩, ⟨"File*", "file", .reference 1⟩]
      operands := [⟨false, "count"⟩, ⟨false, "socket"⟩, ⟨true, "file"⟩] } := by
  have hwrapper : methodOf namedTypes false [⟨"Socket", "Socket"⟩, ⟨"Int", "Int"⟩, ⟨"File", "File"⟩] sendFile = some _ := rfl
  have hhandler : methodOf namedTypes true [⟨"Socket", "Socket"⟩, ⟨"Int", "int"⟩, ⟨"File", "File"⟩] sendFile = some _ := rfl
  exact arguments_agree namedTypes true hwrapper hhandler

end LibraryLink.Generator
