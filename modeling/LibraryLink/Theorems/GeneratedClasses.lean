import LibraryLink.Templates
import LibraryLink.Theorems.Generator

/-!
# Which members a class gets

`generateST` lists the functions of all shifts of an automaton that do not start at `Created` as methods of its class, as often as
they occur, and takes the functions of the shifts that start there for a constructor only if there is exactly one. So the class
contains each function once, in its role, if and only if no function occurs twice on the first shifts, at most one on the others,
and none on both.
-/

namespace LibraryLink.Generator

open Tables (mem_of_lookup)

variable {T : Type} {parser : ModelParser T} {explicitSelf : Bool} {types : List (TypeDecl T)}

/-! ## The functions of an automaton -/

/-- The functions of the shifts from `Created`, as often as they occur. -/
def Automaton.created (automaton : Automaton T) : List String :=
  (automaton.shifts.filter fun s => s.fromState = "Created").flatMap (·.functions)

/-- The functions of the other shifts, as often as they occur. -/
def Automaton.others (automaton : Automaton T) : List String :=
  (automaton.shifts.filter fun s => s.fromState ≠ "Created").flatMap (·.functions)

/-- A function is named in a shift of the automaton. -/
def Automaton.Names (automaton : Automaton T) (name : String) : Prop := ∃ s ∈ automaton.shifts, name ∈ s.functions

theorem Automaton.names_iff (automaton : Automaton T) (name : String) :
    automaton.Names name ↔ name ∈ automaton.created ∨ name ∈ automaton.others := by
  simp only [Names, created, others, List.mem_flatMap, List.mem_filter, decide_eq_true_eq]
  constructor
  · rintro ⟨s, hs, hname⟩
    by_cases hfrom : s.fromState = "Created"
    · exact Or.inl ⟨s, ⟨hs, hfrom⟩, hname⟩
    · exact Or.inr ⟨s, ⟨hs, hfrom⟩, hname⟩
  · rintro (⟨s, ⟨hs, -⟩, hname⟩ | ⟨s, ⟨hs, -⟩, hname⟩)
    · exact ⟨s, hs, hname⟩
    · exact ⟨s, hs, hname⟩

/-- Where each name is declared once, a function is the last one with its name. -/
theorem lastNamed_of_nodup {functions : List (FunctionDecl T)} (h : (functions.map (·.name)).Nodup) {function : FunctionDecl T}
    (hmem : function ∈ functions) : lastNamed functions function.name = some function := by
  obtain ⟨before, after, rfl⟩ := List.append_of_mem hmem
  refine lastNamed_of_last ?_
  intro g hg hname
  rw [List.map_append, List.map_cons] at h
  have hnodup := (List.nodup_append.mp h).2.1
  exact (List.nodup_cons.mp hnodup).1 (List.mem_map.mpr ⟨g, hg, hname⟩)

/-! ## How often a function occurs in a class -/

/-- The methods found for some names, of one name: as many as the name occurs. -/
theorem filter_of_mapM {methods : List (String × Method)} (hbyName : ByName methods) {names : List String} {found : List Method}
    (h : names.mapM (fun name => methods.lookup name) = some found) {name : String} {method : Method}
    (hlookup : methods.lookup name = some method) :
    found.filter (fun m => m.name = name) = List.replicate (names.count name) method := by
  induction names generalizing found with
  | nil =>
    rw [List.mapM_nil] at h
    obtain rfl := Option.some.inj h
    rfl
  | cons name' names ih =>
    rw [List.mapM_cons] at h
    obtain ⟨m, hm, h⟩ := Option.bind_eq_some_iff.mp h
    obtain ⟨ms, hms, h⟩ := Option.bind_eq_some_iff.mp h
    obtain rfl := Option.some.inj h
    have hname : m.name = name' := hbyName.name _ (mem_of_lookup hm)
    rw [List.filter_cons, List.count_cons, ih hms, hname]
    by_cases heq : name' = name
    · subst heq
      obtain rfl := Option.some.inj (hm.symm.trans hlookup)
      simp [List.replicate_succ]
    · simp [heq]

/-- The constructor among the members of one name: there is one if the name is the only one. -/
theorem filter_singleOrNull {methods : List (String × Method)} (hbyName : ByName methods) {names : List String}
    {found : List Method} (h : names.mapM (fun name => methods.lookup name) = some found) {name : String} {method : Method}
    (hlookup : methods.lookup name = some method) :
    (singleOrNull found).toList.filter (fun m => m.name = name) = if names = [name] then [method] else [] := by
  have hfilter := filter_of_mapM hbyName h hlookup
  rcases names with _ | ⟨name₁, _ | ⟨name₂, names⟩⟩
  · rw [List.mapM_nil] at h
    obtain rfl := Option.some.inj h
    rfl
  · rw [List.mapM_cons, List.mapM_nil] at h
    obtain ⟨m, -, h⟩ := Option.bind_eq_some_iff.mp h
    obtain rfl := Option.some.inj h
    refine hfilter.trans ?_
    by_cases heq : name₁ = name
    · simp [heq]
    · simp [heq]
  · rw [List.mapM_cons, List.mapM_cons] at h
    obtain ⟨m₁, -, h⟩ := Option.bind_eq_some_iff.mp h
    obtain ⟨ms, hms, h⟩ := Option.bind_eq_some_iff.mp h
    obtain ⟨m₂, -, hms⟩ := Option.bind_eq_some_iff.mp hms
    obtain ⟨ms', -, hms⟩ := Option.bind_eq_some_iff.mp hms
    obtain rfl := Option.some.inj hms
    obtain rfl := Option.some.inj h
    simp [singleOrNull]

/-- The members of a class with one name. -/
def membersNamed (name : String) (members : List Member) : List Member := members.filter fun m => m.source.name = name

theorem membersNamed_append (name : String) (members members' : List Member) :
    membersNamed name (members ++ members') = membersNamed name members ++ membersNamed name members' :=
  List.filter_append ..

/-- In the class of an automaton a function occurs as a method as often as it occurs on the shifts that do not start at `Created`,
and as the constructor if it is the only function on those that do. -/
theorem membersNamed_of_wrappedClassOf {methods : List (String × Method)} (hbyName : ByName methods) {automaton : Automaton T}
    {clazz : WrappedClass} (h : wrappedClassOf parser methods automaton = some clazz) {name : String} {method : Method}
    (hlookup : methods.lookup name = some method) :
    membersNamed name (clazz.methods.map .method) = List.replicate (automaton.others.count name) (.method method) ∧
      membersNamed name (clazz.constructor.toList.map .constructor) =
        if automaton.created = [name] then [.constructor method] else [] := by
  obtain ⟨classMethods, hmethods, h⟩ := Option.bind_eq_some_iff.mp h
  obtain ⟨constructors, hconstructors, h⟩ := Option.bind_eq_some_iff.mp h
  obtain rfl := Option.some.inj h
  have hcreated : automaton.created.mapM (fun name => methods.lookup name) = some constructors := hconstructors
  constructor
  · show (classMethods.map Member.method).filter _ = _
    rw [List.filter_map]
    show (classMethods.filter fun m => m.name = name).map Member.method = _
    rw [filter_of_mapM hbyName hmethods hlookup, List.map_replicate]
    rfl
  · show ((singleOrNull constructors).toList.map Member.constructor).filter _ = _
    rw [List.filter_map]
    show ((singleOrNull constructors).toList.filter fun m => m.name = name).map Member.constructor = _
    rw [filter_singleOrNull hbyName hcreated hlookup]
    by_cases hsingle : automaton.created = [name]
    · rw [if_pos hsingle, if_pos hsingle]
      rfl
    · rw [if_neg hsingle, if_neg hsingle]
      rfl

/-- The member that the method of a function is printed as. -/
def Automaton.memberOf (automaton : Automaton T) (method : Method) : Member :=
  if method.name ∈ automaton.created then .constructor method else .method method

/-- One member of a name and no other, in both orders of the two kinds. -/
theorem append_eq_singleton_iff (k : Nat) (p q : Prop) [Decidable p] [Decidable q] (hqp : q → p) (m : Method) :
    (List.replicate k (Member.method m) ++ (if q then [Member.constructor m] else []) =
        [if p then Member.constructor m else .method m] ↔ k + (if q then 1 else 0) = 1 ∧ (p → q)) ∧
      ((if q then [Member.constructor m] else []) ++ List.replicate k (Member.method m) =
        [if p then Member.constructor m else .method m] ↔ k + (if q then 1 else 0) = 1 ∧ (p → q)) := by
  by_cases hq : q
  · rcases k with _ | k <;> simp [hq, hqp hq, List.replicate_succ]
  · by_cases hp : p
    · rcases k with _ | k <;> simp [hq, hp, List.replicate_succ]
    · rcases k with _ | _ | k <;> simp [hq, hp, List.replicate_succ]

/-! ## Each function once -/

/-- Each function that is named in a shift is in the class once, as a constructor if it is on a shift from `Created` and as a method
otherwise, whichever template prints the class. -/
def EachOnce (parser : ModelParser T) (explicitSelf : Bool) (library : LibraryDecl T) (automaton : Automaton T)
    (clazz : WrappedClass) : Prop :=
  ∀ function ∈ library.functions, automaton.Names function.name →
    ∃ method, methodOf parser explicitSelf library.types function = some method ∧
      ∀ members ∈ [clazz.entityCpp, clazz.entityKotlin], membersNamed function.name members = [automaton.memberOf method]

/-- No function is twice on the shifts that do not start at `Created`, at most one is on those that do, and none is on both. -/
structure Automaton.NamesOnce (automaton : Automaton T) : Prop where
  others : automaton.others.Nodup
  created : automaton.created.length ≤ 1
  apart : ∀ name ∈ automaton.created, name ∉ automaton.others

/-- A function that is named in a shift has a method in the map, or there is no class. -/
theorem exists_lookup {methods : List (String × Method)} {automaton : Automaton T} {clazz : WrappedClass}
    (h : wrappedClassOf parser methods automaton = some clazz) {name : String} (hname : automaton.Names name) :
    ∃ method, methods.lookup name = some method := by
  obtain ⟨classMethods, hmethods, h⟩ := Option.bind_eq_some_iff.mp h
  obtain ⟨constructors, hconstructors, -⟩ := Option.bind_eq_some_iff.mp h
  rcases (automaton.names_iff name).mp hname with hmem | hmem
  · obtain ⟨m, -, hlookup⟩ := (lookup_of_mem_mapM hconstructors).2 name hmem
    exact ⟨m, hlookup⟩
  · obtain ⟨m, -, hlookup⟩ := (lookup_of_mem_mapM hmethods).2 name hmem
    exact ⟨m, hlookup⟩

/-- What it takes for one function to be in the class once. -/
theorem membersNamed_eq_iff {methods : List (String × Method)} (hbyName : ByName methods) {automaton : Automaton T}
    {clazz : WrappedClass} (h : wrappedClassOf parser methods automaton = some clazz) {name : String} {method : Method}
    (hlookup : methods.lookup name = some method) :
    (∀ members ∈ [clazz.entityCpp, clazz.entityKotlin], membersNamed name members = [automaton.memberOf method]) ↔
      automaton.others.count name + (if automaton.created = [name] then 1 else 0) = 1 ∧
        (name ∈ automaton.created → automaton.created = [name]) := by
  obtain ⟨hmethods, hconstructor⟩ := membersNamed_of_wrappedClassOf hbyName h hlookup
  obtain rfl : method.name = name := hbyName.name _ (mem_of_lookup hlookup)
  have hsingle : automaton.created = [method.name] → method.name ∈ automaton.created := fun hcreated => by simp [hcreated]
  obtain ⟨hcpp, hkotlin⟩ := append_eq_singleton_iff (automaton.others.count method.name) (method.name ∈ automaton.created)
    (automaton.created = [method.name]) hsingle method
  rw [List.forall_mem_cons, List.forall_mem_singleton]
  unfold WrappedClass.entityCpp WrappedClass.entityKotlin Automaton.memberOf
  rw [membersNamed_append, membersNamed_append, hmethods, hconstructor, hcpp, hkotlin, and_self]

/-- In the class of an automaton each function that a shift names is there once, in its role, if and only if the automaton names each
once. -/
theorem eachOnce_of_wrappedClassOf {library : LibraryDecl T} {methods : List (String × Method)}
    (hdecl : (library.functions.map (·.name)).Nodup)
    (hmethods : allMethods parser explicitSelf library.types library.functions = some methods) {automaton : Automaton T}
    {clazz : WrappedClass} (h : wrappedClassOf parser methods automaton = some clazz) :
    EachOnce parser explicitSelf library automaton clazz ↔ automaton.NamesOnce := by
  obtain ⟨hbyName, hlookup⟩ := allMethods_eq_some hmethods
  have hfunction : ∀ function ∈ library.functions,
      methods.lookup function.name = methodOf parser explicitSelf library.types function := by
    intro function hmem
    rw [hlookup, lastNamed_of_nodup hdecl hmem, Option.bind_some]
  constructor
  · intro heach
    have hname : ∀ name, automaton.Names name →
        automaton.others.count name + (if automaton.created = [name] then 1 else 0) = 1 ∧
          (name ∈ automaton.created → automaton.created = [name]) := by
      intro name hname
      obtain ⟨m, hm⟩ := exists_lookup h hname
      obtain ⟨function, hlast, -⟩ := Option.bind_eq_some_iff.mp ((hlookup name).symm.trans hm)
      have hmem : function ∈ library.functions := List.mem_reverse.mp (List.mem_of_find?_eq_some hlast)
      obtain rfl : function.name = name := by simpa using List.find?_some hlast
      obtain ⟨method, hmethod, hmembers⟩ := heach function hmem hname
      exact (membersNamed_eq_iff hbyName h ((hfunction function hmem).trans hmethod)).mp hmembers
    have hsingle : ∀ name ∈ automaton.created, automaton.created = [name] :=
      fun name hmem => (hname name ((automaton.names_iff name).mpr (Or.inl hmem))).2 hmem
    refine ⟨List.nodup_iff_count_le_one.mpr ?_, ?_, ?_⟩
    · intro name
      by_cases hmem : name ∈ automaton.others
      · have := (hname name ((automaton.names_iff name).mpr (Or.inr hmem))).1
        omega
      · rw [List.count_eq_zero_of_not_mem hmem]
        exact Nat.zero_le 1
    · rcases hcreated : automaton.created with _ | ⟨name, rest⟩
      · exact Nat.zero_le 1
      · rw [← hcreated, hsingle name (hcreated ▸ List.mem_cons_self)]
        exact Nat.le_refl 1
    · intro name hmem
      obtain ⟨hcount, -⟩ := hname name ((automaton.names_iff name).mpr (Or.inl hmem))
      rw [if_pos (hsingle name hmem)] at hcount
      exact List.count_eq_zero.mp (by omega)
  · intro honce function hmem hname
    obtain ⟨method, hm⟩ := exists_lookup h hname
    refine ⟨method, (hfunction function hmem).symm.trans hm, (membersNamed_eq_iff hbyName h hm).mpr ?_⟩
    have hsingle : function.name ∈ automaton.created → automaton.created = [function.name] := by
      intro hcreated
      obtain ⟨name, hone⟩ := List.length_eq_one_iff.mp
        (Nat.le_antisymm honce.created (List.length_pos_iff.mpr (List.ne_nil_of_mem hcreated)))
      rw [hone] at hcreated ⊢
      rw [List.mem_singleton.mp hcreated]
    refine ⟨?_, hsingle⟩
    by_cases hcreated : function.name ∈ automaton.created
    · rw [if_pos (hsingle hcreated), List.count_eq_zero_of_not_mem (honce.apart _ hcreated)]
    · have hother := ((automaton.names_iff function.name).mp hname).resolve_left hcreated
      rw [if_neg (fun hone => hcreated (by simp [hone])), List.count_eq_one_of_mem honce.others hother]

/-- For every library in which each function name is declared once, and every automaton of it that is not extendable, with the class
that `generateST` makes: each function named in a shift is there once, in its role, if and only if the automaton names no function
twice on its other shifts, at most one on those from `Created`, and none on both. -/
theorem eachOnce_iff (parser : ModelParser T) (explicitSelf : Bool) (srcLibrary : LibraryDecl T) (destinationLanguage : String)
    (hdecl : ((parser.preprocess destinationLanguage srcLibrary).functions.map (·.name)).Nodup) {out : Output}
    (h : generateST parser explicitSelf srcLibrary destinationLanguage = some out) :
    List.Forall₂ (fun automaton clazz => clazz.name = parser.typeName automaton.name ∧
        (EachOnce parser explicitSelf (parser.preprocess destinationLanguage srcLibrary) automaton clazz ↔ automaton.NamesOnce))
      ((parser.preprocess destinationLanguage srcLibrary).automata.filter fun a => !a.extendable) out.wrappedClasses := by
  obtain ⟨methods, hmethods, hall⟩ := classes_of_generateST h
  refine hall.imp ?_
  intro automaton clazz hclazz
  exact ⟨name_of_wrappedClassOf hclazz, eachOnce_of_wrappedClassOf hdecl hmethods hclazz⟩

/-- `fun File.open(name: File): File` -/
def openFile : FunctionDecl String where
  entity := "File"
  name := "open"
  returnValue := some "File"

/-- `fun File.create(): File` -/
def createFile : FunctionDecl String where
  entity := "File"
  name := "create"
  returnValue := some "File"

/-- Files with these shifts. -/
def filesWith (shifts : List Shift) : LibraryDecl String where
  name := "files"
  automata := [{ name := "File", shifts }]
  types := [{ semanticType := "File", codeType := "File" }]
  functions := [openFile, createFile, closeFile]

/-- Files are opened and closed. -/
def onceShifts : List Shift := [⟨"Created", ["open"]⟩, ⟨"Opened", ["close"]⟩]

/-- Files are opened or created, and closed from two states. -/
def twiceShifts : List Shift :=
  [⟨"Created", ["open"]⟩, ⟨"Created", ["create"]⟩, ⟨"Opened", ["close"]⟩, ⟨"Locked", ["close"]⟩]

/-- The rule at files that are opened and closed: their class has both functions, once. -/
theorem eachOnce_files : ∃ out clazz automaton, generateST namedTypes false (filesWith onceShifts) "kotlin" = some out ∧
    out.wrappedClasses = [clazz] ∧ (filesWith onceShifts).automata = [automaton] ∧
      EachOnce namedTypes false (filesWith onceShifts) automaton clazz := by
  obtain ⟨out, hout⟩ : ∃ out, generateST namedTypes false (filesWith onceShifts) "kotlin" = some out := ⟨_, rfl⟩
  have hall := eachOnce_iff namedTypes false _ "kotlin" (by decide) hout
  obtain ⟨clazz, classes, ⟨-, hiff⟩, hnil, hclasses⟩ := List.forall₂_cons_left_iff.mp hall
  obtain rfl := List.forall₂_nil_left_iff.mp hnil
  exact ⟨out, clazz, _, hout, hclasses, rfl, hiff.mpr ⟨by decide, by decide, by decide⟩⟩

/-- Where they are opened or created, and closed from two states, the class has no constructor, and `close` twice. -/
theorem not_eachOnce : ((filesWith twiceShifts).functions.map (·.name)).Nodup ∧
    ∃ out clazz automaton, generateST namedTypes false (filesWith twiceShifts) "kotlin" = some out ∧
      out.wrappedClasses = [clazz] ∧ (filesWith twiceShifts).automata = [automaton] ∧ automaton.extendable = false ∧
        clazz.constructor = none ∧ clazz.methods.map (·.name) = ["close", "close"] ∧
          ¬EachOnce namedTypes false (filesWith twiceShifts) automaton clazz := by
  refine ⟨by decide, _, _, _, rfl, rfl, rfl, rfl, rfl, rfl, ?_⟩
  intro h
  obtain ⟨method, -, hmembers⟩ := h closeFile (by simp [filesWith]) ⟨⟨"Opened", ["close"]⟩, by simp [twiceShifts], by simp [closeFile]⟩
  have hlength := congrArg List.length (hmembers _ List.mem_cons_self)
  cases hlength

end LibraryLink.Generator
