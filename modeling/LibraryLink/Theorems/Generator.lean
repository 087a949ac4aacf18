import LibraryLink.Generator
import Mathlib.Data.List.Forall2
import Mathlib.Data.List.Induction

/-!
# Which function a class gets

`generateST` keeps the methods of all functions of a library in one map, by the name of the function alone. So a class gets the
method of the last function with a name, of whatever entity; it is the automaton's own if and only if no function with that name
is declared after it.
-/

namespace LibraryLink.Generator

open Tables (lookup_eq_some_of_mem mem_of_lookup)

variable {T : Type} {parser : ModelParser T} {explicitSelf : Bool} {types : List (TypeDecl T)}

/-! ## The method of a function -/

/-- The method of a function has the data of its declaration. -/
structure Carries (parser : ModelParser T) (explicitSelf : Bool) (types : List (TypeDecl T)) (function : FunctionDecl T)
    (method : Method) : Prop where
  name : method.name = function.name
  type : method.request.type = parser.typeName function.entity
  args : (withSelfTypeDecl parser types function.entity).bind (generateArgs parser explicitSelf function.args) = some method.args
  returnValue : (withSelfTypeDecl parser types function.entity).bind (fun typesWithSelf =>
    returnType parser typesWithSelf function.returnValue) = some method.returnValue
  referenceReturn : method.referenceReturn = (function.returnValue.map parser.isReference).getD false
  isProperty : method.request.isProperty = isProperty function
  isStatic : method.request.isStatic = isStatic parser function

theorem carries_of_methodOf {function : FunctionDecl T} {method : Method}
    (h : methodOf parser explicitSelf types function = some method) : Carries parser explicitSelf types function method := by
  obtain ⟨typesWithSelf, htypes, h⟩ := Option.bind_eq_some_iff.mp h
  obtain ⟨args, hargs, h⟩ := Option.bind_eq_some_iff.mp h
  obtain ⟨returnValue, hreturn, h⟩ := Option.bind_eq_some_iff.mp h
  obtain rfl := Option.some.inj h
  refine ⟨rfl, rfl, ?_, ?_, rfl, rfl, rfl⟩
  · rw [htypes]
    exact hargs
  · rw [htypes]
    exact hreturn

/-! ## The map of the methods -/

/-- Each name is in the map once, with a method of that name. -/
structure ByName (methods : List (String × Method)) : Prop where
  nodup : (methods.map Prod.fst).Nodup
  name : ∀ e ∈ methods, e.2.name = e.1

/-- Replacing the method of a name leaves the other names. -/
theorem lookup_replace_of_ne {method : Method} {name : String} (hname : name ≠ method.name) (methods : List (String × Method)) :
    (methods.map fun e => if e.1 = method.name then (method.name, method) else e).lookup name = methods.lookup name := by
  induction methods with
  | nil => rfl
  | cons e methods ih =>
    rw [List.map_cons, List.lookup_cons, List.lookup_cons, ih]
    by_cases he : e.1 = method.name
    · simp [he, beq_eq_false_iff_ne.mpr hname]
    · simp [he]

/-- A name that is in the map has the method that it is replaced with. -/
theorem lookup_replace_self {method : Method} {methods : List (String × Method)}
    (h : (methods.any fun e => e.1 == method.name) = true) :
    (methods.map fun e => if e.1 = method.name then (method.name, method) else e).lookup method.name = some method := by
  induction methods with
  | nil => cases h
  | cons e methods ih =>
    rw [List.map_cons, List.lookup_cons]
    by_cases he : e.1 = method.name
    · simp [he]
    · have hany : (methods.any fun e => e.1 == method.name) = true := by simpa [he] using h
      simp [he, ih hany, beq_eq_false_iff_ne.mpr (Ne.symm he)]

/-- A name that is not in the map is not found. -/
theorem lookup_eq_none {methods : List (String × Method)} {name : String}
    (h : ¬(methods.any fun e => e.1 == name) = true) : methods.lookup name = none := by
  induction methods with
  | nil => rfl
  | cons e methods ih =>
    rw [List.any_cons, Bool.or_eq_true, not_or] at h
    have hne : name ≠ e.1 := fun heq => h.1 (beq_iff_eq.mpr heq.symm)
    rw [List.lookup_cons, beq_eq_false_iff_ne.mpr hne]
    exact ih h.2

/-- A method that is put in the map is found under its name, and the others stay. -/
theorem lookup_put (methods : List (String × Method)) (method : Method) (name : String) :
    (put methods method).lookup name = if name = method.name then some method else methods.lookup name := by
  unfold put
  by_cases hany : (methods.any fun e => e.1 == method.name) = true
  · rw [if_pos hany]
    by_cases hname : name = method.name
    · rw [if_pos hname, hname, lookup_replace_self hany]
    · rw [if_neg hname, lookup_replace_of_ne hname]
  · rw [if_neg hany, List.lookup_append]
    by_cases hname : name = method.name
    · rw [if_pos hname, hname, lookup_eq_none hany]
      simp
    · rw [if_neg hname]
      simp [List.lookup_cons, beq_eq_false_iff_ne.mpr hname]

theorem ByName.put {methods : List (String × Method)} (h : ByName methods) (method : Method) :
    ByName (Generator.put methods method) := by
  unfold Generator.put
  split
  · have hkeys : (methods.map fun e => if e.1 = method.name then (method.name, method) else e).map Prod.fst =
        methods.map Prod.fst := by
      rw [List.map_map]
      refine List.map_congr_left ?_
      intro e _
      by_cases he : e.1 = method.name
      · simp [he]
      · simp [he]
    refine ⟨hkeys ▸ h.nodup, ?_⟩
    intro e he
    obtain ⟨f, hf, rfl⟩ := List.mem_map.mp he
    by_cases hname : f.1 = method.name
    · rw [if_pos hname]
    · rw [if_neg hname]
      exact h.name f hf
  · rename_i hany
    refine ⟨?_, ?_⟩
    · rw [List.map_append, List.map_singleton]
      refine List.nodup_append.mpr ⟨h.nodup, List.nodup_singleton _, ?_⟩
      intro key hkey key' hkey' heq
      obtain ⟨e, he, rfl⟩ := List.mem_map.mp hkey
      rw [List.mem_singleton.mp hkey'] at heq
      exact hany (List.any_eq_true.mpr ⟨e, he, beq_iff_eq.mpr heq⟩)
    · intro e he
      rcases List.mem_append.mp he with he | he
      · exact h.name e he
      · rw [List.mem_singleton.mp he]

/-- The last function with a name. -/
def lastNamed (functions : List (FunctionDecl T)) (name : String) : Option (FunctionDecl T) :=
  functions.reverse.find? fun f => f.name = name

theorem lastNamed_append (functions : List (FunctionDecl T)) (function : FunctionDecl T) (name : String) :
    lastNamed (functions ++ [function]) name = if function.name = name then some function else lastNamed functions name := by
  unfold lastNamed
  rw [List.reverse_append, List.reverse_singleton, List.singleton_append, List.find?_cons]
  by_cases hname : function.name = name
  · simp [hname]
  · simp [hname]

/-- A function that no function with its name follows is the last one with this name. -/
theorem lastNamed_of_last {before after : List (FunctionDecl T)} {function : FunctionDecl T}
    (h : ∀ g ∈ after, g.name ≠ function.name) : lastNamed (before ++ function :: after) function.name = some function := by
  unfold lastNamed
  rw [List.reverse_append, List.reverse_cons, List.append_assoc, List.find?_append]
  have hnone : (after.reverse.find? fun f => f.name = function.name) = none := by
    rw [List.find?_eq_none]
    intro g hg
    simpa using h g (List.mem_reverse.mp hg)
  rw [hnone]
  simp

/-- Where functions with its name follow, the last of them is. -/
theorem lastNamed_of_not_last (before : List (FunctionDecl T)) {after : List (FunctionDecl T)} {function : FunctionDecl T}
    (h : ¬∀ g ∈ after, g.name ≠ function.name) :
    ∃ g ∈ after, g.name = function.name ∧ lastNamed (before ++ function :: after) function.name = some g := by
  push Not at h
  obtain ⟨g, hg, hname⟩ := h
  unfold lastNamed
  rw [List.reverse_append, List.reverse_cons, List.append_assoc, List.find?_append]
  cases hfind : after.reverse.find? fun f => f.name = function.name with
  | none =>
    have hnot := List.find?_eq_none.mp hfind g (List.mem_reverse.mpr hg)
    simp [hname] at hnot
  | some g' =>
    have hname' := List.find?_some hfind
    exact ⟨g', List.mem_reverse.mp (List.mem_of_find?_eq_some hfind), by simpa using hname', rfl⟩

/-- The map has under each name the method of the last function with this name. -/
theorem allMethods_eq_some {functions : List (FunctionDecl T)} {methods : List (String × Method)}
    (h : allMethods parser explicitSelf types functions = some methods) :
    ByName methods ∧ ∀ name, methods.lookup name = (lastNamed functions name).bind (methodOf parser explicitSelf types) := by
  induction functions using List.reverseRecOn generalizing methods with
  | nil =>
    obtain rfl := Option.some.inj h
    exact ⟨⟨List.nodup_nil, List.forall_mem_nil _⟩, fun _ => rfl⟩
  | append_singleton functions function ih =>
    unfold allMethods at h ih
    rw [List.foldlM_append] at h
    obtain ⟨methods', hmethods, h⟩ := Option.bind_eq_some_iff.mp h
    rw [List.foldlM_cons] at h
    obtain ⟨methods'', hput, h⟩ := Option.bind_eq_some_iff.mp h
    obtain rfl := Option.some.inj h
    obtain ⟨method, hmethod, rfl⟩ := Option.map_eq_some_iff.mp hput
    obtain ⟨hbyName, hlookup⟩ := ih hmethods
    refine ⟨hbyName.put method, ?_⟩
    intro name
    have hname : method.name = function.name := (carries_of_methodOf hmethod).name
    rw [lookup_put, lastNamed_append, hlookup name, hname]
    by_cases heq : name = function.name
    · rw [if_pos heq, if_pos heq.symm, Option.bind_some, hmethod]
    · rw [if_neg heq, if_neg (Ne.symm heq)]

/-! ## The classes -/

/-- The methods of some names are found under these names. -/
theorem lookup_of_mem_mapM {methods : List (String × Method)} {names : List String} {found : List Method}
    (h : names.mapM (fun name => methods.lookup name) = some found) :
    (∀ m ∈ found, ∃ name ∈ names, methods.lookup name = some m) ∧ ∀ name ∈ names, ∃ m ∈ found, methods.lookup name = some m := by
  induction names generalizing found with
  | nil =>
    rw [List.mapM_nil] at h
    obtain rfl := Option.some.inj h
    exact ⟨List.forall_mem_nil _, List.forall_mem_nil _⟩
  | cons name names ih =>
    rw [List.mapM_cons] at h
    obtain ⟨m, hm, h⟩ := Option.bind_eq_some_iff.mp h
    obtain ⟨ms, hms, h⟩ := Option.bind_eq_some_iff.mp h
    obtain rfl := Option.some.inj h
    obtain ⟨hfound, hnames⟩ := ih hms
    refine ⟨List.forall_mem_cons.mpr ⟨⟨name, List.mem_cons_self, hm⟩, ?_⟩,
      List.forall_mem_cons.mpr ⟨⟨m, List.mem_cons_self, hm⟩, ?_⟩⟩
    · intro m' hm'
      obtain ⟨name', hname', hlookup⟩ := hfound m' hm'
      exact ⟨name', List.mem_cons_of_mem _ hname', hlookup⟩
    · intro name' hname'
      obtain ⟨m', hm', hlookup⟩ := hnames name' hname'
      exact ⟨m', List.mem_cons_of_mem _ hm', hlookup⟩

/-- `generateST` puts a method with a name into a class. -/
def Generated (clazz : WrappedClass) (name : String) (method : Method) : Prop :=
  method.name = name ∧ (method ∈ clazz.methods ∨ method ∈ clazz.builtinMethods ∨ clazz.constructor = some method)

/-- A method of a class is the one that the map has under its name. -/
theorem lookup_of_generated {methods : List (String × Method)} {automaton : Automaton T} {clazz : WrappedClass}
    (hbyName : ByName methods) (h : wrappedClassOf parser methods automaton = some clazz) {name : String} {method : Method}
    (hm : Generated clazz name method) : methods.lookup name = some method := by
  obtain ⟨classMethods, hmethods, h⟩ := Option.bind_eq_some_iff.mp h
  obtain ⟨constructors, hconstructors, h⟩ := Option.bind_eq_some_iff.mp h
  obtain rfl := Option.some.inj h
  have hfound : ∀ shifts found, shiftMethods methods shifts = some found → method ∈ found → methods.lookup name = some method := by
    intro shifts found hshifts hmem
    obtain ⟨name', -, hlookup⟩ := (lookup_of_mem_mapM hshifts).1 method hmem
    have hname : method.name = name' := hbyName.name _ (mem_of_lookup hlookup)
    rw [← hm.1, hname]
    exact hlookup
  rcases hm.2 with hmem | hmem | hsome
  · exact hfound _ _ hmethods hmem
  · obtain ⟨e, he, rfl⟩ := List.mem_map.mp (List.mem_filter.mp hmem).1
    have hlookup := lookup_eq_some_of_mem hbyName.nodup he
    rw [← hbyName.name e he, hm.1] at hlookup
    exact hlookup
  · refine hfound _ _ hconstructors ?_
    unfold singleOrNull at hsome
    split at hsome
    · rw [← Option.some.inj hsome]
      exact List.mem_cons_self
    · cases hsome

/-- An automaton uses a function if a shift names it that does not start at `Created`, or if it is the only function of those that
do. -/
def Uses (automaton : Automaton T) (name : String) : Prop :=
  name ∈ (automaton.shifts.filter fun s => s.fromState ≠ "Created").flatMap (·.functions) ∨
    (automaton.shifts.filter fun s => s.fromState = "Created").flatMap (·.functions) = [name]

/-- The class of an automaton has a method for a function that the automaton uses. -/
theorem exists_generated {methods : List (String × Method)} {automaton : Automaton T} {clazz : WrappedClass}
    (hbyName : ByName methods) (h : wrappedClassOf parser methods automaton = some clazz) {name : String}
    (huses : Uses automaton name) : ∃ method, Generated clazz name method := by
  obtain ⟨classMethods, hmethods, h⟩ := Option.bind_eq_some_iff.mp h
  obtain ⟨constructors, hconstructors, h⟩ := Option.bind_eq_some_iff.mp h
  obtain rfl := Option.some.inj h
  rcases huses with hmem | hsingle
  · obtain ⟨m, hm, hlookup⟩ := (lookup_of_mem_mapM hmethods).2 name hmem
    exact ⟨m, hbyName.name _ (mem_of_lookup hlookup), Or.inl hm⟩
  · unfold shiftMethods at hconstructors
    rw [hsingle, List.mapM_cons, List.mapM_nil] at hconstructors
    obtain ⟨m, hlookup, hconstructors⟩ := Option.bind_eq_some_iff.mp hconstructors
    obtain rfl := Option.some.inj hconstructors
    exact ⟨m, hbyName.name _ (mem_of_lookup hlookup), Or.inr (Or.inr rfl)⟩

/-- The automata that are not extendable get their classes, in order. -/
theorem forall₂_wrappedClasses {methods : List (String × Method)} {automata : List (Automaton T)} {out out' : Output}
    (h : automata.foldlM (addAutomaton parser methods) out = some out') :
    ∃ classes, out'.wrappedClasses = out.wrappedClasses ++ classes ∧
      List.Forall₂ (fun automaton clazz => wrappedClassOf parser methods automaton = some clazz)
        (automata.filter fun a => !a.extendable) classes := by
  induction automata generalizing out with
  | nil =>
    obtain rfl := Option.some.inj h
    exact ⟨[], (List.append_nil _).symm, .nil⟩
  | cons automaton automata ih =>
    rw [List.foldlM_cons] at h
    obtain ⟨out₁, hadd, h⟩ := Option.bind_eq_some_iff.mp h
    obtain ⟨classes, hclasses, hall⟩ := ih h
    unfold addAutomaton at hadd
    by_cases hextendable : automaton.extendable = true
    · rw [if_pos hextendable] at hadd
      obtain ⟨method, -, rfl⟩ := Option.map_eq_some_iff.mp hadd
      refine ⟨classes, hclasses, ?_⟩
      simpa [hextendable] using hall
    · rw [if_neg hextendable] at hadd
      obtain ⟨clazz, hclazz, rfl⟩ := Option.map_eq_some_iff.mp hadd
      refine ⟨clazz :: classes, ?_, ?_⟩
      · rw [hclasses, List.append_assoc]
        rfl
      · have hfilter : (automaton :: automata).filter (fun a => !a.extendable) =
            automaton :: automata.filter fun a => !a.extendable := by
          simp [hextendable]
        rw [hfilter]
        exact .cons hclazz hall

/-- The classes that are generated, with the map that they are made from. -/
theorem classes_of_generateST {srcLibrary : LibraryDecl T} {destinationLanguage : String} {out : Output}
    (h : generateST parser explicitSelf srcLibrary destinationLanguage = some out) :
    ∃ methods, allMethods parser explicitSelf (parser.preprocess destinationLanguage srcLibrary).types
        (parser.preprocess destinationLanguage srcLibrary).functions = some methods ∧
      List.Forall₂ (fun automaton clazz => wrappedClassOf parser methods automaton = some clazz)
        ((parser.preprocess destinationLanguage srcLibrary).automata.filter fun a => !a.extendable) out.wrappedClasses := by
  obtain ⟨-, -, h⟩ := Option.bind_eq_some_iff.mp h
  obtain ⟨methods, hmethods, h⟩ := Option.bind_eq_some_iff.mp h
  obtain ⟨out', hout, h⟩ := Option.bind_eq_some_iff.mp h
  obtain rfl := Option.some.inj h
  obtain ⟨classes, hclasses, hall⟩ := forall₂_wrappedClasses hout
  have hclasses' : out'.wrappedClasses = classes := hclasses
  refine ⟨methods, hmethods, ?_⟩
  show List.Forall₂ _ _ out'.wrappedClasses
  rw [hclasses']
  exact hall

/-- A class has the name of its automaton. -/
theorem name_of_wrappedClassOf {methods : List (String × Method)} {automaton : Automaton T} {clazz : WrappedClass}
    (h : wrappedClassOf parser methods automaton = some clazz) : clazz.name = parser.typeName automaton.name := by
  obtain ⟨_, -, h⟩ := Option.bind_eq_some_iff.mp h
  obtain ⟨_, -, h⟩ := Option.bind_eq_some_iff.mp h
  obtain rfl := Option.some.inj h
  rfl

/-- A function is declared for an entity, once: before it and after it are others. -/
structure DeclaredOnce (parser : ModelParser T) (functions : List (FunctionDecl T)) (entity : String)
    (before : List (FunctionDecl T)) (function : FunctionDecl T) (after : List (FunctionDecl T)) : Prop where
  declared : functions = before ++ function :: after
  forEntity : parser.typeName function.entity = entity
  once : ∀ g : FunctionDecl T, g ∈ before ++ after → g.name = function.name → parser.typeName g.entity ≠ entity

/-- In the class of an automaton the method of a function that is declared once for it carries the automaton's own type and
declaration if and only if no function with this name is declared after it. -/
def OwnMethods (parser : ModelParser T) (explicitSelf : Bool) (library : LibraryDecl T) (automaton : Automaton T)
    (clazz : WrappedClass) : Prop :=
  clazz.name = parser.typeName automaton.name ∧
    ∀ (before : List (FunctionDecl T)) (function : FunctionDecl T) (after : List (FunctionDecl T)),
      DeclaredOnce parser library.functions (parser.typeName automaton.name) before function after →
      (Uses automaton function.name → ∃ method, Generated clazz function.name method) ∧
        ∀ method, Generated clazz function.name method →
          (method.request.type = parser.typeName automaton.name ∧ Carries parser explicitSelf library.types function method ↔
            ∀ g ∈ after, g.name ≠ function.name)

/-- For every library that `generateST` generates something from, and every automaton of it that is not extendable, with its class:
a function declared once for the automaton has its own method there if and only if no function with its name is declared after
it. -/
theorem ownMethods (parser : ModelParser T) (explicitSelf : Bool) (srcLibrary : LibraryDecl T) (destinationLanguage : String)
    {out : Output} (h : generateST parser explicitSelf srcLibrary destinationLanguage = some out) :
    List.Forall₂ (OwnMethods parser explicitSelf (parser.preprocess destinationLanguage srcLibrary))
      ((parser.preprocess destinationLanguage srcLibrary).automata.filter fun a => !a.extendable) out.wrappedClasses := by
  obtain ⟨methods, hmethods, hall⟩ := classes_of_generateST h
  obtain ⟨hbyName, hlookup⟩ := allMethods_eq_some hmethods
  refine hall.imp ?_
  intro automaton clazz hclazz
  refine ⟨name_of_wrappedClassOf hclazz, ?_⟩
  intro before function after hdecl
  refine ⟨exists_generated hbyName hclazz, ?_⟩
  intro method hgenerated
  have hfound := lookup_of_generated hbyName hclazz hgenerated
  rw [hlookup, hdecl.declared] at hfound
  constructor
  · intro hown
    by_contra hlast
    obtain ⟨g, hg, hgname, hgLast⟩ := lastNamed_of_not_last before hlast
    rw [hgLast, Option.bind_some] at hfound
    have htype := (carries_of_methodOf hfound).type
    exact hdecl.once g (List.mem_append_right before hg) hgname (htype.symm.trans hown.1)
  · intro hlast
    rw [lastNamed_of_last hlast, Option.bind_some] at hfound
    have hcarries := carries_of_methodOf hfound
    exact ⟨hcarries.type.trans hdecl.forEntity, hcarries⟩

/-- Semantic types that are their names, and a preprocessing that changes nothing. -/
def namedTypes : ModelParser String where
  typeName := id
  isReference type := type ∉ ["Int", "Boolean", "self"]
  selfType := "self"
  get types type := types.find? fun decl => decl.semanticType = type
  preprocess _ library := library

/-- `fun File.close(file: self)` -/
def closeFile : FunctionDecl String where
  entity := "File"
  name := "close"
  args := [{ name := "file", type := "self" }]

/-- `fun Socket.close(socket: self, how: Int)` -/
def closeSocket : FunctionDecl String where
  entity := "Socket"
  name := "close"
  args := [{ name := "socket", type := "self" }, { name := "how", type := "Int" }]

/-- A model of files, which are closed. -/
def files : LibraryDecl String where
  name := "files"
  automata := [{ name := "File", shifts := [{ fromState := "Opened", functions := ["close"] }] }]
  types := [{ semanticType := "File", codeType := "File" }]
  functions := [closeFile]

/-- A model of sockets, which are closed in some way. -/
def sockets : LibraryDecl String where
  name := "sockets"
  automata := [{ name := "Socket", shifts := [{ fromState := "Connected", functions := ["close"] }] }]
  types := [{ semanticType := "Socket", codeType := "Socket" }, { semanticType := "Int", codeType := "Int" }]
  functions := [closeSocket]

/-- The rule at the model of files alone: its class has the method of its own function. -/
theorem ownMethods_files : ∃ out clazz method, generateST namedTypes false files "kotlin" = some out ∧
    out.wrappedClasses = [clazz] ∧ Generated clazz "close" method ∧ method.request.type = "File" ∧
      Carries namedTypes false files.types closeFile method := by
  obtain ⟨out, hout⟩ : ∃ out, generateST namedTypes false files "kotlin" = some out := ⟨_, rfl⟩
  have hown := ownMethods namedTypes false files "kotlin" hout
  obtain ⟨clazz, classes, hclazz, hnil, hclasses⟩ := List.forall₂_cons_left_iff.mp hown
  obtain rfl := List.forall₂_nil_left_iff.mp hnil
  have hdecl : DeclaredOnce namedTypes files.functions "File" [] closeFile [] := ⟨rfl, rfl, List.forall_mem_nil _⟩
  obtain ⟨hexists, hiff⟩ := hclazz.2 _ _ _ hdecl
  obtain ⟨method, hmethod⟩ := hexists (Or.inl (by decide))
  obtain ⟨htype, hcarries⟩ := (hiff method hmethod).mpr (List.forall_mem_nil _)
  exact ⟨out, clazz, method, hout, hclasses, hmethod, htype, hcarries⟩

/-- The two models merged: `close` is declared once for files, and the class of files has the method of sockets. -/
theorem not_ownMethods : ∃ out clazz clazz' method,
    generateST namedTypes false (mergeASTs "files" [files, sockets]) "kotlin" = some out ∧
      out.wrappedClasses = [clazz, clazz'] ∧ clazz.name = "File" ∧
        DeclaredOnce namedTypes (mergeASTs "files" [files, sockets]).functions "File" [] closeFile [closeSocket] ∧
          Generated clazz "close" method ∧ method.request.type = "Socket" ∧ method.args.map (·.name) = ["how"] := by
  refine ⟨_, _, _, _, rfl, rfl, rfl, ⟨rfl, rfl, ?_⟩, ⟨rfl, Or.inl List.mem_cons_self⟩, rfl, rfl⟩
  intro g hg _
  rw [List.mem_singleton.mp hg]
  decide

end LibraryLink.Generator
