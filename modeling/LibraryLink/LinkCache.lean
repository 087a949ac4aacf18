import LibraryLink.CachingExchange
import Mathlib.Data.List.Basic

/-!
# `LinkCache.cfg`: its writer and its reader

`main` of `LogReader.kt` reads `link.log` and writes which calls of a model follow each other; a `DynamicCacheManager` reads the
file when it is made. The edges of the model are objects of `ModelParser` that refer to each other, here through references of a
type `ρ`; their ends are states of a type `N`. What Jackson makes of a line of the log is a parameter.

`requestSequences` of the manager, which nobody reads, is that of `RecordingCacheManager`.
-/

namespace LibraryLink.Kotlin

/-! ## The model's edges -/

/-- An edge: a `CallEdge`, a `LinkedEdge`, or one of another class. -/
inductive Edge (ρ N : Type) where
  | call (methodName : String) (src dst : N) (linkedEdge : Option ρ)
  | linked (src dst : N) (edge : ρ)
  | other (src dst : N)

variable {ρ N A : Type}

def Edge.src : Edge ρ N → N
  | .call _ src _ _ => src
  | .linked src _ _ => src
  | .other src _ => src

def Edge.dst : Edge ρ N → N
  | .call _ _ dst _ => dst
  | .linked _ dst _ => dst
  | .other _ dst => dst

/-- `(edge as CallEdge).methodName` -/
def Edge.methodName : Edge ρ N → Option String
  | .call name _ _ _ => some name
  | _ => none

/-- `(edge as CallEdge).linkedEdge` -/
def Edge.linkedEdge : Edge ρ N → Option ρ
  | .call _ _ _ linkedEdge => linkedEdge
  | _ => none

/-- The edges of a library, and the objects behind the references. -/
structure Library (ρ N : Type) where
  edge : ρ → Edge ρ N
  edges : List ρ

/-! ## `LogReader` -/

namespace LogReader

/-- What `main` knows at a line of the log: `previousEdges` and what it has written. `hits` records the pairs of methods, the
earlier call first, for which it printed "HIT!!!", and `failed` says that an exception ended it. -/
structure State (ρ : Type) where
  previousEdges : List ρ := []
  written : String := ""
  hits : List (String × String) := []
  failed : Bool := false

/-- `library.edges.filterIsInstance<CallEdge>().firstOrNull { it.methodName == request.methodName }` -/
def findEdge (library : Library ρ N) (name : String) : Option ρ :=
  library.edges.find? fun e => (library.edge e).methodName == some name

/-- The method of `realEdge`; none where the cast or the `TODO()` throws. -/
def realMethod (library : Library ρ N) (previousEdge : ρ) : Option String :=
  match library.edge previousEdge with
  | .call name _ _ _ => some name
  | .linked _ _ edge => (library.edge edge).methodName
  | .other _ _ => none

/-- The body of the loop over `previousEdges`, for a call of the method `name` that starts at `src`. -/
def compare [DecidableEq N] (library : Library ρ N) (name : String) (src : N) (s : State ρ) (previousEdge : ρ) : State ρ :=
  if s.failed then s
  else if (library.edge previousEdge).dst = src then
    match realMethod library previousEdge with
    | some realName =>
      { s with written := s.written ++ (name ++ " " ++ realName), hits := s.hits ++ [(realName, name)] }
    | none => { s with failed := true }
  else s

/-- `line.startsWith("\x7b\"delete\"")` -/
def isDelete (line : String) : Bool := "\x7b\"delete\"".toList.isPrefixOf line.toList

/-- The body of the loop over the lines. `readValue` gives the method name of the request that a line is read as. -/
def readLine [DecidableEq N] (library : Library ρ N) (readValue : String → Option String) (s : State ρ) (line : String) :
    State ρ :=
  if s.failed then s
  else if isDelete line then s
  else
    match readValue line with
    | none => { s with failed := true }
    | some name =>
      match findEdge library name with
      | none => s
      | some edge =>
        let s := s.previousEdges.foldl (compare library name (library.edge edge).src) s
        if s.failed then s else { s with previousEdges := edge :: (library.edge edge).linkedEdge.toList }

/-- `main`, on the lines of `link.log` -/
def main [DecidableEq N] (library : Library ρ N) (readValue : String → Option String) (log : List String) : State ρ :=
  log.foldl (readLine library readValue) {}

end LogReader

/-! ## `DynamicCacheManager` -/

/-- A text with each of its line breaks as one `\n`. -/
def normalizeBreaks : List Char → List Char
  | '\r' :: '\n' :: text => '\n' :: normalizeBreaks text
  | '\r' :: text => '\n' :: normalizeBreaks text
  | c :: text => c :: normalizeBreaks text
  | [] => []

/-- The lines of `File.forEachLine`; after the last line break there is a line only if there is text. -/
def forEachLine (content : String) : List String :=
  let lines := (normalizeBreaks content.toList).splitOn '\n'
  (if lines.getLast? = some [] then lines.dropLast else lines).map String.ofList

/-- `line.split(" ")` -/
def split (line : String) : List String := (line.toList.splitOn ' ').map String.ofList

/-- `class DynamicCacheManager` -/
structure DynamicCacheManager (A : Type) where
  allowedMethodCallSequences : List (String × String) := []
  currentSequence : List (MethodCallRequest A) := []

namespace DynamicCacheManager

/-- `MAX_SIZE` -/
def maxSize : Nat := 5

/-- What the constructor makes of a line; none where `check` throws. -/
def readPair (line : String) : Option (String × String) :=
  match split line with
  | [first, last] => some (first, last)
  | _ => none

/-- The constructor; none where it throws. -/
def ofFile (content : String) : Option (DynamicCacheManager A) := do
  let pairs ← (forEachLine content).mapM readPair
  return { allowedMethodCallSequences := pairs }

/-- `addToSequence`; the list it returns is always empty. -/
def addToSequence (request : Request A) (m : DynamicCacheManager A) : DynamicCacheManager A :=
  match request with
  | .methodCall r =>
    match m.currentSequence.getLast? with
    | none => { m with currentSequence := [r] }
    | some last =>
      if (last.methodName, r.methodName) ∈ m.allowedMethodCallSequences ∧ m.currentSequence.length < maxSize then
        { m with currentSequence := m.currentSequence ++ [r] }
      else { m with currentSequence := [r] }
  | _ => m

/-- `getPrefetchRequests`, whose only statement that is not commented out returns the empty list -/
def cacheManager : CacheManager (DynamicCacheManager A) A where
  getPrefetchRequests _ m := ([], m)

/-- `addToSequence` lets a call of the one method be followed by a call of the other: a sequence of one call of the first is
continued by the second. -/
def Allows (m : DynamicCacheManager A) (previous next : String) : Prop :=
  ∀ r r' : MethodCallRequest A, r.methodName = previous → r'.methodName = next →
    (addToSequence (.methodCall r') { m with currentSequence := [r] }).currentSequence = [r, r']

end DynamicCacheManager

end LibraryLink.Kotlin
