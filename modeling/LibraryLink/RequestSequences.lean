import LibraryLink.LinkCache

/-!
# What a `DynamicCacheManager` records

`addToSequence` keeps the method calls it is given in `currentSequence` as long as each is allowed after the one before. A call that
is not allowed, or that finds `MAX_SIZE` of them, ends the sequence: if it has more than one call it goes into `requestSequences`,
under its first call, and the new call starts the next one.
-/

namespace LibraryLink.Kotlin

variable {A : Type}

/-- `class DynamicCacheManager`, with `requestSequences`: its keys, each with its value. -/
structure RecordingCacheManager (A : Type) extends DynamicCacheManager A where
  requestSequences : List (MethodCallRequest A × List (MethodCallRequest A)) := []

namespace RecordingCacheManager

/-- `==` of two method calls. -/
def equals [DecidableEq A] (r r' : MethodCallRequest A) : Bool := (Request.methodCall r).equals (.methodCall r')

/-- `+=` on `requestSequences`: a key that is equal to the new one stays, and gets the new value. -/
def put [DecidableEq A] (key : MethodCallRequest A) (value : List (MethodCallRequest A)) :
    List (MethodCallRequest A × List (MethodCallRequest A)) → List (MethodCallRequest A × List (MethodCallRequest A))
  | [] => [(key, value)]
  | e :: es => if equals key e.1 then (e.1, value) :: es else e :: put key value es

/-- `if (currentSequence.size > 1) requestSequences += currentSequence.first() to currentSequence.toList()` -/
def flush [DecidableEq A] (m : RecordingCacheManager A) : List (MethodCallRequest A × List (MethodCallRequest A)) :=
  match m.currentSequence with
  | first :: second :: rest => put first (first :: second :: rest) m.requestSequences
  | _ => m.requestSequences

/-- `addToSequence` -/
def addToSequence [DecidableEq A] (request : Request A) (m : RecordingCacheManager A) : RecordingCacheManager A :=
  match request with
  | .methodCall r =>
    match m.currentSequence.getLast? with
    | none => { m with currentSequence := [r] }
    | some last =>
      if m.allowedMethodCallSequences.contains (last.methodName, r.methodName) &&
          m.currentSequence.length < DynamicCacheManager.maxSize then
        { m with currentSequence := m.currentSequence ++ [r] }
      else { m with currentSequence := [r], requestSequences := m.flush }
  | _ => m

/-- A manager that has just been made, with the pairs of its file. -/
def start (allowed : List (String × String)) : RecordingCacheManager A := { allowedMethodCallSequences := allowed }

/-- The manager after some requests. -/
def addAll [DecidableEq A] (requests : List (Request A)) (m : RecordingCacheManager A) : RecordingCacheManager A :=
  requests.foldl (fun m request => m.addToSequence request) m

/-- `request as? MethodCallRequest` -/
def methodCall? : Request A → Option (MethodCallRequest A)
  | .methodCall r => some r
  | _ => none

/-- The method calls among the requests. -/
def methodCalls (requests : List (Request A)) : List (MethodCallRequest A) := requests.filterMap methodCall?

/-- The method of the one call may be followed by that of the other. -/
def Follows (allowed : List (String × String)) (r r' : MethodCallRequest A) : Prop :=
  (r.methodName, r'.methodName) ∈ allowed

/-- The calls occur one after another in the history, each allowed after the one before, and the call that came after them could
not be added: it is not allowed after the last, or there are `MAX_SIZE` of them. -/
structure Maximal (allowed : List (String × String)) (history calls : List (MethodCallRequest A)) : Prop where
  chain : calls.IsChain (Follows allowed)
  atLeastTwo : 2 ≤ calls.length
  atMost : calls.length ≤ DynamicCacheManager.maxSize
  occurs : ∃ before next after, history = before ++ calls ++ next :: after ∧
    ((∃ last ∈ calls.getLast?, ¬ Follows allowed last next) ∨ calls.length = DynamicCacheManager.maxSize)

end RecordingCacheManager

end LibraryLink.Kotlin
