import LibraryLink.KotlinRequests
import Mathlib.Data.List.Forall2

/-!
# The caching exchange

`CachingProcessDataExchange` of `ProcessDataExchange.kt`: a queue of requests that a cache manager predicted, with the responses
that the backend gave to them in a batch. A request equal to the head of the queue gets the response kept there; any other one
clears the queue.

The backend and the cache manager are parameters, each with a state of its own.
-/

namespace LibraryLink.Kotlin

variable {ω κ A R : Type}

/-- A backend that executes a list of requests in order and returns one response for each. `log` is what it has executed, with
the responses. -/
structure Backend (ω A R : Type) where
  makeRequest : Request A → ω → R × ω
  makeRequests : List (Request A) → ω → List R × ω
  log : ω → List (Request A × R)
  log_makeRequest : ∀ r w, log (makeRequest r w).2 = log w ++ [(r, (makeRequest r w).1)]
  length_makeRequests : ∀ l w, (makeRequests l w).1.length = l.length
  log_makeRequests : ∀ l w, log (makeRequests l w).2 = log w ++ l.zip (makeRequests l w).1

/-- `interface CacheManager` -/
structure CacheManager (κ A : Type) where
  getPrefetchRequests : Request A → κ → List (Request A) × κ

/-- `getPrefetchRequests(r)` is the empty list, or its head equals `r`. -/
def CacheManager.StartsWithRequest [DecidableEq A] (manager : CacheManager κ A) : Prop :=
  ∀ r k, (manager.getPrefetchRequests r k).1 = [] ∨
    ∃ first rest, (manager.getPrefetchRequests r k).1 = first :: rest ∧ first.equals r = true

/-- `class NoopCacheManager` -/
def noopCacheManager : CacheManager Unit A where
  getPrefetchRequests _ k := ([], k)

/-- An element of `currentSequence`; `place` records where the backend's log has it. -/
structure Prefetched (A R : Type) where
  place : Nat
  request : Request A
  response : R

/-- The entry of the log. -/
def Prefetched.entry (e : Prefetched A R) : Request A × R := (e.request, e.response)

/-- The elements that a batch puts in the queue, from a place of the log on. -/
def prefetched (place : Nat) (l : List (Request A × R)) : List (Prefetched A R) :=
  (l.zipIdx place).map fun e => ⟨e.2, e.1.1, e.1.2⟩

/-- `class CachingProcessDataExchange`. `discarded` records the places of the elements that a mismatch took from the queue. -/
structure CachingProcessDataExchange (ω κ A R : Type) where
  backend : ω
  cacheManager : κ
  currentSequence : List (Prefetched A R) := []
  discarded : List Nat := []

namespace CachingProcessDataExchange

/-- The branch for a request whose response is not in the queue, which is empty; none where `poll()` gives null. -/
def fetch (backend : Backend ω A R) (manager : CacheManager κ A) (request : Request A)
    (s : CachingProcessDataExchange ω κ A R) : Option (R × CachingProcessDataExchange ω κ A R) :=
  let list := manager.getPrefetchRequests request s.cacheManager
  if list.1.isEmpty then
    let response := backend.makeRequest request s.backend
    some (response.1, { s with backend := response.2, cacheManager := list.2 })
  else
    let newElements := backend.makeRequests list.1 s.backend
    match prefetched (backend.log s.backend).length (list.1.zip newElements.1) with
    | [] => none
    | first :: rest =>
      some (first.response, { s with backend := newElements.2, cacheManager := list.2, currentSequence := rest })

/-- `makeRequest` -/
def makeRequest [DecidableEq A] (backend : Backend ω A R) (manager : CacheManager κ A) (request : Request A)
    (s : CachingProcessDataExchange ω κ A R) : Option (R × CachingProcessDataExchange ω κ A R) :=
  match s.currentSequence with
  | [] => fetch backend manager request s
  | cached :: rest =>
    if cached.request.equals request then some (cached.response, { s with currentSequence := rest })
    else
      fetch backend manager request { s with
        currentSequence := [], discarded := s.discarded ++ (cached :: rest).map Prefetched.place }

/-- A sequence of calls of `makeRequest`: the responses, and the state. -/
def makeAll [DecidableEq A] (backend : Backend ω A R) (manager : CacheManager κ A) :
    List (Request A) → CachingProcessDataExchange ω κ A R → Option (List R × CachingProcessDataExchange ω κ A R)
  | [], s => some ([], s)
  | request :: requests, s => do
    let (response, s) ← makeRequest backend manager request s
    let (responses, s) ← makeAll backend manager requests s
    return (response :: responses, s)

/-- The places of the log whose entries are of no request of the client: discarded, or still in the queue. -/
def surplus (s : CachingProcessDataExchange ω κ A R) : List Nat := s.discarded ++ s.currentSequence.map Prefetched.place

end CachingProcessDataExchange

/-- The entries of a log from a place on, without those at some places. -/
def without {E : Type} (places : List Nat) (start : Nat) (log : List E) : List E :=
  (((log.drop start).zipIdx start).filter fun e => e.2 ∉ places).map Prod.fst

end LibraryLink.Kotlin
