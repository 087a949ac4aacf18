import LibraryLink.CachingExchange

/-!
# The caching exchange refines the client's sequence of requests

Without the entries that were discarded or are still in the queue, the log of the backend is the client's sequence of requests,
and the client got the responses of these entries, in order. The queue is always the end of the log: it is filled from the last
batch, and nothing is executed before it is empty.
-/

namespace LibraryLink.Kotlin

variable {ω κ A R E : Type}

/-! ## Entries at some places of a list -/

/-- The elements of a list whose places, counted from `start` on, are not among some places. -/
def keep (places : List Nat) (start : Nat) (l : List E) : List E :=
  ((l.zipIdx start).filter fun e => e.2 ∉ places).map Prod.fst

theorem without_eq_keep (places : List Nat) (start : Nat) (log : List E) :
    without places start log = keep places start (log.drop start) := rfl

theorem keep_append (places : List Nat) (start : Nat) (l l' : List E) :
    keep places start (l ++ l') = keep places start l ++ keep places (start + l.length) l' := by
  unfold keep
  rw [List.zipIdx_append, List.filter_append, List.map_append]

/-- Only the places of the list matter. -/
theorem keep_congr {places places' : List Nat} {start : Nat} {l : List E}
    (h : ∀ i, start ≤ i → i < start + l.length → (i ∈ places ↔ i ∈ places')) :
    keep places start l = keep places' start l := by
  unfold keep
  congr 1
  refine List.filter_congr ?_
  intro e he
  obtain ⟨hge, hlt, -⟩ := List.mem_zipIdx he
  exact decide_eq_decide.mpr (not_congr (h e.2 hge (by omega)))

/-- A list all of whose places are left out. -/
theorem keep_of_forall_mem {places : List Nat} {start : Nat} {l : List E}
    (h : ∀ i, start ≤ i → i < start + l.length → i ∈ places) : keep places start l = [] := by
  unfold keep
  rw [List.map_eq_nil_iff, List.filter_eq_nil_iff]
  intro e he
  obtain ⟨hge, hlt, -⟩ := List.mem_zipIdx he
  simp [h e.2 hge (by omega)]

/-- An element whose place is not left out. -/
theorem keep_singleton {places : List Nat} {start : Nat} (e : E) (h : start ∉ places) : keep places start [e] = [e] := by
  simp [keep, h]

/-- What is done next is an entry of the client. -/
theorem without_append_singleton {discarded : List Nat} {start : Nat} {done : List E} (hstart : start ≤ done.length)
    (hd : ∀ i ∈ discarded, i < done.length)
    (e : E) : without discarded start (done ++ [e]) = without discarded start done ++ [e] := by
  rw [without_eq_keep, without_eq_keep, List.drop_append_of_le_length hstart, keep_append, List.length_drop,
    Nat.add_sub_cancel' hstart, keep_singleton e fun h => Nat.lt_irrefl _ (hd _ h)]

/-- A queue that is discarded leaves the entries of the client as they are. -/
theorem without_append_discarded (discarded : List Nat) {start : Nat} {done : List E} (hstart : start ≤ done.length)
    (l : List E) :
    without (discarded ++ List.range' done.length l.length) start (done ++ l) = without discarded start done := by
  rw [without_eq_keep, without_eq_keep, List.drop_append_of_le_length hstart, keep_append, List.length_drop,
    Nat.add_sub_cancel' hstart]
  have hqueue : keep (discarded ++ List.range' done.length l.length) done.length l = [] := by
    refine keep_of_forall_mem ?_
    intro i hge hlt
    exact List.mem_append_right _ (List.mem_range'_1.mpr ⟨hge, hlt⟩)
  rw [hqueue, List.append_nil]
  refine keep_congr ?_
  intro i hge hlt
  rw [List.length_drop, Nat.add_sub_cancel' hstart] at hlt
  rw [List.mem_append, List.mem_range'_1]
  exact or_iff_left fun h => absurd h.1 (Nat.not_le.mpr hlt)

/-! ## The elements of a batch -/

@[simp] theorem length_prefetched (place : Nat) (l : List (Request A × R)) : (prefetched place l).length = l.length := by
  simp [prefetched]

@[simp] theorem entry_prefetched (place : Nat) (l : List (Request A × R)) :
    (prefetched place l).map Prefetched.entry = l := by
  unfold prefetched
  rw [List.map_map]
  exact List.zipIdx_map_fst place l

@[simp] theorem place_prefetched (place : Nat) (l : List (Request A × R)) :
    (prefetched place l).map Prefetched.place = List.range' place l.length := by
  unfold prefetched
  rw [List.map_map]
  exact List.zipIdx_map_snd place l

/-- A manager that predicts nothing. -/
theorem startsWithRequest_noop [DecidableEq A] : (noopCacheManager : CacheManager Unit A).StartsWithRequest := by
  intro r k
  exact Or.inl rfl

namespace CachingProcessDataExchange

/-! ## The invariant -/

/-- The log is what was done, and after it the queue, in place; the discarded entries are among what was done, and the others
from a place on are equal to the client's requests and have the responses that the client got. -/
structure Follows [DecidableEq A] (backend : Backend ω A R) (start : Nat) (requests : List (Request A)) (responses : List R)
    (done : List (Request A × R)) (s : CachingProcessDataExchange ω κ A R) : Prop where
  log : backend.log s.backend = done ++ s.currentSequence.map Prefetched.entry
  start_le : start ≤ done.length
  places : s.currentSequence.map Prefetched.place = List.range' done.length s.currentSequence.length
  discarded : ∀ i ∈ s.discarded, i < done.length
  requests : List.Forall₂ (fun e r => e.1.equals r = true) (without s.discarded start done) requests
  responses : (without s.discarded start done).map Prod.snd = responses

variable [DecidableEq A] {backend : Backend ω A R} {manager : CacheManager κ A} {start : Nat} {requests : List (Request A)}
  {responses : List R} {done : List (Request A × R)} {s : CachingProcessDataExchange ω κ A R}

/-- What the invariant says of an element that was executed or taken from the queue for a request. -/
theorem Follows.snoc (h : Follows backend start requests responses done s) {s' : CachingProcessDataExchange ω κ A R}
    {request : Request A} (e : Request A × R) (he : e.1.equals request = true) (hdiscarded : s'.discarded = s.discarded)
    (hlog : backend.log s'.backend = done ++ [e] ++ s'.currentSequence.map Prefetched.entry)
    (hplaces : s'.currentSequence.map Prefetched.place = List.range' (done.length + 1) s'.currentSequence.length) :
    Follows backend start (requests ++ [request]) (responses ++ [e.2]) (done ++ [e]) s' := by
  have hlength : (done ++ [e]).length = done.length + 1 := List.length_append
  have hkept := without_append_singleton h.start_le h.discarded e
  refine ⟨hlog, by have := h.start_le; omega, by rw [hlength]; exact hplaces, ?_, ?_, ?_⟩
  · intro i hi
    rw [hdiscarded] at hi
    have := h.discarded i hi
    omega
  · rw [hdiscarded, hkept]
    exact List.rel_append h.requests (.cons he .nil)
  · rw [hdiscarded, hkept, List.map_append, h.responses]
    rfl

/-- The branch for a request that is not in the queue executes an entry for it. -/
theorem Follows.fetch (hm : manager.StartsWithRequest) (h : Follows backend start requests responses done s)
    (hempty : s.currentSequence = []) (request : Request A) :
    ∃ response s' e, fetch backend manager request s = some (response, s') ∧
      Follows backend start (requests ++ [request]) (responses ++ [response]) (done ++ [e]) s' := by
  have hlog : backend.log s.backend = done := by
    rw [h.log, hempty, List.map_nil, List.append_nil]
  unfold CachingProcessDataExchange.fetch
  rcases hm request s.cacheManager with hnil | ⟨first, rest, hlist, hfirst⟩
  · simp only [hnil, List.isEmpty_nil, if_true]
    refine ⟨_, _, (request, (backend.makeRequest request s.backend).1), rfl,
      h.snoc (request, _) request.equals_self rfl ?_ ?_⟩
    · rw [backend.log_makeRequest, hlog, hempty, List.map_nil, List.append_nil]
    · rw [hempty]
      rfl
  · -- the batch has a response for its first request, and what follows it is the queue
    obtain ⟨response, others, hnew⟩ : ∃ response others, (backend.makeRequests (first :: rest) s.backend).1 = response :: others :=
      List.exists_cons_of_length_eq_add_one (backend.length_makeRequests (first :: rest) s.backend)
    simp only [hlist, List.isEmpty_cons, Bool.false_eq_true, if_false, hnew, List.zip_cons_cons, hlog]
    have htail : prefetched done.length ((first, response) :: rest.zip others) =
        ⟨done.length, first, response⟩ :: prefetched (done.length + 1) (rest.zip others) := rfl
    rw [htail]
    refine ⟨_, _, (first, response), rfl, h.snoc (first, response) hfirst rfl ?_ ?_⟩
    · rw [backend.log_makeRequests, hlog, hnew, entry_prefetched, List.zip_cons_cons, List.append_assoc]
      rfl
    · rw [place_prefetched, length_prefetched]

/-- A call of `makeRequest` takes an entry of the log for the request and returns its response. -/
theorem Follows.makeRequest (hm : manager.StartsWithRequest) (h : Follows backend start requests responses done s)
    (request : Request A) :
    ∃ response s' done', makeRequest backend manager request s = some (response, s') ∧
      Follows backend start (requests ++ [request]) (responses ++ [response]) done' s' := by
  unfold CachingProcessDataExchange.makeRequest
  cases hqueue : s.currentSequence with
  | nil =>
    obtain ⟨response, s', e, hfetch, h'⟩ := h.fetch hm hqueue request
    exact ⟨response, s', _, hfetch, h'⟩
  | cons cached rest =>
    have hlog := h.log
    have hplaces := h.places
    rw [hqueue] at hlog hplaces
    simp only
    split
    · rename_i hequal
      refine ⟨_, _, _, rfl, h.snoc cached.entry hequal rfl ?_ ?_⟩
      · rw [hlog, List.append_assoc]
        rfl
      · exact (List.cons.inj hplaces).2
    · -- the whole queue is discarded
      have hlength : (cached :: rest).length = ((cached :: rest).map Prefetched.entry).length := (List.length_map _).symm
      have hcleared : Follows backend start requests responses (done ++ (cached :: rest).map Prefetched.entry)
          { s with currentSequence := [], discarded := s.discarded ++ (cached :: rest).map Prefetched.place } := by
        have hkept := without_append_discarded s.discarded h.start_le ((cached :: rest).map Prefetched.entry)
        rw [← hlength, ← hplaces] at hkept
        refine ⟨?_, ?_, rfl, ?_, ?_, ?_⟩
        · rw [List.map_nil, List.append_nil, hlog]
        · have := h.start_le
          rw [List.length_append]
          omega
        · intro i hi
          rw [List.length_append, ← hlength]
          rcases List.mem_append.mp hi with hi | hi
          · have := h.discarded i hi
            omega
          · rw [hplaces] at hi
            exact (List.mem_range'_1.mp hi).2
        · rw [hkept]
          exact h.requests
        · rw [hkept]
          exact h.responses
      obtain ⟨response, s', e, hfetch, h'⟩ := hcleared.fetch hm rfl request
      exact ⟨response, s', _, hfetch, h'⟩

/-- A sequence of calls does so for each of its requests. -/
theorem Follows.makeAll (hm : manager.StartsWithRequest) (more : List (Request A))
    (h : Follows backend start requests responses done s) :
    ∃ responses' s' done', makeAll backend manager more s = some (responses', s') ∧
      Follows backend start (requests ++ more) (responses ++ responses') done' s' := by
  induction more generalizing requests responses done s with
  | nil => exact ⟨[], s, done, rfl, by rw [List.append_nil, List.append_nil]; exact h⟩
  | cons request more ih =>
    obtain ⟨response, s₁, done₁, hrequest, h₁⟩ := h.makeRequest hm request
    obtain ⟨responses', s', done', hmore, h'⟩ := ih h₁
    refine ⟨response :: responses', s', done', ?_, ?_⟩
    · unfold CachingProcessDataExchange.makeAll
      rw [hrequest, Option.bind_eq_bind, Option.bind_some]
      simp only [hmore]
      rfl
    · rw [List.append_assoc, List.append_assoc] at h'
      exact h'

/-- Leaving out the queue as well leaves what was done. -/
theorem Follows.own (h : Follows backend start requests responses done s) :
    without s.surplus start (backend.log s.backend) = without s.discarded start done := by
  have hlength : s.currentSequence.length = (s.currentSequence.map Prefetched.entry).length := (List.length_map _).symm
  unfold surplus
  rw [h.log, h.places, hlength]
  exact without_append_discarded _ h.start_le _

/-- An element of the queue is in the log at its place. -/
theorem Follows.queued (h : Follows backend start requests responses done s) {e : Prefetched A R} (he : e ∈ s.currentSequence) :
    (backend.log s.backend)[e.place]? = some e.entry := by
  obtain ⟨i, hi, rfl⟩ := List.mem_iff_getElem.mp he
  have hplace : s.currentSequence[i].place = done.length + i := by
    have hget := congrArg (·[i]?) h.places
    simp only [List.getElem?_map, List.getElem?_eq_getElem hi, Option.map_some] at hget
    rw [List.getElem?_range' hi] at hget
    rw [Option.some.inj hget, Nat.one_mul]
  rw [h.log, hplace, List.getElem?_append_right (Nat.le_add_right _ _), Nat.add_sub_cancel_left, List.getElem?_map,
    List.getElem?_eq_getElem hi]
  rfl

end CachingProcessDataExchange

open CachingProcessDataExchange

/-- For every backend, every cache manager whose lists are empty or start with the request, and every sequence of requests: each
call returns, and the log since the start, without the entries that were discarded or are in the queue, equals the client's
sequence position by position and has the responses that the client got. -/
theorem caching_refines [DecidableEq A] (backend : Backend ω A R) (manager : CacheManager κ A) (hm : manager.StartsWithRequest)
    (w : ω) (k : κ) (requests : List (Request A)) :
    ∃ responses s, makeAll backend manager requests ⟨w, k, [], []⟩ = some (responses, s) ∧
      List.Forall₂ (fun e r => e.1.equals r = true) (without s.surplus (backend.log w).length (backend.log s.backend)) requests ∧
      (without s.surplus (backend.log w).length (backend.log s.backend)).map Prod.snd = responses ∧
      ∀ e ∈ s.currentSequence, (backend.log s.backend)[e.place]? = some e.entry := by
  have hstart : Follows backend (backend.log w).length [] [] (backend.log w) ⟨w, k, [], []⟩ := by
    have hnone : without [] (backend.log w).length (backend.log w) = [] := by
      rw [without_eq_keep, List.drop_length]
      rfl
    refine ⟨(List.append_nil _).symm, Nat.le_refl _, rfl, nofun, ?_, ?_⟩
    · rw [hnone]
      exact .nil
    · rw [hnone]
      rfl
  obtain ⟨responses, s, done, hrun, h⟩ := hstart.makeAll hm requests
  rw [List.nil_append, List.nil_append] at h
  refine ⟨responses, s, hrun, ?_, ?_, fun e he => h.queued he⟩
  · rw [h.own]
    exact h.requests
  · rw [h.own]
    exact h.responses

/-- The requests of a list executed one after the other, on a state and the log. -/
def executeAll (execute : Request A → ω → R × ω) : List (Request A) → ω × List (Request A × R) → List R × ω × List (Request A × R)
  | [], w => ([], w)
  | r :: l, w =>
    let first := execute r w.1
    let others := executeAll execute l (first.2, w.2 ++ [(r, first.1)])
    (first.1 :: others.1, others.2)

theorem executeAll_eq (execute : Request A → ω → R × ω) (l : List (Request A)) (w : ω × List (Request A × R)) :
    (executeAll execute l w).1.length = l.length ∧
      (executeAll execute l w).2.2 = w.2 ++ l.zip (executeAll execute l w).1 := by
  induction l generalizing w with
  | nil => exact ⟨rfl, (List.append_nil _).symm⟩
  | cons r l ih =>
    obtain ⟨hlength, hlog⟩ := ih ((execute r w.1).2, w.2 ++ [(r, (execute r w.1).1)])
    refine ⟨congrArg (· + 1) hlength, ?_⟩
    rw [executeAll, hlog, List.append_assoc]
    rfl

/-- A backend that executes the requests of a list one after the other. -/
def Backend.ofExecute (execute : Request A → ω → R × ω) : Backend (ω × List (Request A × R)) A R where
  makeRequest r w := ((execute r w.1).1, (execute r w.1).2, w.2 ++ [(r, (execute r w.1).1)])
  makeRequests := executeAll execute
  log := Prod.snd
  log_makeRequest _ _ := rfl
  length_makeRequests l w := (executeAll_eq execute l w).1
  log_makeRequests l w := (executeAll_eq execute l w).2

/-- A manager that predicts the imports of `y` and of `z` after the import of `x`, and nothing else. -/
def afterX : CacheManager Unit String where
  getPrefetchRequests r k :=
    if r.equals (.importation { importedName := "x" }) then
      ([r, .importation { importedName := "y" }, .importation { importedName := "z" }], k)
    else ([], k)

theorem startsWithRequest_afterX : afterX.StartsWithRequest := by
  intro r k
  unfold afterX
  dsimp only
  split
  · exact Or.inr ⟨r, _, rfl, r.equals_self⟩
  · exact Or.inl rfl

/-- The rule at a hit, a mismatch that discards an element, and a request that nothing was predicted for. -/
theorem caching_refines_imports :
    let backend : Backend (Nat × List (Request String × Nat)) String Nat := .ofExecute fun _ w => (w, w + 1)
    let requests : List (Request String) := ["x", "y", "w"].map fun name => .importation { importedName := name }
    ∃ responses s, makeAll backend afterX requests ⟨(0, []), (), [], []⟩ = some (responses, s) ∧
      List.Forall₂ (fun e r => e.1.equals r = true) (without s.surplus 0 (backend.log s.backend)) requests ∧
      (without s.surplus 0 (backend.log s.backend)).map Prod.snd = responses ∧
      ∀ e ∈ s.currentSequence, (backend.log s.backend)[e.place]? = some e.entry :=
  caching_refines _ afterX startsWithRequest_afterX (0, []) () _

end LibraryLink.Kotlin
