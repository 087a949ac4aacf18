import LibraryLink.RequestSequences
import Mathlib.Data.List.Chain

/-!
# The sequences that a `DynamicCacheManager` records are calls that followed each other

`Recorded` is what holds of a manager and of the method calls it has been given: `currentSequence` is the end of them, and what
`requestSequences` has is in the middle of them, ended by the call that could not be added. A step only has to be seen to move the
end of the history (`Recorded.addToSequence`).
-/

namespace LibraryLink.Kotlin.RecordingCacheManager

variable {A : Type}

/-! ## The manager without its record -/

/-- What `addToSequence` asks before it adds a call. -/
theorem canBeAdded_iff {m : RecordingCacheManager A} {last r : MethodCallRequest A} :
    (m.allowedMethodCallSequences.contains (last.methodName, r.methodName) &&
        m.currentSequence.length < DynamicCacheManager.maxSize) = true ↔
      Follows m.allowedMethodCallSequences last r ∧ m.currentSequence.length < DynamicCacheManager.maxSize := by
  rw [Bool.and_eq_true, List.contains_iff_mem, decide_eq_true_iff, Follows]

/-- What is recorded does not change what the manager does. -/
theorem toDynamicCacheManager_addToSequence [DecidableEq A] (m : RecordingCacheManager A) (request : Request A) :
    (m.addToSequence request).toDynamicCacheManager = m.toDynamicCacheManager.addToSequence request := by
  cases request with
  | methodCall r =>
    simp only [addToSequence, DynamicCacheManager.addToSequence]
    cases m.currentSequence.getLast? with
    | none => rfl
    | some last =>
      rw [apply_ite RecordingCacheManager.toDynamicCacheManager]
      exact if_congr canBeAdded_iff rfl rfl
  | _ => rfl

/-! ## The entries of the map -/

/-- A method call is equal to itself. -/
theorem equals_self [DecidableEq A] (r : MethodCallRequest A) : equals r r = true := Request.equals_self _

/-- What a map has after `put` is what it had, or the new value under a key equal to the new one. -/
theorem mem_put [DecidableEq A] {key : MethodCallRequest A} {value : List (MethodCallRequest A)}
    {entries : List (MethodCallRequest A × List (MethodCallRequest A))} {e : MethodCallRequest A × List (MethodCallRequest A)}
    (he : e ∈ put key value entries) : e ∈ entries ∨ (e.2 = value ∧ equals key e.1 = true) := by
  induction entries with
  | nil =>
    obtain rfl := List.mem_singleton.mp he
    exact Or.inr ⟨rfl, equals_self key⟩
  | cons e' es ih =>
    simp only [put] at he
    split at he
    · rename_i hequal
      rcases List.mem_cons.mp he with rfl | he
      · exact Or.inr ⟨rfl, hequal⟩
      · exact Or.inl (List.mem_cons_of_mem _ he)
    · rcases List.mem_cons.mp he with rfl | he
      · exact Or.inl List.mem_cons_self
      · exact (ih he).imp_left (List.mem_cons_of_mem _)

/-- What `requestSequences` has after a sequence has ended is what it had, or the sequence, under a key equal to its first call. -/
theorem mem_flush [DecidableEq A] {m : RecordingCacheManager A} {e : MethodCallRequest A × List (MethodCallRequest A)}
    (he : e ∈ m.flush) : e ∈ m.requestSequences ∨
      (e.2 = m.currentSequence ∧ 2 ≤ m.currentSequence.length ∧ ∃ first ∈ m.currentSequence.head?, equals first e.1 = true) := by
  unfold flush at he
  split at he
  · rename_i first second rest hcurrent
    rcases mem_put he with he | ⟨hvalue, hkey⟩
    · exact Or.inl he
    · refine Or.inr ⟨by rw [hvalue, hcurrent], ?_, first, by rw [hcurrent]; rfl, hkey⟩
      rw [hcurrent]
      exact Nat.le_add_left 2 rest.length
  · exact Or.inl he

/-! ## The history -/

/-- A sequence that occurs in a history occurs in a longer one. -/
theorem Maximal.append {allowed : List (String × String)} {history calls : List (MethodCallRequest A)}
    (h : Maximal allowed history calls) (more : List (MethodCallRequest A)) : Maximal allowed (history ++ more) calls := by
  obtain ⟨before, next, after, rfl, hend⟩ := h.occurs
  refine ⟨h.chain, h.atLeastTwo, h.atMost, before, next, after ++ more, ?_, hend⟩
  rw [List.append_assoc, List.append_assoc, List.append_assoc, List.cons_append]

/-- What holds of a manager after the method calls of the history. -/
structure Recorded [DecidableEq A] (allowed : List (String × String)) (history : List (MethodCallRequest A))
    (m : RecordingCacheManager A) : Prop where
  allowed_eq : m.allowedMethodCallSequences = allowed
  suffix : m.currentSequence <:+ history
  current_chain : m.currentSequence.IsChain (Follows allowed)
  current_length : m.currentSequence.length ≤ DynamicCacheManager.maxSize
  entries : ∀ e ∈ m.requestSequences, (∃ first ∈ e.2.head?, equals first e.1 = true) ∧ Maximal allowed history e.2

/-- A manager that has just been made has recorded nothing. -/
theorem recorded_start [DecidableEq A] (allowed : List (String × String)) :
    Recorded allowed [] (start allowed : RecordingCacheManager A) :=
  ⟨rfl, List.suffix_rfl, List.IsChain.nil, Nat.zero_le _, fun _ he => absurd he List.not_mem_nil⟩

/-- The sequence that a call ends could not have been extended by it. -/
theorem Recorded.maximal_of_ended [DecidableEq A] {allowed : List (String × String)} {history : List (MethodCallRequest A)}
    {m : RecordingCacheManager A} (h : Recorded allowed history m) {last r : MethodCallRequest A}
    (hlast : m.currentSequence.getLast? = some last) (htwo : 2 ≤ m.currentSequence.length)
    (hended : ¬ (Follows allowed last r ∧ m.currentSequence.length < DynamicCacheManager.maxSize)) :
    Maximal allowed (history ++ [r]) m.currentSequence := by
  obtain ⟨before, hbefore⟩ := h.suffix
  refine ⟨h.current_chain, htwo, h.current_length, before, r, [], by rw [hbefore], ?_⟩
  by_cases hfollows : Follows allowed last r
  · have hfull : ¬ m.currentSequence.length < DynamicCacheManager.maxSize := fun hlt => hended ⟨hfollows, hlt⟩
    exact Or.inr (Nat.le_antisymm h.current_length (Nat.le_of_not_lt hfull))
  · exact Or.inl ⟨last, hlast, hfollows⟩

/-- What was recorded is still right when one more call has come. -/
theorem Recorded.entries_snoc [DecidableEq A] {allowed : List (String × String)} {history : List (MethodCallRequest A)}
    {m : RecordingCacheManager A} (h : Recorded allowed history m) (r : MethodCallRequest A) :
    ∀ e ∈ m.requestSequences,
      (∃ first ∈ e.2.head?, equals first e.1 = true) ∧ Maximal allowed (history ++ [r]) e.2 :=
  fun e he => ⟨(h.entries e he).1, (h.entries e he).2.append [r]⟩

/-- A call starts a sequence. -/
theorem Recorded.startSequence [DecidableEq A] {allowed : List (String × String)} {history : List (MethodCallRequest A)}
    {m : RecordingCacheManager A} (hallowed : m.allowedMethodCallSequences = allowed) (r : MethodCallRequest A)
    (hentries : ∀ e ∈ m.requestSequences,
      (∃ first ∈ e.2.head?, equals first e.1 = true) ∧ Maximal allowed (history ++ [r]) e.2) :
    Recorded allowed (history ++ [r]) { m with currentSequence := [r] } :=
  ⟨hallowed, List.suffix_append history [r], List.IsChain.singleton r, by show 1 ≤ 5; omega, hentries⟩

/-- A call that may follow the last one is added to its sequence, if this is not full. -/
theorem Recorded.extendSequence [DecidableEq A] {allowed : List (String × String)} {history : List (MethodCallRequest A)}
    {m : RecordingCacheManager A} (h : Recorded allowed history m) {last r : MethodCallRequest A}
    (hlast : m.currentSequence.getLast? = some last) (hfollows : Follows allowed last r)
    (hlength : m.currentSequence.length < DynamicCacheManager.maxSize) :
    Recorded allowed (history ++ [r]) { m with currentSequence := m.currentSequence ++ [r] } where
  allowed_eq := h.allowed_eq
  suffix := by
    obtain ⟨before, hbefore⟩ := h.suffix
    exact ⟨before, by rw [← List.append_assoc, hbefore]⟩
  current_chain := by
    refine List.isChain_append.mpr ⟨h.current_chain, List.IsChain.singleton r, ?_⟩
    intro x hx y hy
    rw [hlast] at hx
    obtain rfl := Option.some.inj hx
    obtain rfl := Option.some.inj hy
    exact hfollows
  current_length := by
    rw [List.length_append]
    exact hlength
  entries := h.entries_snoc r

/-- A method call is recorded. -/
theorem Recorded.addMethodCall [DecidableEq A] {allowed : List (String × String)} {history : List (MethodCallRequest A)}
    {m : RecordingCacheManager A} (h : Recorded allowed history m) (r : MethodCallRequest A) :
    Recorded allowed (history ++ [r]) (m.addToSequence (.methodCall r)) := by
  obtain rfl := h.allowed_eq
  unfold RecordingCacheManager.addToSequence
  dsimp only
  split
  · -- the first call of all
    exact Recorded.startSequence rfl r (h.entries_snoc r)
  · rename_i last hlast
    split
    · rename_i hadded
      obtain ⟨hfollows, hlength⟩ := canBeAdded_iff.mp hadded
      exact h.extendSequence hlast hfollows hlength
    · -- the call ends the sequence and starts the next
      rename_i hended
      refine Recorded.startSequence (m := { m with requestSequences := m.flush }) rfl r fun e he => ?_
      rcases mem_flush he with he | ⟨hvalue, htwo, first, hfirst, hkey⟩
      · exact h.entries_snoc r e he
      · rw [hvalue]
        exact ⟨⟨first, hfirst, hkey⟩, h.maximal_of_ended hlast htwo (mt canBeAdded_iff.mpr hended)⟩

/-- A request is recorded if it is a method call, and else it changes nothing. -/
theorem Recorded.addToSequence [DecidableEq A] {allowed : List (String × String)} {requests : List (Request A)}
    {m : RecordingCacheManager A} (h : Recorded allowed (methodCalls requests) m) (request : Request A) :
    Recorded allowed (methodCalls (requests ++ [request])) (m.addToSequence request) := by
  unfold methodCalls at *
  rw [List.filterMap_append]
  cases request with
  | methodCall r => exact h.addMethodCall r
  | _ =>
    rw [show List.filterMap methodCall? [_] = [] from rfl, List.append_nil]
    exact h

/-- What holds after some requests holds after some more. -/
theorem Recorded.addAll [DecidableEq A] {allowed : List (String × String)} {done : List (Request A)}
    {m : RecordingCacheManager A} (h : Recorded allowed (methodCalls done) m) (requests : List (Request A)) :
    Recorded allowed (methodCalls (done ++ requests)) (addAll requests m) := by
  induction requests generalizing done m with
  | nil =>
    rw [List.append_nil]
    exact h
  | cons request requests ih =>
    rw [List.append_cons]
    exact ih (h.addToSequence request)

/-! ## All requests -/

/-- After any requests, `currentSequence` is the end of the method calls, at most `MAX_SIZE` of them, each allowed after the one
before; and each entry of `requestSequences` is a maximal sequence of at least two of them, under a key equal to its first. -/
theorem records_maximal_sequences [DecidableEq A] (allowed : List (String × String)) (requests : List (Request A)) :
    let m := addAll requests (start allowed)
    (m.currentSequence <:+ methodCalls requests ∧ m.currentSequence.length ≤ DynamicCacheManager.maxSize ∧
      m.currentSequence.IsChain (Follows allowed)) ∧
    ∀ key calls, (key, calls) ∈ m.requestSequences →
      (∃ first ∈ calls.head?, equals first key = true) ∧ Maximal allowed (methodCalls requests) calls := by
  have hstart : Recorded allowed (methodCalls []) (start allowed : RecordingCacheManager A) := recorded_start allowed
  have h : Recorded allowed (methodCalls requests) (addAll requests (start allowed)) := hstart.addAll requests
  exact ⟨⟨h.suffix, h.current_length, h.current_chain⟩, fun key calls he => h.entries (key, calls) he⟩

end LibraryLink.Kotlin.RecordingCacheManager
