import LibraryLink.Lemmas.NestedCalls

/-!
# Nested calls are paired and come to their end

No frame carries the number of its call, so that the right reply reaches the right caller rests on both sides recursing in one
bracket order. For every request whose execution is a finite tree of calls, and under every scheduling of the two sides: each
call returns what the other side answered to it, the two sides never wait for each other, every run comes to its end, and at
the end nothing is under way and the outermost `sendRequest` has the reply that the tree gives.
-/

namespace LibraryLink.Nested

open Relation

variable {σ P : Type} {code : Code σ P}

/-- Calls are served in the order they were written in, each call is answered once at most, and what a call returned is what
the other side answered to the call of that number. -/
structure Paired (s : State σ P) : Prop where
  requestsInOrder : s.processed <+: s.requests
  callbacksInOrder : s.handled <+: s.callbacks
  oneResponse : (s.responses.map Prod.fst).Nodup
  oneCallbackResponse : (s.callbackResponses.map Prod.fst).Nodup
  returned : ∀ n payload, (n, payload) ∈ s.returns → (n, payload) ∈ s.responses
  callbackReturned : ∀ m payload, (m, payload) ∈ s.callbackReturns → (m, payload) ∈ s.callbackResponses

/-- The outermost `sendRequest` has returned the reply; every call has returned, and no frame is left. -/
structure Completed (s : State σ P) (reply : P) (world : σ) : Prop where
  client : s.client = [.running none (.done reply)]
  receiver : s.receiver = []
  toReceiver : s.toReceiver = []
  toClient : s.toClient = []
  world : s.world = world
  requests : ∀ n < s.requests.length, ∃ payload, (n, payload) ∈ s.returns
  callbacks : ∀ m < s.callbacks.length, ∃ payload, (m, payload) ∈ s.callbackReturns

/-- What is answered and not yet returned is answered to the call on top of those waited for. -/
theorem nodup_answered {ns : List Nat} {returns rest : List (Nat × P)} {k : Nat}
    (h : (ns ++ returns.map Prod.fst).Perm (List.range k)) (hrest : rest = [] ∨ ∃ n p ns', rest = [(n, p)] ∧ ns = n :: ns') :
    ((returns ++ rest).map Prod.fst).Nodup := by
  have hnodup : (ns ++ returns.map Prod.fst).Nodup := h.nodup_iff.mpr List.nodup_range
  rcases hrest with rfl | ⟨n, p, ns', rfl, rfl⟩
  · rw [List.append_nil]
    exact (List.nodup_append.mp hnodup).2.1
  · rw [List.map_append]
    exact (List.nodup_append.mp ((perm_return h).nodup_iff.mpr List.nodup_range)).2.1

/-- Where every call has returned, each number below the number of calls has a return. -/
theorem exists_return {returns : List (Nat × P)} {k : Nat} (h : (returns.map Prod.fst).Perm (List.range k)) {n : Nat}
    (hn : n < k) : ∃ payload, (n, payload) ∈ returns := by
  have hmem : n ∈ returns.map Prod.fst := h.mem_iff.mpr (List.mem_range.mpr hn)
  obtain ⟨⟨n', payload⟩, hm, rfl⟩ := List.mem_map.mp hmem
  exact ⟨payload, hm⟩

/-- The invariant pairs the calls. -/
theorem Inv.paired {s : State σ P} (h : Inv s) : Paired s := by
  obtain ⟨req, cb, res, cbres, hp, hreq, hcb, hres, hcbres⟩ := h.flow
  refine ⟨⟨req, hreq.symm⟩, ⟨cb, hcb.symm⟩, ?_, ?_, ?_, ?_⟩
  · rw [hres]
    refine nodup_answered h.requests ?_
    cases hp with
    | response hc _ _ _ => exact Or.inr ⟨_, _, _, rfl, by rw [hc]; rfl⟩
    | _ => exact Or.inl rfl
  · rw [hcbres]
    refine nodup_answered h.callbacks ?_
    cases hp with
    | callbackResponse _ hr _ _ _ => exact Or.inr ⟨_, _, _, rfl, by rw [hr]; rfl⟩
    | _ => exact Or.inl rfl
  · intro n payload hm
    rw [hres]
    exact List.mem_append_left _ hm
  · intro m payload hm
    rw [hcbres]
    exact List.mem_append_left _ hm

/-- The system runs the outermost call to its end. -/
theorem exists_completed {w w' : σ} {message reply : P} {nested : List (CallTree P)}
    (h : Serves code w (.node message nested reply) w') :
    ∃ s, ReflTransGen (Step code) (start w message) s ∧ s.client = [.running none (.done reply)] ∧ s.world = w' := by
  have hcall : Evaluates code.handleRequest code.processRequest w (.call message .done) [.node message nested reply] w' reply :=
    .call h .done
  obtain ⟨s, hrun, hc, -, hw⟩ := (run_of_evaluates hcall).2 rfl rfl _ none [] (Inv.start w message) rfl rfl
  exact ⟨s, hrun, hc, hw⟩

/-- At the end of any run of a call with a finite tree everything is done, as the tree says. -/
theorem completed {w w' : σ} {message reply : P} {nested : List (CallTree P)}
    (h : Serves code w (.node message nested reply) w') {s : State σ P} (hs : ReflTransGen (Step code) (start w message) s)
    (hf : Finished s) : Completed s reply w' := by
  have hi := (Inv.start w message).run hs
  obtain ⟨c, hrun, hc, hw⟩ := exists_completed h
  have hfinal : Runs.Final (Step code) c := ((Inv.start w message).run hrun).final_of_finished ⟨reply, hc⟩
  have hsc : ReflTransGen (Step code) s c :=
    Runs.reaches_final (fun _ _ hi hst => Inv.step hi hst) (fun _ _ _ hi => hi.deterministic) hs hrun
      (Inv.start w message) hfinal
  -- the run from `s` on has no step left
  have hs_eq : s = c := by
    rcases ReflTransGen.cases_head hsc with heq | ⟨d, hd, -⟩
    · exact heq
    · exact absurd hd (hi.final_of_finished hf d)
  subst hs_eq
  obtain ⟨hr, hq, ht⟩ := hi.of_finished hf
  have hreq := hi.requests
  have hcb := hi.callbacks
  rw [hc, openRequests_running, openRequests_nil, List.nil_append] at hreq
  rw [hr, openCallbacks_nil, List.nil_append] at hcb
  exact ⟨hc, hr, hq, ht, hw, fun n hn => exists_return hreq hn, fun m hm => exists_return hcb hm⟩

/-- A request served through a finite tree of nested calls, under every scheduling: no run is infinite, and in every state
reached the calls are paired, the two sides do not wait for each other, some side can move unless the outermost `sendRequest`
has returned, and if it has, the queues are empty and all is as the tree says. -/
theorem nested_calls_return {w w' : σ} {message reply : P} {nested : List (CallTree P)}
    (h : Serves code w (.node message nested reply) w') :
    Acc (fun b a => Step code a b) (start w message) ∧
      ∀ s, ReflTransGen (Step code) (start w message) s →
        Paired s ∧ ¬(ClientWaits s ∧ ReceiverWaits s) ∧ (Finished s ∨ ∃ s', Step code s s') ∧
          (Finished s → Completed s reply w') := by
  refine ⟨?_, ?_⟩
  · obtain ⟨c, hrun, hc, -⟩ := exists_completed h
    exact Runs.terminates (fun _ _ hi hst => Inv.step hi hst) (fun _ _ _ hi => hi.deterministic) hrun (Inv.start w message)
      (((Inv.start w message).run hrun).final_of_finished ⟨reply, hc⟩)
  · intro s hs
    have hi := (Inv.start w message).run hs
    exact ⟨hi.paired, hi.not_both_wait, hi.progress, completed h hs⟩

/-- Two callbacks for each request above zero, a request for each callback above zero, and a sum kept in the state. -/
def countdown : Code Nat Nat where
  processRequest
    | 0 => .done 10
    | p + 1 => .call p fun u => .call p fun v => .done (u + v + 1)
  handleRequest
    | 0 => .done 1
    | p + 1 => .call p fun v => .act (· + v) fun _ => .done v

/-- The rule at a request with two callbacks, each of whose handlers sends a request. -/
theorem nested_calls_return_countdown :
    Serves countdown 0 (.node 2 [.node 1 [.node 0 [] 10] 10, .node 1 [.node 0 [] 10] 10] 21) 20 ∧
      Acc (fun b a => Step countdown a b) (start 0 2) ∧
      ∀ s, ReflTransGen (Step countdown) (start 0 2) s →
        Paired s ∧ ¬(ClientWaits s ∧ ReceiverWaits s) ∧ (Finished s ∨ ∃ s', Step countdown s s') ∧
          (Finished s → Completed s 21 20) := by
  have h : Serves countdown 0 (.node 2 [.node 1 [.node 0 [] 10] 10, .node 1 [.node 0 [] 10] 10] 21) 20 :=
    .call (.call .done (.act .done)) (.call (.call .done (.act .done)) .done)
  exact ⟨h, nested_calls_return h⟩

end LibraryLink.Nested
