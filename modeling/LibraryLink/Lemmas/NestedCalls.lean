import LibraryLink.NestedCalls
import LibraryLink.General.Runs
import Mathlib.Data.List.Perm.Basic

/-!
# Helpers for `Theorems/NestedCalls.lean`: where the control is

At most one frame is under way, and at most one side can move: the control is in one activation or in one frame. `Phase` says
which, `Linked` how the stacks below it belong together: the client's activation for a callback lies over the `sendRequest`
whose execution issued that callback, and the receiver's activation for a request over the callback whose handler sent it.
-/

namespace LibraryLink.Nested

open Relation

variable {σ P : Type} {code : Code σ P}

/-- The stacks below an activation of the client with the given origin: waiting activations in turn, the `n`-th request of
the one under the `m`-th callback of the other. -/
inductive Linked : Option Nat → List (ClientFrame σ P) → List (ReceiverFrame σ P) → Prop
  | main : Linked none [] []
  | callback {o n m next next' cs rs} :
      Linked o cs rs → Linked (some m) (.waiting o n next :: cs) (.waiting n m next' :: rs)

/-- Where the control is, and what is under way with it: a request's message, a callback's message, a response, or a callback's
response. -/
inductive Phase (s : State σ P) : List P → List P → List (Nat × P) → List (Nat × P) → Prop
  | client {o body cs} : s.client = .running o body :: cs → Linked o cs s.receiver → s.toReceiver = [] → s.toClient = [] →
      Phase s [] [] [] []
  | request {o next cs message} : s.client = .waiting o s.processed.length next :: cs → Linked o cs s.receiver →
      s.toReceiver = [(.request, message)] → s.toClient = [] → Phase s [message] [] [] []
  | receiver {o n next cs body rs} : s.client = .waiting o n next :: cs → s.receiver = .running n body :: rs →
      Linked o cs rs → s.toReceiver = [] → s.toClient = [] → Phase s [] [] [] []
  | callback {o n next cs next' rs message} : s.client = .waiting o n next :: cs →
      s.receiver = .waiting n s.handled.length next' :: rs → Linked o cs rs → s.toReceiver = [] →
      s.toClient = [(.callbackRequest, message)] → Phase s [] [message] [] []
  | response {o n next cs reply} : s.client = .waiting o n next :: cs → Linked o cs s.receiver → s.toReceiver = [] →
      s.toClient = [(.response, reply)] → Phase s [] [] [(n, reply)] []
  | callbackResponse {o n m next cs next' rs reply} : s.client = .waiting o n next :: cs →
      s.receiver = .waiting n m next' :: rs → Linked o cs rs → s.toReceiver = [(.callbackResponse, reply)] →
      s.toClient = [] → Phase s [] [] [] [(m, reply)]

/-- The numbers of the requests that the client waits for. -/
def openRequests (cs : List (ClientFrame σ P)) : List Nat :=
  cs.filterMap fun
    | .running _ _ => none
    | .waiting _ n _ => some n

/-- The numbers of the callbacks that the receiver waits for. -/
def openCallbacks (rs : List (ReceiverFrame σ P)) : List Nat :=
  rs.filterMap fun
    | .running _ _ => none
    | .waiting _ m _ => some m

@[simp] theorem openRequests_nil : openRequests ([] : List (ClientFrame σ P)) = [] := rfl

@[simp] theorem openRequests_running (o : Option Nat) (b : Body σ P) (cs : List (ClientFrame σ P)) :
    openRequests (.running o b :: cs) = openRequests cs := rfl

@[simp] theorem openCallbacks_nil : openCallbacks ([] : List (ReceiverFrame σ P)) = [] := rfl

/-- The invariant: the control is in one place; what was written and not yet taken is what is under way; and every call made
is either waited for or has returned, once. -/
structure Inv (s : State σ P) : Prop where
  raised : s.raised = false
  flow : ∃ req cb res cbres, Phase s req cb res cbres ∧ s.requests = s.processed ++ req ∧ s.callbacks = s.handled ++ cb ∧
    s.responses = s.returns ++ res ∧ s.callbackResponses = s.callbackReturns ++ cbres
  requests : (openRequests s.client ++ s.returns.map Prod.fst).Perm (List.range s.requests.length)
  callbacks : (openCallbacks s.receiver ++ s.callbackReturns.map Prod.fst).Perm (List.range s.callbacks.length)

/-! ## The side that cannot move -/

/-- Below an activation of the client the receiver is in a reading loop. -/
theorem Linked.receiver_waits {o : Option Nat} {cs : List (ClientFrame σ P)} {rs : List (ReceiverFrame σ P)}
    (h : Linked o cs rs) : rs = [] ∨ ∃ n m next rs', rs = .waiting n m next :: rs' := by
  cases h with
  | main => exact Or.inl rfl
  | callback _ => exact Or.inr ⟨_, _, _, _, rfl⟩

/-- A client that waits for a frame that is not there does not move. -/
theorem clientStep_eq_none (code : Code σ P) {s : State σ P} (h : ClientWaits s) : clientStep code s = none := by
  obtain ⟨⟨o, n, next, cs, hc⟩, hq⟩ := h
  simp only [clientStep, hc, hq]

/-- A receiver that waits for a frame that is not there does not move. -/
theorem receiverStep_eq_none (code : Code σ P) {s : State σ P} (h : ReceiverWaits s) : receiverStep code s = none := by
  obtain ⟨hr, hq⟩ := h
  rcases hr with hr | ⟨n, m, next, rs, hr⟩ <;> simp [receiverStep, hr, hq]

/-- Under the invariant one of the two sides waits for a frame that is not there. -/
theorem Inv.waits {s : State σ P} (h : Inv s) : ClientWaits s ∨ ReceiverWaits s := by
  obtain ⟨req, cb, res, cbres, hp, -⟩ := h.flow
  cases hp with
  | client _ hl hr _ => exact Or.inr ⟨hl.receiver_waits, hr⟩
  | request hc _ _ ht => exact Or.inl ⟨⟨_, _, _, _, hc⟩, ht⟩
  | receiver hc _ _ _ ht => exact Or.inl ⟨⟨_, _, _, _, hc⟩, ht⟩
  | callback _ hr _ ht _ => exact Or.inr ⟨Or.inr ⟨_, _, _, _, hr⟩, ht⟩
  | response _ hl ht _ => exact Or.inr ⟨hl.receiver_waits, ht⟩
  | callbackResponse hc _ _ _ ht => exact Or.inl ⟨⟨_, _, _, _, hc⟩, ht⟩

/-- Under the invariant at most one step is possible. -/
theorem Inv.deterministic {s a b : State σ P} (h : Inv s) (ha : Step code s a) (hb : Step code s b) : a = b := by
  rcases h.waits with hw | hw
  · have hn := clientStep_eq_none code hw
    simp only [Step, hn, reduceCtorEq, false_or] at ha hb
    exact Option.some.inj (ha.symm.trans hb)
  · have hn := receiverStep_eq_none code hw
    simp only [Step, hn, reduceCtorEq, or_false] at ha hb
    exact Option.some.inj (ha.symm.trans hb)

/-- A receiver in a reading loop takes a request and starts its execution. -/
theorem receiverStep_request (code : Code σ P) {s : State σ P} {message : P} {queue : List (Tag × P)} (hraised : s.raised = false)
    (hr : s.receiver = [] ∨ ∃ n m next rs, s.receiver = .waiting n m next :: rs)
    (hq : s.toReceiver = (.request, message) :: queue) :
    receiverStep code s = some { s with
      toReceiver := queue, receiver := .running s.processed.length (code.processRequest message) :: s.receiver,
      processed := s.processed ++ [message] } := by
  rcases hr with hr | ⟨n, m, next, rs, hr⟩ <;> simp [receiverStep, processRequest, hraised, hr, hq]

/-! ## The invariant is kept -/

/-- Below a callback's activation lie the `sendRequest` and the callback of the execution that issued it. -/
theorem Linked.of_callback {m : Nat} {cs : List (ClientFrame σ P)} {rs : List (ReceiverFrame σ P)}
    (h : Linked (some m) cs rs) : ∃ o n next next' cs' rs',
      cs = .waiting o n next :: cs' ∧ rs = .waiting n m next' :: rs' ∧ Linked o cs' rs' := by
  cases h with
  | callback h => exact ⟨_, _, _, _, _, _, rfl, rfl, h⟩

/-- It holds at the start. -/
theorem Inv.start (w : σ) (message : P) : Inv (start w message) :=
  ⟨rfl, ⟨[], [], [], [], .client rfl .main rfl rfl, rfl, rfl, rfl, rfl⟩, .refl _, .refl _⟩

/-- A new call takes the next number. -/
theorem perm_open {ns ms : List Nat} {k : Nat} (h : (ns ++ ms).Perm (List.range k)) :
    ((k :: ns) ++ ms).Perm (List.range (k + 1)) := by
  rw [List.range_succ, List.cons_append]
  exact (List.Perm.cons k h).trans (List.perm_append_singleton k (List.range k)).symm

/-- A call that returns goes from those waited for to those returned. -/
theorem perm_return {ns ms : List Nat} {n k : Nat} (h : ((n :: ns) ++ ms).Perm (List.range k)) :
    (ns ++ (ms ++ [n])).Perm (List.range k) := by
  rw [← List.append_assoc]
  exact (List.perm_append_singleton n (ns ++ ms)).trans h

/-- A step of the client keeps the invariant. -/
theorem Inv.clientStep {s s' : State σ P} (h : Inv s) (hs : clientStep code s = some s') : Inv s' := by
  obtain ⟨req, cb, res, cbres, hp, hreq, hcb, hres, hcbres⟩ := h.flow
  have hopen := h.requests
  cases hp with
  | @client o body cs hc hl hr ht =>
    rw [hc] at hopen
    cases body with
    | act f next =>
      simp only [Nested.clientStep, hc, Option.some.injEq] at hs
      subst hs
      exact ⟨h.raised, ⟨_, _, _, _, .client rfl hl hr ht, hreq, hcb, hres, hcbres⟩, hopen, h.callbacks⟩
    | call message next =>
      simp only [Nested.clientStep, hc, hr, Option.some.injEq] at hs
      subst hs
      have hlen : s.requests.length = s.processed.length := by rw [hreq, List.append_nil]
      refine ⟨h.raised, ⟨_, _, _, _, .request (by rw [hlen]) hl rfl ht, ?_, hcb, hres, hcbres⟩, ?_, h.callbacks⟩
      · rw [hreq, List.append_nil]
      · rw [List.length_append]
        exact perm_open hopen
    | done reply =>
      cases o with
      | none => simp [Nested.clientStep, hc] at hs
      | some m =>
        obtain ⟨o, n, next, next', cs', rs', rfl, hrs, hl'⟩ := hl.of_callback
        simp only [Nested.clientStep, hc, hr, Option.some.injEq] at hs
        subst hs
        refine ⟨h.raised, ⟨_, _, _, _, .callbackResponse rfl hrs hl' rfl ht, hreq, hcb, hres, ?_⟩, hopen, h.callbacks⟩
        rw [hcbres, List.append_nil]
  | request hc _ _ ht => simp [clientStep_eq_none code ⟨⟨_, _, _, _, hc⟩, ht⟩] at hs
  | receiver hc _ _ _ ht => simp [clientStep_eq_none code ⟨⟨_, _, _, _, hc⟩, ht⟩] at hs
  | callback hc hr hl hq ht =>
    simp only [Nested.clientStep, hc, ht, if_pos, Option.some.injEq] at hs
    subst hs
    rw [hc] at hopen
    refine ⟨h.raised, ⟨_, _, _, _, .client rfl ?_ hq rfl, hreq, ?_, hres, hcbres⟩, hopen, h.callbacks⟩
    · rw [hr]
      exact .callback hl
    · rw [hcb, List.append_nil]
  | response hc hl hq ht =>
    simp only [Nested.clientStep, hc, ht, reduceCtorEq, if_false, Option.some.injEq] at hs
    subst hs
    rw [hc] at hopen
    refine ⟨h.raised, ⟨_, _, _, _, .client rfl hl hq rfl, hreq, hcb, ?_, hcbres⟩, ?_, h.callbacks⟩
    · rw [hres, List.append_nil]
    · rw [List.map_append]
      exact perm_return hopen
  | callbackResponse hc _ _ _ ht => simp [clientStep_eq_none code ⟨⟨_, _, _, _, hc⟩, ht⟩] at hs

/-- A step of the receiver keeps the invariant. -/
theorem Inv.receiverStep {s s' : State σ P} (h : Inv s) (hs : receiverStep code s = some s') : Inv s' := by
  obtain ⟨req, cb, res, cbres, hp, hreq, hcb, hres, hcbres⟩ := h.flow
  have hopen := h.callbacks
  have hraised := h.raised
  cases hp with
  | client _ hl hr _ => simp [receiverStep_eq_none code ⟨hl.receiver_waits, hr⟩] at hs
  | @request o next cs message hc hl hq ht =>
    rw [receiverStep_request code hraised hl.receiver_waits hq, Option.some.injEq] at hs
    subst hs
    refine ⟨hraised, ⟨_, _, _, _, .receiver hc rfl hl rfl ht, ?_, hcb, hres, hcbres⟩, h.requests, hopen⟩
    rw [hreq, List.append_nil]
  | @receiver o n next cs body rs hc hr hl hq ht =>
    rw [hr] at hopen
    cases body with
    | act f next =>
      simp only [Nested.receiverStep, hraised, hr, Bool.false_eq_true, if_false, Option.some.injEq] at hs
      subst hs
      exact ⟨rfl, ⟨_, _, _, _, .receiver hc rfl hl hq ht, hreq, hcb, hres, hcbres⟩, h.requests, hopen⟩
    | call message next =>
      simp only [Nested.receiverStep, hraised, hr, ht, Bool.false_eq_true, if_false, Option.some.injEq] at hs
      subst hs
      have hlen : s.callbacks.length = s.handled.length := by rw [hcb, List.append_nil]
      refine ⟨rfl, ⟨_, _, _, _, .callback hc (by rw [hlen]) hl hq rfl, hreq, ?_, hres, hcbres⟩, h.requests, ?_⟩
      · rw [hcb, List.append_nil]
      · rw [List.length_append]
        exact perm_open hopen
    | done reply =>
      simp only [Nested.receiverStep, hraised, hr, ht, Bool.false_eq_true, if_false, Option.some.injEq] at hs
      subst hs
      refine ⟨rfl, ⟨_, _, _, _, .response hc hl hq rfl, hreq, hcb, ?_, hcbres⟩, h.requests, hopen⟩
      rw [hres, List.append_nil]
  | callback _ hr _ hq _ => simp [receiverStep_eq_none code ⟨Or.inr ⟨_, _, _, _, hr⟩, hq⟩] at hs
  | response _ hl hq _ => simp [receiverStep_eq_none code ⟨hl.receiver_waits, hq⟩] at hs
  | callbackResponse hc hr hl hq ht =>
    simp only [Nested.receiverStep, hraised, hr, hq, Bool.false_eq_true, if_false, if_pos, Option.some.injEq] at hs
    subst hs
    rw [hr] at hopen
    refine ⟨rfl, ⟨_, _, _, _, .receiver hc rfl hl rfl ht, hreq, hcb, hres, ?_⟩, h.requests, ?_⟩
    · rw [hcbres, List.append_nil]
    · rw [List.map_append]
      exact perm_return hopen

/-- A step of the system keeps the invariant. -/
theorem Inv.step {s s' : State σ P} (h : Inv s) (hs : Step code s s') : Inv s' :=
  hs.elim h.clientStep h.receiverStep

/-- A run keeps the invariant. -/
theorem Inv.run {s s' : State σ P} (h : Inv s) (hs : ReflTransGen (Step code) s s') : Inv s' :=
  Runs.invariant (fun _ _ hi hst => hi.step hst) hs h

/-! ## Consequences -/

/-- The two sides never wait for each other. -/
theorem Inv.not_both_wait {s : State σ P} (h : Inv s) : ¬(ClientWaits s ∧ ReceiverWaits s) := by
  rintro ⟨⟨⟨o, n, next, cs, hc⟩, ht⟩, hr, hq⟩
  obtain ⟨req, cb, res, cbres, hp, -⟩ := h.flow
  cases hp with
  | client hc' _ _ _ => simp [hc] at hc'
  | request _ _ hq' _ => simp [hq] at hq'
  | receiver _ hr' _ _ _ => simp [hr'] at hr
  | callback _ _ _ _ ht' => simp [ht] at ht'
  | response _ _ _ ht' => simp [ht] at ht'
  | callbackResponse _ _ _ hq' _ => simp [hq] at hq'

/-- While an activation of the client runs nothing is under way. -/
theorem Inv.client_runs {s : State σ P} (h : Inv s) {o : Option Nat} {b : Body σ P} {cs : List (ClientFrame σ P)}
    (hc : s.client = .running o b :: cs) : Linked o cs s.receiver ∧ s.toReceiver = [] ∧ s.toClient = [] := by
  obtain ⟨req, cb, res, cbres, hp, -⟩ := h.flow
  cases hp with
  | client hc' hl hq ht =>
    simp only [hc, List.cons.injEq, ClientFrame.running.injEq] at hc'
    obtain ⟨⟨rfl, rfl⟩, rfl⟩ := hc'
    exact ⟨hl, hq, ht⟩
  | request hc' _ _ _ => simp [hc] at hc'
  | receiver hc' _ _ _ _ => simp [hc] at hc'
  | callback hc' _ _ _ _ => simp [hc] at hc'
  | response hc' _ _ _ => simp [hc] at hc'
  | callbackResponse hc' _ _ _ _ => simp [hc] at hc'

/-- While an execution of the receiver runs the client waits for its response. -/
theorem Inv.receiver_runs {s : State σ P} (h : Inv s) {n : Nat} {b : Body σ P} {rs : List (ReceiverFrame σ P)}
    (hr : s.receiver = .running n b :: rs) :
    (∃ o next cs, s.client = .waiting o n next :: cs ∧ Linked o cs rs) ∧ s.toReceiver = [] ∧ s.toClient = [] := by
  have hrun : ∀ {o cs}, ¬Linked o cs s.receiver := by
    intro o cs hl
    rcases hl.receiver_waits with hr' | ⟨n, m, next, rs, hr'⟩ <;> simp [hr] at hr'
  obtain ⟨req, cb, res, cbres, hp, -⟩ := h.flow
  cases hp with
  | client _ hl _ _ => exact absurd hl hrun
  | request _ hl _ _ => exact absurd hl hrun
  | receiver hc hr' hl hq ht =>
    simp only [hr, List.cons.injEq, ReceiverFrame.running.injEq] at hr'
    obtain ⟨⟨rfl, rfl⟩, rfl⟩ := hr'
    exact ⟨⟨_, _, _, hc, hl⟩, hq, ht⟩
  | callback _ hr' _ _ _ => simp [hr] at hr'
  | response _ hl _ _ => exact absurd hl hrun
  | callbackResponse _ hr' _ _ _ => simp [hr] at hr'

/-- A finished call leaves nothing behind. -/
theorem Inv.of_finished {s : State σ P} (h : Inv s) (hf : Finished s) :
    s.receiver = [] ∧ s.toReceiver = [] ∧ s.toClient = [] := by
  obtain ⟨reply, hc⟩ := hf
  obtain ⟨hl, hq, ht⟩ := h.client_runs hc
  generalize s.receiver = rs at hl
  cases hl
  exact ⟨rfl, hq, ht⟩

/-- Nothing moves after the end. -/
theorem Inv.final_of_finished {s : State σ P} (h : Inv s) (hf : Finished s) : Runs.Final (Step code) s := by
  obtain ⟨hr, hq, -⟩ := h.of_finished hf
  obtain ⟨reply, hc⟩ := hf
  rintro s' (hs | hs)
  · simp [Nested.clientStep, hc] at hs
  · simp [receiverStep_eq_none code ⟨Or.inl hr, hq⟩] at hs

/-- A side with an enabled step moves the system. -/
theorem exists_step {s : State σ P} (h : (clientStep code s).isSome ∨ (receiverStep code s).isSome) :
    ∃ s', Step code s s' := by
  rcases h with h | h
  · exact (Option.isSome_iff_exists.mp h).imp fun _ => Or.inl
  · exact (Option.isSome_iff_exists.mp h).imp fun _ => Or.inr

/-- Before the end some side can move. -/
theorem Inv.progress {s : State σ P} (h : Inv s) : Finished s ∨ ∃ s', Step code s s' := by
  obtain ⟨req, cb, res, cbres, hp, -⟩ := h.flow
  have hraised := h.raised
  cases hp with
  | @client o body cs hc hl _ _ =>
    cases body with
    | done reply =>
      cases o with
      | none =>
        generalize s.receiver = rs at hl
        cases hl
        exact Or.inl ⟨reply, hc⟩
      | some m => exact Or.inr (exists_step (Or.inl (by simp [Nested.clientStep, hc])))
    | act f next => exact Or.inr (exists_step (Or.inl (by simp [Nested.clientStep, hc])))
    | call message next => exact Or.inr (exists_step (Or.inl (by simp [Nested.clientStep, hc])))
  | request _ hl hq _ => exact Or.inr ⟨_, Or.inr (receiverStep_request code hraised hl.receiver_waits hq)⟩
  | @receiver o n next cs body rs _ hr _ _ _ =>
    refine Or.inr (exists_step (Or.inr ?_))
    cases body <;> simp [Nested.receiverStep, hraised, hr]
  | callback hc _ _ _ ht => exact Or.inr (exists_step (Or.inl (by simp [Nested.clientStep, hc, ht])))
  | response hc _ _ ht => exact Or.inr (exists_step (Or.inl (by simp [Nested.clientStep, hc, ht])))
  | callbackResponse _ hr _ hq _ =>
    exact Or.inr (exists_step (Or.inr (by simp [Nested.receiverStep, hraised, hr, hq])))

/-! ## A tree of calls is run to its end -/

/-- A `sendRequest` brings the control to the execution of its request. -/
theorem Inv.sendRequest {s : State σ P} (h : Inv s) (code : Code σ P) {o : Option Nat} {message : P} {next : P → Body σ P}
    {cs : List (ClientFrame σ P)} (hc : s.client = .running o (.call message next) :: cs) :
    ∃ s' n n', ReflTransGen (Step code) s s' ∧ s'.client = .waiting o n next :: cs ∧
      s'.receiver = .running n' (code.processRequest message) :: s.receiver ∧ s'.world = s.world := by
  obtain ⟨hl, hq, ht⟩ := h.client_runs hc
  have h₁ : Nested.clientStep code s = some { s with
      client := .waiting o s.requests.length next :: cs, toReceiver := s.toReceiver ++ [(.request, message)],
      requests := s.requests ++ [message] } := by
    simp only [Nested.clientStep, hc]
  have h₂ := receiverStep_request code (h.clientStep h₁).raised hl.receiver_waits (by rw [hq]; rfl)
  exact ⟨_, _, _, .tail (.single (Or.inl h₁)) (Or.inr h₂), rfl, rfl, rfl⟩

/-- An execution that ends brings the control back to the `sendRequest` that waits for it. -/
theorem Inv.readResponse {s : State σ P} (h : Inv s) (code : Code σ P) {o : Option Nat} {n n' : Nat} {reply : P} {next : P → Body σ P}
    {cs : List (ClientFrame σ P)} {rs : List (ReceiverFrame σ P)} (hc : s.client = .waiting o n next :: cs)
    (hr : s.receiver = .running n' (.done reply) :: rs) :
    ∃ s', ReflTransGen (Step code) s s' ∧ s'.client = .running o (next reply) :: cs ∧ s'.receiver = rs ∧
      s'.world = s.world := by
  obtain ⟨-, -, ht⟩ := h.receiver_runs hr
  have h₁ : Nested.receiverStep code s = some { s with
      receiver := rs, toClient := s.toClient ++ [(.response, reply)], responses := s.responses ++ [(n', reply)] } := by
    simp [Nested.receiverStep, h.raised, hr]
  have h₂ : Nested.clientStep code { s with
      receiver := rs, toClient := s.toClient ++ [(.response, reply)], responses := s.responses ++ [(n', reply)] } =
      some { s with
        client := .running o (next reply) :: cs, receiver := rs, toClient := [],
        responses := s.responses ++ [(n', reply)], returns := s.returns ++ [(n, reply)] } := by
    simp [Nested.clientStep, hc, ht]
  exact ⟨_, .tail (.single (Or.inr h₁)) (Or.inl h₂), rfl, rfl, rfl⟩

/-- A callback brings the control to its handler. -/
theorem Inv.callbackHandler {s : State σ P} (h : Inv s) (code : Code σ P) {n : Nat} {message : P} {next : P → Body σ P}
    {rs : List (ReceiverFrame σ P)} (hr : s.receiver = .running n (.call message next) :: rs) :
    ∃ s' m m', ReflTransGen (Step code) s s' ∧ s'.client = .running (some m) (code.handleRequest message) :: s.client ∧
      s'.receiver = .waiting n m' next :: rs ∧ s'.world = s.world := by
  obtain ⟨⟨o, next', cs, hc, -⟩, -, ht⟩ := h.receiver_runs hr
  have h₁ : Nested.receiverStep code s = some { s with
      receiver := .waiting n s.callbacks.length next :: rs, toClient := s.toClient ++ [(.callbackRequest, message)],
      callbacks := s.callbacks ++ [message] } := by
    simp [Nested.receiverStep, h.raised, hr]
  have h₂ : Nested.clientStep code { s with
      receiver := .waiting n s.callbacks.length next :: rs, toClient := s.toClient ++ [(.callbackRequest, message)],
      callbacks := s.callbacks ++ [message] } =
      some { s with
        client := .running (some s.handled.length) (code.handleRequest message) :: s.client,
        receiver := .waiting n s.callbacks.length next :: rs, toClient := [], callbacks := s.callbacks ++ [message],
        handled := s.handled ++ [message] } := by
    simp [Nested.clientStep, hc, ht]
  exact ⟨_, _, _, .tail (.single (Or.inr h₁)) (Or.inl h₂), rfl, rfl, rfl⟩

/-- A callback's handler that ends brings the control back to the execution that waits for it. -/
theorem Inv.callbackReturn {s : State σ P} (h : Inv s) (code : Code σ P) {n m m' : Nat} {reply : P} {next : P → Body σ P}
    {cs : List (ClientFrame σ P)} {rs : List (ReceiverFrame σ P)} (hc : s.client = .running (some m) (.done reply) :: cs)
    (hr : s.receiver = .waiting n m' next :: rs) :
    ∃ s', ReflTransGen (Step code) s s' ∧ s'.client = cs ∧ s'.receiver = .running n (next reply) :: rs ∧
      s'.world = s.world := by
  obtain ⟨-, hq, -⟩ := h.client_runs hc
  have h₁ : Nested.clientStep code s = some { s with
      client := cs, toReceiver := s.toReceiver ++ [(.callbackResponse, reply)],
      callbackResponses := s.callbackResponses ++ [(m, reply)] } := by
    simp only [Nested.clientStep, hc]
  have h₂ : Nested.receiverStep code { s with
      client := cs, toReceiver := s.toReceiver ++ [(.callbackResponse, reply)],
      callbackResponses := s.callbackResponses ++ [(m, reply)] } =
      some { s with
        client := cs, receiver := .running n (next reply) :: rs, toReceiver := [],
        callbackResponses := s.callbackResponses ++ [(m, reply)],
        callbackReturns := s.callbackReturns ++ [(m', reply)] } := by
    simp [Nested.receiverStep, h.raised, hr, hq]
  exact ⟨_, .tail (.single (Or.inl h₁)) (Or.inr h₂), rfl, rfl, rfl⟩

/-- What a body evaluates to, the system runs it to, on the receiver and on the client: the activations below it and the frames
on the other side are as before. The induction is on the evaluation, and one call takes both parts, one after the other. -/
theorem run_of_evaluates {self peer : P → Body σ P} {w w' : σ} {b : Body σ P} {ts : List (CallTree P)} {reply : P}
    (h : Evaluates self peer w b ts w' reply) :
    (self = code.processRequest → peer = code.handleRequest → ∀ (s : State σ P) (n : Nat) (rs : List (ReceiverFrame σ P)),
      Inv s → s.receiver = .running n b :: rs → s.world = w →
      ∃ s', ReflTransGen (Step code) s s' ∧ s'.client = s.client ∧ s'.receiver = .running n (.done reply) :: rs ∧
        s'.world = w') ∧
    (self = code.handleRequest → peer = code.processRequest → ∀ (s : State σ P) (o : Option Nat)
      (cs : List (ClientFrame σ P)), Inv s → s.client = .running o b :: cs → s.world = w →
      ∃ s', ReflTransGen (Step code) s s' ∧ s'.client = .running o (.done reply) :: cs ∧ s'.receiver = s.receiver ∧
        s'.world = w') := by
  induction h with
  | done => exact ⟨fun _ _ s n rs _ hr hw => ⟨s, .refl, rfl, hr, hw⟩, fun _ _ s o cs _ hc hw => ⟨s, .refl, hc, rfl, hw⟩⟩
  | @act self peer w f next ts w' reply _ ih =>
    refine ⟨?_, ?_⟩
    · intro hself hpeer s n rs hi hr hw
      have h₁ : Nested.receiverStep code s = some { s with
          world := f s.world, receiver := .running n (next (f s.world)) :: rs } := by
        simp [Nested.receiverStep, hi.raised, hr]
      obtain ⟨s', hrun, hc', hr', hw'⟩ := ih.1 hself hpeer _ n rs (hi.receiverStep h₁) (by rw [hw]) (by simp only [hw])
      exact ⟨s', .head (Or.inr h₁) hrun, hc', hr', hw'⟩
    · intro hself hpeer s o cs hi hc hw
      have h₁ : Nested.clientStep code s = some { s with
          world := f s.world, client := .running o (next (f s.world)) :: cs } := by
        simp only [Nested.clientStep, hc]
      obtain ⟨s', hrun, hc', hr', hw'⟩ := ih.2 hself hpeer _ o cs (hi.clientStep h₁) (by rw [hw]) (by simp only [hw])
      exact ⟨s', .head (Or.inl h₁) hrun, hc', hr', hw'⟩
  | @call self peer w message next ts w₁ value us w₂ reply _ _ ih₁ ih₂ =>
    refine ⟨?_, ?_⟩
    · intro hself hpeer s n rs hi hr hw
      obtain ⟨s₁, m, m', hrun₁, hc₁, hr₁, hw₁⟩ := hi.callbackHandler code hr
      have hi₁ := hi.run hrun₁
      obtain ⟨s₂, hrun₂, hc₂, hr₂, hw₂⟩ := ih₁.2 hpeer hself s₁ _ _ hi₁ (by rw [hpeer]; exact hc₁) (hw₁.trans hw)
      have hi₂ := hi₁.run hrun₂
      obtain ⟨s₃, hrun₃, hc₃, hr₃, hw₃⟩ := hi₂.callbackReturn code hc₂ (hr₂.trans hr₁)
      obtain ⟨s₄, hrun₄, hc₄, hr₄, hw₄⟩ := ih₂.1 hself hpeer s₃ _ _ (hi₂.run hrun₃) hr₃ (hw₃.trans hw₂)
      exact ⟨s₄, ((hrun₁.trans hrun₂).trans hrun₃).trans hrun₄, hc₄.trans hc₃, hr₄, hw₄⟩
    · intro hself hpeer s o cs hi hc hw
      obtain ⟨s₁, n, n', hrun₁, hc₁, hr₁, hw₁⟩ := hi.sendRequest code hc
      have hi₁ := hi.run hrun₁
      obtain ⟨s₂, hrun₂, hc₂, hr₂, hw₂⟩ := ih₁.1 hpeer hself s₁ _ _ hi₁ (by rw [hpeer]; exact hr₁) (hw₁.trans hw)
      have hi₂ := hi₁.run hrun₂
      obtain ⟨s₃, hrun₃, hc₃, hr₃, hw₃⟩ := hi₂.readResponse code (hc₂.trans hc₁) hr₂
      obtain ⟨s₄, hrun₄, hc₄, hr₄, hw₄⟩ := ih₂.2 hself hpeer s₃ _ _ (hi₂.run hrun₃) hc₃ (hw₃.trans hw₂)
      exact ⟨s₄, ((hrun₁.trans hrun₂).trans hrun₃).trans hrun₄, hc₄, hr₄.trans hr₃, hw₄⟩

end LibraryLink.Nested
