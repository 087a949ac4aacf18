import LibraryLink.CppCallbacks
import LibraryLink.General.Runs
import Mathlib.Data.List.Nodup

/-!
# Responses and callbacks of the C++ receiver

As long as no handler calls `do_callback`, each `sendRequest` returns the response to its own request, in every state of every
run. One call of `do_callback` is enough to break this: the client's answer stays in the channel, and the loop takes it for the
next request.
-/

namespace LibraryLink.Cpp.Callbacks

open Relation

variable {σ : Type} {receiver : Receiver σ}

/-- Every `sendRequest` that has returned has the response computed for the request of its number, and no CALLBACK_RESPONSE
was taken for a request or answered. -/
structure Right (s : State σ) : Prop where
  inOrder : s.takenRequests <+: s.requests
  oneResponse : (s.responses.map Prod.fst).Nodup
  returned : ∀ number response, (number, response) ∈ s.returns → (.request number, response) ∈ s.responses
  taken : ∀ f ∈ s.taken, f.1 ≠ .callbackResponse
  answered : ∀ r ∈ s.responses, r.1 ≠ .other .callbackResponse

/-! ## Runs without callbacks -/

/-- Where the one request under way is. -/
inductive Phase (s : State σ) : Prop
  | running : s.running = true → s.waiting = [] → s.loop = .reading → s.toReceiver = [] → s.toClient = [] →
      s.requests = s.takenRequests → s.responses.length = s.requests.length → Phase s
  | request {message} : s.running = false → s.waiting = [s.responses.length] → s.loop = .reading →
      s.toReceiver = [(.request, message)] → s.toClient = [] → s.requests = s.takenRequests ++ [message] →
      s.responses.length = s.takenRequests.length → Phase s
  | handling {response} : s.running = false → s.waiting = [s.responses.length] →
      s.loop = .handling (.request s.responses.length) ⟨[], response⟩ → s.toReceiver = [] → s.toClient = [] →
      s.requests = s.takenRequests → s.responses.length + 1 = s.requests.length → Phase s
  | response {number payload} : s.running = false → s.waiting = [number] → s.loop = .reading → s.toReceiver = [] →
      s.toClient = [(.response, payload)] → s.requests = s.takenRequests → s.responses.length = s.requests.length →
      (.request number, payload) ∈ s.responses → Phase s
  | ended {number} : s.running = false → s.waiting = [number] → s.loop = .ended → s.toReceiver = [] → s.toClient = [] →
      s.takenRequests <+: s.requests → Phase s

/-- The invariant of runs without callbacks. -/
structure Inv (s : State σ) : Prop where
  phase : Phase s
  taken : ∀ f ∈ s.taken, f.1 = .request
  numbered : s.responses.map Prod.fst = (List.range s.responses.length).map .request
  returned : ∀ number response, (number, response) ∈ s.returns → (.request number, response) ∈ s.responses

theorem Inv.start (world : σ) : Inv (start world) :=
  ⟨.running rfl rfl rfl rfl rfl rfl rfl, by simp [Callbacks.start], rfl, by simp [Callbacks.start]⟩

/-- A step of the client keeps the invariant. -/
theorem Inv.clientStep {s s' : State σ} (h : Inv s) (hs : ClientStep s s') : Inv s' := by
  cases hs with
  | sendRequest message hrun =>
    cases h.phase with
    | running _ hw hl hq ht hreq hlen =>
      refine ⟨.request rfl (by rw [hw, hlen]) hl (by rw [hq]; rfl) ht ?_ ?_, h.taken, h.numbered, h.returned⟩
      · rw [hreq]; rfl
      · rw [hlen, hreq]; rfl
    | _ => simp_all
  | handleRequest message queue hrun hq =>
    cases h.phase <;> simp_all
  | callbackResponse response hrun hw =>
    cases h.phase <;> simp_all
  | readResponse number waiting tag response queue hrun hw hq htag =>
    cases h.phase with
    | response _ hw' hl hr ht hreq hlen hmem =>
      obtain ⟨rfl, rfl⟩ := List.cons.inj (hw.symm.trans hw')
      obtain ⟨hf, rfl⟩ := List.cons.inj (hq.symm.trans ht)
      obtain ⟨rfl, rfl⟩ := Prod.mk.inj hf
      refine ⟨.running rfl rfl hl hr rfl hreq hlen, h.taken, h.numbered, ?_⟩
      intro n p hm
      rcases List.mem_append.mp hm with hm | hm
      · exact h.returned n p hm
      · obtain ⟨rfl, rfl⟩ := Prod.mk.inj (List.mem_singleton.mp hm)
        exact hmem
    | _ => simp_all

/-- A response to the next request keeps the responses in order. -/
theorem numbered_append {responses : List (Origin × List UInt8)} {response : List UInt8}
    (h : responses.map Prod.fst = (List.range responses.length).map .request) :
    (responses ++ [(Origin.request responses.length, response)]).map Prod.fst =
      (List.range (responses ++ [(Origin.request responses.length, response)]).length).map .request := by
  rw [List.length_append, List.length_singleton, List.range_succ, List.map_append, List.map_append, h]
  rfl

/-- A step of the receiver keeps the invariant as long as no handler calls `do_callback`. -/
theorem Inv.receiverStep {s s' : State σ} (h : Inv s) (hs : ReceiverStep receiver s s') (hn : NoCallback receiver s) :
    Inv s' := by
  cases hs with
  | leave tag message queue hl hq hend =>
    cases h.phase with
    | request hrun hw _ hq' ht hreq hlen =>
      obtain ⟨-, rfl⟩ := List.cons.inj (hq.symm.trans hq')
      exact ⟨.ended hrun hw rfl rfl ht ⟨_, hreq.symm⟩, h.taken, h.numbered, h.returned⟩
    | _ => simp_all
  | take tag message queue hl hq hne htag =>
    cases h.phase with
    | request hrun hw _ hq' ht hreq hlen =>
      have hcb := hn hl tag message queue hq hne htag
      obtain ⟨hf, rfl⟩ := List.cons.inj (hq.symm.trans hq')
      obtain ⟨rfl, rfl⟩ := Prod.mk.inj hf
      have htaken : requestsOf (s.taken ++ [(.request, message)]) = requestsOf s.taken ++ [message] :=
        List.filterMap_append
      have hloop : Loop.handling (s.origin .request) (receiver.processRequest s.world message).1 =
          .handling (.request s.responses.length) ⟨[], (receiver.processRequest s.world message).1.response⟩ := by
        rw [State.origin, if_pos rfl, ← hlen, ← hcb]
      refine ⟨.handling hrun hw hloop rfl ht (hreq.trans htaken.symm) ?_, ?_, h.numbered, h.returned⟩
      · rw [hreq, List.length_append, hlen]
        rfl
      · intro f hf
        rcases List.mem_append.mp hf with hf | hf
        · exact h.taken f hf
        · rw [List.mem_singleton.mp hf]
    | _ => simp_all
  | doCallback origin message callbacks response hl => cases h.phase <;> simp_all
  | respond origin response hl =>
    cases h.phase with
    | handling hrun hw hl' hq ht hreq hlen =>
      obtain ⟨rfl, hrest⟩ := Loop.handling.inj (hl.symm.trans hl')
      refine ⟨.response hrun hw rfl hq (by rw [ht]; rfl) hreq ?_ (List.mem_append_right _ List.mem_cons_self), h.taken,
        numbered_append h.numbered, fun n p hm => List.mem_append_left _ (h.returned n p hm)⟩
      rw [List.length_append, ← hlen]
      rfl
    | _ => simp_all
  | terminate origin hl =>
    cases h.phase with
    | handling hrun hw _ hq ht hreq _ =>
      exact ⟨.ended hrun hw rfl hq ht ⟨[], by rw [List.append_nil]; exact hreq.symm⟩, h.taken, h.numbered, h.returned⟩
    | _ => simp_all

/-- A run without callbacks keeps the invariant. -/
theorem Inv.run {s s' : State σ} (h : Inv s) (hs : ReflTransGen (QuietStep receiver) s s') : Inv s' :=
  Runs.invariant (fun _ _ hi hst => hst.elim hi.clientStep fun hr => hi.receiverStep hr.1 hr.2) hs h

/-- The invariant gives each `sendRequest` its own response. -/
theorem Inv.right {s : State σ} (h : Inv s) : Right s := by
  refine ⟨?_, ?_, h.returned, ?_, ?_⟩
  · cases h.phase with
    | running _ _ _ _ _ hreq _ => exact ⟨[], by rw [List.append_nil, hreq]⟩
    | request _ _ _ _ _ hreq _ => exact ⟨_, hreq.symm⟩
    | handling _ _ _ _ _ hreq _ => exact ⟨[], by rw [List.append_nil, hreq]⟩
    | response _ _ _ _ _ hreq _ _ => exact ⟨[], by rw [List.append_nil, hreq]⟩
    | ended _ _ _ _ _ hpre => exact hpre
  · rw [h.numbered]
    exact List.nodup_range.map fun _ _ heq => Origin.request.inj heq
  · intro f hf heq
    exact absurd ((h.taken f hf).symm.trans heq) (by decide)
  · intro r hr heq
    have hmem : r.1 ∈ (List.range s.responses.length).map Origin.request := by
      rw [← h.numbered]
      exact List.mem_map_of_mem hr
    obtain ⟨n, -, hn⟩ := List.mem_map.mp hmem
    rw [heq] at hn
    exact absurd hn (by simp)

/-- Without callbacks a `sendRequest` under way goes on until the receiver has left its loop. -/
theorem Inv.progress {s : State σ} (h : Inv s) (hrun : s.running = false) :
    s.loop = .ended ∨ ∃ s', Step receiver s s' := by
  cases h.phase with
  | running hrun' _ _ _ _ _ _ => simp [hrun] at hrun'
  | @request message _ _ hl hq _ _ _ =>
    by_cases hend : message = []
    · exact Or.inr ⟨_, Or.inr (.leave s _ _ _ hl hq (Or.inl hend))⟩
    · exact Or.inr ⟨_, Or.inr (.take s _ _ _ hl hq hend (by decide))⟩
  | @handling response _ _ hl _ _ _ _ =>
    cases response with
    | none => exact Or.inr ⟨_, Or.inr (.terminate s _ hl)⟩
    | some response => exact Or.inr ⟨_, Or.inr (.respond s _ _ hl)⟩
  | response _ hw _ _ ht _ _ _ => exact Or.inr ⟨_, Or.inl (.readResponse s _ _ _ _ _ hrun hw ht (by decide))⟩
  | ended _ _ hl _ _ _ => exact Or.inl hl

/-- In every run in which no handler calls `do_callback`, in every state reached each `sendRequest` has its own response and
no CALLBACK_RESPONSE is taken for a request; and one that has not returned can go on unless the receiver has left its loop. -/
theorem right_of_quiet {world : σ} {s : State σ} (hs : ReflTransGen (QuietStep receiver) (start world) s) :
    Right s ∧ (s.running = false → s.loop = .ended ∨ ∃ s', Step receiver s s') :=
  ⟨((Inv.start world).run hs).right, ((Inv.start world).run hs).progress⟩

/-- A receiver whose handler for the payload `call` issues one callback, and which ends in an exception for any payload
that is not known to it, as `process_request` does. -/
def oneCallback (call callback response : List UInt8) : Receiver Unit where
  processRequest _ message := (if message = call then ⟨[callback], some response⟩ else ⟨[], none⟩, ())

/-- A receiver that gives every request the same response and calls nothing. -/
def silent (response : List UInt8) : Receiver Unit where
  processRequest _ _ := (⟨[], some response⟩, ())

/-- The rule at a `sendRequest` that has returned. -/
theorem right_of_quiet_once :
    ∃ s, ReflTransGen (QuietStep (silent [2])) (start ()) s ∧ s.returns = [(0, [2])] ∧
      (Right s ∧ (s.running = false → s.loop = .ended ∨ ∃ s', Step (silent [2]) s s')) := by
  have hquiet : ∀ s, NoCallback (silent [2]) s := fun _ _ _ _ _ _ _ _ => rfl
  have hs := ReflTransGen.refl (r := QuietStep (silent [2])) (a := start ())
  have h₁ := hs.tail (Or.inl (.sendRequest _ [1] rfl))
  have h₂ := h₁.tail (Or.inr ⟨.take _ .request [1] [] rfl rfl (by decide) (by decide), hquiet _⟩)
  have h₃ := h₂.tail (Or.inr ⟨.respond _ (.request 0) [2] rfl, hquiet _⟩)
  have h₄ := h₃.tail (Or.inl (.readResponse _ 0 [] .response [2] [] rfl rfl rfl (by decide)))
  exact ⟨_, h₄, rfl, right_of_quiet h₄⟩

/-! ## One callback -/

/-- The client's answer to a callback, `0a 00` for one that returns no value, is taken for a request. -/
theorem not_right_of_callback :
    ¬∀ (σ : Type) (receiver : Receiver σ) (world : σ) (s : State σ),
      ReflTransGen (Step receiver) (start world) s → Right s := by
  intro h
  have hs := ReflTransGen.refl (r := Step (oneCallback [1] [2] [3])) (a := start ())
  have h₁ := hs.tail (Or.inl (.sendRequest _ [1] rfl))
  have h₂ := h₁.tail (Or.inr (.take _ .request [1] [] rfl rfl (by decide) (by decide)))
  have h₃ := h₂.tail (Or.inr (.doCallback _ (.request 0) [2] [] (some [3]) rfl))
  have h₄ := h₃.tail (Or.inl (.handleRequest _ [2] [] rfl rfl))
  have h₅ := h₄.tail (Or.inl (.callbackResponse _ [10, 0] rfl (by decide)))
  have h₆ := h₅.tail (Or.inr (.respond _ (.request 0) [3] rfl))
  have h₇ := h₆.tail (Or.inr (.take _ .callbackResponse [10, 0] [] rfl rfl (by decide) (by decide)))
  exact (h Unit _ () _ h₇).taken (.callbackResponse, [10, 0]) (by decide) rfl

end LibraryLink.Cpp.Callbacks
