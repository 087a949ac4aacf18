import LibraryLink.Lemmas.SharedGenerator
import LibraryLink.General.Runs

/-!
# Every call on a shared generator gets its own responses

For any number of threads, any calls and any interleaving that the lock allows, in every state reached: a call that has
returned, returned the responses to its own messages, in the order of its own list; each response goes to one call or is on
its way. Without new calls every run comes to an end, and while a call has not returned the system can go on.
-/

namespace LibraryLink.Shared

open Relation

variable {τ : Type} [DecidableEq τ]

/-- What a call returned is its own: its messages are one block of the requests written, in order, no other request is its,
and the responses at the same place of those given are the ones it returned. -/
def OwnResponses (s : State τ) (r : Return) : Prop :=
  r.responses.length = r.call.messages.length ∧
    ∃ before after before' after', s.sent = before ++ r.call.messages.map (r.number, ·) ++ after ∧
      (∀ m ∈ before ++ after, m.1 ≠ r.number) ∧ s.answered = before' ++ r.call.messages.zip r.responses ++ after' ∧
      before'.length = before.length

/-- The responses are given in the order of the requests, every call returns once at most and returns its own responses, and
the responses given are those returned, those the call inside has read, and those on their way, each of them once. -/
structure Delivered (s : State τ) : Prop where
  inOrder : s.answered.map Prod.fst <+: s.sent.map Prod.snd
  once : (s.returns.map Return.number).Nodup
  own : ∀ r ∈ s.returns, OwnResponses s r
  conserved : ∃ read, s.answered.map Prod.snd = s.returns.flatMap Return.responses ++ read ++ s.toClient.map Frame.message ∧
    (read = [] ∨ ∃ t number call operations, s.threads t = .inside number call operations read)

omit [DecidableEq τ] in
/-- The numbers under which requests of some calls are written are the numbers of these calls. -/
theorem number_of_mem_sentBy {returns : List Return} {m : Nat × Message} (h : m ∈ sentBy returns) :
    m.1 ∈ returns.map Return.number := by
  obtain ⟨r, hr, hm⟩ := List.mem_flatMap.mp h
  obtain ⟨_, _, rfl⟩ := List.mem_map.mp hm
  exact List.mem_map_of_mem hr

omit [DecidableEq τ] in
/-- The responses to calls that have returned are what they returned. -/
theorem answeredTo_responses {returns : List Return} (h : ∀ r ∈ returns, r.responses.length = r.call.messages.length) :
    (answeredTo returns).map Prod.snd = returns.flatMap Return.responses := by
  rw [answeredTo, List.map_flatMap]
  refine List.flatMap_congr ?_
  intro r hr
  exact List.map_snd_zip (h r hr).le

omit [DecidableEq τ] in
/-- What is written beyond the calls that have returned belongs to none of them. -/
theorem Inv.current_number {s : State τ} (h : Inv s) {sent : List (Nat × Message)} {answered : List (Message × Message)}
    (hcur : Current s sent answered) {r : Return} (hr : r ∈ s.returns) {m : Nat × Message} (hm : m ∈ sent) :
    m.1 ≠ r.number := by
  cases hcur with
  | free _ _ _ _ _ => cases hm
  | @held t number _ _ _ _ _ _ ht _ _ _ _ _ _ =>
    obtain ⟨_, _, rfl⟩ := List.mem_map.mp hm
    exact ((h.numbered.under t number (by rw [ht]; rfl)).2 r hr).symm

omit [DecidableEq τ] in
/-- A call that has returned has its own responses. -/
theorem Inv.own {s : State τ} (h : Inv s) {r : Return} (hr : r ∈ s.returns) : OwnResponses s r := by
  obtain ⟨sent, answered, hsent, hanswered, hcur⟩ := h.current
  obtain ⟨l₁, l₂, hl⟩ := List.append_of_mem hr
  have hnodup := h.numbered.once
  have hcomplete := h.complete
  rw [hl, List.map_append, List.map_cons] at hnodup
  rw [hl] at hcomplete
  refine ⟨h.complete r hr, sentBy l₁, sentBy l₂ ++ sent, answeredTo l₁, answeredTo l₂ ++ answered, ?_, ?_, ?_, ?_⟩
  · rw [hsent, hl]
    simp [sentBy]
  · intro m hm heq
    obtain ⟨-, hnodup₂, hdisj⟩ := List.nodup_append.mp hnodup
    rcases List.mem_append.mp hm with hm | hm
    · exact hdisj m.1 (number_of_mem_sentBy hm) r.number List.mem_cons_self heq
    · rcases List.mem_append.mp hm with hm | hm
      · exact (List.nodup_cons.mp hnodup₂).1 (heq ▸ number_of_mem_sentBy hm)
      · exact h.current_number hcur hr hm heq
  · rw [hanswered, hl]
    simp [answeredTo]
  · exact length_answeredTo fun x hx => hcomplete x (List.mem_append_left _ hx)

omit [DecidableEq τ] in
/-- The invariant delivers the responses. -/
theorem Inv.delivered {s : State τ} (h : Inv s) : Delivered s := by
  refine ⟨?_, h.numbered.once, fun r hr => h.own hr, ?_⟩
  · rw [h.served, h.flow]
    exact (List.take_prefix _ _).trans (List.prefix_append _ _)
  · obtain ⟨sent, answered, hsent, hanswered, hcur⟩ := h.current
    have hres : s.answered.map Prod.snd = s.returns.flatMap Return.responses ++ answered.map Prod.snd := by
      rw [hanswered, List.map_append, answeredTo_responses h.complete]
    cases hcur with
    | free _ _ _ _ hq => exact ⟨[], by rw [hres, hq]; simp, Or.inl rfl⟩
    | held _ ht _ _ _ _ _ hsnd => exact ⟨_, by rw [hres, hsnd, List.append_assoc], Or.inr ⟨_, _, _, _, ht⟩⟩

/-- While a call is under way the system can go on without a new one. -/
theorem Inv.progress {s : State τ} (h : Inv s) {t : τ} (ht : s.threads t ≠ .idle) : ∃ s', Work s s' := by
  obtain ⟨sent, answered, hsent, hanswered, hcur⟩ := h.current
  cases hcur with
  | free ho hin _ _ _ =>
    cases hplace : s.threads t with
    | idle => exact absurd hplace ht
    | blocked number call => exact ⟨_, Or.inl ⟨t, .enter s number call hplace ho⟩⟩
    | inside number call operations responses => exact absurd (by rw [hplace]; trivial) (hin t)
  | @held t' number call operations responses written answered _ ht' _ hm hw htag hpre hres =>
    cases operations with
    | cons op operations => exact ⟨_, Or.inl ⟨t', .perform s number call op operations responses ht'⟩⟩
    | nil =>
      have hbuf := hw.of_done.2
      rw [requestsOf_nil, List.append_nil] at hm
      have hlen := congrArg List.length hres
      have hle := hpre.length_le
      rw [List.length_map, List.length_append, List.length_map] at hlen
      rw [List.length_map] at hle
      cases hq : s.toClient with
      | cons f queue =>
        rw [hq, List.length_cons] at hlen
        refine ⟨_, Or.inl ⟨t', .read s number call responses f queue ht' (by rw [hm]; omega) hq ?_⟩⟩
        rw [htag f (by rw [hq]; exact List.mem_cons_self)]
        decide
      | nil =>
        rw [hq, List.length_nil, Nat.add_zero] at hlen
        by_cases hdone : responses.length = call.messages.length
        · exact ⟨_, Or.inl ⟨t', .leave s number call responses ht' hdone⟩⟩
        · -- some message of the call has no answer yet
          have hlt : s.answered.length < s.sent.length := by
            rw [hsent, hanswered, List.length_append, List.length_append, length_answeredTo h.complete, List.length_map]
            rw [hm] at hdone
            omega
          have hflow := congrArg List.length h.flow
          rw [List.length_map, List.length_append] at hflow
          by_cases htaken : s.answered.length < s.taken.length
          · exact ⟨_, Or.inr (.answer s _ .empty (List.getElem?_eq_getElem htaken))⟩
          · cases hrec : s.toReceiver with
            | nil =>
              rw [State.pending, hrec, hbuf] at hflow
              simp at hflow
              omega
            | cons f queue => exact ⟨_, Or.inr (.take s f queue hrec)⟩

/-- In every state that any threads reach: the responses are delivered, each to its own call; and all calls made return, as there
is no infinite run without new calls, and as long as some call has not returned there is a step that goes on with those made. -/
theorem shared_generator {s : State τ} (hs : ReflTransGen Step ({} : State τ) s) :
    Delivered s ∧ Acc (fun s' s => Work s s') s ∧ ((∃ t, s.threads t ≠ .idle) → ∃ s', Work s s') := by
  have h : Inv s := Runs.invariant (I := Inv) (fun _ _ hi hst => hi.step hst) hs Inv.start
  exact ⟨h.delivered, h.terminates, fun ⟨_, ht⟩ => h.progress ht⟩

/-- The rule at two threads, one of which has returned while the other waits. -/
theorem shared_generator_two :
    ∃ s : State Bool, ReflTransGen Step {} s ∧ s.returns.length = 1 ∧ s.threads true ≠ .idle ∧
      (Delivered s ∧ Acc (fun s' s => Work s s') s ∧ ((∃ t, s.threads t ≠ .idle) → ∃ s', Work s s')) := by
  have h₀ := ReflTransGen.refl (r := Step) (a := ({} : State Bool))
  have h₁ := h₀.tail (Or.inl ⟨false, .call _ (.sendRequest .empty) rfl⟩)
  have h₂ := h₁.tail (Or.inl ⟨true, .call _ (.sendRequests [.empty, .empty]) rfl⟩)
  have h₃ := h₂.tail (Or.inr (Or.inl ⟨false, .enter _ 0 (.sendRequest .empty) rfl rfl⟩))
  have h₄ := h₃.tail (Or.inr (Or.inl ⟨false, .perform _ 0 _ (.request .empty) [] [] rfl⟩))
  have h₅ := h₄.tail (Or.inr (Or.inr (.take _ ⟨.request, .empty⟩ [] rfl)))
  have h₆ := h₅.tail (Or.inr (Or.inr (.answer _ .empty .empty rfl)))
  have h₇ := h₆.tail (Or.inr (Or.inl ⟨false, .read _ 0 (.sendRequest .empty) [] ⟨.response, .empty⟩ [] rfl
    (by decide) rfl (by decide)⟩))
  have h₈ := h₇.tail (Or.inr (Or.inl ⟨false, .leave _ 0 (.sendRequest .empty) [.empty] rfl rfl⟩))
  exact ⟨_, h₈, rfl, nofun, shared_generator h₈⟩

end LibraryLink.Shared
