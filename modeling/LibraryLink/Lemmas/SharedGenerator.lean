import LibraryLink.SharedGenerator
import LibraryLink.General.Runs
import Mathlib.Data.List.Nodup
import Mathlib.Data.Prod.Lex

/-!
# Helpers for `Theorems/SharedGenerator.lean`: the blocks of the calls

The lock makes the REQUEST frames of a call one block of the stream, and the responses come in the order of the requests: what
was written and what was answered is the blocks of the calls that have returned and a part of the block of the call inside.
-/

namespace LibraryLink.Shared

variable {τ : Type}

/-! ## What an operation changes -/

/-- The messages of the REQUEST frames that the receiver has not taken. -/
def State.pending (s : State τ) : List Message := (s.toReceiver ++ s.buffered).flatMap requestOf

/-- The messages that some operations write as requests. -/
def requestsOf (operations : List FramingOp) : List Message :=
  operations.flatMap fun
    | .request message => [message]
    | .buffering _ => []

@[simp] theorem requestsOf_nil : requestsOf [] = [] := rfl

@[simp] theorem requestsOf_request (message : Message) (ops : List FramingOp) :
    requestsOf (.request message :: ops) = message :: requestsOf ops := rfl

@[simp] theorem requestsOf_buffering (value : Bool) (ops : List FramingOp) :
    requestsOf (.buffering value :: ops) = requestsOf ops := rfl

/-- The requests of a list of messages and what follows. -/
theorem requestsOf_append (messages : List Message) (ops : List FramingOp) :
    requestsOf (messages.map .request ++ ops) = messages ++ requestsOf ops := by
  induction messages with
  | nil => rfl
  | cons message messages ih => rw [List.map_cons, List.cons_append, requestsOf_request, ih, List.cons_append]

/-- A call writes its messages. -/
theorem requestsOf_operations (c : Call) : requestsOf c.operations = c.messages := by
  cases c with
  | sendRequest message => rfl
  | sendRequests messages =>
    rw [Call.operations, requestsOf_buffering, requestsOf_append]
    exact List.append_nil messages

/-- An operation changes the framing and what is written, and nothing else. -/
structure Performs (s s' : State τ) (number : Nat) (op : FramingOp) : Prop where
  threads : s'.threads = s.threads
  owner : s'.owner = s.owner
  toClient : s'.toClient = s.toClient
  calls : s'.calls = s.calls
  taken : s'.taken = s.taken
  answered : s'.answered = s.answered
  returns : s'.returns = s.returns
  sent : s'.sent = s.sent ++ (requestsOf [op]).map (number, ·)
  pending : s'.pending = s.pending ++ requestsOf [op]

/-- Every operation is like that, whether its frames are held back or not. -/
theorem performs (s : State τ) (number : Nat) (op : FramingOp) : Performs s (s.perform number op) number op := by
  cases op with
  | request message =>
    cases hb : s.buffering <;> constructor <;>
      simp [State.perform, State.write, State.pending, requestOf, requestsOf, hb]
  | buffering value =>
    cases value <;> constructor <;>
      simp [State.perform, State.write, State.flush, State.pending, requestOf, requestsOf, FramingOp.frame]

/-! ## The invariant -/

/-- The number of the call a thread is in. -/
def Thread.number : Thread → Option Nat
  | .idle => none
  | .blocked number _ => some number
  | .inside number _ _ _ => some number

/-- The thread is inside. -/
def Thread.IsInside : Thread → Prop
  | .inside _ _ _ _ => True
  | _ => False

/-- What the calls that have returned wrote. -/
def sentBy (returns : List Return) : List (Nat × Message) := returns.flatMap fun r => r.call.messages.map (r.number, ·)

/-- What was answered to the calls that have returned. -/
def answeredTo (returns : List Return) : List (Message × Message) := returns.flatMap fun r => r.call.messages.zip r.responses

/-- Where the framing stands while a call has these operations left: nothing is held back before the first and after the
last. -/
inductive Writing : Bool → List Frame → List FramingOp → Prop
  | single (message : Message) : Writing false [] [.request message]
  | start (messages : List Message) : Writing false [] (.buffering true :: (messages.map .request ++ [.buffering false]))
  | rest (messages : List Message) (held : List Frame) :
      Writing true held (messages.map .request ++ [.buffering false])
  | done : Writing false [] []

/-- What is written and answered beyond the calls that have returned: nothing while no thread is inside, and otherwise a part
of the block of the one call inside. -/
inductive Current (s : State τ) : List (Nat × Message) → List (Message × Message) → Prop
  | free : s.owner = none → (∀ t, ¬(s.threads t).IsInside) → s.buffering = false → s.buffered = [] → s.toClient = [] →
      Current s [] []
  | held {t number call operations responses written answered} : s.owner = some t →
      s.threads t = .inside number call operations responses → (∀ u, (s.threads u).IsInside → u = t) →
      call.messages = written ++ requestsOf operations → Writing s.buffering s.buffered operations →
      (∀ f ∈ s.toClient, f.tag = .response) → answered.map Prod.fst <+: written →
      answered.map Prod.snd = responses ++ s.toClient.map Frame.message → Current s (written.map (number, ·)) answered

/-- Who is in which call. -/
structure Numbered (s : State τ) : Prop where
  under : ∀ t n, (s.threads t).number = some n → n < s.calls ∧ ∀ r ∈ s.returns, r.number ≠ n
  distinct : ∀ t u n, (s.threads t).number = some n → (s.threads u).number = some n → t = u
  returned : ∀ r ∈ s.returns, r.number < s.calls
  once : (s.returns.map Return.number).Nodup

/-- The invariant. -/
structure Inv (s : State τ) : Prop where
  numbered : Numbered s
  complete : ∀ r ∈ s.returns, r.responses.length = r.call.messages.length
  flow : s.sent.map Prod.snd = s.taken ++ s.pending
  served : s.answered.map Prod.fst = s.taken.take s.answered.length
  current : ∃ sent answered, s.sent = sentBy s.returns ++ sent ∧ s.answered = answeredTo s.returns ++ answered ∧
    Current s sent answered

theorem Inv.start : Inv ({} : State τ) :=
  ⟨⟨by simp [Thread.number], by simp [Thread.number], by simp, by simp⟩, by simp, rfl, rfl,
    [], [], rfl, rfl, .free rfl (fun _ => id) rfl rfl rfl⟩

/-- What a thread inside knows: no other is, and its block is the current one. -/
theorem Current.of_inside {s : State τ} {sent : List (Nat × Message)} {answered : List (Message × Message)}
    (h : Current s sent answered) {t : τ} {number : Nat} {call : Call} {operations : List FramingOp}
    {responses : List Message} (ht : s.threads t = .inside number call operations responses) :
    s.owner = some t ∧ (∀ u, (s.threads u).IsInside → u = t) ∧ Writing s.buffering s.buffered operations ∧
      (∀ f ∈ s.toClient, f.tag = .response) ∧ answered.map Prod.snd = responses ++ s.toClient.map Frame.message ∧
      ∃ written, sent = written.map (number, ·) ∧ call.messages = written ++ requestsOf operations ∧
        answered.map Prod.fst <+: written := by
  have hins : (s.threads t).IsInside := by
    rw [ht]
    trivial
  cases h with
  | free _ hin _ _ _ => exact absurd hins (hin t)
  | held ho ht' hin hm hw htag hpre hres =>
    obtain rfl := hin t hins
    obtain ⟨rfl, rfl, rfl, rfl⟩ := Thread.inside.inj (ht.symm.trans ht')
    exact ⟨ho, hin, hw, htag, hres, _, rfl, hm, hpre⟩

/-- An operation leaves the framing where the next one wants it. -/
theorem Writing.perform {s : State τ} {op : FramingOp} {operations : List FramingOp} (number : Nat)
    (h : Writing s.buffering s.buffered (op :: operations)) :
    Writing (s.perform number op).buffering (s.perform number op).buffered operations := by
  generalize hb : s.buffering = b at h
  generalize hheld : s.buffered = held at h
  generalize hops : op :: operations = ops at h
  cases h with
  | single message =>
    obtain ⟨rfl, rfl⟩ := List.cons.inj hops
    simp only [State.perform, State.write, hb, Bool.false_eq_true, if_false]
    exact .done
  | start messages =>
    obtain ⟨rfl, rfl⟩ := List.cons.inj hops
    exact .rest messages []
  | rest messages held =>
    cases messages with
    | nil =>
      obtain ⟨rfl, rfl⟩ := List.cons.inj hops
      exact .done
    | cons message messages =>
      obtain ⟨rfl, rfl⟩ := List.cons.inj hops
      simp only [State.perform, State.write, hb, if_true]
      exact .rest messages _
  | done => cases hops

/-- What the output stream writes out by itself changes nothing for the operations left. -/
theorem Writing.overflow {b : Bool} {f : Frame} {held : List Frame} {operations : List FramingOp}
    (h : Writing b (f :: held) operations) : Writing b held operations := by
  cases h with
  | rest messages _ => exact .rest messages held

/-- A call begins with all its operations to do. -/
theorem Writing.operations (c : Call) : Writing false [] c.operations := by
  cases c with
  | sendRequest message => exact .single message
  | sendRequests messages => exact .start messages

/-- After the last operation nothing is held back. -/
theorem Writing.of_done {b : Bool} {held : List Frame} (h : Writing b held []) : b = false ∧ held = [] := by
  generalize hops : ([] : List FramingOp) = ops at h
  cases h with
  | single message => cases hops
  | start messages => cases hops
  | rest messages held => cases messages <;> cases hops
  | done => exact ⟨rfl, rfl⟩

/-- A call that has all its responses has had its whole block written and answered, and nothing of it is left. -/
theorem Current.of_returning {s : State τ} {sent : List (Nat × Message)} {answered : List (Message × Message)}
    (h : Current s sent answered) {t : τ} {number : Nat} {call : Call} {responses : List Message}
    (ht : s.threads t = .inside number call [] responses) (hlen : responses.length = call.messages.length) :
    (∀ u, (s.threads u).IsInside → u = t) ∧ s.buffering = false ∧ s.buffered = [] ∧ s.toClient = [] ∧
      sent = call.messages.map (number, ·) ∧ answered = call.messages.zip responses := by
  obtain ⟨-, hin, hw, -, hres, written, rfl, hm, hpre⟩ := h.of_inside ht
  obtain ⟨hb, hbuf⟩ := hw.of_done
  rw [requestsOf_nil, List.append_nil] at hm
  have hlen₁ : answered.length = responses.length + s.toClient.length := by
    simpa using congrArg List.length hres
  have hlen₂ : answered.length ≤ written.length := by
    simpa using hpre.length_le
  have hq : s.toClient = [] := by
    rw [← hm, ← hlen] at hlen₂
    exact List.length_eq_zero_iff.mp (by omega)
  have hfst : answered.map Prod.fst = call.messages := by
    rw [hm]
    refine hpre.eq_of_length ?_
    rw [List.length_map, hlen₁, hq, ← hm, hlen]
    rfl
  have hzip : answered = call.messages.zip responses := by
    rw [← hfst, ← List.append_nil responses, ← List.map_nil, ← hq, ← hres]
    exact List.zip_of_prod rfl rfl
  exact ⟨hin, hb, hbuf, hq, by rw [hm], hzip⟩

/-- The block of a call that returns is the next one. -/
theorem sentBy_append (returns : List Return) (r : Return) :
    sentBy (returns ++ [r]) = sentBy returns ++ r.call.messages.map (r.number, ·) := by
  simp [sentBy]

theorem answeredTo_append (returns : List Return) (r : Return) :
    answeredTo (returns ++ [r]) = answeredTo returns ++ r.call.messages.zip r.responses := by
  simp [answeredTo]

/-- What is written and answered for calls that have returned is of one length. -/
theorem length_answeredTo {returns : List Return} (h : ∀ r ∈ returns, r.responses.length = r.call.messages.length) :
    (answeredTo returns).length = (sentBy returns).length := by
  induction returns with
  | nil => rfl
  | cons r returns ih =>
    have hr := h r List.mem_cons_self
    have hrest := ih fun x hx => h x (List.mem_cons_of_mem r hx)
    simp only [answeredTo, sentBy, List.flatMap_cons, List.length_append, List.length_zip, List.length_map] at hrest ⊢
    rw [hrest, hr, Nat.min_self]

/-- A prefix grows by the next element. -/
theorem prefix_concat {α : Type} {l w : List α} {x : α} (h : l <+: w) (hx : w[l.length]? = some x) : l ++ [x] <+: w := by
  obtain ⟨r, rfl⟩ := h
  rw [List.getElem?_append_right (Nat.le_refl _), Nat.sub_self] at hx
  cases r with
  | nil => cases hx
  | cons y r =>
    obtain rfl : y = x := Option.some.inj hx
    exact ⟨r, by rw [List.append_assoc]; rfl⟩

/-- What is answered was taken. -/
theorem Inv.answered_le {s : State τ} (h : Inv s) : s.answered.length ≤ s.taken.length := by
  have := congrArg List.length h.served
  rw [List.length_map, List.length_take] at this
  omega

/-- The message to be answered next is the first of those written and not answered. -/
theorem Inv.next_request {s : State τ} (h : Inv s) {sent : List (Nat × Message)} {answered : List (Message × Message)}
    (hsent : s.sent = sentBy s.returns ++ sent) (hanswered : s.answered = answeredTo s.returns ++ answered)
    {request : Message} (hr : s.taken[s.answered.length]? = some request) :
    (sent.map Prod.snd)[answered.length]? = some request := by
  obtain ⟨hlt, -⟩ := List.getElem?_eq_some_iff.mp hr
  have hflow := h.flow
  rw [hsent, List.map_append] at hflow
  have hget : ((sentBy s.returns).map Prod.snd ++ sent.map Prod.snd)[s.answered.length]? = some request := by
    rw [hflow, List.getElem?_append_left hlt, hr]
  have hlen : s.answered.length = (sentBy s.returns).length + answered.length := by
    rw [hanswered, List.length_append, length_answeredTo h.complete]
  rw [hlen, List.getElem?_append_right (by simp)] at hget
  simpa using hget

/-- The output stream and the receiver keep the invariant. -/
theorem Inv.receiverStep {s s' : State τ} (h : Inv s) (hs : ReceiverStep s s') : Inv s' := by
  obtain ⟨sent, answered, hsent, hanswered, hcur⟩ := h.current
  have hnumbered := h.numbered
  cases hs with
  | overflow f rest hbuf =>
    refine ⟨⟨hnumbered.under, hnumbered.distinct, hnumbered.returned, hnumbered.once⟩, h.complete, ?_, h.served, sent,
      answered, hsent, hanswered, ?_⟩
    · rw [h.flow, State.pending, State.pending, hbuf, List.append_cons]
    · cases hcur with
      | free _ _ _ hbuf' _ => simp [hbuf] at hbuf'
      | held ho ht hin hm hw htag hpre hres => exact .held ho ht hin hm (hbuf ▸ hw).overflow htag hpre hres
  | take f queue hq =>
    refine ⟨⟨hnumbered.under, hnumbered.distinct, hnumbered.returned, hnumbered.once⟩, h.complete, ?_, ?_, sent,
      answered, hsent, hanswered, ?_⟩
    · rw [h.flow, State.pending, State.pending, hq, List.cons_append, List.flatMap_cons, List.append_assoc]
    · rw [List.take_append_of_le_length h.answered_le, h.served]
    · cases hcur with
      | free ho hin hb hbuf hq => exact .free ho hin hb hbuf hq
      | held ho ht hin hm hw htag hpre hres => exact .held ho ht hin hm hw htag hpre hres
  | answer request response hr =>
    have hnext := h.next_request hsent hanswered hr
    refine ⟨⟨hnumbered.under, hnumbered.distinct, hnumbered.returned, hnumbered.once⟩, h.complete, h.flow, ?_, sent,
      answered ++ [(request, response)], hsent, ?_, ?_⟩
    · rw [List.map_append, h.served, List.length_append, List.length_singleton, List.take_add_one, hr]
      rfl
    · rw [hanswered, List.append_assoc]
    · cases hcur with
      | free _ _ _ _ _ => cases hnext
      | @held t number call operations responses written answered ho ht hin hm hw htag hpre hres =>
        refine .held ho ht hin hm hw ?_ ?_ ?_
        · intro g hg
          rcases List.mem_append.mp hg with hg | hg
          · exact htag g hg
          · rw [List.mem_singleton.mp hg]
        · rw [List.map_append]
          refine prefix_concat hpre ?_
          simpa using hnext
        · rw [List.map_append, List.map_append, hres, List.append_assoc]
          rfl

variable [DecidableEq τ]

/-- The threads after one of them went on. -/
theorem goto_threads (s : State τ) (t u : τ) (place : Thread) :
    (s.goto t place).threads u = if u = t then place else s.threads u :=
  Function.update_apply s.threads t place u

/-- A thread that goes on in its call keeps the numbers apart. -/
theorem Numbered.goto {s s' : State τ} (h : Numbered s) {t : τ} {p : Thread} (hn : p.number = (s.threads t).number)
    (ht : s'.threads = (s.goto t p).threads) (hc : s'.calls = s.calls) (hr : s'.returns = s.returns) : Numbered s' := by
  have hnum : ∀ u, (s'.threads u).number = (s.threads u).number := by
    intro u
    rw [ht, goto_threads]
    split
    · rename_i hu
      rw [hu, hn]
    · rfl
  refine ⟨?_, ?_, ?_, ?_⟩
  · intro u n hu
    rw [hc, hr]
    exact h.under u n (by rw [← hnum]; exact hu)
  · intro u v n hu hv
    exact h.distinct u v n (by rw [← hnum]; exact hu) (by rw [← hnum]; exact hv)
  · rw [hc, hr]
    exact h.returned
  · rw [hr]
    exact h.once

/-- A call that returns keeps the numbers apart. -/
theorem Numbered.leave {s s' : State τ} (h : Numbered s) {t : τ} {number : Nat} {call : Call} {operations : List FramingOp}
    {responses : List Message} (ht : s.threads t = .inside number call operations responses)
    (ht' : s'.threads = (s.goto t .idle).threads) (hc : s'.calls = s.calls)
    (hr : s'.returns = s.returns ++ [⟨number, call, responses⟩]) : Numbered s' := by
  have hnumber : (s.threads t).number = some number := by
    rw [ht]
    rfl
  have hlt := h.under t number hnumber
  have hother : ∀ u n, (s'.threads u).number = some n → u ≠ t ∧ (s.threads u).number = some n := by
    intro u n hu
    rw [ht', goto_threads] at hu
    split at hu
    · cases hu
    · exact ⟨‹_›, hu⟩
  refine ⟨?_, ?_, ?_, ?_⟩
  · intro u n hu
    obtain ⟨hne, hn⟩ := hother u n hu
    rw [hc, hr]
    refine ⟨(h.under u n hn).1, fun r hmem => ?_⟩
    rcases List.mem_append.mp hmem with hmem | hmem
    · exact (h.under u n hn).2 r hmem
    · rw [List.mem_singleton.mp hmem]
      rintro rfl
      exact hne (h.distinct u t _ hn hnumber)
  · intro u v n hu hv
    exact h.distinct u v n (hother u n hu).2 (hother v n hv).2
  · intro r hmem
    rw [hr] at hmem
    rw [hc]
    rcases List.mem_append.mp hmem with hmem | hmem
    · exact h.returned r hmem
    · rw [List.mem_singleton.mp hmem]
      exact hlt.1
  · rw [hr, List.map_append]
    refine List.nodup_append.mpr ⟨h.once, List.nodup_singleton _, ?_⟩
    rintro n hn m hm rfl
    obtain ⟨r, hr, rfl⟩ := List.mem_map.mp hn
    exact hlt.2 r hr (List.mem_singleton.mp hm)

/-- A call that is made gets a number of its own. -/
theorem Numbered.call {s : State τ} (h : Numbered s) (t : τ) (call : Call) :
    Numbered { s.goto t (.blocked s.calls call) with calls := s.calls + 1 } := by
  refine ⟨?_, ?_, fun r hr => Nat.lt_succ_of_lt (h.returned r hr), h.once⟩
  · intro u n hu
    simp only [goto_threads] at hu
    split at hu
    · cases hu
      exact ⟨Nat.lt_succ_self _, fun r hr => (h.returned r hr).ne⟩
    · have hu' := h.under u n hu
      exact ⟨Nat.lt_succ_of_lt hu'.1, hu'.2⟩
  · intro u v n hu hv
    simp only [goto_threads] at hu hv
    split at hu <;> split at hv
    · simp_all
    · cases hu
      exact absurd (h.under v _ hv).1 (Nat.lt_irrefl _)
    · cases hv
      exact absurd (h.under u _ hu).1 (Nat.lt_irrefl _)
    · exact h.distinct u v n hu hv

/-- A call made keeps the invariant. -/
theorem Inv.callStep {s s' : State τ} {t : τ} (h : Inv s) (hs : CallStep t s s') : Inv s' := by
  obtain ⟨sent, answered, hsent, hanswered, hcur⟩ := h.current
  cases hs with
  | call call hidle =>
    refine ⟨h.numbered.call t call, h.complete, h.flow, h.served, sent, answered, hsent, hanswered, ?_⟩
    cases hcur with
    | free ho hin hb hbuf hq =>
      refine .free ho (fun u hu => ?_) hb hbuf hq
      simp only [goto_threads] at hu
      split at hu
      · exact hu
      · exact hin u hu
    | @held t' number c ops rs written answered ho ht hin hm hw htag hpre hres =>
      have hne : t' ≠ t := by
        rintro rfl
        rw [ht] at hidle
        cases hidle
      refine .held ho ?_ (fun u hu => ?_) hm hw htag hpre hres
      · simp only [goto_threads, hne, if_false]
        exact ht
      · simp only [goto_threads] at hu
        split at hu
        · exact hu.elim
        · exact hin u hu

/-- A thread inside that goes on there stays the only one. -/
theorem goto_inside {s : State τ} {t : τ} (h : ∀ u, (s.threads u).IsInside → u = t) (place : Thread) (u : τ)
    (hu : ((s.goto t place).threads u).IsInside) : u = t := by
  rw [goto_threads] at hu
  split at hu
  · assumption
  · exact h u hu

/-- A thread that enters `synchronized` finds no frames of others. -/
theorem Inv.enter {s : State τ} {t : τ} {number : Nat} {call : Call} (h : Inv s) (ht : s.threads t = .blocked number call)
    (ho : s.owner = none) : Inv { s.goto t (.inside number call call.operations []) with owner := some t } := by
  obtain ⟨sent, answered, hsent, hanswered, hcur⟩ := h.current
  refine ⟨h.numbered.goto (t := t) (p := .inside number call call.operations []) (by rw [ht]; rfl) rfl rfl rfl,
    h.complete, h.flow, h.served, sent, answered, hsent, hanswered, ?_⟩
  cases hcur with
  | free _ hin hb hbuf hq =>
    have hw : Writing s.buffering s.buffered call.operations := by
      rw [hb, hbuf]
      exact .operations call
    have htag : ∀ f ∈ s.toClient, f.tag = .response := by
      rw [hq]
      simp
    have hres : ([] : List (Message × Message)).map Prod.snd = [] ++ s.toClient.map Frame.message := by
      rw [hq]
      rfl
    have hpre : ([] : List (Message × Message)).map Prod.fst <+: ([] : List Message) := List.prefix_rfl
    exact @Current.held _ _ t number call call.operations [] [] [] rfl (by rw [goto_threads, if_pos rfl])
      (goto_inside (fun u hu => absurd hu (hin u)) _) (requestsOf_operations call).symm hw htag hpre hres
  | held ho' _ _ _ _ _ _ _ => simp [ho] at ho'

/-- What a thread writes goes into the streams behind what it has written before. -/
theorem Inv.perform {s : State τ} {t : τ} {number : Nat} {call : Call} {op : FramingOp} {operations : List FramingOp}
    {responses : List Message} (h : Inv s) (ht : s.threads t = .inside number call (op :: operations) responses) :
    Inv ((s.perform number op).goto t (.inside number call operations responses)) := by
  obtain ⟨sent, answered, hsent, hanswered, hcur⟩ := h.current
  obtain ⟨ho, hin, hw, htag, hres, written, rfl, hm, hpre⟩ := hcur.of_inside ht
  have hp := performs s number op
  have hreq : requestsOf (op :: operations) = requestsOf [op] ++ requestsOf operations := by
    cases op <;> rfl
  refine ⟨h.numbered.goto (t := t) (p := .inside number call operations responses) (by rw [ht]; rfl) ?_ hp.calls
    hp.returns, ?_, ?_, ?_, (written ++ requestsOf [op]).map (number, ·), answered, ?_, ?_, ?_⟩
  · simp only [State.goto, hp.threads]
  · exact hp.returns ▸ h.complete
  · show (s.perform number op).sent.map Prod.snd = (s.perform number op).taken ++ (s.perform number op).pending
    rw [hp.sent, hp.taken, hp.pending, List.map_append, h.flow, List.map_map, List.append_assoc]
    congr 2
    exact List.map_id _
  · show (s.perform number op).answered.map Prod.fst = (s.perform number op).taken.take (s.perform number op).answered.length
    rw [hp.answered, hp.taken, h.served]
  · show (s.perform number op).sent = sentBy (s.perform number op).returns ++ _
    rw [hp.sent, hp.returns, hsent, List.map_append, List.append_assoc]
  · show (s.perform number op).answered = answeredTo (s.perform number op).returns ++ answered
    rw [hp.answered, hp.returns, hanswered]
  · refine .held (hp.owner.trans ho) (by rw [goto_threads, if_pos rfl]) (goto_inside (hp.threads.symm ▸ hin) _) ?_
      (hw.perform number) ?_ (hpre.trans (List.prefix_append _ _)) ?_
    · rw [hm, hreq, List.append_assoc]
    · exact hp.toClient.symm ▸ htag
    · show answered.map Prod.snd = responses ++ (s.perform number op).toClient.map Frame.message
      rw [hp.toClient, hres]

/-- A thread that leaves `synchronized` has read all its responses, and leaves no frames. -/
theorem Inv.leave {s : State τ} {t : τ} {number : Nat} {call : Call} {responses : List Message} (h : Inv s)
    (ht : s.threads t = .inside number call [] responses) (hlen : responses.length = call.messages.length) :
    Inv { s.goto t .idle with owner := none, returns := s.returns ++ [⟨number, call, responses⟩] } := by
  obtain ⟨sent, answered, hsent, hanswered, hcur⟩ := h.current
  obtain ⟨hin, hb, hbuf, hq, rfl, rfl⟩ := hcur.of_returning ht hlen
  refine ⟨h.numbered.leave ht rfl rfl rfl, ?_, h.flow, h.served, [], [], ?_, ?_, ?_⟩
  · intro r hr
    rcases List.mem_append.mp hr with hr | hr
    · exact h.complete r hr
    · rw [List.mem_singleton.mp hr]
      exact hlen
  · rw [sentBy_append, List.append_nil]
    exact hsent
  · rw [answeredTo_append, List.append_nil]
    exact hanswered
  · refine .free rfl (fun u hu => ?_) hb hbuf hq
    rw [goto_threads] at hu
    split at hu
    · exact hu
    · exact absurd (hin u hu) ‹_›

/-- A call that goes on keeps the invariant. -/
theorem Inv.threadStep {s s' : State τ} {t : τ} (h : Inv s) (hs : ThreadStep t s s') : Inv s' := by
  obtain ⟨sent, answered, hsent, hanswered, hcur⟩ := h.current
  cases hs with
  | enter number call ht ho => exact h.enter ht ho
  | perform number call op operations responses ht => exact h.perform ht
  | read number call responses f queue ht hlen hq htag =>
    obtain ⟨ho, hin, hw, hresp, hres, written, rfl, hm, hpre⟩ := hcur.of_inside ht
    refine ⟨h.numbered.goto (t := t) (p := .inside number call [] (responses ++ [f.message])) (by rw [ht]; rfl) rfl rfl
      rfl, h.complete, h.flow, h.served, _, answered, hsent, hanswered, ?_⟩
    refine .held ho (by rw [goto_threads, if_pos rfl]) (goto_inside hin _) hm hw ?_ hpre ?_
    · intro g hg
      exact hresp g (by rw [hq]; exact List.mem_cons_of_mem f hg)
    · rw [hres, hq, List.map_cons, List.append_assoc]
      rfl
  | callback number call responses f queue callbackResponse ht hlen hq htag =>
    -- the receiver sends no CALLBACK_REQUEST
    obtain ⟨-, -, -, hresp, -⟩ := hcur.of_inside ht
    have := hresp f (by rw [hq]; exact List.mem_cons_self)
    simp [htag] at this
  | leave number call responses ht hlen => exact h.leave ht hlen

/-- A step other than a new call keeps the invariant. -/
theorem Inv.work {s s' : State τ} (h : Inv s) (hs : Work s s') : Inv s' := by
  rcases hs with ⟨t, hs⟩ | hs
  · exact h.threadStep hs
  · exact h.receiverStep hs

/-- Every step keeps the invariant. -/
theorem Inv.step {s s' : State τ} (h : Inv s) (hs : Step s s') : Inv s' := by
  rcases hs with ⟨t, hs⟩ | hs
  · exact h.callStep hs
  · exact h.work hs

/-! ## The calls made come to their end -/

/-- The operations that a thread has left. -/
def Thread.operations : Thread → List FramingOp
  | .inside _ _ operations _ => operations
  | _ => []

/-- The entries and returns still to come for the calls made. -/
def State.turns (s : State τ) : Nat := 2 * (s.calls - s.returns.length) + if s.owner = none then 1 else 0

/-- What frames on their way still make the output stream, the receiver and the client do. -/
def State.onTheWay (s : State τ) : Nat :=
  4 * s.buffered.length + 3 * s.toReceiver.length + 2 * (s.taken.length - s.answered.length) + s.toClient.length

/-- What is still to be done before the thread inside leaves. -/
def State.work (s : State τ) : Nat := 5 * (s.owner.elim 0 fun t => (s.threads t).operations.length) + s.onTheWay

/-- What is still to be done for the calls made. -/
def State.rank (s : State τ) : Nat ×ₗ Nat := toLex (s.turns, s.work)

omit [DecidableEq τ] in
/-- A step within a call. -/
theorem rank_lt_of_work {s s' : State τ} (hc : s'.calls = s.calls) (hr : s'.returns = s.returns) (ho : s'.owner = s.owner)
    (h : s'.work < s.work) : s'.rank < s.rank := by
  have hturns : s'.turns = s.turns := by
    unfold State.turns
    rw [hc, hr, ho]
  unfold State.rank
  rw [hturns]
  exact Prod.Lex.toLex_lt_toLex.mpr (Or.inr ⟨rfl, h⟩)

omit [DecidableEq τ] in
/-- An operation puts one frame on its way. -/
theorem onTheWay_perform (s : State τ) (number : Nat) (op : FramingOp) :
    (s.perform number op).onTheWay ≤ s.onTheWay + 4 := by
  cases op with
  | request message =>
    cases hb : s.buffering <;> simp [State.perform, State.write, State.onTheWay, hb] <;> omega
  | buffering value =>
    cases value <;> simp [State.perform, State.write, State.flush, State.onTheWay] <;> omega

omit [DecidableEq τ] in
/-- A call that has not returned is not among those that have. -/
theorem Numbered.length_lt {s : State τ} (h : Numbered s) {t : τ} {n : Nat} (hn : (s.threads t).number = some n) :
    s.returns.length < s.calls := by
  obtain ⟨hlt, hne⟩ := h.under t n hn
  have hnodup : (n :: s.returns.map Return.number).Nodup := by
    refine List.nodup_cons.mpr ⟨fun hmem => ?_, h.once⟩
    obtain ⟨r, hr, heq⟩ := List.mem_map.mp hmem
    exact hne r hr heq
  have hsubset : (n :: s.returns.map Return.number) ⊆ List.range s.calls := by
    intro m hm
    rcases List.mem_cons.mp hm with rfl | hm
    · exact List.mem_range.mpr hlt
    · obtain ⟨r, hr, rfl⟩ := List.mem_map.mp hm
      exact List.mem_range.mpr (h.returned r hr)
  have hlen := List.Nodup.length_le_of_subset hnodup hsubset
  rw [List.length_cons, List.length_map, List.length_range] at hlen
  exact hlen

omit [DecidableEq τ] in
/-- The output stream and the receiver get nearer to the end. -/
theorem ReceiverStep.rank_lt {s s' : State τ} (hs : ReceiverStep s s') : s'.rank < s.rank := by
  cases hs with
  | overflow f rest hbuf =>
    refine rank_lt_of_work rfl rfl rfl ?_
    simp only [State.work, State.onTheWay, hbuf, List.length_append, List.length_cons, List.length_nil]
    omega
  | take f queue hq =>
    refine rank_lt_of_work rfl rfl rfl ?_
    have hone : (requestOf f).length ≤ 1 := by
      unfold requestOf
      split <;> simp
    simp only [State.work, State.onTheWay, hq, List.length_append, List.length_cons]
    omega
  | answer request response hr =>
    obtain ⟨hlt, -⟩ := List.getElem?_eq_some_iff.mp hr
    refine rank_lt_of_work rfl rfl rfl ?_
    simp only [State.work, State.onTheWay, List.length_append, List.length_singleton]
    omega

/-- A thread that goes on with its call gets nearer to the end. -/
theorem Inv.threadStep_rank_lt {s s' : State τ} {t : τ} (h : Inv s) (hs : ThreadStep t s s') : s'.rank < s.rank := by
  obtain ⟨sent, answered, -, -, hcur⟩ := h.current
  cases hs with
  | enter number call ht ho =>
    refine Prod.Lex.toLex_lt_toLex.mpr (Or.inl ?_)
    simp [State.turns, State.goto, ho]
  | perform number call op operations responses ht =>
    have ho := (hcur.of_inside ht).1
    have hp := performs s number op
    have hway := onTheWay_perform s number op
    refine rank_lt_of_work hp.calls hp.returns hp.owner ?_
    have hway' : ((s.perform number op).goto t (.inside number call operations responses)).onTheWay ≤ s.onTheWay + 4 := hway
    simp only [State.work, show ((s.perform number op).goto t _).owner = some t from hp.owner.trans ho, ho, Option.elim_some,
      goto_threads, if_true, ht, Thread.operations, List.length_cons]
    omega
  | read number call responses f queue ht hlen hq htag =>
    have ho := (hcur.of_inside ht).1
    refine rank_lt_of_work rfl rfl rfl ?_
    simp only [State.work, State.onTheWay, State.goto, ho, Option.elim_some, Function.update_self, ht, hq, Thread.operations,
      List.length_cons]
    omega
  | callback number call responses f queue callbackResponse ht hlen hq htag =>
    obtain ⟨-, -, -, hresp, -⟩ := hcur.of_inside ht
    have := hresp f (by rw [hq]; exact List.mem_cons_self)
    simp [htag] at this
  | leave number call responses ht hlen =>
    have ho := (hcur.of_inside ht).1
    have hlt := h.numbered.length_lt (t := t) (n := number) (by rw [ht]; rfl)
    refine Prod.Lex.toLex_lt_toLex.mpr (Or.inl ?_)
    simp only [State.turns, State.goto, ho, List.length_append, List.length_singleton, if_true, reduceCtorEq, if_false]
    omega

/-- Without new calls there is no infinite run. -/
theorem Inv.terminates {s : State τ} (h : Inv s) : Acc (fun s' s => Work s s') s := by
  refine Runs.terminates_of_rank (I := Inv) wellFounded_lt State.rank (fun a b ha hs => ⟨ha.work hs, ?_⟩) h
  rcases hs with ⟨t, hs⟩ | hs
  · exact ha.threadStep_rank_lt hs
  · exact hs.rank_lt

end LibraryLink.Shared
