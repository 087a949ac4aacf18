import LibraryLink.ThrowingCallbacks
import LibraryLink.General.Runs
import Mathlib.Data.List.Nodup

/-!
# Exceptions of callback receivers

An exception that goes all the way to the outermost caller does no harm: what the receiver still has under way stays below
everything that comes later. One that an enclosing callback receiver catches does if that receiver then returns: its response is
taken by the `callback_handler` of a callback that nobody handles any more. As long as this does not happen, and no nested
`process_request` raises, every `sendRequest` that returns has the response to its own request.
-/

namespace LibraryLink.Throwing

open Relation

variable {P : Type}

/-! ## The two stacks -/

/-- The requests under way at the receiver below the client's own code, with the `sendRequest` calls below that code: each of these
calls waits for one of them, in order, and between them are those that an exception has left. -/
inductive Below : List Waiting → List Nat → Prop
  | main (ns : List Nat) : Below [] ns
  | callback {w : Waiting} {ws : List Waiting} {ns : List Nat} (rest : List Nat) : Below ws ns → (w.left = false → rest = []) →
      Below (w :: ws) (rest ++ w.request :: ns)

/-- Below a callback receiver that no exception has come to is the request that waits for it. -/
theorem Below.top {w : Waiting} {ws : List Waiting} {ns : List Nat} (h : Below (w :: ws) ns) (hleft : w.left = false) :
    ∃ ns', ns = w.request :: ns' ∧ Below ws ns' := by
  cases h with
  | @callback _ _ ns' rest hbelow hrest =>
    rw [hrest hleft]
    exact ⟨ns', rfl, hbelow⟩

/-- A request that waits for a callback is below it. -/
theorem Below.push {w : Waiting} {ws : List Waiting} {ns : List Nat} (h : Below ws ns) :
    Below ({ w with left := false } :: ws) (w.request :: ns) :=
  .callback [] h fun _ => rfl

/-- An exception leaves a request of the receiver over what waits below. -/
theorem Below.throw {w : Waiting} {ws : List Waiting} {ns : List Nat} (h : Below (w :: ws) ns) : Below (markLeft ws) ns := by
  cases h with
  | @callback _ _ ns' rest hbelow _ =>
    cases hbelow with
    | main _ => exact .main _
    | @callback v vs ns'' rest' hbelow' _ =>
      have happend : rest ++ w.request :: (rest' ++ v.request :: ns'') = (rest ++ w.request :: rest') ++ v.request :: ns'' := by
        rw [List.append_assoc]
        rfl
      rw [happend]
      exact .callback (w := { v with left := true }) _ hbelow' nofun

/-! ## The invariant -/

/-- Where the control is: in the client's code, on the way to the receiver, in the code that the receiver executes, on the way back,
or nowhere, the receiver having ended. -/
inductive Phase (s : State P) : Prop
  | client : s.running = true → s.reading = true → s.toReceiver = [] → s.toClient = [] → s.requests = s.taken →
      Below s.waiting s.executing → Phase s
  | request {w : Waiting} {ws : List Waiting} {message : P} : s.running = false → s.waiting = w :: ws →
      w.request = s.taken.length → s.reading = true → s.toReceiver = [(.request, message)] → s.toClient = [] →
      s.requests = s.taken ++ [message] → Below ws s.executing → Phase s
  | receiver {w : Waiting} {ws : List Waiting} {ns : List Nat} : s.running = false → s.waiting = w :: ws → s.reading = false →
      s.executing = w.request :: ns → s.toReceiver = [] → s.toClient = [] → s.requests = s.taken → Below ws ns → Phase s
  | callback {w : Waiting} {ws : List Waiting} {ns : List Nat} {message : P} : s.running = false → s.waiting = w :: ws →
      s.reading = true → s.executing = w.request :: ns → s.toReceiver = [] → s.toClient = [(.callbackRequest, message)] →
      s.requests = s.taken → Below ws ns → Phase s
  | callbackResponse {w : Waiting} {ws : List Waiting} {ns : List Nat} {response : P} : s.running = false → s.waiting = w :: ws →
      s.reading = true → s.executing = w.request :: ns → s.toReceiver = [(.callbackResponse, response)] → s.toClient = [] →
      s.requests = s.taken → Below ws ns → Phase s
  | response {w : Waiting} {ws : List Waiting} {response : P} : s.running = false → s.waiting = w :: ws → s.reading = true →
      s.toReceiver = [] → s.toClient = [(.response, response)] → s.requests = s.taken → (w.request, response) ∈ s.responses →
      Below ws s.executing → Phase s
  | ended : s.running = false → s.reading = false → s.executing = [] → s.toReceiver = [] → s.toClient = [] →
      s.requests = s.taken → Phase s

/-- The invariant: the control is in one place; a request is under way or answered, once; and every `sendRequest` that has returned
has the response to its own request. -/
structure Inv (s : State P) : Prop where
  phase : Phase s
  numbers : (s.executing ++ s.responses.map Prod.fst).Nodup
  numbers_lt : ∀ n ∈ s.executing ++ s.responses.map Prod.fst, n < s.taken.length
  returned : ∀ n payload, (n, payload) ∈ s.returns → (n, payload) ∈ s.responses

theorem Inv.start : Inv ({} : State P) :=
  ⟨.client rfl rfl rfl rfl rfl (.main []), List.nodup_nil, nofun, nofun⟩

/-! ## Where the control is -/

/-- While the client's code runs, the receiver reads, and there are no frames. -/
theorem Phase.of_running {s : State P} (h : Phase s) (hrun : s.running = true) :
    s.reading = true ∧ s.toReceiver = [] ∧ s.toClient = [] ∧ s.requests = s.taken ∧ Below s.waiting s.executing := by
  cases h with
  | client _ hread hr hc hreq hbelow => exact ⟨hread, hr, hc, hreq, hbelow⟩
  | _ => simp_all

/-- While the receiver's code runs, a `sendRequest` waits for the request that it executes, and there are no frames. -/
theorem Phase.of_executing {s : State P} (h : Phase s) (hread : s.reading = false) {n : Nat} {ns : List Nat}
    (hns : s.executing = n :: ns) :
    ∃ w ws, s.running = false ∧ s.waiting = w :: ws ∧ n = w.request ∧ s.toReceiver = [] ∧ s.toClient = [] ∧
      s.requests = s.taken ∧ Below ws ns := by
  cases h with
  | receiver hrun hw _ hns' hr hc hreq hbelow =>
    obtain ⟨rfl, rfl⟩ := List.cons.inj (hns.symm.trans hns')
    exact ⟨_, _, hrun, hw, rfl, hr, hc, hreq, hbelow⟩
  | _ => simp_all

/-- A frame to the client is a callback request, of the request that is executed, or the response to the request that is waited for. -/
theorem Phase.of_toClient {s : State P} (h : Phase s) {tag : Tag} {payload : P} {queue : List (Tag × P)}
    (hq : s.toClient = (tag, payload) :: queue) :
    queue = [] ∧ s.reading = true ∧ s.toReceiver = [] ∧ s.requests = s.taken ∧ ∃ w ws, s.waiting = w :: ws ∧
      ((tag = .callbackRequest ∧ ∃ ns, s.executing = w.request :: ns ∧ Below ws ns) ∨
        (tag = .response ∧ (w.request, payload) ∈ s.responses ∧ Below ws s.executing)) := by
  cases h with
  | callback _ hw hread hns hr hc hreq hbelow =>
    obtain ⟨hf, rfl⟩ := List.cons.inj (hq.symm.trans hc)
    exact ⟨rfl, hread, hr, hreq, _, _, hw, Or.inl ⟨(Prod.mk.inj hf).1, _, hns, hbelow⟩⟩
  | response _ hw hread hr hc hreq hmem hbelow =>
    obtain ⟨hf, rfl⟩ := List.cons.inj (hq.symm.trans hc)
    obtain ⟨htag, rfl⟩ := Prod.mk.inj hf
    exact ⟨rfl, hread, hr, hreq, _, _, hw, Or.inr ⟨htag, hmem, hbelow⟩⟩
  | _ => simp_all

/-- A frame to the receiver is the request of the innermost `sendRequest`, or the response to a callback of the request executed. -/
theorem Phase.of_toReceiver {s : State P} (h : Phase s) {tag : Tag} {payload : P} {queue : List (Tag × P)}
    (hq : s.toReceiver = (tag, payload) :: queue) :
    queue = [] ∧ s.running = false ∧ s.toClient = [] ∧ ∃ w ws, s.waiting = w :: ws ∧
      ((tag = .request ∧ w.request = s.taken.length ∧ s.requests = s.taken ++ [payload] ∧ Below ws s.executing) ∨
        (tag = .callbackResponse ∧ s.requests = s.taken ∧ ∃ ns, s.executing = w.request :: ns ∧ Below ws ns)) := by
  cases h with
  | request hrun hw hnumber _ hr hc hreq hbelow =>
    obtain ⟨hf, rfl⟩ := List.cons.inj (hq.symm.trans hr)
    obtain ⟨htag, rfl⟩ := Prod.mk.inj hf
    exact ⟨rfl, hrun, hc, _, _, hw, Or.inl ⟨htag, hnumber, hreq, hbelow⟩⟩
  | callbackResponse hrun hw _ hns hr hc hreq hbelow =>
    obtain ⟨hf, rfl⟩ := List.cons.inj (hq.symm.trans hr)
    exact ⟨rfl, hrun, hc, _, _, hw, Or.inr ⟨(Prod.mk.inj hf).1, hreq, _, hns, hbelow⟩⟩
  | _ => simp_all

/-! ## Steps -/

/-- A step of the client keeps the invariant if it is allowed. -/
theorem Inv.clientStep {s s' : State P} {a : Action P} (h : Inv s) (hs : clientStep s a = some s') (ha : Allowed s a) : Inv s' := by
  cases a with
  | sendRequest message =>
    simp only [Throwing.clientStep] at hs
    split at hs
    · rename_i hrun
      obtain rfl := Option.some.inj hs
      obtain ⟨hread, hr, hc, hreq, hbelow⟩ := h.phase.of_running hrun
      have hnumber : s.requests.length = s.taken.length := by rw [hreq]
      have hqueue : s.toReceiver ++ [(Tag.request, message)] = [(Tag.request, message)] := by rw [hr]; rfl
      have hmessages : s.requests ++ [message] = s.taken ++ [message] := by rw [hreq]
      exact ⟨.request rfl rfl hnumber hread hqueue hc hmessages hbelow, h.numbers, h.numbers_lt, h.returned⟩
    · cases hs
  | returnCallback response =>
    simp only [Throwing.clientStep] at hs
    split at hs
    · rename_i hcond
      obtain rfl := Option.some.inj hs
      obtain ⟨hread, hr, hc, hreq, hbelow⟩ := h.phase.of_running hcond.1
      obtain ⟨w, ws, hw⟩ := List.exists_cons_of_ne_nil hcond.2
      have hleft : w.left = false := ha w (by rw [hw]; rfl)
      rw [hw] at hbelow
      obtain ⟨ns, hns, hbelow'⟩ := hbelow.top hleft
      have hqueue : s.toReceiver ++ [(Tag.callbackResponse, response)] = [(Tag.callbackResponse, response)] := by rw [hr]; rfl
      exact ⟨.callbackResponse rfl hw hread hns hqueue hc hreq hbelow', h.numbers, h.numbers_lt, h.returned⟩
    · cases hs
  | throwCallback =>
    simp only [Throwing.clientStep] at hs
    split at hs
    · rename_i w ws hrun hw
      obtain rfl := Option.some.inj hs
      obtain ⟨hread, hr, hc, hreq, hbelow⟩ := h.phase.of_running hrun
      rw [hw] at hbelow
      exact ⟨.client hrun hread hr hc hreq hbelow.throw, h.numbers, h.numbers_lt, h.returned⟩
    · cases hs
  | readResponse =>
    simp only [Throwing.clientStep] at hs
    split at hs
    · rename_i w ws tag payload queue hrun hw hq
      obtain ⟨rfl, hread, hr, hreq, v, vs, hv, hcase⟩ := h.phase.of_toClient hq
      obtain ⟨rfl, rfl⟩ := List.cons.inj (hw.symm.trans hv)
      rcases hcase with ⟨rfl, ns, hns, hbelow⟩ | ⟨rfl, hmem, hbelow⟩
      · rw [if_pos rfl] at hs
        obtain rfl := Option.some.inj hs
        refine ⟨.client rfl hread hr rfl hreq ?_, h.numbers, h.numbers_lt, h.returned⟩
        show Below _ s.executing
        rw [hns]
        exact hbelow.push
      · rw [if_neg Tag.noConfusion] at hs
        obtain rfl := Option.some.inj hs
        refine ⟨.client rfl hread hr rfl hreq hbelow, h.numbers, h.numbers_lt, ?_⟩
        intro n p hm
        rcases List.mem_append.mp hm with hm | hm
        · exact h.returned n p hm
        · obtain ⟨rfl, rfl⟩ := Prod.mk.inj (List.mem_singleton.mp hm)
          exact hmem
    · cases hs
  | _ => cases hs

/-- A request that is taken gets a number of its own. -/
theorem numbers_take {executing : List Nat} {responses : List (Nat × P)} {k : Nat}
    (h : (executing ++ responses.map Prod.fst).Nodup) (hlt : ∀ n ∈ executing ++ responses.map Prod.fst, n < k) :
    ((k :: executing) ++ responses.map Prod.fst).Nodup ∧ ∀ n ∈ (k :: executing) ++ responses.map Prod.fst, n < k + 1 := by
  constructor
  · rw [List.cons_append, List.nodup_cons]
    exact ⟨fun hmem => Nat.lt_irrefl k (hlt k hmem), h⟩
  · intro n hn
    rw [List.cons_append] at hn
    rcases List.mem_cons.mp hn with rfl | hn
    · exact Nat.lt_succ_self n
    · exact Nat.lt_succ_of_lt (hlt n hn)

/-- A request that is answered keeps its number. -/
theorem perm_respond {n : Nat} {ns : List Nat} {responses : List (Nat × P)} (response : P) :
    (ns ++ (responses ++ [(n, response)]).map Prod.fst).Perm ((n :: ns) ++ responses.map Prod.fst) := by
  rw [List.map_append, List.map_singleton, ← List.append_assoc]
  exact List.perm_append_comm

/-- The receiver takes a request, or the response to a callback of the request that it executes. -/
theorem Inv.take {s s' : State P} (h : Inv s) (hs : Throwing.receiverStep s .take = some s') : Inv s' := by
  simp only [Throwing.receiverStep] at hs
  split at hs
  · rename_i tag payload queue hread hq
    obtain ⟨rfl, hrun, hc, w, ws, hw, hcase⟩ := h.phase.of_toReceiver hq
    rcases hcase with ⟨rfl, hnumber, hreq, hbelow⟩ | ⟨rfl, hreq, ns, hns, hbelow⟩
    · rw [if_pos rfl] at hs
      obtain rfl := Option.some.inj hs
      have hexecuting : s.taken.length :: s.executing = w.request :: s.executing := by rw [hnumber]
      obtain ⟨hnodup, hlt⟩ := numbers_take h.numbers h.numbers_lt
      refine ⟨.receiver hrun hw rfl hexecuting rfl hc hreq hbelow, hnodup, ?_, h.returned⟩
      intro n hn
      have := hlt n hn
      rw [List.length_append, List.length_singleton]
      exact this
    · have hne : s.executing ≠ [] := hns ▸ List.cons_ne_nil _ _
      rw [if_neg Tag.noConfusion, if_neg hne, if_pos rfl] at hs
      obtain rfl := Option.some.inj hs
      exact ⟨.receiver hrun hw rfl hns rfl hc hreq hbelow, h.numbers, h.numbers_lt, h.returned⟩
  · cases hs

/-- A step of the receiver keeps the invariant if it is allowed. -/
theorem Inv.receiverStep {s s' : State P} {a : Action P} (h : Inv s) (hs : receiverStep s a = some s') (ha : Allowed s a) :
    Inv s' := by
  cases a with
  | take => exact h.take hs
  | doCallback message =>
    simp only [Throwing.receiverStep] at hs
    split at hs
    · rename_i n ns hread hns
      obtain rfl := Option.some.inj hs
      obtain ⟨w, ws, hrun, hw, rfl, hr, hc, hreq, hbelow⟩ := h.phase.of_executing hread hns
      have hqueue : s.toClient ++ [(Tag.callbackRequest, message)] = [(Tag.callbackRequest, message)] := by rw [hc]; rfl
      exact ⟨.callback hrun hw rfl hns hr hqueue hreq hbelow, h.numbers, h.numbers_lt, h.returned⟩
    · cases hs
  | respond response =>
    simp only [Throwing.receiverStep] at hs
    split at hs
    · rename_i n ns hread hns
      obtain rfl := Option.some.inj hs
      obtain ⟨w, ws, hrun, hw, rfl, hr, hc, hreq, hbelow⟩ := h.phase.of_executing hread hns
      have hperm : (ns ++ (s.responses ++ [(w.request, response)]).map Prod.fst).Perm
          (s.executing ++ s.responses.map Prod.fst) := by
        rw [hns]
        exact perm_respond response
      have hqueue : s.toClient ++ [(Tag.response, response)] = [(Tag.response, response)] := by rw [hc]; rfl
      refine ⟨.response hrun hw rfl hr hqueue hreq (List.mem_append_right _ List.mem_cons_self) hbelow,
        hperm.nodup_iff.mpr h.numbers, ?_, fun n p hm => List.mem_append_left _ (h.returned n p hm)⟩
      intro m hm
      exact h.numbers_lt m (hperm.mem_iff.mp hm)
    · cases hs
  | raise =>
    simp only [Throwing.receiverStep] at hs
    split at hs
    · rename_i n hread hns
      obtain rfl := Option.some.inj hs
      obtain ⟨w, ws, hrun, hw, rfl, hr, hc, hreq, -⟩ := h.phase.of_executing hread hns
      have hnumbers := h.numbers
      have hlt := h.numbers_lt
      rw [hns, List.singleton_append] at hnumbers hlt
      refine ⟨.ended hrun hread rfl hr hc hreq, (List.nodup_cons.mp hnumbers).2, ?_, h.returned⟩
      intro m hm
      exact hlt m (List.mem_cons_of_mem _ hm)
    · -- not allowed: the exception would go through a `callback_handler`
      rename_i m n ns hread hns
      simp [Allowed, hns] at ha
    · cases hs
  | _ => cases hs

/-- An allowed step keeps the invariant. -/
theorem Inv.step {s s' : State P} (h : Inv s) (hs : AllowedStep s s') : Inv s' := by
  obtain ⟨a, hstep, ha⟩ := hs
  rcases Option.or_eq_some_iff.mp hstep with hs | ⟨-, hs⟩
  · exact h.clientStep hs ha
  · exact h.receiverStep hs ha

/-- The invariant gives every `sendRequest` its own response. -/
theorem Inv.right {s : State P} (h : Inv s) : Right s := by
  refine ⟨?_, ?_, h.returned⟩
  · cases h.phase with
    | request _ _ _ _ _ _ hreq _ => exact ⟨_, hreq.symm⟩
    | client _ _ _ _ hreq _ => exact hreq ▸ List.prefix_rfl
    | receiver _ _ _ _ _ _ hreq _ => exact hreq ▸ List.prefix_rfl
    | callback _ _ _ _ _ _ hreq _ => exact hreq ▸ List.prefix_rfl
    | callbackResponse _ _ _ _ _ _ hreq _ => exact hreq ▸ List.prefix_rfl
    | response _ _ _ _ _ hreq _ _ => exact hreq ▸ List.prefix_rfl
    | ended _ _ _ _ _ hreq => exact hreq ▸ List.prefix_rfl
  · exact (List.nodup_append.mp h.numbers).2.1

/-- In every run in which no callback receiver returns after an exception has left a `sendRequest` that it called, and no nested
`process_request` raises, in every state reached every `sendRequest` that has returned has the response to its own request. -/
theorem right_of_allowed {s : State P} (h : ReflTransGen AllowedStep ({} : State P) s) : Right s :=
  (Runs.invariant (fun _ _ hi hs => hi.step hs) h Inv.start).right

/-- A request whose first callback sends a request of its own, up to an exception of the callback of that one. -/
def nestedThrow : List (Action Nat) :=
  [.sendRequest 10, .take, .doCallback 20, .readResponse, .sendRequest 11, .take, .doCallback 21, .readResponse, .throwCallback]

/-- Actions one after the other; none where one of them is not possible. -/
def perform (actions : List (Action P)) (s : State P) : Option (State P) :=
  actions.foldlM step s

/-- Actions that are possible make a run. -/
theorem run_of_perform {actions : List (Action P)} {s s' : State P} (h : perform actions s = some s') :
    ReflTransGen AnyStep s s' := by
  induction actions generalizing s with
  | nil =>
    obtain rfl := Option.some.inj h
    exact .refl
  | cons a actions ih =>
    obtain ⟨s₁, hs, h⟩ := Option.bind_eq_some_iff.mp h
    exact .head ⟨a, hs⟩ (ih h)

/-- The rule at a request whose callback receiver throws, and a request after it that the receiver serves in the loop of
`callback_handler`. -/
theorem right_of_allowed_once :
    ∃ s : State Nat, ReflTransGen AllowedStep {} s ∧ s.returns = [(1, 30)] ∧ s.executing = [0] ∧ Right s := by
  have hs := ReflTransGen.refl (r := AllowedStep) (a := ({} : State Nat))
  have h₁ := hs.tail ⟨.sendRequest 10, rfl, trivial⟩
  have h₂ := h₁.tail ⟨.take, rfl, trivial⟩
  have h₃ := h₂.tail ⟨.doCallback 20, rfl, trivial⟩
  have h₄ := h₃.tail ⟨.readResponse, rfl, trivial⟩
  have h₅ := h₄.tail ⟨.throwCallback, rfl, trivial⟩
  have h₆ := h₅.tail ⟨.sendRequest 11, rfl, trivial⟩
  have h₇ := h₆.tail ⟨.take, rfl, trivial⟩
  have h₈ := h₇.tail ⟨.respond 30, rfl, trivial⟩
  have h₉ := h₈.tail ⟨.readResponse, rfl, trivial⟩
  exact ⟨_, h₉, rfl, rfl, right_of_allowed h₉⟩

/-- The exception is caught by the first callback receiver, which then returns: the `sendRequest` of the request 0 returns the
response to the request 1, the only one there is. -/
theorem not_right :
    ∃ s : State Nat, ReflTransGen AnyStep {} s ∧ s.returns = [(0, 31)] ∧ s.responses = [(1, 31)] ∧ ¬Right s := by
  obtain ⟨s, hs⟩ : ∃ s, perform (nestedThrow ++ [.returnCallback 40, .take, .respond 31, .readResponse]) ({} : State Nat) = some s :=
    ⟨_, rfl⟩
  have hreturns : s.returns = [(0, 31)] := by
    rw [← Option.some.inj hs]
    rfl
  have hresponses : s.responses = [(1, 31)] := by
    rw [← Option.some.inj hs]
    rfl
  refine ⟨s, run_of_perform hs, hreturns, hresponses, ?_⟩
  intro hright
  have hmem := hright.returned 0 31 (by rw [hreturns]; exact List.mem_cons_self)
  rw [hresponses] at hmem
  exact absurd hmem (by decide)

end LibraryLink.Throwing
