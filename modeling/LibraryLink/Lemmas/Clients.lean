import LibraryLink.Lemmas.Lockstep
import LibraryLink.Lemmas.AssignedIds
import LibraryLink.CppClients
import Mathlib.Data.List.Induction

/-!
# Helpers for `Theorems/Clients.lean`: each client as if it were alone

The receiver that serves all clients goes in lockstep with one receiver for each client, which serves this client only. Each of
these has a copy of its memory in the common one, at addresses of its own, and its ids are the common ones counted by client.
-/

namespace LibraryLink.Cpp.Process

open Outcome

variable {S C : Type} [DecidableEq C]

/-! ## Ids -/

/-- The id of the `k`-th request of a client, where the clients' requests come in a given order. -/
def Named (order : List C) (c : C) (key : String) (k : Nat) : Prop :=
  ∃ before after, order = before ++ c :: after ∧ before.count c = k ∧ key = toString before.length

/-- The id of a request, and the id it has where the client is alone. -/
def OwnId (order : List C) (c : C) (key key₀ : String) : Prop := ∃ k, Named order c key k ∧ key₀ = toString k

/-- An id is of one request only. -/
theorem Named.injective {order : List C} {c d : C} {key : String} {k l : Nat} (h : Named order c key k)
    (h' : Named order d key l) : c = d ∧ k = l := by
  obtain ⟨before, after, rfl, rfl, rfl⟩ := h
  obtain ⟨before', after', heq, rfl, hkey⟩ := h'
  obtain ⟨rfl, hcons⟩ := List.append_inj heq (Decimals.toString_injective hkey)
  obtain ⟨rfl, -⟩ := List.cons.inj hcons
  exact ⟨rfl, rfl⟩

/-- A request has one id. -/
theorem Named.unique {order : List C} {c : C} {key key' : String} {k : Nat} (h : Named order c key k)
    (h' : Named order c key' k) : key = key' := by
  obtain ⟨before, after, rfl, rfl, rfl⟩ := h
  obtain ⟨before', after', heq, hcount, rfl⟩ := h'
  rcases List.append_eq_append_iff.mp heq with ⟨x, rfl, hx⟩ | ⟨x, rfl, hx⟩
  · cases x with
    | nil => rw [List.append_nil]
    | cons d x =>
      obtain ⟨rfl, -⟩ := List.cons.inj hx
      rw [List.count_append, List.count_cons_self] at hcount
      omega
  · cases x with
    | nil => rw [List.append_nil]
    | cons d x =>
      obtain ⟨rfl, -⟩ := List.cons.inj hx
      rw [List.count_append, List.count_cons_self] at hcount
      omega

/-- The next request's id. -/
theorem named_next (served : List C) (c : C) (others : List C) :
    Named (served ++ c :: others) c (toString served.length) (served.count c) :=
  ⟨served, others, rfl, rfl, rfl⟩

/-- Every request has an id. -/
theorem exists_named {order : List C} {c : C} {k : Nat} (h : k < order.count c) : ∃ key, Named order c key k := by
  induction order using List.reverseRecOn with
  | nil => exact absurd h (Nat.not_lt_zero k)
  | append_singleton order d ih =>
    by_cases hk : k < order.count c
    · obtain ⟨key, before, after, rfl, hcount, hkey⟩ := ih hk
      exact ⟨key, before, after ++ [d], by simp, hcount, hkey⟩
    · rw [List.count_append, List.count_singleton] at h
      by_cases hd : d = c
      · subst hd
        rw [beq_self_eq_true, if_pos rfl] at h
        have hcount : order.count d = k := by omega
        exact ⟨_, order, [], rfl, hcount, rfl⟩
      · rw [beq_false_of_ne hd] at h
        simp only [Bool.false_eq_true, if_false] at h
        omega

/-! ## The invariant -/

/-- The common receiver and those that serve one client each, when the requests of some clients have been served: the ids are
numbered, what a client has is in the common memory, and what two clients have is apart. -/
structure Together (order served : List C) (s : State S) (f : C → Addr → Addr) (t : C → State S) : Prop where
  ids : Ids s none
  drawn : s.drawn.length = served.length
  idsAlone : ∀ c, Ids (t c) none
  drawnAlone : ∀ c, (t c).drawn.length = served.count c
  related : ∀ c, Related (f c) (OwnId order c) s (t c)
  apart : ∀ c d, c ≠ d → ∀ a < (t c).heap.length, ∀ b < (t d).heap.length, f c a ≠ f d b

theorem Together.start (order : List C) : Together (S := S) order [] {} (fun _ => id) (fun _ => {}) := by
  refine ⟨Ids.start, rfl, fun _ => Ids.start, fun _ => rfl, fun c => ?_, fun _ _ _ => nofun⟩
  exact ⟨embeds_nil _ _, fun _ _ _ => rfl, fun key a ha => nomatch ha⟩

variable {order served others : List C} {c : C} {s : State S} {f : C → Addr → Addr} {t : C → State S}
  {x x₀ : ChannelResponse × State S} {f' : Addr → Addr} {p₀ : Option Addr}

/-- A key that was not drawn has no pointer. -/
theorem Ids.entry_eq_none {s : State S} (h : Ids s none) {key : String} (hkey : key ∉ s.drawn) : s.entry key = none := by
  cases hentry : s.entry key with
  | none => rfl
  | some a => exact absurd (h.stored key a hentry).1 hkey

/-- A step of the client itself. -/
theorem Together.related_self (h : Together order served s f t) (horder : order = served ++ c :: others)
    (hlen : served.length < 2 ^ 64) (halike : AlikeBy (f c) f' p₀ s.drawId.2 (t c).drawId.2 s.drawId.1 (t c).drawId.1 x x₀) :
    Related f' (OwnId order c) x.2 x₀.2 := by
  have hrelated := h.related c
  have hcount : served.count c ≤ served.length := List.count_le_length
  have hid : s.drawId.1 = toString served.length := by
    rw [h.ids.drawId_fst (h.drawn.symm ▸ hlen), h.drawn]
  have hid₀ : (t c).drawId.1 = toString (served.count c) := by
    rw [(h.idsAlone c).drawId_fst (by rw [h.drawnAlone]; omega), h.drawnAlone]
  have hnone : s.entry s.drawId.1 = none := h.ids.entry_eq_none (h.ids.drawId_not_mem (h.drawn.symm ▸ hlen))
  have hnone₀ : (t c).entry (t c).drawId.1 = none :=
    (h.idsAlone c).entry_eq_none ((h.idsAlone c).drawId_not_mem (by rw [h.drawnAlone]; omega))
  have hstores := halike.stores
  have hstores₀ := halike.stores₀
  refine ⟨halike.moves.embeds, ?_, ?_⟩
  · rintro key key₀ ⟨k, hnamed, rfl⟩
    have hnext : Named order c (toString served.length) (served.count c) := horder ▸ named_next served c others
    rw [hstores key, hstores₀ (toString k), hid, hid₀]
    by_cases hkey : key = toString served.length
    · subst hkey
      obtain ⟨-, rfl⟩ := hnamed.injective hnext
      rw [if_pos rfl, if_pos rfl]
      show (p₀.map f').or (s.entry _) = (p₀.or ((t c).entry _)).map f'
      rw [← hid, ← hid₀, hnone, hnone₀, Option.or_none, Option.or_none]
    · have hk : toString k ≠ toString (served.count c) := by
        intro heq
        obtain rfl := Decimals.toString_injective heq
        exact hkey (hnamed.unique hnext)
      rw [if_neg hkey, if_neg hk]
      show s.entry key = ((t c).entry (toString k)).map f'
      rw [hrelated.entries key _ ⟨k, hnamed, rfl⟩]
      exact Option.map_congr fun a ha => (halike.moves.agrees a (hrelated.below _ a ha)).symm
  · intro key a ha
    rw [hstores₀ key] at ha
    split at ha
    · rw [show (t c).drawId.2.entry (t c).drawId.1 = none from hnone₀, Option.or_none] at ha
      exact halike.below a ha
    · exact Nat.lt_of_lt_of_le (hrelated.below key a ha) halike.moves.grows_inner

/-- A step of another client. -/
theorem Together.related_other (h : Together order served s f t) (horder : order = served ++ c :: others)
    (hlen : served.length < 2 ^ 64) (halike : AlikeBy (f c) f' p₀ s.drawId.2 (t c).drawId.2 s.drawId.1 (t c).drawId.1 x x₀)
    {d : C} (hd : d ≠ c) : Related (f d) (OwnId order d) x.2 (t d) := by
  have hrelated := h.related d
  have hid : s.drawId.1 = toString served.length := by
    rw [h.ids.drawId_fst (h.drawn.symm ▸ hlen), h.drawn]
  refine ⟨⟨?_, hrelated.embeds.injective, hrelated.embeds.wellTyped⟩, ?_, hrelated.below⟩
  · intro a o ha
    have halt := (List.getElem?_eq_some_iff.mp ha).1
    rw [halike.moves.frame (f d a) (hrelated.embeds.lt halt) fun b hb => (h.apart d c hd a halt b hb).symm]
    exact hrelated.embeds.objects a o ha
  · rintro key key₀ ⟨k, hnamed, rfl⟩
    have hkey : key ≠ s.drawId.1 := by
      rintro rfl
      rw [hid] at hnamed
      exact hd (hnamed.injective (horder ▸ named_next served c others)).1
    rw [halike.stores key, if_neg hkey]
    exact hrelated.entries key _ ⟨k, hnamed, rfl⟩

/-- What two clients have stays apart. -/
theorem Together.apart_step (h : Together order served s f t)
    (halike : AlikeBy (f c) f' p₀ s.drawId.2 (t c).drawId.2 s.drawId.1 (t c).drawId.1 x x₀) {d : C} (hd : d ≠ c) :
    ∀ a < x₀.2.heap.length, ∀ b < (t d).heap.length, f' a ≠ f d b := by
  intro a ha b hb
  by_cases hold : a < (t c).heap.length
  · rw [show f' a = f c a from halike.moves.agrees a hold]
    exact h.apart c d hd.symm a hold b hb
  · intro heq
    have hfresh : s.heap.length ≤ f' a := halike.moves.fresh a (Nat.not_lt.mp hold) ha
    rw [heq] at hfresh
    exact absurd ((h.related d).embeds.lt hb) (Nat.not_lt.mpr hfresh)

/-- The receiver that serves all and the one that serves this client do the same. -/
theorem Together.step (h : Together order served s f t) (horder : order = served ++ c :: others) (hlen : order.length ≤ 2 ^ 64)
    {r r₀ : MethodCallRequest} (hplays : Plays (OwnId order c) r r₀) (lib : Library S) :
    Lockstep (fun x x₀ => (x.1.result = x₀.1.result ∧ OwnId order c x.1.assignedId x₀.1.assignedId) ∧
        ∃ f', Together order (served ++ [c]) x.2 (Function.update f c f') (Function.update t c x₀.2))
      (serve lib {} (plain r) s) (serve lib {} (plain r₀) (t c)) := by
  have hserved : served.length < 2 ^ 64 := by
    rw [horder, List.length_append, List.length_cons] at hlen
    omega
  have hcount : served.count c ≤ served.length := List.count_le_length
  refine ((h.related c).serve hplays lib).and_right.and_left.mono ?_
  rintro x x₀ ⟨⟨⟨f', p₀, halike⟩, hok₀⟩, hok⟩
  have hdrawn : x.2.drawn = s.drawn ++ [s.drawId.1] := halike.drawn.1
  have hdrawn₀ : x₀.2.drawn = (t c).drawn ++ [(t c).drawId.1] := halike.drawn.2
  have hlength : x.2.drawn.length = served.length + 1 := by
    rw [hdrawn, List.length_append, List.length_singleton, h.drawn]
  have hlength₀ : x₀.2.drawn.length = served.count c + 1 := by
    rw [hdrawn₀, List.length_append, List.length_singleton, h.drawnAlone]
  refine ⟨⟨halike.result, served.count c, ?_, ?_⟩, f', ⟨?_, ?_, ?_, ?_, ?_, ?_⟩⟩
  · rw [halike.assignedId.1, h.ids.drawId_fst (h.drawn.symm ▸ hserved), h.drawn, horder]
    exact named_next served c others
  · rw [halike.assignedId.2, (h.idsAlone c).drawId_fst (by rw [h.drawnAlone]; omega), h.drawnAlone]
  · exact (Keeps.serve rfl hok).ids (by omega) h.ids
  · rw [hlength, List.length_append, List.length_singleton]
  · intro d
    by_cases hd : d = c
    · subst hd
      rw [Function.update_self]
      exact (Keeps.serve rfl hok₀).ids (by omega) (h.idsAlone d)
    · rw [Function.update_of_ne hd]
      exact h.idsAlone d
  · intro d
    by_cases hd : d = c
    · subst hd
      rw [Function.update_self, hlength₀, List.count_append, List.count_singleton_self]
    · rw [Function.update_of_ne hd, h.drawnAlone, List.count_append, List.count_singleton, beq_false_of_ne (Ne.symm hd)]
      rfl
  · intro d
    by_cases hd : d = c
    · subst hd
      rw [Function.update_self, Function.update_self]
      exact h.related_self horder hserved halike
    · rw [Function.update_of_ne hd, Function.update_of_ne hd]
      exact h.related_other horder hserved halike hd
  · intro d e hde
    by_cases hd : d = c
    · subst hd
      rw [Function.update_self, Function.update_self, Function.update_of_ne (Ne.symm hde), Function.update_of_ne (Ne.symm hde)]
      exact h.apart_step halike (Ne.symm hde)
    · rw [Function.update_of_ne hd, Function.update_of_ne hd]
      by_cases he : e = c
      · subst he
        rw [Function.update_self, Function.update_self]
        exact fun a ha b hb => (h.apart_step halike hd b hb a ha).symm
      · rw [Function.update_of_ne he, Function.update_of_ne he]
        exact h.apart d e hde

/-! ## Runs -/

theorem ofClient_cons_self {β : Type} (c : C) (b : β) (l : List (C × β)) : ofClient c ((c, b) :: l) = b :: ofClient c l := by
  simp [ofClient]

theorem ofClient_cons_ne {β : Type} {c d : C} (h : d ≠ c) (b : β) (l : List (C × β)) :
    ofClient c ((d, b) :: l) = ofClient c l := by
  simp [ofClient, h]

/-- The same response, with the id it has where the client is alone. -/
def Answers (order : List C) (c : C) (resp resp₀ : ChannelResponse) : Prop :=
  resp.result = resp₀.result ∧ OwnId order c resp.assignedId resp₀.assignedId

/-- The requests of one client, as a schedule. -/
def alone (c : C) (requests : List MethodCallRequest) : List (C × MethodCallRequest) := requests.map (Prod.mk c)

omit [DecidableEq C] in
/-- A schedule is served when its first request and the others are. -/
theorem serveAll_cons_eq_ok {lib : Library S} {c : C} {r : MethodCallRequest} {schedule : List (C × MethodCallRequest)}
    {s s' : State S} {out : List (C × ChannelResponse)} :
    serveAll lib ((c, r) :: schedule) s = .ok (out, s') ↔
      ∃ x out', serve lib {} (plain r) s = .ok x ∧ serveAll lib schedule x.2 = .ok (out', s') ∧ out = (c, x.1) :: out' := by
  rw [serveAll, bind_eq_ok]
  constructor
  · rintro ⟨x, hx, h⟩
    obtain ⟨⟨out', s''⟩, hout, h⟩ := bind_eq_ok.mp h
    obtain ⟨rfl, rfl⟩ := Prod.mk.inj (Except.ok.inj h)
    exact ⟨x, out', hx, hout, rfl⟩
  · rintro ⟨x, out', hx, hout, rfl⟩
    exact ⟨x, hx, bind_eq_ok.mpr ⟨_, hout, rfl⟩⟩

/-- The requests that a receiver for one client gets instead of those in a schedule. -/
abbrev PlaysAll (order : List C) (schedule : List (C × MethodCallRequest)) (q : C → List MethodCallRequest) : Prop :=
  ∀ c, List.Forall₂ (Plays (OwnId order c)) (ofClient c schedule) (q c)

/-- The first request of a schedule, and the others. -/
theorem PlaysAll.cons {order : List C} {c : C} {r : MethodCallRequest} {schedule : List (C × MethodCallRequest)}
    {q : C → List MethodCallRequest} (h : PlaysAll order ((c, r) :: schedule) q) :
    ∃ r₀ requests, q c = r₀ :: requests ∧ Plays (OwnId order c) r r₀ ∧
      PlaysAll order schedule (Function.update q c requests) := by
  have hc := h c
  rw [ofClient_cons_self] at hc
  obtain ⟨r₀, requests, hplays, hrest, hq⟩ := List.forall₂_cons_left_iff.mp hc
  refine ⟨r₀, requests, hq, hplays, fun d => ?_⟩
  by_cases hd : d = c
  · subst hd
    rw [Function.update_self]
    exact hrest
  · rw [Function.update_of_ne hd]
    have hother := h d
    rw [ofClient_cons_ne (Ne.symm hd)] at hother
    exact hother

/-- Where the common receiver serves a schedule, the one for each client serves its requests, with the same responses. -/
theorem Together.run {lib : Library S} {schedule : List (C × MethodCallRequest)} {q : C → List MethodCallRequest} {s' : State S}
    {out : List (C × ChannelResponse)} (h : Together order served s f t) (horder : order = served ++ schedule.map Prod.fst)
    (hlen : order.length ≤ 2 ^ 64) (hplays : PlaysAll order schedule q) (hok : serveAll lib schedule s = .ok (out, s')) (c : C) :
    ∃ out₀ t', serveAll lib (alone c (q c)) (t c) = .ok (out₀, t') ∧
      List.Forall₂ (Answers order c) (ofClient c out) (out₀.map Prod.snd) := by
  induction schedule generalizing served s f t q out with
  | nil =>
    obtain ⟨rfl, rfl⟩ := Prod.mk.inj (Except.ok.inj hok)
    have hnil : q c = [] := List.forall₂_nil_left_iff.mp (hplays c)
    rw [hnil]
    exact ⟨[], t c, rfl, .nil⟩
  | cons entry schedule ih =>
    obtain ⟨d, r⟩ := entry
    obtain ⟨x, out', hx, hout, rfl⟩ := serveAll_cons_eq_ok.mp hok
    obtain ⟨r₀, requests, hq, hplay, hrest⟩ := hplays.cons
    obtain ⟨x₀, hx₀, hanswers, f', htogether⟩ := (h.step (horder.trans rfl) hlen hplay lib).exists_right hx
    obtain ⟨out₀, t', hout₀, hall⟩ := ih htogether (by simp [horder]) hrest hout
    by_cases hc : c = d
    · subst hc
      rw [Function.update_self, Function.update_self] at hout₀
      refine ⟨(c, x₀.1) :: out₀, t', ?_, ?_⟩
      · rw [hq]
        exact serveAll_cons_eq_ok.mpr ⟨x₀, out₀, hx₀, hout₀, rfl⟩
      · rw [ofClient_cons_self, List.map_cons]
        exact .cons hanswers hall
    · rw [Function.update_of_ne hc, Function.update_of_ne hc] at hout₀
      refine ⟨out₀, t', hout₀, ?_⟩
      rw [ofClient_cons_ne (Ne.symm hc)]
      exact hall

/-- Where the receiver for each client serves its requests, the common one serves the schedule. -/
theorem Together.exists_run {lib : Library S} {schedule : List (C × MethodCallRequest)} {q : C → List MethodCallRequest}
    (h : Together order served s f t) (horder : order = served ++ schedule.map Prod.fst) (hlen : order.length ≤ 2 ^ 64)
    (hplays : PlaysAll order schedule q) (hok : ∀ c, ∃ out₀ t', serveAll lib (alone c (q c)) (t c) = .ok (out₀, t')) :
    ∃ out s', serveAll lib schedule s = .ok (out, s') := by
  induction schedule generalizing served s f t q with
  | nil => exact ⟨[], s, rfl⟩
  | cons entry schedule ih =>
    obtain ⟨d, r⟩ := entry
    obtain ⟨r₀, requests, hq, hplay, hrest⟩ := hplays.cons
    obtain ⟨out₀, t', hd⟩ := hok d
    rw [hq] at hd
    obtain ⟨x₀, out₀', hx₀, hout₀, -⟩ := serveAll_cons_eq_ok.mp hd
    obtain ⟨x, hx, -, f', htogether⟩ := (h.step (horder.trans rfl) hlen hplay lib).exists_left hx₀
    obtain ⟨out, s', hout⟩ := ih htogether (by simp [horder]) hrest fun c => by
      by_cases hc : c = d
      · subst hc
        rw [Function.update_self, Function.update_self]
        exact ⟨_, _, hout₀⟩
      · rw [Function.update_of_ne hc, Function.update_of_ne hc]
        exact hok c
    exact ⟨_, _, serveAll_cons_eq_ok.mpr ⟨x, out, hx, hout, rfl⟩⟩

end LibraryLink.Cpp.Process
