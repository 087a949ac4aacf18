import LibraryLink.Theorems.CppBytes
import LibraryLink.ThreadLocalGenerator

/-!
# What threads with channels of their own see

The calls of all threads are linearizable: there is one order in which the receiver, with a single client, answers them as it did. No
thread waits for another.
-/

namespace LibraryLink.ThreadLocalGenerator

open Relation
open Linearizable (Event Status Linearization WellFormed)
open Cpp (writeFrame expected)
open Cpp.Process (Server State serve)
open Cpp.Batch (Linked whole)

variable {S : Type} {linked : Linked S}

/-! ## A link, and where its thread stands -/

/-- Nothing is held back by the framing. -/
structure Link.Flushed (link : Link) : Prop where
  buffering : link.framing.buffering = false
  buffer : link.framing.outputStream.buffer = []

/-- The link of a thread, by where the thread stands; `written` are the bytes that the receiver has written to it, and `served`
says that the loop of its channel runs. -/
inductive Matches (written : List UInt8) (served : Prop) : Option Link → Status Message (List UInt8) → Prop
  | unconnected : written = [] → ¬served → Matches written served none .idle
  | idle (link : Link) : link.Flushed → link.call = none → link.consumed = link.framing.outputStream.base.length →
      link.received = written.length → served → Matches written served (some link) .idle
  | called (link : Link) (n : Nat) (requestMessage : Message) : link.Flushed → link.call = some n →
      link.toReceiver = (Frame.mk .request requestMessage).encode → link.received = written.length →
      (¬served → requestMessage.bytes = []) → Matches written served (some link) (.called n requestMessage)
  | answered (link : Link) (n : Nat) (data : List UInt8) : link.Flushed → link.call = some n →
      link.consumed = link.framing.outputStream.base.length → written.drop link.received = writeFrame Tag.response.code data →
      data.length < 2 ^ 31 → served → Matches written served (some link) (.answered n data)

/-- The system as an object that is used by one thread at a time. -/
structure Simulates (linked : Linked S) (v : System S) (a : Linearizable.State Nat Message (List UInt8) (State S)) : Prop where
  object : a.object = v.server.state
  calls : a.calls = v.calls
  history : a.history = v.history
  channels : v.server.channels.Nodup
  links : ∀ t, Matches (v.written linked t) (t ∈ v.server.channels) (v.localFraming t) (a.status t)

variable {v : System S} {a : Linearizable.State Nat Message (List UInt8) (State S)} {t : Nat}

section

variable {written : List UInt8} {served : Prop} {status : Status Message (List UInt8)} {link : Link}

theorem Matches.of_none (h : Matches written served none status) : status = .idle ∧ written = [] ∧ ¬served := by
  cases h with
  | unconnected hwritten hserved => exact ⟨rfl, hwritten, hserved⟩

theorem Matches.of_call_none (h : Matches written served (some link) status) (hcall : link.call = none) :
    status = .idle ∧ link.Flushed ∧ link.consumed = link.framing.outputStream.base.length ∧ link.received = written.length ∧
      served := by
  cases h with
  | idle _ hflushed _ hconsumed hreceived hserved => exact ⟨rfl, hflushed, hconsumed, hreceived, hserved⟩
  | called _ n _ _ hsome => simp [hcall] at hsome
  | answered _ n _ _ hsome => simp [hcall] at hsome

/-- There is something to read for the receiver where a call is open only. -/
theorem Matches.of_toReceiver (h : Matches written served (some link) status) (hne : link.toReceiver ≠ []) :
    ∃ n requestMessage, status = .called n requestMessage ∧ link.Flushed ∧ link.call = some n ∧
      link.toReceiver = (Frame.mk .request requestMessage).encode ∧ link.received = written.length ∧
      (¬served → requestMessage.bytes = []) := by
  have hnil : link.consumed = link.framing.outputStream.base.length → link.toReceiver = [] := by
    intro hconsumed
    rw [Link.toReceiver, hconsumed, List.drop_length]
  cases h with
  | idle _ _ _ hconsumed => exact absurd (hnil hconsumed) hne
  | called _ n requestMessage hflushed hcall hbytes hreceived hserved =>
    exact ⟨n, requestMessage, rfl, hflushed, hcall, hbytes, hreceived, hserved⟩
  | answered _ _ _ _ _ hconsumed => exact absurd (hnil hconsumed) hne

/-- There is something to read for a thread where its call has been answered only. -/
theorem Matches.of_written (h : Matches written served (some link) status) (hne : written.drop link.received ≠ []) :
    ∃ n data, status = .answered n data ∧ link.Flushed ∧ link.call = some n ∧
      link.consumed = link.framing.outputStream.base.length ∧ written.drop link.received = writeFrame Tag.response.code data ∧
      data.length < 2 ^ 31 ∧ served := by
  have hnil : link.received = written.length → written.drop link.received = [] := by
    intro hreceived
    rw [hreceived, List.drop_length]
  cases h with
  | idle _ _ _ _ hreceived => exact absurd (hnil hreceived) hne
  | called _ _ _ _ _ _ hreceived => exact absurd (hnil hreceived) hne
  | answered _ n data hflushed hcall hconsumed hbytes hlength hserved =>
    exact ⟨n, data, rfl, hflushed, hcall, hconsumed, hbytes, hlength, hserved⟩

end

/-! ## Steps -/

/-- What a thread does changes nothing for the others. -/
theorem Simulates.update (h : Simulates linked v a) (t : Nat) {v' : System S}
    {a' : Linearizable.State Nat Message (List UInt8) (State S)} (hobject : a'.object = v'.server.state) (hcalls : a'.calls = v'.calls)
    (hhistory : a'.history = v'.history) (hchannels : v'.server.channels.Nodup)
    (hothers : ∀ t', t' ≠ t → v'.server.written t' = v.server.written t' ∧
      (t' ∈ v'.server.channels ↔ t' ∈ v.server.channels) ∧ v'.localFraming t' = v.localFraming t' ∧ a'.status t' = a.status t')
    (hown : Matches (v'.written linked t) (t ∈ v'.server.channels) (v'.localFraming t) (a'.status t)) : Simulates linked v' a' := by
  refine ⟨hobject, hcalls, hhistory, hchannels, ?_⟩
  intro t'
  by_cases ht : t' = t
  · subst ht
    exact hown
  · obtain ⟨hwritten, hserved, hframing, hstatus⟩ := hothers t' ht
    have hmatches := h.links t'
    simp only [System.written] at hmatches ⊢
    rw [hwritten, hframing, hstatus, propext hserved]
    exact hmatches

theorem Simulates.connect (h : Simulates linked v a) (hnone : v.localFraming t = none) :
    Simulates linked { v with
      server := v.server.accept t, localFraming := Function.update v.localFraming t (some {}) } a := by
  have hmatches := h.links t
  rw [hnone] at hmatches
  obtain ⟨hstatus, hwritten, hserved⟩ := hmatches.of_none
  refine h.update t h.object h.calls h.history ?_ ?_ ?_
  · rw [Server.accept, ← List.concat_eq_append]
    exact h.channels.concat hserved
  · intro t' ht
    exact ⟨rfl, by simp [Server.accept, ht], Function.update_of_ne ht _ _, rfl⟩
  · simp only [Function.update_self]
    rw [hstatus]
    refine .idle {} ⟨rfl, rfl⟩ rfl rfl ?_ (by simp [Server.accept])
    exact (congrArg List.length hwritten).symm

theorem Simulates.write (h : Simulates linked v a) {link : Link} (hlink : v.localFraming t = some link) (hcall : link.call = none)
    (requestMessage : Message) :
    a.status t = .idle ∧ Simulates linked
      { v with
        localFraming := Function.update v.localFraming t
          (some { link with framing := link.framing.write .request requestMessage, call := some v.calls })
        calls := v.calls + 1
        history := v.history ++ [.call v.calls t requestMessage] }
      { a with
        status := Function.update a.status t (.called a.calls requestMessage), calls := a.calls + 1
        history := a.history ++ [.call a.calls t requestMessage] } := by
  have hmatches := h.links t
  rw [hlink] at hmatches
  obtain ⟨hstatus, hflushed, hconsumed, hreceived, hserved⟩ := hmatches.of_call_none hcall
  have hframing := Cpp.Batch.write_flushed hflushed.buffering hflushed.buffer .request requestMessage
  refine ⟨hstatus, h.update t h.object ?_ ?_ h.channels ?_ ?_⟩
  · simp only [h.calls]
  · simp only [h.calls, h.history]
  · intro t' ht
    exact ⟨rfl, .rfl, Function.update_of_ne ht _ _, Function.update_of_ne ht _ _⟩
  · simp only [Function.update_self, h.calls, hframing]
    refine .called _ _ _ ⟨rfl, rfl⟩ rfl ?_ hreceived fun hnot => absurd hserved hnot
    rw [Link.toReceiver, hconsumed, List.drop_left]

/-- `read_block` finds the end of the stream in a request without a payload, and the loop ends. -/
theorem turn_empty {link : Link} {requestMessage : Message} (hbytes : link.toReceiver = (Frame.mk .request requestMessage).encode)
    (hempty : requestMessage.bytes = []) : v.turn linked t link = { v with
      server := v.server.leave t, localFraming := Function.update v.localFraming t (some link) } := by
  have hread : link.readFrame = .error Cpp.connectionClosed := by
    rw [Link.readFrame, hbytes, Frame.encode, hempty]
    exact Cpp.ReadFrameAux.readFrame_of_zero _ whole rfl
  simp [System.turn, hread, Server.turn, Link.advance, Except.map]

/-- What a loop reads of a request with a payload. -/
theorem readFrame_request {link : Link} {requestMessage : Message}
    (hbytes : link.toReceiver = (Frame.mk .request requestMessage).encode) (hne : requestMessage.bytes ≠ []) :
    ∃ cuts, link.readFrame = .ok (expected ⟨.request, requestMessage⟩, ⟨[], cuts⟩) := by
  obtain ⟨cuts, hread⟩ := Cpp.Batch.readFrame_whole ⟨.request, requestMessage⟩ hne []
  rw [List.append_nil, ← hbytes] at hread
  exact ⟨cuts, hread⟩

/-- A request that can not be served ends the process. -/
theorem turn_none {link : Link} {requestMessage : Message} (hbytes : link.toReceiver = (Frame.mk .request requestMessage).encode)
    (hne : requestMessage.bytes ≠ []) (hrequest : request linked requestMessage v.server.state = none) :
    v.turn linked t link = { v with running := false } := by
  obtain ⟨cuts, hread⟩ := readFrame_request hbytes hne
  have htag : (expected ⟨.request, requestMessage⟩).tag ≠ 8 := nofun
  have hdata : (expected ⟨.request, requestMessage⟩).data = requestMessage.bytes := rfl
  unfold request at hrequest
  cases hserve : serve linked.lib {} (linked.parse requestMessage.bytes) v.server.state with
  | error e => simp [System.turn, hread, Server.turn, Except.map, htag, hdata, hserve]
  | ok out => simp [hserve] at hrequest

/-- A request that is served is read, and the response is written. -/
theorem turn_some {link : Link} {requestMessage : Message} (hbytes : link.toReceiver = (Frame.mk .request requestMessage).encode)
    (hne : requestMessage.bytes ≠ []) {data : List UInt8} {s : State S}
    (hrequest : request linked requestMessage v.server.state = some (data, s)) :
    ∃ response, linked.serialize response = data ∧ v.turn linked t link = { v with
      server := { v.server with
        state := s, written := Function.update v.server.written t (v.server.written t ++ [response]) }
      localFraming := Function.update v.localFraming t (some { link with consumed := link.framing.outputStream.base.length }) } := by
  obtain ⟨cuts, hread⟩ := readFrame_request hbytes hne
  have htag : (expected ⟨.request, requestMessage⟩).tag ≠ 8 := nofun
  have hdata : (expected ⟨.request, requestMessage⟩).data = requestMessage.bytes := rfl
  unfold request at hrequest
  cases hserve : serve linked.lib {} (linked.parse requestMessage.bytes) v.server.state with
  | error e => simp [hserve] at hrequest
  | ok out =>
    obtain ⟨rfl, rfl⟩ : linked.serialize out.1 = data ∧ out.2 = s := by simpa [hserve] using hrequest
    exact ⟨out.1, rfl, by simp [System.turn, hread, Server.turn, Link.advance, Except.map, htag, hdata, hserve]⟩

/-- A request with a payload that can be served: the call is carried out. -/
theorem Simulates.serve (hserialize : ∀ response, (linked.serialize response).length < 2 ^ 31) (h : Simulates linked v a)
    {link : Link} (hlink : v.localFraming t = some link) (hserved : t ∈ v.server.channels) {n : Nat} {requestMessage : Message}
    (hstatus : a.status t = .called n requestMessage) (hne : requestMessage.bytes ≠ []) {data : List UInt8} {s : State S}
    (hrequest : request linked requestMessage v.server.state = some (data, s)) :
    Simulates linked (v.turn linked t link) { a with
      object := s, status := Function.update a.status t (.answered n data), order := a.order ++ [(n, requestMessage, data)] } := by
  have hmatches := h.links t
  rw [hlink, hstatus] at hmatches
  cases hmatches with
  | called _ _ _ hflushed hcall hbytes hreceived =>
    obtain ⟨response, rfl, hturn⟩ := turn_some (t := t) hbytes hne hrequest
    rw [hturn]
    refine h.update t rfl h.calls h.history h.channels ?_ ?_
    · intro t' ht
      exact ⟨Function.update_of_ne ht _ _, .rfl, Function.update_of_ne ht _ _, Function.update_of_ne ht _ _⟩
    · simp only [Function.update_self, System.written, List.flatMap_append, List.flatMap_singleton]
      refine .answered _ _ _ ⟨hflushed.buffering, hflushed.buffer⟩ hcall rfl ?_ (hserialize response) hserved
      rw [hreceived, System.written, List.drop_left]

/-- A turn of a loop: the call is carried out, or nothing happens that a thread could see. -/
theorem Simulates.turn (hserialize : ∀ response, (linked.serialize response).length < 2 ^ 31) (h : Simulates linked v a)
    {link : Link} (hlink : v.localFraming t = some link) (hserved : t ∈ v.server.channels) (hne : link.toReceiver ≠ []) :
    Simulates linked (v.turn linked t link) a ∨
      ∃ n requestMessage data s, a.status t = .called n requestMessage ∧ request linked requestMessage a.object = some (data, s) ∧
        Simulates linked (v.turn linked t link) { a with
          object := s, status := Function.update a.status t (.answered n data), order := a.order ++ [(n, requestMessage, data)] } := by
  have hmatches := h.links t
  rw [hlink] at hmatches
  obtain ⟨n, requestMessage, hstatus, hflushed, hcall, hbytes, hreceived, -⟩ := hmatches.of_toReceiver hne
  by_cases hempty : requestMessage.bytes = []
  · rw [turn_empty hbytes hempty]
    refine .inl (h.update t h.object h.calls h.history (h.channels.erase t) ?_ ?_)
    · intro t' ht
      exact ⟨rfl, List.mem_erase_of_ne ht, Function.update_of_ne ht _ _, rfl⟩
    · simp only [Function.update_self, hstatus]
      exact .called _ _ _ hflushed hcall hbytes hreceived fun _ => hempty
  · cases hrequest : request linked requestMessage v.server.state with
    | none =>
      rw [turn_none hbytes hempty hrequest]
      exact .inl ⟨h.object, h.calls, h.history, h.channels, h.links⟩
    | some out =>
      exact .inr ⟨n, requestMessage, out.1, out.2, hstatus, by rw [h.object, hrequest],
        h.serve hserialize hlink hserved hstatus hempty hrequest⟩

/-- A thread reads its response, and its call returns. -/
theorem Simulates.read (h : Simulates linked v a) {link : Link} (hlink : v.localFraming t = some link) {n tag : Nat}
    {data rest : List UInt8} (hcall : link.call = some n)
    (hread : Cpp.Batch.read ((v.written linked t).drop link.received) = some (tag, data, rest)) :
    a.status t = .answered n data ∧ Simulates linked
      { v with
        localFraming := Function.update v.localFraming t
          (some { link with received := (v.written linked t).length - rest.length, call := none })
        history := v.history ++ [.ret n data] }
      { a with status := Function.update a.status t .idle, history := a.history ++ [.ret n data] } := by
  have hmatches := h.links t
  rw [hlink] at hmatches
  have hne : (v.written linked t).drop link.received ≠ [] := by
    intro hnil
    rw [hnil] at hread
    cases hread
  obtain ⟨m, data', hstatus, hflushed, hcall', hconsumed, hbytes, hlength, hserved⟩ := hmatches.of_written hne
  obtain rfl : n = m := Option.some.inj (hcall.symm.trans hcall')
  rw [hbytes, Cpp.Batch.read_writeFrame .response hlength] at hread
  obtain ⟨rfl, rfl, rfl⟩ : Tag.response.code = tag ∧ data' = data ∧ [] = rest := by simpa using hread
  refine ⟨hstatus, h.update t h.object h.calls (by simp only [h.history]) h.channels ?_ ?_⟩
  · intro t' ht
    exact ⟨rfl, .rfl, Function.update_of_ne ht _ _, Function.update_of_ne ht _ _⟩
  · simp only [Function.update_self]
    exact .idle _ ⟨hflushed.buffering, hflushed.buffer⟩ rfl hconsumed (Nat.sub_zero _) hserved

/-! ## Runs -/

/-- What the threads and the loops do, as what the object does. -/
theorem Simulates.step (hserialize : ∀ response, (linked.serialize response).length < 2 ^ 31) (h : Simulates linked v a)
    {v' : System S} (hstep : Step linked t v v') :
    ∃ a', ReflTransGen (Linearizable.Step (request linked)) a a' ∧ Simulates linked v' a' := by
  cases hstep with
  | connect hrunning hnone => exact ⟨a, .refl, h.connect hnone⟩
  | write link requestMessage hlink hcall =>
    obtain ⟨hstatus, hwrite⟩ := h.write hlink hcall requestMessage
    exact ⟨_, .single (.call a t requestMessage hstatus), hwrite⟩
  | turn link hrunning hserved hlink hne =>
    rcases h.turn hserialize hlink hserved hne with hturn | ⟨n, requestMessage, data, s, hstatus, hrequest, hturn⟩
    · exact ⟨a, .refl, hturn⟩
    · exact ⟨_, .single (.commit a t n requestMessage data s hstatus hrequest), hturn⟩
  | read link n tag data rest hlink hcall hread htag =>
    obtain ⟨hstatus, hret⟩ := h.read hlink hcall hread
    exact ⟨_, .single (.ret a t n data hstatus), hret⟩

theorem simulates (hserialize : ∀ response, (linked.serialize response).length < 2 ^ 31)
    (h : ReflTransGen (fun v v' => ∃ t, Step linked t v v') {} v) :
    ∃ a, Simulates linked v a ∧ Linearizable.Inv (request linked) {} a := by
  have hstep : ∀ v a v', Simulates linked v a → (∃ t, Step linked t v v') →
      ∃ a', ReflTransGen (Linearizable.Step (request linked)) a a' ∧ Simulates linked v' a' := by
    rintro v a v' hv ⟨t, hstep⟩
    exact hv.step hserialize hstep
  have hinit : Simulates linked {} { object := {} } :=
    ⟨rfl, rfl, rfl, List.nodup_nil, fun t => .unconnected rfl List.not_mem_nil⟩
  exact Linearizable.of_simulation hstep hinit h

/-- In every run the calls of the threads are linearizable: there is an order of calls in which a receiver with one client gives the
responses that the calls returned and comes to the state that the receiver is in, and in it a call that returned before another was made
comes first. -/
theorem linearizable (hserialize : ∀ response, (linked.serialize response).length < 2 ^ 31)
    (h : ReflTransGen (fun v v' => ∃ t, Step linked t v v') {} v) :
    WellFormed v.history ∧ ∃ order, Linearization (request linked) {} v.history order v.server.state := by
  obtain ⟨a, ha, hinv⟩ := simulates hserialize h
  obtain ⟨hlinearization, hwell, -, -⟩ := hinv
  rw [ha.history, ha.object] at hlinearization
  rw [ha.history] at hwell
  exact ⟨hwell, _, hlinearization⟩

/-- A request of two bytes. -/
def twoBytes : Message := ⟨[0x3a, 0x00], by decide⟩

/-- The link of a thread that has written it in its first call. -/
def openLink (n : Nat) : Link := { framing := SimpleBinaryFraming.write {} .request twoBytes, call := some n }

/-- Two threads that have both called. -/
def twoOpen : System Unit where
  server := { channels := [0, 1] }
  localFraming := Function.update (Function.update (Function.update (Function.update (fun _ => none) 0 (some {})) 1 (some {}))
    0 (some (openLink 0))) 1 (some (openLink 1))
  calls := 2
  history := [.call 0 0 twoBytes, .call 1 1 twoBytes]

theorem reaches_twoOpen : ReflTransGen (fun v v' => ∃ t, Step Cpp.Batch.idsOnly t v v') {} twoOpen :=
  (((ReflTransGen.refl.tail ⟨0, .connect _ rfl rfl⟩).tail ⟨1, .connect _ rfl rfl⟩).tail ⟨0, .write _ {} twoBytes rfl rfl⟩).tail
    ⟨1, .write _ {} twoBytes rfl rfl⟩

theorem length_idsOnly (response : Cpp.Process.ChannelResponse) : (Cpp.Batch.idsOnly.serialize response).length < 2 ^ 31 := by
  simp [Cpp.Batch.idsOnly]

/-- Two threads, of which the second is answered. -/
theorem linearizable_two : ∃ v, ReflTransGen (fun v v' => ∃ t, Step Cpp.Batch.idsOnly t v v') {} v ∧
    v.history = [.call 0 0 twoBytes, .call 1 1 twoBytes, .ret 1 [0x3a, 0x01, 0x30]] ∧
    WellFormed v.history ∧ ∃ order, Linearization (request Cpp.Batch.idsOnly) {} v.history order v.server.state := by
  have hturn : Step Cpp.Batch.idsOnly 1 twoOpen (twoOpen.turn Cpp.Batch.idsOnly 1 (openLink 1)) :=
    .turn _ _ rfl (by decide) rfl (by decide)
  have hrun := (reaches_twoOpen.tail ⟨1, hturn⟩).tail
    ⟨1, .read _ (openLink 1).advance 1 1 [0x3a, 0x01, 0x30] [] rfl rfl (by decide) (by decide)⟩
  exact ⟨_, hrun, rfl, linearizable length_idsOnly hrun⟩

/-- A call that is open has been answered, or its request is there for the loop of its channel. -/
theorem Simulates.call_cases (h : Simulates linked v a) (hinv : Linearizable.Inv (request linked) {} a) {link : Link}
    (hlink : v.localFraming t = some link) {n : Nat} (hcall : link.call = some n) {requestMessage : Message}
    (hmem : .call n t requestMessage ∈ v.history) (hne : requestMessage.bytes ≠ []) :
    (∃ data, a.status t = .answered n data) ∨ a.status t = .called n requestMessage ∧ t ∈ v.server.channels ∧
      link.toReceiver = (Frame.mk .request requestMessage).encode := by
  have hmatches := h.links t
  have hstanding := hinv.standing t
  rw [hlink] at hmatches
  rw [← h.history] at hmem
  generalize a.status t = status at hmatches hstanding
  cases hmatches with
  | idle _ _ hnone => simp [hcall] at hnone
  | called _ m message _ hsome hbytes _ hserved =>
    obtain rfl : n = m := Option.some.inj (hcall.symm.trans hsome)
    cases hstanding with
    | called _ _ hopen =>
      obtain ⟨-, rfl⟩ := hinv.wellFormed.own n t t requestMessage message hmem hopen
      exact .inr ⟨rfl, Classical.byContradiction fun hnot => hne (hserved hnot), hbytes⟩
  | answered _ m data _ hsome =>
    obtain rfl : n = m := Option.some.inj (hcall.symm.trans hsome)
    exact .inl ⟨data, rfl⟩

/-- The response to a call that has been answered is there. -/
theorem Simulates.exists_read (h : Simulates linked v a) {n : Nat} {data : List UInt8} (hstatus : a.status t = .answered n data) :
    ∃ link, v.localFraming t = some link ∧ link.call = some n ∧
      Cpp.Batch.read ((v.written linked t).drop link.received) = some (Tag.response.code, data, []) := by
  have hmatches := h.links t
  rw [hstatus] at hmatches
  generalize hlink : v.localFraming t = localFraming at hmatches
  cases hmatches with
  | answered link _ _ _ hcall _ hbytes hlength =>
    have hread := Cpp.Batch.read_writeFrame .response hlength
    rw [← hbytes] at hread
    exact ⟨link, rfl, hcall, hread⟩

/-- The call can return. -/
theorem Simulates.answered (h : Simulates linked v a) {n : Nat} {data : List UInt8} (hstatus : a.status t = .answered n data) :
    ∃ v', Step linked t v v' ∧ .ret n data ∈ v'.history := by
  obtain ⟨link, hlink, hcall, hread⟩ := h.exists_read hstatus
  exact ⟨_, .read v link n _ data [] hlink hcall hread (by decide), List.mem_append_right _ List.mem_cons_self⟩

/-- No thread waits for another: where the receiver runs and can serve the request of an open call, the call returns after steps of its
own thread and of the loop of its channel. -/
theorem returns (hserialize : ∀ response, (linked.serialize response).length < 2 ^ 31)
    (h : ReflTransGen (fun v v' => ∃ t, Step linked t v v') {} v) (hrunning : v.running = true) {link : Link}
    (hlink : v.localFraming t = some link) {n : Nat} (hcall : link.call = some n) {requestMessage : Message}
    (hmem : .call n t requestMessage ∈ v.history) (hne : requestMessage.bytes ≠ [])
    (hrequest : request linked requestMessage v.server.state ≠ none) :
    ∃ v' data, ReflTransGen (Step linked t) v v' ∧ .ret n data ∈ v'.history := by
  obtain ⟨a, ha, hinv⟩ := simulates hserialize h
  rcases ha.call_cases hinv hlink hcall hmem hne with ⟨data, hstatus⟩ | ⟨hstatus, hserved, hbytes⟩
  · obtain ⟨v', hread, hret⟩ := ha.answered hstatus
    exact ⟨v', data, .single hread, hret⟩
  · obtain ⟨⟨data, s⟩, hrequest⟩ := Option.ne_none_iff_exists'.mp hrequest
    have hsome : link.toReceiver ≠ [] := by
      rw [hbytes]
      exact List.cons_ne_nil _ _
    have hturn := ha.serve hserialize hlink hserved hstatus hne hrequest
    obtain ⟨v', hread, hret⟩ := hturn.answered (Function.update_self t _ _)
    exact ⟨v', data, .head (.turn v link hrunning hserved hlink hsome) (.single hread), hret⟩

/-- The second of two threads that have both called. -/
theorem returns_two : ∃ v' data, ReflTransGen (Step Cpp.Batch.idsOnly 1) twoOpen v' ∧ .ret 1 data ∈ v'.history := by
  have hlink : twoOpen.localFraming 1 = some (openLink 1) := rfl
  have hmem : .call 1 1 twoBytes ∈ twoOpen.history := by simp [twoOpen]
  have hrequest : request Cpp.Batch.idsOnly twoBytes twoOpen.server.state ≠ none := by simp [request, Cpp.Batch.idsOnly, serve]
  exact returns length_idsOnly reaches_twoOpen rfl hlink rfl hmem (by decide) hrequest

end LibraryLink.ThreadLocalGenerator
