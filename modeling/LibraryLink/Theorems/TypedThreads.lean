import LibraryLink.TypedThreads
import LibraryLink.General.Tables
import LibraryLink.Theorems.ByteSessions
import LibraryLink.Theorems.ThreadLocalGenerator

/-!
# What the types promise to threads

However the threads of a client come in turn: a call that the types admit when it begins is admitted until it ends, since handles are
only added, and no thread makes the receiver fail for another.
-/

namespace LibraryLink.Kotlin.Z3Kotlin

open Outcome
open Protobuf (utf8)
open Relation (ReflTransGen)
open Cpp.Batch (Linked)
open Cpp.Process (Elem State Action IdStep dispatch serve argumentValue)
open ThreadLocalGenerator (System Link Simulates)

variable {ω S : Type} {Γ Δ : Context} {s s' : State S} {part : Part}

/-! ## The requests of a call -/

/-- A call is its requests, and returns what is made of the first response. -/
theorem Call.run_eq (sendRequest : Exchange.Request → ω → Except Thrown (Exchange.ChannelResponse × ω)) (call : Call) (world : ω) :
    call.run sendRequest world = (do
      let out ← runParts sendRequest call.parts world
      return (out.1.headD none, out.2)) := by
  cases call with
  | wrapper w assignedID actual => simp [Call.run, Call.parts, runParts, Part.request, Part.receive, Wrapper.call]
  | makeArray elem size =>
    simp [Call.run, Call.parts, runParts, Part.request, Part.receive, ArrayHandle.make, ArrayHandle.allocate]
  | get elem assignedID index => simp [Call.run, Call.parts, runParts, Part.request, Part.receive, ArrayHandle.get]
  | set elem assignedID index element =>
    simp [Call.run, Call.parts, runParts, Part.request, Part.receive, ArrayHandle.set, ArrayHandle.get]

/-- The requests of a call that the types admit are admitted. -/
theorem Call.WellTyped.parts {call : Call} (h : call.WellTyped Γ) (hints : call.InInts) : ∀ part ∈ call.parts, part.WellTyped Γ := by
  cases h with
  | wrapper w assignedID actual hw hself hactual =>
    exact List.forall_mem_singleton.mpr (.wrapper w assignedID actual hw hself hactual)
  | makeArray elem size => exact List.forall_mem_singleton.mpr (.allocate elem size hints)
  | get elem assignedID size index hmem hindex =>
    exact List.forall_mem_singleton.mpr (.get elem assignedID size index hmem hindex hints)
  | set elem assignedID size index element hmem hindex helement =>
    exact List.forall_mem_cons.mpr ⟨.get elem assignedID size index hmem hindex hints,
      List.forall_mem_singleton.mpr (.set elem assignedID size index element hmem hindex hints helement)⟩

/-- With more handles more is accepted. -/
theorem Context.Accepts.mono {type : ParamType} {v : Instance} (h : Γ.Accepts type v) (hsub : Γ ⊆ Δ) : Δ.Accepts type v := by
  cases h with
  | handle clazz assignedID hmem => exact .handle clazz assignedID (hsub hmem)
  | array elem size assignedID hmem => exact .array elem size assignedID (hsub hmem)
  | int n hlo hhi => exact .int n hlo hhi
  | boolean b => exact .boolean b

theorem Part.WellTyped.mono (h : part.WellTyped Γ) (hsub : Γ ⊆ Δ) : part.WellTyped Δ := by
  cases h with
  | wrapper w assignedID actual hw hself hactual =>
    exact .wrapper w assignedID actual hw (fun hstatic => hsub (hself hstatic)) (hactual.imp fun _ _ h => h.mono hsub)
  | allocate elem size hsize => exact .allocate elem size hsize
  | get elem assignedID size index hmem hindex hint => exact .get elem assignedID size index (hsub hmem) hindex hint
  | set elem assignedID size index element hmem hindex hint helement =>
    refine .set elem assignedID size index element (hsub hmem) hindex hint ?_
    cases helement with
    | char c => exact .char c
    | ast id hid => exact .ast id (hsub hid)

/-! ## Messages -/

/-- The message of a method of arrays. -/
def arrayMessage (elem : Elem) (method id : String) (messages : List Exchange.Argument) (doGetReturnValue : Bool) :
    Exchange.MethodCallRequest where
  methodName := method ++ "<" ++ typeName elem ++ ">"
  type := arrayType elem
  objectId := id
  arg := messages
  doGetReturnValue := doGetReturnValue

theorem message_of_arrays {elem : Elem} {method id : String} {args : List Argument} {messages : List Exchange.Argument}
    {doGetReturnValue : Bool} (hrequest : part.request = .ok (ArrayHandle.methodCall (clazzOf elem) method id args doGetReturnValue))
    (hargs : args.mapM Argument.toProtobuf = .ok messages) :
    part.message = .ok ⟨some (.methodCall (arrayMessage elem method id messages doGetReturnValue)), ""⟩ := by
  have hname : calculatePrimitiveTypeName (clazzOf elem) = typeName elem := by cases elem <;> rfl
  have htype : (typeName elem).capitalize ++ "[]" = arrayType elem := by cases elem <;> rfl
  refine bind_eq_ok.mpr ⟨_, hrequest, ?_⟩
  unfold ArrayHandle.methodCall
  rw [hname]
  dsimp only
  rw [htype]
  exact bind_eq_ok.mpr ⟨_, bind_eq_ok.mpr ⟨messages, hargs, rfl⟩, rfl⟩

theorem small_arrayMessage {elem : Elem} {method id : String} {messages : List Exchange.Argument} {doGetReturnValue : Bool}
    (hmethod : (utf8 (method ++ "<" ++ typeName elem ++ ">")).length ≤ 100) (hid : (utf8 id).length ≤ 100)
    (hsmall : ∀ a ∈ messages, a.Small) (hcount : messages.length ≤ 8) :
    (arrayMessage elem method id messages doGetReturnValue).Small := by
  have htype : (utf8 (arrayType elem)).length ≤ 100 := by cases elem <;> decide
  exact ⟨hmethod, hid, htype, hsmall, hcount⟩

/-- The messages for the arguments of `set`. -/
theorem mapM_set {index : Nat} {argument : Argument} {message : Exchange.Argument} (h : argument.toProtobuf = .ok message) :
    [Argument.of (.value (.number index)) none, argument].mapM Argument.toProtobuf = .ok [⟨.inplace, .int index, ""⟩, message] := by
  rw [List.mapM_cons, List.mapM_cons, h]
  rfl

/-- A request that the types admit is a small message. -/
theorem Part.WellTyped.exists_call (hshort : ∀ id type, (id, type) ∈ Γ → (utf8 id).length ≤ 100) (h : part.WellTyped Γ) :
    ∃ call, part.message = .ok ⟨some (.methodCall call), ""⟩ ∧ call.Small := by
  cases h with
  | wrapper w assignedID actual hw hself hactual =>
    obtain ⟨call, hcall, hsmall, -⟩ := Wrapper.exists_small hshort hw hself hactual
    exact ⟨call, bind_eq_ok.mpr ⟨_, rfl, bind_eq_ok.mpr ⟨call, hcall, rfl⟩⟩, hsmall⟩
  | allocate elem size hsize =>
    exact ⟨_, message_of_arrays rfl rfl, small_arrayMessage (by cases elem <;> decide) (Nat.zero_le _)
      (List.forall_mem_singleton.mpr (small_index hsize)) (Nat.le_of_ble_eq_true rfl)⟩
  | get elem assignedID size index hmem hindex hint =>
    exact ⟨_, message_of_arrays rfl rfl, small_arrayMessage (by cases elem <;> decide) (hshort _ _ hmem)
      (List.forall_mem_singleton.mpr (small_index hint)) (Nat.le_of_ble_eq_true rfl)⟩
  | set elem assignedID size index element hmem hindex hint helement =>
    obtain ⟨argument, message, hargument, hmessage, hsmall, -⟩ := exists_valueArgument hshort helement
    exact ⟨_, message_of_arrays (bind_eq_ok.mpr ⟨argument, hargument, rfl⟩) (mapM_set hmessage),
      small_arrayMessage (by cases elem <;> decide) (hshort _ _ hmem)
        (List.forall_mem_cons.mpr ⟨small_index hint, List.forall_mem_singleton.mpr hsmall⟩) (Nat.le_of_ble_eq_true rfl)⟩

/-! ## Responses -/

/-- What is made of the response to a request: it is of the type declared, and a handle has the id of the response. -/
def Part.Answered (part : Part) (s : State S) (resp : Cpp.Process.ChannelResponse) : Prop :=
  ∃ answer v, toProcessExchangeResponse (.ofReceiver resp) = .ok answer ∧ part.receive answer.toInt64 = .ok v ∧
    part.returned.Fits v ∧
    ∀ type, part.returned = .handle type → v = some (.handle resp.assignedId) ∧ type.Denotes s resp.assignedId

theorem answered_of_wrapper {w : Wrapper} (assignedID : String) (actual : List Instance) {resp : Cpp.Process.ChannelResponse}
    (h : (retOf w.result).Answers s resp) : (Part.wrapper w assignedID actual).Answered s resp := by
  obtain ⟨answer, v, hanswer, hv, hfits, htype⟩ := exists_receive w.result h
  exact ⟨answer, v, hanswer, (receive_toInt64 w.result h hanswer).trans hv, hfits, htype⟩

theorem answered_of_allocate {elem : Elem} {size : Nat} {resp : Cpp.Process.ChannelResponse} (hresult : resp.result = none)
    (harray : s.HasArray resp.assignedId elem size) : (Part.allocate elem size).Answered s resp := by
  obtain ⟨id, result⟩ := resp
  obtain rfl : result = none := hresult
  refine ⟨_, _, rfl, rfl, .handle _ _, ?_⟩
  rintro type ⟨⟩
  exact ⟨rfl, harray⟩

theorem answered_of_get {elem : Elem} (assignedID : String) (index : Nat) {r : Cpp.Process.MethodCallRequest}
    {resp : Cpp.Process.ChannelResponse} (h : (Action.get elem).Answers r s resp) :
    (Part.get elem assignedID index).Answered s resp := by
  obtain ⟨id, result⟩ := resp
  cases elem with
  | char =>
    obtain ⟨n, hvalue⟩ := h
    obtain rfl : result = some (.returnValue n) := hvalue
    exact ⟨_, _, rfl, rfl, .char _, nofun⟩
  | ast =>
    obtain ⟨hnone, hpoints⟩ := h
    obtain rfl : result = none := hnone
    refine ⟨_, _, rfl, rfl, .handle _ _, ?_⟩
    rintro type ⟨⟩
    exact ⟨rfl, hpoints⟩

theorem answered_of_set (elem : Elem) (assignedID : String) (index : Nat) (element : Instance)
    {resp : Cpp.Process.ChannelResponse} (hresult : resp.result = none) :
    (Part.set elem assignedID index element).Answered s resp := by
  obtain ⟨id, result⟩ := resp
  obtain rfl : result = none := hresult
  exact ⟨_, _, rfl, rfl, .nothing, nofun⟩

/-- A message that finds what it reads is served, if its library function returns. -/
theorem Holds.exists_serve (h : Holds Γ s) (lib : Cpp.Process.Library S) {call : Exchange.MethodCallRequest} {action : Action}
    (hreturns : Cpp.Process.Returns lib ⟨some call.read, ""⟩ s) (hdispatch : dispatch call.read = some action)
    (hready : action.Ready call.read s) :
    ∃ resp s', serve lib {} ⟨some call.read, ""⟩ s = .ok (resp, s') ∧ resp.assignedId = s.drawId.1 ∧
      action.Answers call.read s' resp :=
  Cpp.Process.exists_serve h.heap rfl hdispatch hready (hreturns _ _ rfl hdispatch)

/-- A request that the types admit is served and answered, if its library function returns. -/
theorem Part.WellTyped.exists_serve (lib : Cpp.Process.Library S) (h : Holds Γ s) (hpart : part.WellTyped Γ)
    {call : Exchange.MethodCallRequest} (hmessage : part.message = .ok ⟨some (.methodCall call), ""⟩)
    (hreturns : Cpp.Process.Returns lib ⟨some call.read, ""⟩ s) :
    ∃ resp s', serve lib {} ⟨some call.read, ""⟩ s = .ok (resp, s') ∧ resp.assignedId = s.drawId.1 ∧ part.Answered s' resp := by
  have hcall : ∀ call', part.message = .ok ⟨some (.methodCall call'), ""⟩ → call' = call := by
    intro call' hmessage'
    simpa using hmessage'.symm.trans hmessage
  cases hpart with
  | wrapper w assignedID actual hw hself hactual =>
    obtain ⟨call', hcall', hdispatch, hobject, hargs⟩ := w.exists_call assignedID hactual.length_eq
    obtain rfl := hcall call' (bind_eq_ok.mpr ⟨_, rfl, bind_eq_ok.mpr ⟨call', hcall', rfl⟩⟩)
    obtain ⟨resp, s', hserve, hid, hanswers⟩ :=
      h.exists_serve lib hreturns (hdispatch.trans (dispatch_wrapper w hw)) (Wrapper.ready h hself hactual hobject hargs)
    exact ⟨resp, s', hserve, hid, answered_of_wrapper assignedID actual hanswers⟩
  | allocate elem size hsize =>
    obtain rfl := hcall (arrayMessage elem "mem_alloc" "" [⟨.inplace, .int size, ""⟩] false) (message_of_arrays rfl rfl)
    have hready : (Action.memAlloc elem).Ready (arrayMessage elem "mem_alloc" "" [⟨.inplace, .int size, ""⟩] false).read s :=
      Nat.zero_lt_one
    obtain ⟨resp, s', hserve, hid, hnone, harray⟩ := h.exists_serve lib hreturns (by cases elem <;> rfl) hready
    exact ⟨resp, s', hserve, hid, answered_of_allocate hnone (harray size rfl)⟩
  | get elem assignedID size index hmem hindex hint =>
    obtain rfl := hcall (arrayMessage elem "get" assignedID [⟨.inplace, .int index, ""⟩] true) (message_of_arrays rfl rfl)
    have hready : (Action.get elem).Ready (arrayMessage elem "get" assignedID [⟨.inplace, .int index, ""⟩] true).read s :=
      ready_of_array h hmem hindex rfl rfl Nat.zero_lt_one
    obtain ⟨resp, s', hserve, hid, hanswers⟩ := h.exists_serve lib hreturns (by cases elem <;> rfl) hready
    exact ⟨resp, s', hserve, hid, answered_of_get assignedID index hanswers⟩
  | set elem assignedID size index element hmem hindex hint helement =>
    have hset : ∀ argument message, ArrayHandle.valueArgument element = .ok argument → argument.toProtobuf = .ok message →
        ((Action.get elem).Ready (arrayMessage elem "set" assignedID [⟨.inplace, .int index, ""⟩, message] false).read s →
          (Action.set elem).Ready (arrayMessage elem "set" assignedID [⟨.inplace, .int index, ""⟩, message] false).read s) →
        ∃ resp s', serve lib {} ⟨some call.read, ""⟩ s = .ok (resp, s') ∧ resp.assignedId = s.drawId.1 ∧
          (Part.set elem assignedID index element).Answered s' resp := by
      intro argument message hargument hmessage' hready
      obtain rfl := hcall _ (message_of_arrays (bind_eq_ok.mpr ⟨argument, hargument, rfl⟩) (mapM_set hmessage'))
      obtain ⟨resp, s', hserve, hid, hnone⟩ :=
        h.exists_serve lib hreturns (by cases elem <;> rfl) (hready (ready_of_array h hmem hindex rfl rfl Nat.zero_lt_two))
      exact ⟨resp, s', hserve, hid, answered_of_set elem assignedID index element hnone⟩
    cases helement with
    | char c => exact hset _ ⟨.inplace, .int c.toNat, ""⟩ rfl rfl fun hready => ⟨Nat.one_lt_two, hready.2⟩
    | ast id hid =>
      exact hset _ ⟨.persistence, .string id, ""⟩ rfl rfl fun hready => ⟨Nat.one_lt_two, h.denotes id _ hid, hready.2⟩

end LibraryLink.Kotlin.Z3Kotlin

namespace LibraryLink.ThreadLocalGenerator

open Cpp.Batch (Linked)

variable {S : Type} {linked : Linked S} {t : Nat} {v v' : System S}

/-! ## Steps by their events -/

theorem turn_history (v : System S) (t : Nat) (link : Link) : (v.turn linked t link).history = v.history := by
  unfold System.turn
  split <;> rfl

/-- A step with a call writes its request. -/
theorem Step.of_call (h : Step linked t v v') {n : Nat} {requestMessage : Message}
    (hhistory : v'.history = v.history ++ [.call n t requestMessage]) :
    ∃ link, v.localFraming t = some link ∧ link.call = none ∧ v' = { v with
      localFraming := Function.update v.localFraming t
        (some { link with framing := link.framing.write .request requestMessage, call := some v.calls })
      calls := v.calls + 1
      history := v.history ++ [.call v.calls t requestMessage] } := by
  cases h with
  | connect hrunning hnone => simp at hhistory
  | write link message hlink hcall =>
    obtain ⟨-, -, rfl⟩ : v.calls = n ∧ True ∧ message = requestMessage := by simpa using hhistory
    exact ⟨link, hlink, hcall, rfl⟩
  | turn link hrunning hserved hlink hne => simp [turn_history] at hhistory
  | read link n tag data rest hlink hcall hread htag => simp at hhistory

/-- A step with a return reads the response. -/
theorem Step.of_ret (h : Step linked t v v') {n : Nat} {data : List UInt8} (hhistory : v'.history = v.history ++ [.ret n data]) :
    ∃ link tag rest, v.localFraming t = some link ∧ link.call = some n ∧
      Cpp.Batch.read ((v.written linked t).drop link.received) = some (tag, data, rest) ∧ v' = { v with
        localFraming := Function.update v.localFraming t
          (some { link with received := (v.written linked t).length - rest.length, call := none })
        history := v.history ++ [.ret n data] } := by
  cases h with
  | connect hrunning hnone => simp at hhistory
  | write link message hlink hcall => simp at hhistory
  | turn link hrunning hserved hlink hne => simp [turn_history] at hhistory
  | read link m tag data' rest hlink hcall hread htag =>
    obtain ⟨rfl, rfl⟩ : m = n ∧ data' = data := by simpa using hhistory
    exact ⟨link, tag, rest, hlink, hcall, hread, rfl⟩

/-- Any other step opens a channel, or is a turn of its loop. -/
theorem Step.of_silent (h : Step linked t v v') (hhistory : v'.history = v.history) :
    (v.localFraming t = none ∧ v' = { v with
      server := v.server.accept t, localFraming := Function.update v.localFraming t (some {}) }) ∨
    ∃ link, t ∈ v.server.channels ∧ v.localFraming t = some link ∧ link.toReceiver ≠ [] ∧ v' = v.turn linked t link := by
  cases h with
  | connect hrunning hnone => exact .inl ⟨hnone, rfl⟩
  | write link message hlink hcall => simp at hhistory
  | turn link hrunning hserved hlink hne => exact .inr ⟨link, hserved, hlink, hne, rfl⟩
  | read link n tag data rest hlink hcall hread htag => simp at hhistory

/-- Ids that were drawn stay. -/
theorem Step.drawn (h : Step linked t v v') : v.server.state.drawn.length ≤ v'.server.state.drawn.length := by
  cases h with
  | turn link hrunning hserved hlink hne =>
    unfold System.turn
    cases hturn : v.server.turn linked.parse linked.lib {} t (link.readFrame.map Prod.fst) with
    | none => exact Nat.le_refl _
    | some server =>
      rcases Cpp.Process.Server.turn_cases hturn with rfl | ⟨rq, response, state, hserve, rfl⟩
      · exact Nat.le_refl _
      · exact (Cpp.Process.drawn_prefix_of_serve hserve).length_le
  | _ => exact Nat.le_refl _

end LibraryLink.ThreadLocalGenerator

namespace LibraryLink.Kotlin.Z3Kotlin

open Outcome
open Protobuf (utf8)
open Relation (ReflTransGen)
open Linearizable (Status)
open Cpp.Batch (Linked)
open Cpp.Process (State IdStep serve)
open ThreadLocalGenerator (System Link Simulates Step turn_some turn_history)

variable {S : Type} {linked : Linked S} {protocol : Protocol} {Γ Δ : Context} {s : State S} {part : Part} {parts : List Part}

/-! ## Where a thread stands in its call -/

theorem Holds.perm (h : Holds Γ s) (hperm : Γ.Perm Δ) : Holds Δ s :=
  ⟨h.ids, h.heap, fun id type hmem => h.denotes id type (hperm.mem_iff.mpr hmem), (hperm.map Prod.fst).nodup_iff.mp h.nodup⟩

/-- The requests that a thread has still to make, and where its call stands: an open request is the first, and its response is one
that the thread can deal with. -/
inductive InCall (protocol : Protocol) : List Part → Status Message (List UInt8) → Prop
  | idle (parts : List Part) : InCall protocol parts .idle
  | called (part : Part) (parts : List Part) (call : Exchange.MethodCallRequest) (n : Nat) (requestMessage : Message) :
      part.message = .ok ⟨some (.methodCall call), ""⟩ →
      Exchange.Sends protocol.declared ⟨some (.methodCall call), ""⟩ requestMessage →
      InCall protocol (part :: parts) (.called n requestMessage)
  | answered (part : Part) (parts : List Part) (n : Nat) (responseBinary : List UInt8) (resp : ProcessExchangeResponse)
      (value : Option Instance) : toProcessExchangeResponse (protocol.parseFrom responseBinary) = .ok resp →
      part.receive resp = .ok value → part.returned.Fits value → InCall protocol (part :: parts) (.answered n responseBinary)

/-- The handle in a response that a thread has not read yet. -/
def owed (protocol : Protocol) : List Part → Status Message (List UInt8) → Option (String × HandleType)
  | part :: _, .answered _ responseBinary =>
    match part.returned, toProcessExchangeResponse (protocol.parseFrom responseBinary) >>= part.receive with
    | .handle type, .ok (some (.handle assignedID)) => some (assignedID, type)
    | _, _ => none
  | _, _ => none

theorem owed_idle (protocol : Protocol) (parts : List Part) : owed protocol parts .idle = none := by
  cases parts <;> rfl

theorem owed_called (protocol : Protocol) (parts : List Part) (n : Nat) (requestMessage : Message) :
    owed protocol parts (.called n requestMessage) = none := by
  cases parts <;> rfl

/-- It is bound when the response is read. -/
theorem bind_eq_owed {n : Nat} {responseBinary : List UInt8} {resp : ProcessExchangeResponse} {value : Option Instance}
    (hresp : toProcessExchangeResponse (protocol.parseFrom responseBinary) = .ok resp) (hvalue : part.receive resp = .ok value)
    (hfits : part.returned.Fits value) (Γ : Context) :
    Γ.bind part.returned value = (owed protocol (part :: parts) (.answered n responseBinary)).toList ++ Γ := by
  have hreceive : (toProcessExchangeResponse (protocol.parseFrom responseBinary) >>= part.receive) = .ok value :=
    bind_eq_ok.mpr ⟨resp, hresp, hvalue⟩
  simp only [owed, hreceive]
  generalize part.returned = returned at hfits
  cases hfits <;> rfl

theorem subset_bind (Γ : Context) (returned : Returned) (value : Option Instance) : Γ ⊆ Γ.bind returned value := by
  unfold Context.bind
  split
  · exact List.subset_cons_self _ _
  · exact List.Subset.refl _

/-! ## The invariant -/

/-- The handles in responses that have not been read. -/
def pending (protocol : Protocol) (channels : List Nat) (parts : Nat → List Part) (status : Nat → Status Message (List UInt8)) :
    Context :=
  channels.filterMap fun t => owed protocol (parts t) (status t)

section

variable {channels : List Nat} {parts parts' : Nat → List Part} {status status' : Nat → Status Message (List UInt8)} {t : Nat}

theorem pending_congr (h : ∀ t, owed protocol (parts' t) (status' t) = owed protocol (parts t) (status t)) :
    pending protocol channels parts' status' = pending protocol channels parts status :=
  List.filterMap_congr fun t _ => h t

theorem pending_accept (hidle : status t = .idle) :
    pending protocol (channels ++ [t]) parts status = pending protocol channels parts status := by
  simp [pending, hidle, owed_idle]

/-- Where one thread goes on, the handles in the responses to the others stay. -/
theorem pending_update (protocol : Protocol) (hnodup : channels.Nodup) (hmem : t ∈ channels) (parts : Nat → List Part)
    (status : Nat → Status Message (List UInt8)) (rest : List Part) (standing : Status Message (List UInt8)) :
    ∃ others, (pending protocol channels parts status).Perm ((owed protocol (parts t) (status t)).toList ++ others) ∧
      (pending protocol channels (Function.update parts t rest) (Function.update status t standing)).Perm
        ((owed protocol rest standing).toList ++ others) := by
  have hupdate : (fun t' => owed protocol (Function.update parts t rest t') (Function.update status t standing t')) =
      Function.update (fun t' => owed protocol (parts t') (status t')) t (owed protocol rest standing) := by
    funext t'
    by_cases ht : t' = t
    · subst ht
      simp only [Function.update_self]
    · simp only [Function.update_of_ne ht]
  refine ⟨_, Tables.filterMap_perm hmem _, ?_⟩
  unfold pending
  rw [hupdate]
  exact Tables.filterMap_update_perm hnodup hmem _ _

/-- A response comes. -/
theorem pending_answered (hnodup : channels.Nodup) (hmem : t ∈ channels) {n : Nat} {requestMessage : Message}
    (hcalled : status t = .called n requestMessage) (standing : Status Message (List UInt8)) :
    (pending protocol channels parts (Function.update status t standing)).Perm
      ((owed protocol (parts t) standing).toList ++ pending protocol channels parts status) := by
  obtain ⟨others, hbefore, hafter⟩ := pending_update protocol hnodup hmem parts status (parts t) standing
  rw [hcalled, owed_called, Option.toList_none, List.nil_append] at hbefore
  rw [Function.update_eq_self] at hafter
  exact hafter.trans (hbefore.symm.append_left _)

/-- A response is read. -/
theorem pending_read (hnodup : channels.Nodup) (hmem : t ∈ channels) (rest : List Part) :
    (pending protocol channels parts status).Perm ((owed protocol (parts t) (status t)).toList ++
      pending protocol channels (Function.update parts t rest) (Function.update status t .idle)) := by
  obtain ⟨others, hbefore, hafter⟩ := pending_update protocol hnodup hmem parts status rest .idle
  rw [owed_idle, Option.toList_none, List.nil_append] at hafter
  exact hbefore.trans (hafter.symm.append_left _)

end

/-- The receiver runs, each thread that has a channel is served, what threads have still to request is well typed, and behind the
handles, also those that are not yet read, there is what their types say. -/
structure Typed (linked : Linked S) (protocol : Protocol) (v : Threads S)
    (a : Linearizable.State Nat Message (List UInt8) (State S)) : Prop where
  simulates : Simulates linked v.system a
  running : v.system.running = true
  served : ∀ t link, v.system.localFraming t = some link → t ∈ v.system.server.channels
  wellTyped : ∀ t, ∀ part ∈ v.parts t, part.WellTyped v.context
  inCall : ∀ t, InCall protocol (v.parts t) (a.status t)
  holds : Holds (pending protocol v.system.server.channels v.parts a.status ++ v.context) a.object
  fits : ∀ t, ∀ p ∈ v.returned t, p.1.Fits p.2

variable {v : Threads S} {a : Linearizable.State Nat Message (List UInt8) (State S)} {t : Nat}

theorem Typed.start : Typed linked protocol ({} : Threads S) { object := {} } where
  simulates := ⟨rfl, rfl, rfl, List.nodup_nil, fun _ => .unconnected rfl List.not_mem_nil⟩
  running := rfl
  served := nofun
  wellTyped := nofun
  inCall := fun _ => .idle _
  holds := Holds.start
  fits := nofun

/-! ## Steps -/

/-- A thread begins a call. -/
theorem Typed.begin (h : Typed linked protocol v a) {call : Call} (hparts : v.parts t = []) (hcall : call.WellTyped v.context)
    (hints : call.InInts) : Typed linked protocol { v with parts := Function.update v.parts t call.parts } a := by
  have hidle : a.status t = .idle := by
    have hinCall := h.inCall t
    rw [hparts] at hinCall
    generalize a.status t = status at hinCall
    cases hinCall
    rfl
  have hpending : pending protocol v.system.server.channels (Function.update v.parts t call.parts) a.status =
      pending protocol v.system.server.channels v.parts a.status := by
    refine pending_congr fun t' => ?_
    by_cases ht : t' = t
    · subst ht
      rw [hidle, owed_idle, owed_idle]
    · rw [Function.update_of_ne ht]
  refine ⟨h.simulates, h.running, h.served, ?_, ?_, ?_, h.fits⟩
  · intro t'
    by_cases ht : t' = t
    · subst ht
      simp only [Function.update_self]
      exact hcall.parts hints
    · simp only [Function.update_of_ne ht]
      exact h.wellTyped t'
  · intro t'
    by_cases ht : t' = t
    · subst ht
      rw [hidle]
      exact .idle _
    · simp only [Function.update_of_ne ht]
      exact h.inCall t'
  · simp only [hpending]
    exact h.holds

/-- A channel is opened. -/
theorem Typed.connect (h : Typed linked protocol v a) (hnone : v.system.localFraming t = none) :
    Typed linked protocol { v with system := { v.system with
      server := v.system.server.accept t, localFraming := Function.update v.system.localFraming t (some {}) } } a := by
  have hidle : a.status t = .idle := by
    have hmatches := h.simulates.links t
    rw [hnone] at hmatches
    exact hmatches.of_none.1
  refine ⟨h.simulates.connect hnone, h.running, ?_, h.wellTyped, h.inCall, ?_, h.fits⟩
  · intro t' link hlink
    by_cases ht : t' = t
    · subst ht
      exact List.mem_append_right _ List.mem_cons_self
    · simp only [Function.update_of_ne ht] at hlink
      exact List.mem_append_left _ (h.served t' link hlink)
  · simp only [Cpp.Process.Server.accept, pending_accept hidle]
    exact h.holds

/-- The first of the requests that a thread has still to make has a message. -/
theorem Typed.exists_call (h : Typed linked protocol v a) (hlen : v.system.server.state.drawn.length ≤ 2 ^ 64)
    (hparts : v.parts t = part :: parts) : ∃ call, part.message = .ok ⟨some (.methodCall call), ""⟩ ∧ call.Small := by
  have hpart : part.WellTyped (pending protocol v.system.server.channels v.parts a.status ++ v.context) := by
    refine (h.wellTyped t part ?_).mono (List.subset_append_right _ _)
    rw [hparts]
    exact List.mem_cons_self
  have hlen' : a.object.drawn.length ≤ 2 ^ 64 := by
    rw [h.simulates.object]
    exact hlen
  exact hpart.exists_call fun id type hmem => h.holds.short hlen' hmem

/-- The thread makes it. -/
theorem Typed.write (h : Typed linked protocol v a) (hlen : v.system.server.state.drawn.length ≤ 2 ^ 64) {link : Link}
    (hlink : v.system.localFraming t = some link) (hcall : link.call = none) (hparts : v.parts t = part :: parts)
    {m : Exchange.Request} (hmessage : part.message = .ok m) {requestMessage : Message}
    (hbytes : m.toByteArray protocol.declared = some requestMessage.bytes) :
    ∃ a' n, Typed linked protocol
      { v with system := { v.system with
          localFraming := Function.update v.system.localFraming t
            (some { link with framing := link.framing.write .request requestMessage, call := some v.system.calls })
          calls := v.system.calls + 1
          history := v.system.history ++ [.call v.system.calls t requestMessage] } } a' ∧
      a'.status t = .called n requestMessage := by
  obtain ⟨hidle, hwrite⟩ := h.simulates.write hlink hcall requestMessage
  obtain ⟨call, hcall', hsmall⟩ := h.exists_call hlen hparts
  obtain rfl : m = ⟨some (.methodCall call), ""⟩ := Except.ok.inj (hmessage.symm.trans hcall')
  obtain ⟨hlength, hsends⟩ := hsmall.sends protocol.declared
  have hsends : Exchange.Sends protocol.declared ⟨some (.methodCall call), ""⟩ requestMessage :=
    ⟨hsends.kind, hsends.words, hbytes⟩
  refine ⟨_, a.calls, ⟨hwrite, h.running, ?_, h.wellTyped, ?_, ?_, h.fits⟩, Function.update_self _ _ _⟩
  · intro t' link' hlink'
    by_cases ht : t' = t
    · subst ht
      exact h.served t' link hlink
    · simp only [Function.update_of_ne ht] at hlink'
      exact h.served t' link' hlink'
  · intro t'
    by_cases ht : t' = t
    · subst ht
      simp only [Function.update_self, hparts]
      exact .called part parts call _ requestMessage hcall' hsends
    · simp only [Function.update_of_ne ht]
      exact h.inCall t'
  · have hpending : pending protocol v.system.server.channels v.parts
        (Function.update a.status t (.called a.calls requestMessage)) =
          pending protocol v.system.server.channels v.parts a.status := by
      refine pending_congr fun t' => ?_
      by_cases ht : t' = t
      · subst ht
        rw [Function.update_self, hidle, owed_called, owed_idle]
      · rw [Function.update_of_ne ht]
    simp only [hpending]
    exact h.holds

/-- A request that was written is served, if its library function returns: nothing else that the other threads have done makes it
fail. -/
theorem Typed.exists_request (hconnected : Connected linked protocol) (h : Typed linked protocol v a) {n : Nat}
    {requestMessage : Message} (hstatus : a.status t = .called n requestMessage)
    (hreturns : requestMessage.bytes ≠ [] →
      Cpp.Process.Returns linked.lib (linked.parse requestMessage.bytes) v.system.server.state) :
    ∃ part parts responseBinary s resp value, v.parts t = part :: parts ∧ requestMessage.bytes ≠ [] ∧
      ThreadLocalGenerator.request linked requestMessage v.system.server.state = some (responseBinary, s) ∧
      s.drawn.length = v.system.server.state.drawn.length + 1 ∧
      toProcessExchangeResponse (protocol.parseFrom responseBinary) = .ok resp ∧ part.receive resp = .ok value ∧
      part.returned.Fits value ∧ (s.drawn.length ≤ 2 ^ 64 →
        Holds ((pending protocol v.system.server.channels v.parts a.status ++ v.context).bind part.returned value) s) := by
  have hinCall := h.inCall t
  have hwellTyped := h.wellTyped t
  rw [hstatus] at hinCall
  generalize v.parts t = threadParts at hinCall hwellTyped
  cases hinCall with
  | called part parts call _ _ hmessage hsends =>
    have hpart := (hwellTyped part List.mem_cons_self).mono
      (List.subset_append_right (pending protocol v.system.server.channels v.parts a.status) v.context)
    obtain ⟨w, hw, hgenerated⟩ := hconnected.receiver
    have hread : linked.parse requestMessage.bytes = ⟨some call.read, ""⟩ := Cpp.Batch.parse_of_sends hw hgenerated hsends
    have hreturns := hreturns (Cpp.Batch.ne_nil_of_sends hsends)
    rw [hread, ← h.simulates.object] at hreturns
    obtain ⟨resp, s, hserve, hid, answer, value, hanswer, hvalue, hfits, htype⟩ :=
      hpart.exists_serve linked.lib h.holds hmessage hreturns
    obtain ⟨hanswer', hresult⟩ := answer_toInt64 hanswer
    have hparse := hconnected.parseFrom hserve hresult
    have hrequest : ThreadLocalGenerator.request linked requestMessage v.system.server.state = some (linked.serialize resp, s) := by
      rw [ThreadLocalGenerator.request, hread, ← h.simulates.object, hserve]
    have hdrawn : s.drawn.length = v.system.server.state.drawn.length + 1 := by
      rw [(Cpp.Process.drawn_of_serve rfl hserve).1, h.simulates.object, List.length_append, List.length_singleton]
    refine ⟨part, parts, _, s, answer.toInt64, value, rfl, Cpp.Batch.ne_nil_of_sends hsends, hrequest, hdrawn, ?_, hvalue, hfits,
      fun hlen => ?_⟩
    · rw [hparse]
      exact hanswer'
    · rw [hid] at htype
      exact h.holds.returned (.request linked.lib {} _ _ s resp rfl hserve) (Cpp.Process.drawId_prefix_of_serve rfl hserve) hlen htype

/-- The loop of a channel takes a turn. -/
theorem Typed.turn (hconnected : Connected linked protocol) (h : Typed linked protocol v a)
    (hreturns : LibraryReturns linked v.system t) {link : Link}
    (hlink : v.system.localFraming t = some link) (hne : link.toReceiver ≠ []) :
    (v.system.turn linked t link).server.state.drawn.length = v.system.server.state.drawn.length + 1 ∧
      ((v.system.turn linked t link).server.state.drawn.length ≤ 2 ^ 64 →
        ∃ a' n responseBinary, Typed linked protocol { v with system := v.system.turn linked t link } a' ∧
          a'.status t = .answered n responseBinary) := by
  have hmatches := h.simulates.links t
  rw [hlink] at hmatches
  obtain ⟨n, requestMessage, hstatus, -, -, hbytes, -, -⟩ := hmatches.of_toReceiver hne
  obtain ⟨part, parts, responseBinary, s, resp, value, hparts, hpayload, hrequest, hdrawn, hresp, hvalue, hfits, hholds⟩ :=
    h.exists_request hconnected hstatus fun hne => by
      obtain ⟨cuts, hread⟩ := ThreadLocalGenerator.readFrame_request hbytes hne
      exact hreturns link _ _ hlink hread
  have hserved := h.served t link hlink
  have hsimulates := h.simulates.serve hconnected.length_serialize hlink hserved hstatus hpayload hrequest
  obtain ⟨response, -, hturn⟩ := turn_some (t := t) hbytes hpayload hrequest
  rw [hturn] at hsimulates ⊢
  refine ⟨hdrawn, fun hlen =>
    ⟨_, n, responseBinary, ⟨hsimulates, h.running, ?_, h.wellTyped, ?_, ?_, h.fits⟩, Function.update_self _ _ _⟩⟩
  · intro t' link' hlink'
    by_cases ht : t' = t
    · subst ht
      exact hserved
    · simp only [Function.update_of_ne ht] at hlink'
      exact h.served t' link' hlink'
  · intro t'
    by_cases ht : t' = t
    · subst ht
      simp only [Function.update_self, hparts]
      exact .answered part parts n responseBinary resp value hresp hvalue hfits
    · simp only [Function.update_of_ne ht]
      exact h.inCall t'
  · have hholds := hholds hlen
    rw [bind_eq_owed hresp hvalue hfits, ← hparts, ← List.append_assoc] at hholds
    exact hholds.perm ((pending_answered h.simulates.channels hserved hstatus (.answered n responseBinary)).symm.append_right _)

/-- A thread reads its response. -/
theorem Typed.read (h : Typed linked protocol v a) {link : Link} (hlink : v.system.localFraming t = some link) {n tag : Nat}
    {responseBinary rest : List UInt8} (hcall : link.call = some n)
    (hread : Cpp.Batch.read ((v.system.written linked t).drop link.received) = some (tag, responseBinary, rest))
    (hparts : v.parts t = part :: parts) {resp : ProcessExchangeResponse} {value : Option Instance}
    (hresp : toProcessExchangeResponse (protocol.parseFrom responseBinary) = .ok resp) (hvalue : part.receive resp = .ok value) :
    part.returned.Fits value ∧ ∃ a', Typed linked protocol {
      system := { v.system with
        localFraming := Function.update v.system.localFraming t
          (some { link with received := (v.system.written linked t).length - rest.length, call := none })
        history := v.system.history ++ [.ret n responseBinary] }
      context := v.context.bind part.returned value, parts := Function.update v.parts t parts
      returned := Function.update v.returned t (v.returned t ++ [(part.returned, value)]) } a' := by
  obtain ⟨hstatus, hsimulates⟩ := h.simulates.read hlink hcall hread
  have hserved := h.served t link hlink
  have hfits : part.returned.Fits value := by
    have hinCall := h.inCall t
    rw [hparts, hstatus] at hinCall
    cases hinCall with
    | answered _ _ _ _ resp' value' hresp' hvalue' hfits =>
      obtain rfl := Except.ok.inj (hresp.symm.trans hresp')
      obtain rfl := Except.ok.inj (hvalue.symm.trans hvalue')
      exact hfits
  have hsub := subset_bind v.context part.returned value
  refine ⟨hfits, _, hsimulates, h.running, ?_, ?_, ?_, ?_, ?_⟩
  · intro t' link' hlink'
    by_cases ht : t' = t
    · subst ht
      exact hserved
    · simp only [Function.update_of_ne ht] at hlink'
      exact h.served t' link' hlink'
  · intro t' part' hpart'
    refine (h.wellTyped t' part' ?_).mono hsub
    by_cases ht : t' = t
    · subst ht
      simp only [Function.update_self] at hpart'
      rw [hparts]
      exact List.mem_cons_of_mem _ hpart'
    · simp only [Function.update_of_ne ht] at hpart'
      exact hpart'
  · intro t'
    by_cases ht : t' = t
    · subst ht
      simp only [Function.update_self]
      exact .idle parts
    · simp only [Function.update_of_ne ht]
      exact h.inCall t'
  · have hpending : (pending protocol v.system.server.channels v.parts a.status).Perm
        ((owed protocol (v.parts t) (a.status t)).toList ++ pending protocol v.system.server.channels
          (Function.update v.parts t parts) (Function.update a.status t .idle)) := pending_read h.simulates.channels hserved parts
    rw [hparts, hstatus] at hpending
    rw [bind_eq_owed hresp hvalue hfits]
    refine h.holds.perm ((hpending.append_right _).trans ?_)
    rw [List.append_assoc]
    exact List.perm_append_comm_assoc _ _ _
  · intro t' p hp
    by_cases ht : t' = t
    · subst ht
      simp only [Function.update_self] at hp
      rcases List.mem_append.mp hp with hp | hp
      · exact h.fits t' p hp
      · rw [List.mem_singleton.mp hp]
        exact hfits
    · simp only [Function.update_of_ne ht] at hp
      exact h.fits t' p hp

/-! ## Progress -/

/-- The first request of a thread returns after steps of the thread and of the loop of its channel, with at most `limit` ids drawn. -/
def Advances (linked : Linked S) (protocol : Protocol) (t : Nat) (part : Part) (parts : List Part) (limit : Nat) (v : Threads S) : Prop :=
  ∃ v' a' value, ReflTransGen (ThreadsStep linked protocol t) v v' ∧ Typed linked protocol v' a' ∧ v'.parts t = parts ∧
    part.returned.Fits value ∧ v'.context = v.context.bind part.returned value ∧
    v'.returned t = v.returned t ++ [(part.returned, value)] ∧ v'.system.server.state.drawn.length ≤ limit

theorem Advances.head {limit : Nat} {v₁ : Threads S} (hstep : ThreadsStep linked protocol t v v₁)
    (hcontext : v₁.context = v.context) (hreturned : v₁.returned t = v.returned t)
    (h : Advances linked protocol t part parts limit v₁) : Advances linked protocol t part parts limit v := by
  obtain ⟨v', a', value, hrun, htyped, hparts, hfits, hcontext', hreturned', hdrawn⟩ := h
  exact ⟨v', a', value, .head hstep hrun, htyped, hparts, hfits, hcontext ▸ hcontext', hreturned ▸ hreturned', hdrawn⟩

/-- A response is read. -/
theorem Typed.advances_answered (h : Typed linked protocol v a) (hparts : v.parts t = part :: parts) {n : Nat}
    {responseBinary : List UInt8} (hstatus : a.status t = .answered n responseBinary) :
    Advances linked protocol t part parts v.system.server.state.drawn.length v := by
  have hinCall := h.inCall t
  rw [hparts, hstatus] at hinCall
  cases hinCall with
  | answered _ _ _ _ resp value hresp hvalue hfits =>
    obtain ⟨link, hlink, hcall, hread⟩ := h.simulates.exists_read hstatus
    obtain ⟨-, a', htyped⟩ := h.read hlink hcall hread hparts hresp hvalue
    have hstep : Step linked t v.system _ := .read v.system link n _ responseBinary [] hlink hcall hread (by decide)
    exact ⟨_, a', value, .single (.read v _ part parts n responseBinary resp value hparts hstep rfl hresp hvalue), htyped,
      Function.update_self _ _ _, hfits, rfl, Function.update_self _ _ _, Nat.le_refl _⟩

/-- A request that was written is served, and its response read. -/
theorem Typed.advances_called (hconnected : Connected linked protocol) (h : Typed linked protocol v a)
    (hreturns : LibraryReturns linked v.system t) (hparts : v.parts t = part :: parts)
    (hlen : v.system.server.state.drawn.length < 2 ^ 64) {n : Nat} {requestMessage : Message}
    (hstatus : a.status t = .called n requestMessage) :
    Advances linked protocol t part parts (v.system.server.state.drawn.length + 1) v := by
  have hmatches := h.simulates.links t
  rw [hstatus] at hmatches
  generalize hlink : v.system.localFraming t = localFraming at hmatches
  cases hmatches with
  | called link _ _ _ _ hbytes =>
    have hne : link.toReceiver ≠ [] := by
      rw [hbytes]
      exact List.cons_ne_nil _ _
    obtain ⟨hdrawn, hturn⟩ := h.turn hconnected hreturns hlink hne
    obtain ⟨a', n', responseBinary, htyped, hanswered⟩ := hturn (by omega)
    have hstep : Step linked t v.system _ := .turn v.system link h.running (h.served t link hlink) hlink hne
    rw [← hdrawn]
    exact (htyped.advances_answered hparts hanswered).head (.channel v _ hstep (turn_history v.system t link)) rfl rfl

/-- A thread that is connected makes its request. -/
theorem Typed.advances_connected (hconnected : Connected linked protocol) (h : Typed linked protocol v a)
    (hreturns : ∀ v', ReflTransGen (ThreadsStep linked protocol t) v v' → LibraryReturns linked v'.system t)
    (hparts : v.parts t = part :: parts) (hlen : v.system.server.state.drawn.length < 2 ^ 64) {link : Link}
    (hlink : v.system.localFraming t = some link) (hcall : link.call = none) :
    Advances linked protocol t part parts (v.system.server.state.drawn.length + 1) v := by
  obtain ⟨call, hmessage, hsmall⟩ := h.exists_call (Nat.le_of_lt hlen) hparts
  obtain ⟨requestMessage, hsends⟩ : ∃ requestMessage, Exchange.Sends protocol.declared _ requestMessage :=
    ⟨_, (hsmall.sends protocol.declared).choose_spec⟩
  obtain ⟨a', n, htyped, hstatus⟩ := h.write (Nat.le_of_lt hlen) hlink hcall hparts hmessage hsends.bytes
  have hstep : Step linked t v.system _ := .write v.system link requestMessage hlink hcall
  have hwrite : ThreadsStep linked protocol t v _ := .write v _ part parts _ _ hparts hmessage hsends.bytes hstep rfl
  exact (htyped.advances_called hconnected (hreturns _ (.single hwrite)) hparts hlen hstatus).head hwrite rfl rfl

/-- The first request of a thread returns, wherever the thread stands in it. -/
theorem Typed.advances (hconnected : Connected linked protocol) (h : Typed linked protocol v a)
    (hreturns : ∀ v', ReflTransGen (ThreadsStep linked protocol t) v v' → LibraryReturns linked v'.system t)
    (hparts : v.parts t = part :: parts) (hlen : v.system.server.state.drawn.length < 2 ^ 64) :
    Advances linked protocol t part parts (v.system.server.state.drawn.length + 1) v := by
  have hmatches := h.simulates.links t
  cases hstatus : a.status t with
  | idle =>
    rw [hstatus] at hmatches
    generalize hlink : v.system.localFraming t = localFraming at hmatches
    cases hmatches with
    | unconnected =>
      have hstep : Step linked t v.system _ := .connect v.system h.running hlink
      have hchannel : ThreadsStep linked protocol t v _ := .channel v _ hstep rfl
      exact ((h.connect hlink).advances_connected hconnected (fun v' hrun => hreturns v' (.head hchannel hrun)) hparts hlen
        (Function.update_self _ _ _) rfl).head hchannel rfl rfl
    | idle link _ hcall => exact h.advances_connected hconnected hreturns hparts hlen hlink hcall
  | called n requestMessage => exact h.advances_called hconnected (hreturns v .refl) hparts hlen hstatus
  | answered n responseBinary =>
    obtain ⟨v', a', value, hrun, htyped, hparts', hfits, hcontext, hreturned, hdrawn⟩ := h.advances_answered hparts hstatus
    exact ⟨v', a', value, hrun, htyped, hparts', hfits, hcontext, hreturned, hdrawn.trans (Nat.le_succ _)⟩

/-- All requests of a thread return. -/
theorem Typed.finish (hconnected : Connected linked protocol) (h : Typed linked protocol v a)
    (hreturns : ∀ v', ReflTransGen (ThreadsStep linked protocol t) v v' → LibraryReturns linked v'.system t)
    (hparts : v.parts t = parts) (hlen : v.system.server.state.drawn.length + parts.length ≤ 2 ^ 64) :
    ∃ v' results, ReflTransGen (ThreadsStep linked protocol t) v v' ∧ v'.parts t = [] ∧
      v'.returned t = v.returned t ++ results ∧ results.map Prod.fst = parts.map Part.returned ∧ ∀ p ∈ results, p.1.Fits p.2 := by
  induction parts generalizing v a with
  | nil => exact ⟨v, [], .refl, hparts, (List.append_nil _).symm, rfl, nofun⟩
  | cons part parts ih =>
    rw [List.length_cons] at hlen
    obtain ⟨v₁, a₁, value, hrun, htyped, hparts₁, hfits, -, hreturned, hdrawn⟩ := h.advances hconnected hreturns hparts (by omega)
    obtain ⟨v', results, hrun', hnil, hreturned', hresults, hall⟩ :=
      ih htyped (fun v' hrun' => hreturns v' (hrun.trans hrun')) hparts₁ (by omega)
    refine ⟨v', (part.returned, value) :: results, hrun.trans hrun', hnil, ?_, ?_, List.forall_mem_cons.mpr ⟨hfits, hall⟩⟩
    · rw [hreturned', hreturned, List.append_assoc, List.singleton_append]
    · rw [List.map_cons, List.map_cons, hresults]

/-! ## Runs -/

/-- Ids that were drawn stay. -/
theorem ThreadsStep.drawn {v' : Threads S} (hstep : ThreadsStep linked protocol t v v') :
    v.system.server.state.drawn.length ≤ v'.system.server.state.drawn.length := by
  cases hstep with
  | begin => exact Nat.le_refl _
  | channel system hstep => exact hstep.drawn
  | write system part parts m requestMessage hparts hmessage hbytes hstep => exact hstep.drawn
  | read system part parts n responseBinary resp value hparts hstep => exact hstep.drawn

/-- A step keeps all threads typed, as long as there are ids. -/
theorem Typed.step (hconnected : Connected linked protocol) (h : Typed linked protocol v a) {v' : Threads S}
    (hreturns : LibraryReturns linked v.system t) (hstep : ThreadsStep linked protocol t v v')
    (hlen : v'.system.server.state.drawn.length ≤ 2 ^ 64) : ∃ a', Typed linked protocol v' a' := by
  have hlen₀ := hstep.drawn.trans hlen
  cases hstep with
  | begin call hparts hcall hints => exact ⟨a, h.begin hparts hcall hints⟩
  | channel system hstep hhistory =>
    rcases hstep.of_silent hhistory with ⟨hnone, rfl⟩ | ⟨link, hserved, hlink, hne, rfl⟩
    · exact ⟨a, h.connect hnone⟩
    · obtain ⟨a', -, -, htyped, -⟩ := (h.turn hconnected hreturns hlink hne).2 hlen
      exact ⟨a', htyped⟩
  | write system part parts m requestMessage hparts hmessage hbytes hstep hhistory =>
    obtain ⟨link, hlink, hcall, rfl⟩ := hstep.of_call hhistory
    obtain ⟨a', -, htyped, -⟩ := h.write hlen₀ hlink hcall hparts hmessage hbytes
    exact ⟨a', htyped⟩
  | read system part parts n responseBinary resp value hparts hstep hhistory hresp hvalue =>
    obtain ⟨link, tag, rest, hlink, hcall, hread, rfl⟩ := hstep.of_ret hhistory
    exact (h.read hlink hcall hread hparts hresp hvalue).2

/-- In every run all threads are typed. -/
theorem typed_of_run (hconnected : Connected linked protocol) (h : ReflTransGen (ReturningStep linked protocol) {} v)
    (hlen : v.system.server.state.drawn.length ≤ 2 ^ 64) : ∃ a, Typed linked protocol v a := by
  induction h with
  | refl => exact ⟨_, .start⟩
  | tail _ hstep ih =>
    obtain ⟨t, hreturns, hstep⟩ := hstep
    obtain ⟨a, ha⟩ := ih (hstep.drawn.trans hlen)
    exact ha.step hconnected hreturns hstep hlen

/-- The functions of the library that was generated for return. -/
theorem libraryReturns_generated (system : System Unit) (t : Nat) : LibraryReturns Cpp.Batch.generated system t :=
  fun _ _ _ _ _ => Cpp.Process.returns_of_total (fun _ _ _ => rfl) _ _

theorem ThreadsStep.returning {v v' : Threads Unit} {t : Nat} (h : ThreadsStep Cpp.Batch.generated standardProtocol t v v') :
    ReturningStep Cpp.Batch.generated standardProtocol v v' := ⟨t, libraryReturns_generated v.system t, h⟩

/-- Two threads that have both called, and have written their requests. -/
theorem exists_bothOpen : ∃ v : Threads Unit,
    ReflTransGen (ReturningStep Cpp.Batch.generated standardProtocol) {} v ∧
      v.system.server.state = {} ∧ v.context = [] ∧ v.returned 1 = [] ∧ v.parts 1 = [.allocate .ast 2] ∧
      ∃ m m', v.system.history = [.call 0 0 m, .call 1 1 m'] := by
  have hconfig : (Call.wrapper z3MkConfig "" []).WellTyped [] := .wrapper z3MkConfig "" [] (by decide) nofun .nil
  have harray : (Call.makeArray .ast 2).WellTyped [] := .makeArray .ast 2
  have hints : (Call.makeArray .ast 2).InInts := by
    show 2 < 2 ^ 31
    decide
  have hnone : ∀ id type, (id, type) ∈ ([] : Context) → (utf8 id).length ≤ 100 := fun _ _ hmem => absurd hmem List.not_mem_nil
  obtain ⟨call, hmessage, hsmall⟩ := (hconfig.parts trivial _ List.mem_cons_self).exists_call hnone
  obtain ⟨call', hmessage', hsmall'⟩ := (harray.parts hints _ List.mem_cons_self).exists_call hnone
  obtain ⟨hlength, hsends⟩ := hsmall.sends standardProtocol.declared
  obtain ⟨hlength', hsends'⟩ := hsmall'.sends standardProtocol.declared
  have hreturns := libraryReturns_generated
  have hconnected : ReflTransGen (ReturningStep Cpp.Batch.generated standardProtocol) {} _ :=
    (ReflTransGen.refl.tail ⟨0, hreturns _ 0, .channel _ _ (.connect _ rfl rfl) rfl⟩).tail
      ⟨1, hreturns _ 1, .channel _ _ (.connect _ rfl rfl) rfl⟩
  have hbegun := (hconnected.tail ⟨0, hreturns _ 0, .begin _ _ rfl hconfig trivial⟩).tail
    ⟨1, hreturns _ 1, .begin _ _ rfl harray hints⟩
  have hwritten := (hbegun.tail
    ⟨0, hreturns _ 0, .write _ _ _ [] _ _ rfl hmessage hsends.bytes (.write _ {} _ rfl rfl) rfl⟩).tail
    ⟨1, hreturns _ 1, .write _ _ _ [] _ _ rfl hmessage' hsends'.bytes (.write _ {} _ rfl rfl) rfl⟩
  exact ⟨_, hwritten, rfl, rfl, rfl, rfl, _, _, rfl⟩

/-- In every run in which at most 2^64 ids are drawn and the library functions return, however the threads come in turn: the receiver
does not fail, no id is bound twice, behind each handle there is what its type says, whichever thread it was returned to, and whatever a
call returned is of the type declared. -/
theorem threads_keep_types (hconnected : Connected linked protocol) (h : ReflTransGen (ReturningStep linked protocol) {} v)
    (hlen : v.system.server.state.drawn.length ≤ 2 ^ 64) :
    v.system.running = true ∧ (v.context.map Prod.fst).Nodup ∧
      (∀ id type, (id, type) ∈ v.context → type.Denotes v.system.server.state id) ∧ ∀ t, ∀ p ∈ v.returned t, p.1.Fits p.2 := by
  obtain ⟨a, ha⟩ := typed_of_run hconnected h hlen
  have hholds := ha.holds
  rw [ha.simulates.object] at hholds
  have hnodup := hholds.nodup
  rw [List.map_append] at hnodup
  exact ⟨ha.running, hnodup.of_append_right, fun id type hmem => hholds.denotes id type (List.mem_append_right _ hmem), ha.fits⟩

/-- The rule where the array was made for one of them, while the call of the other is open. -/
theorem threads_keep_types_array : ∃ (v : Threads Unit) (id : String),
    ReflTransGen (ReturningStep Cpp.Batch.generated standardProtocol) {} v ∧
      v.context = [(id, .array .ast 2)] ∧ v.returned 1 = [(.handle (.array .ast 2), some (.handle id))] ∧
      (v.system.running = true ∧ (v.context.map Prod.fst).Nodup ∧
        (∀ id type, (id, type) ∈ v.context → type.Denotes v.system.server.state id) ∧
        ∀ t, ∀ p ∈ v.returned t, p.1.Fits p.2) := by
  obtain ⟨v, hrun, hstate, hcontext, hreturned, hparts, -⟩ := exists_bothOpen
  have hdrawn : v.system.server.state.drawn.length = 0 := by
    rw [hstate]
    rfl
  obtain ⟨a, ha⟩ := typed_of_run connected_standard hrun (by omega)
  obtain ⟨v', -, value, hrun', -, -, hfits, hcontext', hreturned', hdrawn'⟩ :=
    ha.advances connected_standard (fun v' _ => libraryReturns_generated v'.system 1) hparts (by omega)
  have hreach := hrun.trans (ReflTransGen.mono (fun _ _ hstep => hstep.returning) _ _ hrun')
  cases hfits with
  | handle _ id =>
    rw [hcontext] at hcontext'
    rw [hreturned, List.nil_append] at hreturned'
    exact ⟨v', id, hreach, hcontext', hreturned', threads_keep_types connected_standard hreach (by omega)⟩

end LibraryLink.Kotlin.Z3Kotlin
