import LibraryLink.Lemmas.TypedSessions
import LibraryLink.Theorems.Wrappers

/-!
# What Kotlin's types promise

The types of the wrappers are those of the handlers, so a call that Kotlin's types admit finds what it reads: it is answered, with a
value of the type declared, and a handle that it returns is one of what it stands for from then on, whatever other clients do.
-/

namespace LibraryLink.Kotlin.Z3Kotlin

open Outcome
open Relation (ReflTransGen)
open Cpp.Process (Param Handler Ret Action Env State IdStep Ids Elem dispatch serve argumentValue)
open Generator (valueOf argumentValue_eq)

variable {S : Type} {lib : Cpp.Process.Library S} {env : Env} {Γ : Context} {s s' : State S}

/-! ## The handlers of the wrappers -/

/-- The parameter of a handler for one of a wrapper. -/
def ParamType.param (i : Nat) : ParamType → Param
  | .handle clazz => .ref clazz.ctype i
  | .array elem => .ref elem.pointer i
  | .int => .int i
  | .boolean => .bool i

/-- What a handler does with the result, for that of a wrapper. -/
def retOf : Option ResultType → Ret
  | none => .nothing
  | some (.handle clazz) => .handle clazz.ctype
  | some .int => .int
  | some .boolean => .bool

/-- The handler that a wrapper's declaration asks for. -/
def Wrapper.handler (w : Wrapper) : Handler where
  function := w.methodName
  params := (if w.isStatic then [] else [.self w.clazz.ctype]) ++ w.params.mapIdx fun i p => p.2.param i
  ret := retOf w.result

/-- The receiver has this handler for each wrapper. -/
theorem dispatch_wrapper :
    ∀ w ∈ wrappers, dispatch ⟨w.methodName, "", w.clazz.simpleName, []⟩ = some (.library w.handler) := by
  decide +kernel

/-! ## The receiver behind the handles -/

/-- What stands under an assigned id. -/
def HandleType.Denotes (s : State S) (id : String) : HandleType → Prop
  | .object clazz => ∃ value, s.Points id clazz.ctype value
  | .array elem size => s.HasArray id elem size

/-- There is a pointer under the id. -/
theorem HandleType.Denotes.entry {id : String} {type : HandleType} (h : type.Denotes s id) : ∃ a, s.entry id = some a := by
  cases type with
  | object clazz =>
    obtain ⟨value, a, ha, -⟩ := h
    exact ⟨a, ha⟩
  | array elem size =>
    obtain ⟨b, ⟨a, ha, -⟩, -⟩ := h
    exact ⟨a, ha⟩

/-- Each id of a context stands for what its type says, and no id is there twice. -/
structure Holds (Γ : Context) (s : State S) : Prop where
  ids : Ids s none
  heap : Cpp.Process.WellTyped s.heap
  denotes : ∀ id type, (id, type) ∈ Γ → type.Denotes s id
  nodup : (Γ.map Prod.fst).Nodup

theorem Holds.start : Holds [] ({} : State S) :=
  ⟨Ids.start, Cpp.Process.wellTyped_nil, nofun, List.nodup_nil⟩

/-- Whatever the receiver does next, handles stay what they are. -/
theorem Holds.step (h : Holds Γ s) (hs : IdStep s s') (hlen : s'.drawn.length ≤ 2 ^ 64) : Holds Γ s' := by
  have hcells := hs.keepsCells h.ids hlen
  refine ⟨hs.keeps.ids hlen h.ids, hs.wellTyped h.heap, ?_, h.nodup⟩
  intro id type hmem
  cases type with
  | object clazz =>
    obtain ⟨value, hpoints⟩ := h.denotes id _ hmem
    exact ⟨value, hcells.points (Set.mem_univ id) hpoints⟩
  | array elem size => exact (h.denotes id _ hmem).step hcells hs.keepsShapes

/-- A handle is bound to the id of a response. -/
theorem Holds.bind (h : Holds Γ s) (hs : IdStep s s') (hdrawn : s.drawId.2.drawn <+: s'.drawn)
    (hlen : s'.drawn.length ≤ 2 ^ 64) {type : HandleType} (htype : type.Denotes s' s.drawId.1) :
    Holds ((s.drawId.1, type) :: Γ) s' := by
  have hlt : s.drawn.length < 2 ^ 64 := Cpp.Process.length_lt_of_drawId (hdrawn.length_le.trans hlen)
  have h' := h.step hs hlen
  refine ⟨h'.ids, h'.heap, ?_, ?_⟩
  · intro id type' hmem
    rcases List.mem_cons.mp hmem with heq | hmem
    · obtain ⟨rfl, rfl⟩ := Prod.mk.inj heq
      exact htype
    · exact h'.denotes id type' hmem
  · refine List.nodup_cons.mpr ⟨?_, h.nodup⟩
    intro hmem
    obtain ⟨⟨id, type'⟩, hmem, hid⟩ := List.mem_map.mp hmem
    obtain ⟨a, ha⟩ := (h.denotes id type' hmem).entry
    exact (h.ids.drawId hlt).2 id a ha hid

/-- The handles after a call, where one that is returned has the id of the response. -/
theorem Holds.returned (h : Holds Γ s) (hs : IdStep s s') (hdrawn : s.drawId.2.drawn <+: s'.drawn)
    (hlen : s'.drawn.length ≤ 2 ^ 64) {returned : Returned} {v : Option Instance}
    (htype : ∀ type, returned = .handle type → v = some (.handle s.drawId.1) ∧ type.Denotes s' s.drawId.1) :
    Holds (Γ.bind returned v) s' := by
  cases returned with
  | handle type =>
    obtain ⟨rfl, hdenotes⟩ := htype type rfl
    exact h.bind hs hdrawn hlen hdenotes
  | _ => exact h.step hs hlen

/-! ## Requests -/

/-- An id is drawn for a call of a method that has none. -/
theorem drawId_prefix_of_makeRequest {r : MethodCallRequest Argument} {answer : ProcessExchangeResponse} (hid : r.assignedID = "")
    (h : makeRequest (sendRequest lib env) (.methodCall r) s = .ok (answer, s')) : s.drawId.2.drawn <+: s'.drawn := by
  obtain ⟨m, resp, hm, hserve, -⟩ := makeRequest_eq_ok.mp h
  obtain ⟨call, -, hm⟩ := bind_eq_ok.mp hm
  obtain rfl := Except.ok.inj hm
  exact Cpp.Process.drawId_prefix_of_serve hid hserve

/-- A call of a method that finds what it reads is served, if its library function returns, and its answer is made of the response. -/
theorem exists_makeRequest (lib : Cpp.Process.Library S) (h : Holds Γ s) (henv : env.callocs = true)
    {r : MethodCallRequest Argument} {call : Exchange.MethodCallRequest} {action : Action} (hid : r.assignedID = "")
    (hcall : r.toProtobuf = .ok call) (hdispatch : dispatch call.read = some action) (hready : action.Ready call.read s)
    (hreturns : action.Returns lib call.read s) :
    ∃ resp s', serve lib env ⟨some call.read, ""⟩ s = .ok (resp, s') ∧ resp.assignedId = s.drawId.1 ∧
      action.Answers call.read s' resp ∧ ∀ answer, toProcessExchangeResponse (.ofReceiver resp) = .ok answer →
        makeRequest (sendRequest lib env) (.methodCall r) s = .ok (answer, s') := by
  obtain ⟨resp, s', hserve, hresp, hanswers⟩ : ∃ resp s', serve lib env ⟨some call.read, ""⟩ s = .ok (resp, s') ∧
      resp.assignedId = s.drawId.1 ∧ action.Answers call.read s' resp :=
    Cpp.Process.exists_serve h.heap henv hdispatch hready hreturns
  have hm : Request.toProtobuf (.methodCall r) = .ok ⟨some (.methodCall call), ""⟩ := by
    rw [← hid]
    exact bind_eq_ok.mpr ⟨call, hcall, rfl⟩
  refine ⟨resp, s', hserve, hresp, hanswers, ?_⟩
  intro answer hanswer
  exact makeRequest_eq_ok.mpr ⟨_, resp, hm, hserve, hanswer⟩

/-! ## Wrappers -/

/-- The arguments of a wrapper become messages with the values passed. -/
theorem messages_of_args {params : List (String × ParamType)} {actual : List Instance} (hlen : params.length = actual.length) :
    ∃ messages, (List.zipWith (fun p v => Argument.of v (some p.1)) params actual).mapM Argument.toProtobuf = .ok messages ∧
      messages.map (·.value) = actual.map valueOf := by
  induction params generalizing actual with
  | nil =>
    obtain rfl := List.eq_nil_of_length_eq_zero hlen.symm
    exact ⟨[], rfl, rfl⟩
  | cons p params ih =>
    obtain ⟨v, actual, rfl⟩ := List.exists_cons_of_length_eq_add_one hlen.symm
    obtain ⟨messages, hmessages, hvalues⟩ := ih (Nat.succ.inj hlen)
    have hone : ∃ type, (Argument.of v (some p.1)).toProtobuf = .ok ⟨type, valueOf v, p.1⟩ := by
      cases v <;> exact ⟨_, rfl⟩
    obtain ⟨type, hone⟩ := hone
    refine ⟨⟨type, valueOf v, p.1⟩ :: messages, ?_, ?_⟩
    · rw [List.zipWith_cons_cons, List.mapM_cons, hone, hmessages]
      rfl
    · rw [List.map_cons, hvalues, List.map_cons]

/-- What Kotlin accepts for a parameter is what the handler reads for it. -/
theorem ready_of_accepts (h : Holds Γ s) {r : Cpp.Process.MethodCallRequest} {type : ParamType} {v : Instance} {i : Nat}
    (haccepts : Γ.Accepts type v) (hlen : i < r.arg.length) (hvalue : argumentValue r i = valueOf v) :
    (type.param i).Ready r s := by
  cases haccepts with
  | handle clazz assignedID hmem =>
    obtain ⟨value, hpoints⟩ := h.denotes assignedID _ hmem
    refine ⟨hlen, value, ?_⟩
    rw [hvalue]
    exact hpoints
  | array elem size assignedID hmem =>
    obtain ⟨b, hpoints, -⟩ := h.denotes assignedID _ hmem
    refine ⟨hlen, some b, ?_⟩
    rw [hvalue]
    exact hpoints
  | int n hlo hhi => exact hlen
  | boolean b => exact hlen

/-- A call is answered: it returns a value of the type declared, and the handles are then what the context says. -/
def Answered (lib : Cpp.Process.Library S) (env : Env) (Γ : Context) (c : Call) (s : State S) : Prop :=
  ∃ v s', c.run (sendRequest lib env) s = .ok (v, s') ∧ c.returned.Fits v ∧
    (s'.drawn.length ≤ 2 ^ 64 → Holds (Γ.bind c.returned v) s')

/-- The message that a wrapper sends. -/
theorem Wrapper.exists_call (w : Wrapper) (assignedID : String) {actual : List Instance} (hlen : w.params.length = actual.length) :
    ∃ call, (w.request assignedID actual).toProtobuf = .ok call ∧
      dispatch call.read = dispatch ⟨w.methodName, "", w.clazz.simpleName, []⟩ ∧
      (w.isStatic = false → call.read.objectId = assignedID) ∧ call.read.arg.map (·.value) = actual.map valueOf := by
  obtain ⟨messages, hmessages, hvalues⟩ := messages_of_args hlen
  refine ⟨_, bind_eq_ok.mpr ⟨messages, hmessages, rfl⟩, rfl, ?_, ?_⟩
  · intro hstatic
    show (if w.isStatic then "" else assignedID) = assignedID
    rw [hstatic]
    rfl
  · rw [← hvalues]
    exact List.map_map

/-- The handler of a wrapper finds what it reads. -/
theorem Wrapper.ready (h : Holds Γ s) {w : Wrapper} {assignedID : String} {actual : List Instance}
    {r : Cpp.Process.MethodCallRequest} (hself : w.isStatic = false → (assignedID, .object w.clazz) ∈ Γ)
    (hactual : List.Forall₂ (fun p v => Γ.Accepts p.2 v) w.params actual)
    (hobject : w.isStatic = false → r.objectId = assignedID) (hargs : r.arg.map (·.value) = actual.map valueOf) :
    (Action.library w.handler).Ready r s := by
  obtain ⟨hlen, hget⟩ := List.forall₂_iff_get.mp hactual
  have harglen : r.arg.length = actual.length := by
    rw [← List.length_map (·.value), hargs, List.length_map]
  intro p hp
  rcases List.mem_append.mp hp with hp | hp
  · cases hstatic : w.isStatic with
    | true =>
      rw [hstatic] at hp
      cases hp
    | false =>
      rw [hstatic] at hp
      obtain rfl := List.mem_singleton.mp hp
      obtain ⟨value, hpoints⟩ := h.denotes assignedID _ (hself hstatic)
      refine ⟨value, ?_⟩
      rw [hobject hstatic]
      exact hpoints
  · obtain ⟨i, hi, rfl⟩ := List.mem_mapIdx.mp hp
    have hi' : i < actual.length := hlen ▸ hi
    refine ready_of_accepts h (hget i hi hi') (harglen ▸ hi') ?_
    rw [argumentValue_eq, hargs, List.getElem?_map, List.getElem?_eq_getElem hi']
    rfl

/-- What a handler answers is what the wrapper takes out of the response. -/
theorem exists_receive (result : Option ResultType) {resp : Cpp.Process.ChannelResponse}
    (hanswers : (retOf result).Answers s resp) :
    ∃ answer v, toProcessExchangeResponse (.ofReceiver resp) = .ok answer ∧ receive result answer = .ok v ∧
      (Returned.ofResult result).Fits v ∧
      ∀ type, Returned.ofResult result = .handle type → v = some (.handle resp.assignedId) ∧ type.Denotes s resp.assignedId := by
  obtain ⟨id, value⟩ := resp
  rcases result with _ | (clazz | _ | _)
  · obtain rfl : value = none := hanswers
    exact ⟨_, _, rfl, rfl, .nothing, nofun⟩
  · obtain ⟨hnone, hpoints⟩ := hanswers
    obtain rfl : value = none := hnone
    refine ⟨_, _, rfl, rfl, .handle _ _, ?_⟩
    rintro type ⟨⟩
    exact ⟨rfl, hpoints⟩
  · obtain ⟨n, hlo, hhi, hvalue⟩ := hanswers
    obtain rfl : value = some (.returnValue n) := hvalue
    refine ⟨_, _, rfl, rfl, .int _ ?_ ?_, nofun⟩
    · exact Int.le_bmod (by decide)
    · exact Int.bmod_lt (by decide)
  · obtain ⟨n, -, hvalue⟩ := hanswers
    obtain rfl : value = some (.returnValue n) := hvalue
    exact ⟨_, _, rfl, rfl, .boolean _, nofun⟩

/-- A wrapper called as Kotlin allows is answered, if its function returns. -/
theorem answered_wrapper (lib : Cpp.Process.Library S) (h : Holds Γ s) (henv : env.callocs = true)
    {w : Wrapper} {assignedID : String} {actual : List Instance} (hw : w ∈ wrappers)
    (hself : w.isStatic = false → (assignedID, .object w.clazz) ∈ Γ)
    (hactual : List.Forall₂ (fun p v => Γ.Accepts p.2 v) w.params actual)
    (hreturns : (Call.wrapper w assignedID actual).Returns lib s) : Answered lib env Γ (.wrapper w assignedID actual) s := by
  obtain ⟨call, hcall, hdispatch, hobject, hargs⟩ := w.exists_call assignedID hactual.length_eq
  have hdispatch := hdispatch.trans (dispatch_wrapper w hw)
  obtain ⟨resp, s', hserve, hid, hanswers, hmake⟩ := exists_makeRequest lib h henv rfl hcall hdispatch
    (Wrapper.ready h hself hactual hobject hargs) (hreturns call hcall _ _ rfl hdispatch)
  obtain ⟨answer, v, hanswer, hv, hfits, htype⟩ := exists_receive w.result hanswers
  rw [hid] at htype
  refine ⟨v, s', bind_eq_ok.mpr ⟨_, hmake answer hanswer, bind_eq_ok.mpr ⟨v, hv, rfl⟩⟩, hfits, fun hlen => ?_⟩
  exact h.returned (.request lib env _ s s' resp rfl hserve) (Cpp.Process.drawId_prefix_of_serve rfl hserve) hlen htype

/-! ## Arrays -/

/-- The request of a method of arrays, as the receiver reads it. -/
def arrayCall (elem : Elem) (method id : String) (messages : List Exchange.Argument) : Cpp.Process.MethodCallRequest :=
  ⟨method ++ "<" ++ typeName elem ++ ">", id, arrayType elem, messages.map Exchange.Argument.read⟩

/-- A call of a method of arrays that finds what it reads is served. -/
theorem exists_arrayRequest (lib : Cpp.Process.Library S) (h : Holds Γ s) (henv : env.callocs = true)
    {elem : Elem} {method id : String} (args : List Argument) {messages : List Exchange.Argument} {action : Action}
    (doGetReturnValue : Bool) (hargs : args.mapM Argument.toProtobuf = .ok messages)
    (hdispatch : dispatch (arrayCall elem method id messages) = some action)
    (hready : action.Ready (arrayCall elem method id messages) s)
    (hreturns : action.Returns lib (arrayCall elem method id messages) s) :
    ∃ resp s', serve lib env ⟨some (arrayCall elem method id messages), ""⟩ s = .ok (resp, s') ∧ resp.assignedId = s.drawId.1 ∧
      action.Answers (arrayCall elem method id messages) s' resp ∧
      ∀ answer, toProcessExchangeResponse (.ofReceiver resp) = .ok answer →
        makeRequest (sendRequest lib env) (ArrayHandle.methodCall (clazzOf elem) method id args doGetReturnValue) s =
          .ok (answer, s') := by
  have hname : calculatePrimitiveTypeName (clazzOf elem) = typeName elem := by cases elem <;> rfl
  have htype : (typeName elem).capitalize ++ "[]" = arrayType elem := by cases elem <;> rfl
  let call : Exchange.MethodCallRequest := {
    methodName := method ++ "<" ++ typeName elem ++ ">", type := arrayType elem, objectId := id, arg := messages,
    doGetReturnValue }
  unfold ArrayHandle.methodCall
  rw [hname]
  dsimp only
  rw [htype]
  let r : MethodCallRequest Argument := {
    methodName := method ++ "<" ++ typeName elem ++ ">", type := arrayType elem, args := args, objectID := id, doGetReturnValue }
  have hcall : r.toProtobuf = .ok call := bind_eq_ok.mpr ⟨messages, hargs, rfl⟩
  exact exists_makeRequest lib h henv rfl hcall hdispatch hready hreturns

/-- `makeArray` is answered. -/
theorem answered_makeArray (lib : Cpp.Process.Library S) (h : Holds Γ s) (henv : env.callocs = true) (elem : Elem) (size : Nat) :
    Answered lib env Γ (.makeArray elem size) s := by
  have hready : (Action.memAlloc elem).Ready (arrayCall elem "mem_alloc" "" [⟨.inplace, .int size, ""⟩]) s :=
    Nat.zero_lt_one
  obtain ⟨⟨id, result⟩, s', hserve, hid, ⟨hnone, harray⟩, hmake⟩ :=
    exists_arrayRequest lib h henv [.of (.value (.number size)) none] false rfl (by cases elem <;> rfl) hready trivial
  obtain rfl : id = s.drawId.1 := hid
  obtain rfl : result = none := hnone
  refine ⟨some (.handle s.drawId.1), s', ?_, .handle _ _, fun hlen => ?_⟩
  · exact bind_eq_ok.mpr ⟨_, bind_eq_ok.mpr ⟨_, hmake _ rfl, rfl⟩, rfl⟩
  · exact h.bind (.request lib env _ s s' _ rfl hserve) (Cpp.Process.drawId_prefix_of_serve rfl hserve) hlen (harray size rfl)

/-- An array of the context has a position for each index in its range. -/
theorem ready_of_array (h : Holds Γ s) {elem : Elem} {id : String} {size index : Nat} (hmem : (id, .array elem size) ∈ Γ)
    (hindex : index < size) {r : Cpp.Process.MethodCallRequest} (hobject : r.objectId = id)
    (hposition : (argumentValue r 0).intValue = index) (hlen : 0 < r.arg.length) : (Action.get elem).Ready r s := by
  have harray : s.HasArray id elem size := h.denotes id _ hmem
  have hrange : ∀ length, length = size → Cpp.Process.InRange r length := by
    rintro length rfl
    unfold Cpp.Process.InRange
    rw [hposition]
    exact ⟨Int.natCast_nonneg index, Int.ofNat_lt.mpr hindex⟩
  rw [← hobject] at harray
  cases elem with
  | char =>
    obtain ⟨data, hdata, hsize⟩ := harray.chars
    exact ⟨hlen, data, hdata, hrange _ hsize⟩
  | ast =>
    obtain ⟨data, hdata, hsize⟩ := harray.asts
    exact ⟨hlen, data, hdata, hrange _ hsize⟩

/-- An element is read: the receiver takes one step, draws one id, and the value is one of the element's type. -/
theorem exists_get (lib : Cpp.Process.Library S) (h : Holds Γ s) (henv : env.callocs = true)
    {elem : Elem} {id : String} {size index : Nat} (hmem : (id, .array elem size) ∈ Γ) (hindex : index < size) :
    ∃ v s', ArrayHandle.get (sendRequest lib env) ⟨clazzOf elem, id⟩ index s = .ok (v, s') ∧ (Returned.element elem).Fits (some v) ∧
      IdStep s s' ∧ s'.drawn = s.drawId.2.drawn ∧
      ∀ type, Returned.element elem = .handle type → some v = some (.handle s.drawId.1) ∧ type.Denotes s' s.drawId.1 := by
  have hready := ready_of_array h hmem hindex (r := arrayCall elem "get" id [⟨.inplace, .int index, ""⟩]) rfl rfl Nat.zero_lt_one
  have hdispatch : dispatch (arrayCall elem "get" id [⟨.inplace, .int index, ""⟩]) = some (.get elem) := by cases elem <;> rfl
  have hargs : [Argument.of (.value (.number index)) none].mapM Argument.toProtobuf = .ok [⟨.inplace, .int index, ""⟩] := rfl
  obtain ⟨⟨rid, result⟩, s', hserve, hid, hanswers, hmake⟩ := exists_arrayRequest lib h henv _ true hargs hdispatch hready trivial
  obtain rfl : rid = s.drawId.1 := hid
  have hstep : IdStep s s' := .request lib env _ s s' _ rfl hserve
  have hdrawn : s'.drawn = s.drawId.2.drawn := by
    rw [Cpp.Process.serve_get hdispatch] at hserve
    exact (Cpp.Process.drawn_of_serve rfl hserve).1
  cases elem with
  | char =>
    obtain ⟨n, hvalue⟩ := hanswers
    obtain rfl : result = some (.returnValue n) := hvalue
    exact ⟨_, s', bind_eq_ok.mpr ⟨_, hmake _ rfl, rfl⟩, .char _, hstep, hdrawn, nofun⟩
  | ast =>
    obtain ⟨hnone, hpoints⟩ := hanswers
    obtain rfl : result = none := hnone
    refine ⟨_, s', bind_eq_ok.mpr ⟨_, hmake _ rfl, rfl⟩, .handle _ _, hstep, hdrawn, ?_⟩
    rintro type ⟨⟩
    exact ⟨rfl, hpoints⟩

/-- `get` is answered. -/
theorem answered_get (lib : Cpp.Process.Library S) (h : Holds Γ s) (henv : env.callocs = true)
    {elem : Elem} {id : String} {size index : Nat} (hmem : (id, .array elem size) ∈ Γ) (hindex : index < size) :
    Answered lib env Γ (.get elem id index) s := by
  obtain ⟨v, s', hget, hfits, hstep, hdrawn, htype⟩ := exists_get lib h henv hmem hindex
  refine ⟨some v, s', bind_eq_ok.mpr ⟨_, hget, rfl⟩, hfits, fun hlen => ?_⟩
  exact h.returned hstep (hdrawn ▸ List.prefix_rfl) hlen htype

/-- An element is written. -/
theorem exists_set (lib : Cpp.Process.Library S) (h : Holds Γ s) (henv : env.callocs = true)
    {elem : Elem} {id : String} {size index : Nat} {element : Instance} (hmem : (id, .array elem size) ∈ Γ) (hindex : index < size)
    (helement : Γ.AcceptsElement elem element) :
    ∃ argument answer s', ArrayHandle.valueArgument element = .ok argument ∧ IdStep s s' ∧
      makeRequest (sendRequest lib env)
        (ArrayHandle.methodCall (clazzOf elem) "set" id [.of (.value (.number index)) none, argument] false) s = .ok (answer, s') := by
  have hsend : ∀ argument message, ArrayHandle.valueArgument element = .ok argument →
      [.of (.value (.number index)) none, argument].mapM Argument.toProtobuf = .ok [⟨.inplace, .int index, ""⟩, message] →
      (Action.set elem).Ready (arrayCall elem "set" id [⟨.inplace, .int index, ""⟩, message]) s →
      ∃ argument answer s', ArrayHandle.valueArgument element = .ok argument ∧ IdStep s s' ∧
        makeRequest (sendRequest lib env)
          (ArrayHandle.methodCall (clazzOf elem) "set" id [.of (.value (.number index)) none, argument] false) s =
            .ok (answer, s') := by
    intro argument message hargument hmessages hready
    obtain ⟨⟨rid, result⟩, s', hserve, -, hanswers, hmake⟩ :=
      exists_arrayRequest lib h henv _ false hmessages (by cases elem <;> rfl) hready trivial
    obtain rfl : result = none := hanswers
    exact ⟨argument, _, s', hargument, .request lib env _ s s' _ rfl hserve, hmake _ rfl⟩
  cases helement with
  | char c =>
    have hready := ready_of_array h hmem hindex
      (r := arrayCall .char "set" id [⟨.inplace, .int index, ""⟩, ⟨.inplace, .int c.toNat, ""⟩]) rfl rfl Nat.zero_lt_two
    exact hsend _ ⟨.inplace, .int c.toNat, ""⟩ rfl rfl ⟨Nat.one_lt_two, hready.2⟩
  | ast assignedID hast =>
    have hready := ready_of_array h hmem hindex
      (r := arrayCall .ast "set" id [⟨.inplace, .int index, ""⟩, ⟨.persistence, .string assignedID, ""⟩]) rfl rfl Nat.zero_lt_two
    exact hsend _ ⟨.persistence, .string assignedID, ""⟩ rfl rfl
      ⟨Nat.one_lt_two, h.denotes assignedID _ hast, hready.2⟩

/-- `set` is answered, unless the id drawn for the element that it reads first is the last one. -/
theorem answered_set (lib : Cpp.Process.Library S) (h : Holds Γ s) (hlt : s.drawn.length < 2 ^ 64) (henv : env.callocs = true)
    {elem : Elem} {id : String} {size index : Nat} {element : Instance} (hmem : (id, .array elem size) ∈ Γ) (hindex : index < size)
    (helement : Γ.AcceptsElement elem element) : Answered lib env Γ (.set elem id index element) s := by
  obtain ⟨v, s₁, hget, hfits, hstep, hdrawn, htype⟩ := exists_get lib h henv hmem hindex
  have hlen₁ : s₁.drawn.length ≤ 2 ^ 64 := by
    rw [hdrawn]
    show (s.drawn ++ [s.drawId.1]).length ≤ 2 ^ 64
    rw [List.length_append, List.length_singleton]
    omega
  obtain ⟨argument, answer, s', hargument, hstep', hmake⟩ := exists_set lib (h.step hstep hlen₁) henv hmem hindex helement
  refine ⟨some v, s', ?_, hfits, fun hlen => ?_⟩
  · exact bind_eq_ok.mpr ⟨_, bind_eq_ok.mpr ⟨_, hget, bind_eq_ok.mpr ⟨_, hargument, bind_eq_ok.mpr ⟨_, hmake, rfl⟩⟩⟩, rfl⟩
  · exact (h.returned hstep (hdrawn ▸ List.prefix_rfl) hlen₁ htype).step hstep' hlen

/-! ## Sessions -/

/-- Every call that the types admit is answered, if its library function returns. -/
theorem answered (lib : Cpp.Process.Library S) (h : Holds Γ s) (hlt : s.drawn.length < 2 ^ 64) (henv : env.callocs = true)
    {c : Call} (hc : c.WellTyped Γ) (hreturns : c.Returns lib s) : Answered lib env Γ c s := by
  cases hc with
  | wrapper w assignedID actual hw hself hactual => exact answered_wrapper lib h henv hw hself hactual hreturns
  | makeArray elem size => exact answered_makeArray lib h henv elem size
  | get elem assignedID size index hmem hindex => exact answered_get lib h henv hmem hindex
  | set elem assignedID size index element hmem hindex helement => exact answered_set lib h hlt henv hmem hindex helement

/-- An id is drawn for an element. -/
theorem drawId_prefix_of_get {array : ArrayHandle} {index : Int} {v : Instance}
    (h : array.get (sendRequest lib env) index s = .ok (v, s')) : s.drawId.2.drawn <+: s'.drawn := by
  obtain ⟨⟨answer, s₁⟩, hmake, h⟩ := bind_eq_ok.mp h
  obtain ⟨element, -, h⟩ := bind_eq_ok.mp h
  obtain ⟨-, rfl⟩ := Prod.mk.inj (Except.ok.inj h)
  exact drawId_prefix_of_makeRequest rfl hmake

/-- At least one id is drawn for a call. -/
theorem drawId_prefix_of_run {c : Call} {v : Option Instance} (h : c.run (sendRequest lib env) s = .ok (v, s')) :
    s.drawId.2.drawn <+: s'.drawn := by
  cases c with
  | wrapper w assignedID actual =>
    obtain ⟨⟨answer, s₁⟩, hmake, h⟩ := bind_eq_ok.mp h
    obtain ⟨returned, -, h⟩ := bind_eq_ok.mp h
    obtain ⟨-, rfl⟩ := Prod.mk.inj (Except.ok.inj h)
    exact drawId_prefix_of_makeRequest rfl hmake
  | makeArray elem size =>
    obtain ⟨⟨handle, s₁⟩, hallocate, h⟩ := bind_eq_ok.mp h
    obtain ⟨-, rfl⟩ := Prod.mk.inj (Except.ok.inj h)
    obtain ⟨⟨answer, s₁⟩, hmake, h⟩ := bind_eq_ok.mp hallocate
    obtain ⟨-, rfl⟩ := Prod.mk.inj (Except.ok.inj h)
    exact drawId_prefix_of_makeRequest rfl hmake
  | get elem assignedID index =>
    obtain ⟨⟨element, s₁⟩, hget, h⟩ := bind_eq_ok.mp h
    obtain ⟨-, rfl⟩ := Prod.mk.inj (Except.ok.inj h)
    exact drawId_prefix_of_get hget
  | set elem assignedID index element =>
    obtain ⟨⟨previous, s₁⟩, hset, h⟩ := bind_eq_ok.mp h
    obtain ⟨-, rfl⟩ := Prod.mk.inj (Except.ok.inj h)
    obtain ⟨⟨previous, s₁⟩, hget, h⟩ := bind_eq_ok.mp hset
    obtain ⟨argument, -, h⟩ := bind_eq_ok.mp h
    obtain ⟨⟨answer, s₂⟩, hmake, h⟩ := bind_eq_ok.mp h
    obtain ⟨-, rfl⟩ := Prod.mk.inj (Except.ok.inj h)
    have hprefix : s₁.drawn <+: s₂.drawn :=
      (List.prefix_append _ _).trans (drawId_prefix_of_makeRequest rfl hmake)
    exact (drawId_prefix_of_get hget).trans hprefix

/-- The library function of a request that was served returned. -/
theorem returns_of_serve {rq : Cpp.Process.Request} {resp : Cpp.Process.ChannelResponse} (hw : Cpp.Process.WellTyped s.heap)
    (h : serve lib env rq s = .ok (resp, s')) : Cpp.Process.Returns lib rq s :=
  ((Cpp.Process.serve_succeeds_iff hw).mp ⟨_, h⟩).2

/-- The library function of a call that returned did. -/
theorem returns_of_run (hw : Cpp.Process.WellTyped s.heap) {c : Call} {v : Option Instance}
    (h : c.run (sendRequest lib env) s = .ok (v, s')) : c.Returns lib s := by
  cases c with
  | wrapper w assignedID actual =>
    intro call hcall
    obtain ⟨⟨answer, s₁⟩, hmake, -⟩ := bind_eq_ok.mp h
    obtain ⟨m, resp, hm, hserve, -⟩ := makeRequest_eq_ok.mp hmake
    obtain ⟨call', hcall', hm⟩ := bind_eq_ok.mp hm
    obtain rfl := Except.ok.inj (hcall.symm.trans hcall')
    obtain rfl := Except.ok.inj hm
    exact returns_of_serve hw hserve
  | _ => trivial

/-- In every session that has drawn at most 2^64 ids each handle stands for what its type says. -/
theorem holds_of_session (h : Session Γ s) (hlen : s.drawn.length ≤ 2 ^ 64) : Holds Γ s := by
  induction h with
  | start => exact Holds.start
  | call lib env c returned Γ s s' hs hc henv hrun ih =>
    have hlt : s.drawn.length < 2 ^ 64 :=
      Cpp.Process.length_lt_of_drawId ((drawId_prefix_of_run hrun).length_le.trans hlen)
    have hholds := ih (Nat.le_of_lt hlt)
    obtain ⟨v, s'', hrun', -, hholds⟩ := answered lib hholds hlt henv hc (returns_of_run hholds.heap hrun)
    obtain ⟨rfl, rfl⟩ := Prod.mk.inj (Except.ok.inj (hrun'.symm.trans hrun))
    exact hholds hlen
  | other Γ s s' hs hstep ih =>
    exact (ih (hstep.keeps.drawn.length_le.trans hlen)).step hstep hlen

/-- A library that makes a new object at each call. -/
def freshLibrary : Cpp.Process.Library Unit := fun _ _ states => some ⟨states, 0, .fresh ()⟩

/-- The handles of a session with an array, a configuration, a context, a sort, a symbol and a constant. -/
def constantContext : Context :=
  [("5", .object .ast), ("4", .object .symbol), ("3", .object .sort), ("2", .object .context), ("1", .object .config),
   ("0", .array .ast 2)]

/-- The calls of `demorgan` up to its first constant. -/
theorem session_constantContext : ∃ s : State Unit, s.drawn = ["0", "1", "2", "3", "4", "5"] ∧ Session constantContext s := by
  have h₀ : Session [("0", .array .ast 2)] _ :=
    .call freshLibrary {} (.makeArray .ast 2) (some (.handle "0")) [] {} _ .start (.makeArray .ast 2) rfl rfl
  have h₁ : Session [("1", .object .config), ("0", .array .ast 2)] _ :=
    .call freshLibrary {} (.wrapper z3MkConfig "" []) (some (.handle "1")) _ _ _ h₀
      (.wrapper z3MkConfig "" [] (by decide) nofun .nil) rfl rfl
  have h₂ : Session (constantContext.drop 3) _ :=
    .call freshLibrary {} (.wrapper z3MkContext "1" []) (some (.handle "2")) _ _ _ h₁
      (.wrapper z3MkContext "1" [] (by decide) (fun _ => List.mem_cons_self) .nil) rfl rfl
  have h₃ : Session (constantContext.drop 2) _ :=
    .call freshLibrary {} (.wrapper z3MkBoolSort "2" []) (some (.handle "3")) _ _ _ h₂
      (.wrapper z3MkBoolSort "2" [] (by decide) (fun _ => List.mem_cons_self) .nil) rfl rfl
  have h₄ : Session (constantContext.drop 1) _ :=
    .call freshLibrary {} (.wrapper z3MkIntSymbol "2" [.value (.number 0)]) (some (.handle "4")) _ _ _ h₃
      (.wrapper z3MkIntSymbol "2" _ (by decide) (fun _ => by decide) (.cons (.int 0 (by decide) (by decide)) .nil)) rfl rfl
  have h₅ : Session constantContext _ :=
    .call freshLibrary {} (.wrapper z3MkConst "2" [.handle "4", .handle "3"]) (some (.handle "5")) _ _ _ h₄
      (.wrapper z3MkConst "2" _ (by decide) (fun _ => by decide)
        (.cons (.handle .symbol "4" (by decide)) (.cons (.handle .sort "3" (by decide)) .nil))) rfl rfl
  exact ⟨_, rfl, h₅⟩

/-- In every session in which at most 2^64 ids are drawn, of any well-typed calls and among any other requests and callbacks: no id
is bound twice, and behind each handle there is, in the receiver's table, a pointer to a variable of the C++ type of its class, or
to a pointer to an array of its element type and its length. -/
theorem handles_keep_types (h : Session Γ s) (hlen : s.drawn.length ≤ 2 ^ 64) :
    (Γ.map Prod.fst).Nodup ∧ ∀ id type, (id, type) ∈ Γ → type.Denotes s id :=
  ⟨(holds_of_session h hlen).nodup, (holds_of_session h hlen).denotes⟩

/-- The rule at the session of these calls. -/
theorem handles_keep_types_constant : ∃ s : State Unit, s.drawn.length ≤ 2 ^ 64 ∧ Session constantContext s ∧
    ((constantContext.map Prod.fst).Nodup ∧ ∀ id type, (id, type) ∈ constantContext → type.Denotes s id) := by
  obtain ⟨s, hdrawn, h⟩ := session_constantContext
  have hlen : s.drawn.length ≤ 2 ^ 64 := by
    rw [hdrawn]
    decide
  exact ⟨s, hlen, h, handles_keep_types h hlen⟩

/-- In every session in which fewer than 2^64 ids are drawn, a further call that the types admit is answered, if the library function
that it reaches returns, with whatever result, and `calloc` finds memory: nothing is undefined in the receiver and nothing is thrown on
either side, and what the call returns is of the type declared. -/
theorem wellTyped_calls_return (h : Session Γ s) (hlen : s.drawn.length < 2 ^ 64) (lib : Cpp.Process.Library S) (env : Env)
    (henv : env.callocs = true) (c : Call) (hc : c.WellTyped Γ) (hreturns : c.Returns lib s) :
    ∃ v s', c.run (sendRequest lib env) s = .ok (v, s') ∧ c.returned.Fits v := by
  obtain ⟨v, s', hrun, hfits, -⟩ := answered lib (holds_of_session h (Nat.le_of_lt hlen)) hlen henv hc hreturns
  exact ⟨v, s', hrun, hfits⟩

/-- The rule at the same session, where the constant is stored in the array. -/
theorem wellTyped_calls_return_set : ∃ s : State Unit, Session constantContext s ∧
    ∃ v s', (Call.set .ast "0" 1 (.handle "5")).run (sendRequest freshLibrary {}) s = .ok (v, s') ∧
      (Returned.handle (.object .ast)).Fits v := by
  obtain ⟨s, hdrawn, h⟩ := session_constantContext
  have hlen : s.drawn.length < 2 ^ 64 := by
    rw [hdrawn]
    decide
  exact ⟨s, h, wellTyped_calls_return h hlen freshLibrary {} rfl (.set .ast "0" 1 (.handle "5"))
    (.set .ast "0" 2 1 _ (by decide) (by decide) (.ast "5" (by decide))) trivial⟩

end LibraryLink.Kotlin.Z3Kotlin
