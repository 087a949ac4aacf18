import LibraryLink.ByteSessions
import LibraryLink.Theorems.CppBytes
import LibraryLink.Theorems.TypedSessions
import Mathlib.Algebra.Order.BigOperators.Group.List

/-!
# Sessions over bytes are sessions

A call that the types admit is made of requests that are short, so each of them is framed, parsed, served and answered as it is as a
message. A session on a channel is then one of the sessions of `TypedSessions`, and each call returns what it returns there.
-/

namespace LibraryLink.Exchange

open Protobuf (utf8)

/-! ## The length of a request -/

/-- The number in an argument is a `Long`, and its strings have at most a hundred bytes. -/
structure Argument.Small (a : Argument) : Prop where
  word : FitsWord a.value
  string : ∀ s, a.value = .string s → (utf8 s).length ≤ 100
  key : (utf8 a.key).length ≤ 100

/-- A method call with at most eight arguments, and strings of at most a hundred bytes. -/
structure MethodCallRequest.Small (r : MethodCallRequest) : Prop where
  methodName : (utf8 r.methodName).length ≤ 100
  objectId : (utf8 r.objectId).length ≤ 100
  type : (utf8 r.type).length ≤ 100
  arg : ∀ a ∈ r.arg, a.Small
  args : r.arg.length ≤ 8

theorem length_stringField_le {number : Nat} (hnumber : number < 15) {s : String} (hs : (utf8 s).length ≤ 100) :
    (Protobuf.encode (Protobuf.stringField number s)).length ≤ 105 := by
  rw [Protobuf.stringField]
  split
  · simp
  · have hfield := Protobuf.Field.length_encode_bytes_le hnumber (b := utf8 s) (by omega)
    rw [Protobuf.encode_cons, Protobuf.encode_nil, List.append_nil]
    omega

theorem length_boolField_le {number : Nat} (hnumber : number < 15) (b : Bool) :
    (Protobuf.encode (Protobuf.boolField number b)).length ≤ 2 := by
  cases b with
  | false => exact Nat.zero_le 2
  | true =>
    have hfield := Cpp.Messages.length_encode_bool (show number < 16 by omega) true
    rw [Protobuf.boolField, if_pos rfl, Protobuf.encode_cons, Protobuf.encode_nil, List.append_nil]
    exact hfield.le

theorem length_valueFields_le {v : Cpp.Process.Value} (h : ∀ s, v = .string s → (utf8 s).length ≤ 100) :
    (Protobuf.encode (valueFields v)).length ≤ 105 := by
  have hfixed : ∀ number n, number < 15 → (Protobuf.encode [⟨number, .fixed64 n⟩]).length ≤ 105 := by
    intro number n hnumber
    rw [Protobuf.encode_cons, Protobuf.encode_nil, List.append_nil, Cpp.Messages.length_encode_fixed64 hnumber]
    decide
  cases v with
  | notSet => simp [valueFields]
  | string s =>
    have hs := h s rfl
    have hfield := Protobuf.Field.length_encode_bytes_le (show 2 < 15 by decide) (b := utf8 s) (by omega)
    rw [valueFields, Protobuf.encode_cons, Protobuf.encode_nil, List.append_nil]
    omega
  | int n => exact hfixed 3 _ (by decide)
  | uint n => exact hfixed 5 _ (by decide)

theorem Argument.Small.length_le {a : Argument} (h : a.Small) : (Protobuf.encode a.fields).length ≤ 217 := by
  have htype : (Protobuf.encode (typeField a.type)).length ≤ 2 := by
    cases a.type with
    | persistence => exact Nat.zero_le 2
    | inplace => exact length_boolField_le (by decide) true
  have hinner := length_valueFields_le h.string
  have hvalue := Protobuf.Field.length_encode_bytes_le (show 3 < 15 by decide) (b := Protobuf.encode (valueFields a.value)) (by omega)
  have hkey := length_stringField_le (show 4 < 15 by decide) h.key
  rw [Argument.fields, Protobuf.encode_append, Protobuf.encode_append, Protobuf.encode_cons, Protobuf.encode_nil, List.append_nil,
    List.length_append, List.length_append]
  omega

theorem MethodCallRequest.Small.length_le {r : MethodCallRequest} (h : r.Small) (declared : Bool) :
    (Protobuf.encode (r.fields declared)).length ≤ 2097 := by
  have hargs : (Protobuf.encode (r.arg.map fun a => ⟨3, .bytes (Protobuf.encode a.fields)⟩)).length ≤ r.arg.length * 222 := by
    rw [← List.length_map (fun a : Argument => (⟨3, .bytes (Protobuf.encode a.fields)⟩ : Protobuf.Field))]
    refine Protobuf.length_encode_le (List.forall_mem_map.mpr ?_)
    intro a ha
    have ha := (h.arg a ha).length_le
    have hfield := Protobuf.Field.length_encode_bytes_le (show 3 < 15 by decide) (b := Protobuf.encode a.fields) (by omega)
    omega
  have hcount := h.args
  have hname := length_stringField_le (show 1 < 15 by decide) h.methodName
  have hobject := length_stringField_le (show 2 < 15 by decide) h.objectId
  have htype := length_stringField_le (show 8 < 15 by decide) h.type
  have hstatic := length_boolField_le (show 4 < 15 by decide) r.static
  have hreturn := length_boolField_le (show 5 < 15 by decide) (declared && r.doGetReturnValue)
  have hproperty := length_boolField_le (show 6 < 15 by decide) r.property
  simp only [MethodCallRequest.fields, Protobuf.encode_append, List.length_append]
  omega

/-- A request for a small method call is a message. -/
theorem MethodCallRequest.Small.sends {r : MethodCallRequest} (h : r.Small) (declared : Bool) :
    ∃ hlength, Sends declared ⟨some (.methodCall r), ""⟩
      ⟨Protobuf.encode (Request.fields declared ⟨some (.methodCall r), ""⟩), hlength⟩ := by
  have hcall := h.length_le declared
  have hlength : (Protobuf.encode (Request.fields declared ⟨some (.methodCall r), ""⟩)).length < 2 ^ 31 := by
    have hfield := Protobuf.Field.length_encode_bytes_le (show 1 < 15 by decide) (b := Protobuf.encode (r.fields declared)) (by omega)
    show (Protobuf.encode [⟨1, .bytes (Protobuf.encode (r.fields declared))⟩]).length < 2 ^ 31
    rw [Protobuf.encode_cons, Protobuf.encode_nil, List.append_nil]
    omega
  refine ⟨hlength, Option.some_ne_none _, ?_, if_pos hlength⟩
  rintro c ⟨⟩ a ha
  exact (h.arg a ha).word

end LibraryLink.Exchange

namespace LibraryLink.Cpp.Messages

open Protobuf (utf8)

/-! ## The length of a response -/

/-- An id is short. -/
theorem length_utf8_toString_le {n : Nat} (h : n < 2 ^ 64) : (utf8 (toString n)).length ≤ 100 := by
  have hdigits : (Nat.toDigits 10 n).length ≤ 20 := (Nat.length_toDigits_le_iff (by decide) (by decide)).mpr (by omega)
  have htext : (toString n).toList = Nat.toDigits 10 n := String.toList_ofList
  have hbytes : (utf8 (toString n)).length ≤ (Nat.toDigits 10 n).length * 4 := by
    unfold utf8
    rw [htext, List.length_flatMap, ← List.length_map (fun c => (String.utf8EncodeChar c).length)]
    refine List.sum_le_card_nsmul _ 4 (List.forall_mem_map.mpr ?_)
    intro c _
    rw [String.length_utf8EncodeChar]
    exact Char.utf8Size_le_four c
  omega

theorem lengthDelimitedSize_le {n : Nat} (h : n < 128) : lengthDelimitedSize n ≤ n + 1 := by
  have hlength : (Protobuf.varint (n % 2 ^ 32)).length ≤ 1 := Protobuf.length_varint_le (by omega)
  unfold lengthDelimitedSize
  omega

/-- A response with a short id and no message of an exception fits. -/
theorem byteSizeLong_lt {resp : Process.ChannelResponse} (hid : (utf8 resp.assignedId).length ≤ 100)
    (hresult : ∀ text, resp.result ≠ some (.exceptionMessage text)) : (ChannelResponse.ofProcess resp).byteSizeLong < 2 ^ 31 := by
  have hassigned : stringFieldSize (utf8 resp.assignedId) ≤ 102 := by
    have hsize := lengthDelimitedSize_le (n := (utf8 resp.assignedId).length) (by omega)
    unfold stringFieldSize
    split <;> omega
  have hvalue : (resp.result.map Result.ofProcess).elim 0 Result.size ≤ 11 := by
    rcases hres : resp.result with _ | (n | text)
    · exact Nat.zero_le _
    · have hsize := lengthDelimitedSize_le (n := 9) (by decide)
      show 1 + lengthDelimitedSize 9 ≤ 11
      omega
    · exact absurd hres (hresult text)
  show stringFieldSize (utf8 resp.assignedId) + (resp.result.map Result.ofProcess).elim 0 Result.size < 2 ^ 31
  omega

end LibraryLink.Cpp.Messages

namespace LibraryLink.Kotlin

open Outcome
open Protobuf (utf8)
open Cpp.Batch (Linked Channel)
open Cpp.Process (State serve)

variable {S : Type} {linked : Linked S} {protocol : Protocol} {c : Channel S} {s : State S}

/-! ## A request -/

/-- An answer with its number as it is read from 64 bits. -/
def ProcessExchangeResponse.toInt64 : ProcessExchangeResponse → ProcessExchangeResponse
  | .primitive (.number n) assignedID => .primitive (.number (n.bmod (2 ^ 64))) assignedID
  | answer => answer

theorem assignedID_toInt64 (answer : ProcessExchangeResponse) : answer.toInt64.assignedID = answer.assignedID := by
  rcases answer with ⟨value, id⟩ | id
  · cases value <;> rfl
  · rfl

/-- The answer of a response as it is read, and that it has no message of an exception. -/
theorem answer_toInt64 {resp : Cpp.Process.ChannelResponse} {answer : ProcessExchangeResponse}
    (h : toProcessExchangeResponse (.ofReceiver resp) = .ok answer) :
    toProcessExchangeResponse (.ofReceiver resp.toInt64) = .ok answer.toInt64 ∧
      ∀ text, resp.result ≠ some (.exceptionMessage text) := by
  obtain ⟨id, _ | (n | text)⟩ := resp
  · obtain rfl := Except.ok.inj h
    exact ⟨rfl, nofun⟩
  · obtain rfl := Except.ok.inj h
    exact ⟨rfl, nofun⟩
  · cases h

/-- A response fits in its frame. -/
theorem Connected.length_serialize (hconnected : Connected linked protocol) (resp : Cpp.Process.ChannelResponse) :
    (linked.serialize resp).length < 2 ^ 31 := by
  obtain ⟨w, -, hgenerated⟩ := hconnected.receiver
  rw [hgenerated.serialize]
  exact Cpp.Messages.length_responseBytes resp

/-- A response to a method call is read from its bytes. -/
theorem Connected.parseFrom (hconnected : Connected linked protocol) {r : Cpp.Process.MethodCallRequest} {s₀ : State S}
    {resp : Cpp.Process.ChannelResponse} (hserve : serve linked.lib {} ⟨some r, ""⟩ s₀ = .ok (resp, s))
    (hresult : ∀ text, resp.result ≠ some (.exceptionMessage text)) :
    protocol.parseFrom (linked.serialize resp) = .ofReceiver resp.toInt64 := by
  have hlength := hconnected.length_serialize resp
  obtain ⟨w, -, hgenerated⟩ := hconnected.receiver
  have hid : (utf8 resp.assignedId).length ≤ 100 := by
    obtain ⟨action, -, hid, -⟩ := Cpp.Process.answers_of_serve rfl hserve
    rw [hid]
    exact Cpp.Messages.length_utf8_toString_le (UInt64.toNat_lt _)
  have hbytes : linked.serialize resp = Protobuf.encode (Exchange.ChannelResponse.ofReceiver resp).fields :=
    (hgenerated.serialize resp).trans (Cpp.Messages.responseBytes_eq (Cpp.Messages.byteSizeLong_lt hid hresult))
  rw [hbytes] at hlength ⊢
  exact hconnected.client.parseFrom resp hlength

/-- On an idle channel a message that is served is answered with the response, read from its bytes, and the channel is idle again. -/
theorem sendBinary_ok (hconnected : Connected linked protocol) (hidle : c.Idle)
    {r : Exchange.MethodCallRequest} (hsmall : r.Small) {resp : Cpp.Process.ChannelResponse}
    (hserve : serve linked.lib {} ⟨some r.read, ""⟩ c.receiver = .ok (resp, s))
    (hresult : ∀ text, resp.result ≠ some (.exceptionMessage text)) :
    ∃ c', sendBinary linked protocol ⟨some (.methodCall r), ""⟩ c = .ok (.ofReceiver resp.toInt64, c') ∧ c'.Idle ∧
      c'.receiver = s := by
  have hparse := hconnected.parseFrom hserve hresult
  obtain ⟨w, hw, hgenerated⟩ := hconnected.receiver
  obtain ⟨hlength, hsends⟩ := hsmall.sends protocol.declared
  rw [show (⟨some r.read, ""⟩ : Cpp.Process.Request) = Exchange.Request.read ⟨some (.methodCall r), ""⟩ from rfl,
    ← Cpp.Batch.parse_of_sends hw hgenerated hsends] at hserve
  obtain ⟨c', hsend, hidle', hreceiver⟩ :=
    hidle.sendRequest_ok (Cpp.Batch.ne_nil_of_sends hsends) hserve (hconnected.length_serialize resp)
  refine ⟨c', ?_, hidle', hreceiver⟩
  rw [sendBinary, dif_pos hlength, hsend]
  exact congrArg (fun response => Except.ok (response, c')) hparse

/-- A message that was answered over the channel was served. -/
theorem exists_serve_of_sendBinary (hconnected : Connected linked protocol) (hidle : c.Idle) {r : Exchange.MethodCallRequest}
    (hsmall : r.Small) {response : Exchange.ChannelResponse} {c' : Channel S}
    (h : sendBinary linked protocol ⟨some (.methodCall r), ""⟩ c = .ok (response, c')) :
    ∃ out, serve linked.lib {} ⟨some r.read, ""⟩ c.receiver = .ok out := by
  obtain ⟨w, hw, hgenerated⟩ := hconnected.receiver
  obtain ⟨hlength, hsends⟩ := hsmall.sends protocol.declared
  rw [show (⟨some r.read, ""⟩ : Cpp.Process.Request) = Exchange.Request.read ⟨some (.methodCall r), ""⟩ from rfl,
    ← Cpp.Batch.parse_of_sends hw hgenerated hsends]
  rw [sendBinary, dif_pos hlength] at h
  split at h
  · rename_i hsend
    exact hidle.exists_serve (Cpp.Batch.ne_nil_of_sends hsends) hsend
  · cases h

/-- What is made of a small method call over the receiver is made of it over the channel. -/
theorem makeRequest_binary (hconnected : Connected linked protocol) (hidle : c.Idle)
    {r : MethodCallRequest Argument} {call : Exchange.MethodCallRequest} (hid : r.assignedID = "") (hcall : r.toProtobuf = .ok call)
    (hsmall : call.Small) {answer : ProcessExchangeResponse}
    (h : makeRequest (sendRequest linked.lib {}) (.methodCall r) c.receiver = .ok (answer, s)) :
    ∃ c', makeRequest (sendBinary linked protocol) (.methodCall r) c = .ok (answer.toInt64, c') ∧ c'.Idle ∧ c'.receiver = s := by
  obtain ⟨m, resp, hm, hserve, hanswer⟩ := makeRequest_eq_ok.mp h
  obtain ⟨call', hcall', hm⟩ := bind_eq_ok.mp hm
  obtain rfl := Except.ok.inj (hcall.symm.trans hcall')
  obtain rfl := Except.ok.inj hm
  rw [hid] at hserve
  obtain ⟨hanswer', hresult⟩ := answer_toInt64 hanswer
  obtain ⟨c', hsend, hidle', hreceiver⟩ := sendBinary_ok hconnected hidle hsmall hserve hresult
  have hmessage : Request.toProtobuf (.methodCall r) = .ok ⟨some (.methodCall call), ""⟩ := by
    rw [← hid]
    exact bind_eq_ok.mpr ⟨call, hcall, rfl⟩
  exact ⟨c', bind_eq_ok.mpr ⟨_, hmessage, bind_eq_ok.mpr ⟨_, hsend, bind_eq_ok.mpr ⟨_, hanswer', rfl⟩⟩⟩, hidle', hreceiver⟩

end LibraryLink.Kotlin

namespace LibraryLink.Kotlin

open Outcome
open Protobuf (utf8)
open Cpp.Batch (Linked Channel)
open Cpp.Process (Elem State)

variable {S : Type} {linked : Linked S} {protocol : Protocol} {c : Channel S} {s : State S}

/-! ## Arrays -/

/-- An element is read from the 64 bits of the number that it is sent as. -/
theorem asInstanceOf_toInt64 (elem : Elem) (answer : ProcessExchangeResponse) :
    answer.toInt64.asInstanceOf (clazzOf elem) = answer.asInstanceOf (clazzOf elem) := by
  rcases answer with ⟨value, id⟩ | id
  · cases value with
    | number n =>
      cases elem with
      | char =>
        have hchar : UInt16.ofInt (n.bmod (2 ^ 64)) = UInt16.ofInt n := by
          have hmod : n.bmod (2 ^ 64) % 2 ^ 16 = n % 2 ^ 16 := by
            rw [← Int.emod_emod_of_dvd (n.bmod (2 ^ 64)) (m := 2 ^ 16) (k := 2 ^ 64) (by decide),
              show n.bmod (2 ^ 64) % (2 ^ 64 : Int) = n % 2 ^ 64 from Int.bmod_emod, Int.emod_emod_of_dvd _ (by decide)]
          rw [UInt16.ofInt, UInt16.ofInt, hmod]
        show Except.ok (Instance.value (.char (UInt16.ofInt (n.bmod (2 ^ 64))))) = _
        rw [hchar]
        rfl
      | ast => rfl
    | _ => rfl
  · rfl

/-- A request of a method of arrays over the channel. -/
theorem arrayRequest_binary (hconnected : Connected linked protocol) (hidle : c.Idle) {elem : Elem} {method id : String}
    (hmethod : (utf8 (method ++ "<" ++ calculatePrimitiveTypeName (clazzOf elem) ++ ">")).length ≤ 100) (hid : (utf8 id).length ≤ 100)
    {args : List Argument} {messages : List Exchange.Argument} (hargs : args.mapM Argument.toProtobuf = .ok messages)
    (hsmall : ∀ a ∈ messages, a.Small) (hcount : messages.length ≤ 8) {doGetReturnValue : Bool} {answer : ProcessExchangeResponse}
    (h : makeRequest (sendRequest linked.lib {}) (ArrayHandle.methodCall (clazzOf elem) method id args doGetReturnValue) c.receiver =
      .ok (answer, s)) :
    ∃ c', makeRequest (sendBinary linked protocol) (ArrayHandle.methodCall (clazzOf elem) method id args doGetReturnValue) c =
      .ok (answer.toInt64, c') ∧ c'.Idle ∧ c'.receiver = s := by
  have htype : (utf8 ((calculatePrimitiveTypeName (clazzOf elem)).capitalize ++ "[]")).length ≤ 100 := by
    cases elem <;> decide
  let call : Exchange.MethodCallRequest := {
    methodName := method ++ "<" ++ calculatePrimitiveTypeName (clazzOf elem) ++ ">",
    type := (calculatePrimitiveTypeName (clazzOf elem)).capitalize ++ "[]", objectId := id, arg := messages, doGetReturnValue }
  let r : MethodCallRequest Argument := {
    methodName := call.methodName, type := call.type, args := args, objectID := id, doGetReturnValue }
  have hcall : r.toProtobuf = .ok call := bind_eq_ok.mpr ⟨messages, hargs, rfl⟩
  exact makeRequest_binary hconnected hidle (r := r) rfl hcall ⟨hmethod, hid, htype, hsmall, hcount⟩ h

/-- The message of an index. -/
theorem small_index {n : Nat} (h : n < 2 ^ 31) : Exchange.Argument.Small ⟨.inplace, .int n, ""⟩ :=
  ⟨⟨by omega, by omega⟩, nofun, Nat.zero_le _⟩

/-- `get` over the channel. -/
theorem get_binary (hconnected : Connected linked protocol) (hidle : c.Idle) {elem : Elem} {id : String}
    (hid : (utf8 id).length ≤ 100) {index : Nat} (hindex : index < 2 ^ 31) {v : Instance}
    (h : ArrayHandle.get (sendRequest linked.lib {}) ⟨clazzOf elem, id⟩ index c.receiver = .ok (v, s)) :
    ∃ c', ArrayHandle.get (sendBinary linked protocol) ⟨clazzOf elem, id⟩ index c = .ok (v, c') ∧ c'.Idle ∧ c'.receiver = s := by
  obtain ⟨⟨answer, s₁⟩, hmake, h⟩ := bind_eq_ok.mp h
  obtain ⟨element, helement, h⟩ := bind_eq_ok.mp h
  obtain ⟨rfl, rfl⟩ := Prod.mk.inj (Except.ok.inj h)
  obtain ⟨c', hmake', hidle', hreceiver⟩ := arrayRequest_binary hconnected hidle (by cases elem <;> decide) hid rfl
    (List.forall_mem_singleton.mpr (small_index hindex)) (Nat.le_of_ble_eq_true rfl) hmake
  exact ⟨c', bind_eq_ok.mpr ⟨_, hmake', bind_eq_ok.mpr ⟨_, (asInstanceOf_toInt64 elem answer).trans helement, rfl⟩⟩, hidle', hreceiver⟩

/-- `allocate` over the channel. -/
theorem make_binary (hconnected : Connected linked protocol) (hidle : c.Idle) {elem : Elem} {size : Nat} (hsize : size < 2 ^ 31)
    {array : ArrayHandle} (h : ArrayHandle.make (sendRequest linked.lib {}) (clazzOf elem) size c.receiver = .ok (array, s)) :
    ∃ c', ArrayHandle.make (sendBinary linked protocol) (clazzOf elem) size c = .ok (array, c') ∧ c'.Idle ∧ c'.receiver = s := by
  obtain ⟨⟨answer, s₁⟩, hmake, h⟩ := bind_eq_ok.mp h
  obtain ⟨rfl, rfl⟩ := Prod.mk.inj (Except.ok.inj h)
  obtain ⟨c', hmake', hidle', hreceiver⟩ := arrayRequest_binary hconnected hidle (by cases elem <;> decide) (Nat.zero_le _) rfl
    (List.forall_mem_singleton.mpr (small_index hsize)) (Nat.le_of_ble_eq_true rfl) hmake
  refine ⟨c', bind_eq_ok.mpr ⟨_, hmake', ?_⟩, hidle', hreceiver⟩
  show Except.ok (ArrayHandle.mk _ answer.toInt64.assignedID, c') = _
  rw [assignedID_toInt64]

/-- `set` over the channel. -/
theorem set_binary (hconnected : Connected linked protocol) (hidle : c.Idle) {elem : Elem} {id : String}
    (hid : (utf8 id).length ≤ 100) {index : Nat} (hindex : index < 2 ^ 31) {element : Instance} {argument : Argument}
    {message : Exchange.Argument} (hargument : ArrayHandle.valueArgument element = .ok argument)
    (hmessage : argument.toProtobuf = .ok message) (hsmall : message.Small) {v : Instance}
    (h : ArrayHandle.set (sendRequest linked.lib {}) ⟨clazzOf elem, id⟩ index element c.receiver = .ok (v, s)) :
    ∃ c', ArrayHandle.set (sendBinary linked protocol) ⟨clazzOf elem, id⟩ index element c = .ok (v, c') ∧ c'.Idle ∧
      c'.receiver = s := by
  obtain ⟨⟨previousValue, s₁⟩, hget, h⟩ := bind_eq_ok.mp h
  obtain ⟨argument', hargument', h⟩ := bind_eq_ok.mp h
  obtain rfl := Except.ok.inj (hargument.symm.trans hargument')
  obtain ⟨⟨answer, s₂⟩, hmake, h⟩ := bind_eq_ok.mp h
  obtain ⟨rfl, rfl⟩ := Prod.mk.inj (Except.ok.inj h)
  obtain ⟨c₁, hget', hidle₁, rfl⟩ := get_binary hconnected hidle hid hindex hget
  have hargs : [Argument.of (.value (.number index)) none, argument].mapM Argument.toProtobuf =
      .ok [⟨.inplace, .int index, ""⟩, message] := by
    rw [List.mapM_cons, List.mapM_cons, hmessage]
    rfl
  obtain ⟨c', hmake', hidle', hreceiver⟩ := arrayRequest_binary hconnected hidle₁ (by cases elem <;> decide) hid hargs
    (List.forall_mem_cons.mpr ⟨small_index hindex, List.forall_mem_singleton.mpr hsmall⟩) (Nat.le_of_ble_eq_true rfl) hmake
  exact ⟨c', bind_eq_ok.mpr ⟨_, hget', bind_eq_ok.mpr ⟨_, hargument, bind_eq_ok.mpr ⟨_, hmake', rfl⟩⟩⟩, hidle', hreceiver⟩

end LibraryLink.Kotlin

namespace LibraryLink.Kotlin.Z3Kotlin

open Outcome
open Protobuf (utf8)
open Cpp.Batch (Linked Channel)
open Cpp.Process (Elem State Action dispatch serve)

variable {S : Type} {linked : Linked S} {protocol : Protocol} {c : Channel S} {s : State S} {Γ : Context}

/-! ## Wrappers -/

/-- The names in the wrappers are short, and the parameters are few. -/
theorem short_wrappers :
    ∀ w ∈ wrappers, (utf8 w.methodName).length ≤ 100 ∧ (utf8 w.clazz.simpleName).length ≤ 100 ∧ w.params.length ≤ 8 ∧
      ∀ p ∈ w.params, (utf8 p.1).length ≤ 100 := by
  decide +kernel

/-- The ids of handles are short. -/
theorem Holds.short (h : Holds Γ s) (hlen : s.drawn.length ≤ 2 ^ 64) {id : String} {type : HandleType} (hmem : (id, type) ∈ Γ) :
    (utf8 id).length ≤ 100 := by
  obtain ⟨a, ha⟩ := (h.denotes id type hmem).entry
  have hdrawn := (h.ids.stored id a ha).1
  rw [h.ids.drawn] at hdrawn
  obtain ⟨n, hn, rfl⟩ := List.mem_map.mp hdrawn
  exact Cpp.Messages.length_utf8_toString_le (Nat.lt_of_lt_of_le (List.mem_range.mp hn) hlen)

/-- What is accepted for a parameter becomes a small argument. -/
theorem small_of_accepts (hshort : ∀ id type, (id, type) ∈ Γ → (utf8 id).length ≤ 100) {type : ParamType} {v : Instance}
    (h : Γ.Accepts type v) {key : String} (hkey : (utf8 key).length ≤ 100) :
    ∃ message, (Argument.of v (some key)).toProtobuf = .ok message ∧ message.Small := by
  cases h with
  | handle clazz id hmem =>
    refine ⟨⟨.persistence, .string id, key⟩, rfl, trivial, ?_, hkey⟩
    rintro s ⟨⟩
    exact hshort id _ hmem
  | array elem size id hmem =>
    refine ⟨⟨.persistence, .string id, key⟩, rfl, trivial, ?_, hkey⟩
    rintro s ⟨⟩
    exact hshort id _ hmem
  | int n hlo hhi => exact ⟨⟨.inplace, .int n, key⟩, rfl, ⟨by omega, by omega⟩, nofun, hkey⟩
  | boolean b => exact ⟨⟨.inplace, .notSet, key⟩, rfl, trivial, nofun, hkey⟩

/-- The arguments of a wrapper become small ones. -/
theorem small_of_args (hshort : ∀ id type, (id, type) ∈ Γ → (utf8 id).length ≤ 100) {params : List (String × ParamType)}
    {actual : List Instance} (h : List.Forall₂ (fun p v => Γ.Accepts p.2 v) params actual)
    (hkeys : ∀ p ∈ params, (utf8 p.1).length ≤ 100) :
    ∃ messages, (List.zipWith (fun p v => Argument.of v (some p.1)) params actual).mapM Argument.toProtobuf = .ok messages ∧
      messages.length = params.length ∧ ∀ a ∈ messages, a.Small := by
  induction h with
  | nil => exact ⟨[], rfl, rfl, nofun⟩
  | cons hfirst hrest ih =>
    obtain ⟨hkey, hkeys⟩ := List.forall_mem_cons.mp hkeys
    obtain ⟨message, hmessage, hsmall⟩ := small_of_accepts hshort hfirst hkey
    obtain ⟨messages, hmessages, hlength, hall⟩ := ih hkeys
    refine ⟨message :: messages, ?_, congrArg Nat.succ hlength, List.forall_mem_cons.mpr ⟨hsmall, hall⟩⟩
    rw [List.zipWith_cons_cons, List.mapM_cons, hmessage, hmessages]
    rfl

/-- A wrapper takes the same out of the answer as it is read from bytes. -/
theorem receive_toInt64 (result : Option ResultType) {resp : Cpp.Process.ChannelResponse}
    (hanswers : (retOf result).Answers s resp) {answer : ProcessExchangeResponse}
    (hanswer : toProcessExchangeResponse (.ofReceiver resp) = .ok answer) : receive result answer.toInt64 = receive result answer := by
  obtain ⟨id, value⟩ := resp
  rcases result with _ | (clazz | _ | _)
  · rfl
  · show Except.ok (some (Instance.handle answer.toInt64.assignedID)) = _
    rw [assignedID_toInt64]
    rfl
  · obtain ⟨n, hlo, hhi, hvalue⟩ := hanswers
    obtain rfl : value = some (.returnValue n) := hvalue
    obtain rfl := Except.ok.inj hanswer
    have hn : n.bmod (2 ^ 64) = n := Int.bmod_eq_of_le (by omega) (by omega)
    show receive _ (.primitive (.number (n.bmod (2 ^ 64))) id) = _
    rw [hn]
    rfl
  · obtain ⟨n, hn, hvalue⟩ := hanswers
    obtain rfl : value = some (.returnValue n) := hvalue
    obtain rfl := Except.ok.inj hanswer
    rcases hn with rfl | rfl <;> rfl

/-- The message of a wrapper is small. -/
theorem Wrapper.exists_small (hshort : ∀ id type, (id, type) ∈ Γ → (utf8 id).length ≤ 100) {w : Wrapper} (hw : w ∈ wrappers)
    {assignedID : String} {actual : List Instance} (hself : w.isStatic = false → (assignedID, .object w.clazz) ∈ Γ)
    (hactual : List.Forall₂ (fun p v => Γ.Accepts p.2 v) w.params actual) :
    ∃ call, (w.request assignedID actual).toProtobuf = .ok call ∧ call.Small ∧ call.methodName = w.methodName ∧
      call.type = w.clazz.simpleName := by
  obtain ⟨hname, hclazz, hcount, hkeys⟩ := short_wrappers w hw
  obtain ⟨messages, hmessages, hlength, hsmall⟩ := small_of_args hshort hactual hkeys
  have hobject : (utf8 (if w.isStatic then "" else assignedID)).length ≤ 100 := by
    cases hstatic : w.isStatic with
    | true => exact Nat.zero_le _
    | false => exact hshort _ _ (hself hstatic)
  exact ⟨_, bind_eq_ok.mpr ⟨messages, hmessages, rfl⟩, ⟨hname, hobject, hclazz, hsmall, hlength ▸ hcount⟩, rfl, rfl⟩

/-- A wrapper over the channel. -/
theorem wrapper_binary (hconnected : Connected linked protocol) (hidle : c.Idle)
    (hshort : ∀ id type, (id, type) ∈ Γ → (utf8 id).length ≤ 100) {w : Wrapper} (hw : w ∈ wrappers) {assignedID : String}
    {actual : List Instance} (hself : w.isStatic = false → (assignedID, .object w.clazz) ∈ Γ)
    (hactual : List.Forall₂ (fun p v => Γ.Accepts p.2 v) w.params actual) {v : Option Instance}
    (h : w.call (sendRequest linked.lib {}) assignedID actual c.receiver = .ok (v, s)) :
    ∃ c', w.call (sendBinary linked protocol) assignedID actual c = .ok (v, c') ∧ c'.Idle ∧ c'.receiver = s := by
  obtain ⟨call, hcall, hsmall, hname, htype⟩ := Wrapper.exists_small hshort hw hself hactual
  obtain ⟨⟨answer, s₁⟩, hmake, h⟩ := bind_eq_ok.mp h
  obtain ⟨returned, hreceive, h⟩ := bind_eq_ok.mp h
  obtain ⟨rfl, rfl⟩ := Prod.mk.inj (Except.ok.inj h)
  obtain ⟨c', hmake', hidle', hreceiver⟩ := makeRequest_binary hconnected hidle rfl hcall hsmall hmake
  obtain ⟨m, resp, hm, hserve, hanswer⟩ := makeRequest_eq_ok.mp hmake
  obtain ⟨call', hcall', hm⟩ := bind_eq_ok.mp hm
  obtain rfl := Except.ok.inj (hcall.symm.trans hcall')
  obtain rfl := Except.ok.inj hm
  obtain ⟨action, hdispatch, -, hanswers⟩ := Cpp.Process.answers_of_serve rfl hserve
  have hroute : dispatch call.read = dispatch ⟨w.methodName, "", w.clazz.simpleName, []⟩ := by
    rw [← hname, ← htype]
    rfl
  obtain rfl := Option.some.inj ((hroute.trans (dispatch_wrapper w hw)).symm.trans hdispatch)
  exact ⟨c', bind_eq_ok.mpr ⟨_, hmake', bind_eq_ok.mpr ⟨_, (receive_toInt64 w.result hanswers hanswer).trans hreceive, rfl⟩⟩,
    hidle', hreceiver⟩

/-- An element becomes a small message with its value. -/
theorem exists_valueArgument (hshort : ∀ id type, (id, type) ∈ Γ → (utf8 id).length ≤ 100) {elem : Elem} {element : Instance}
    (h : Γ.AcceptsElement elem element) :
    ∃ argument message, ArrayHandle.valueArgument element = .ok argument ∧ argument.toProtobuf = .ok message ∧ message.Small ∧
      message.value = Generator.valueOf element := by
  cases h with
  | char value =>
    have hvalue := value.toNat_lt
    exact ⟨_, ⟨.inplace, .int value.toNat, ""⟩, rfl, rfl, small_index (by omega), rfl⟩
  | ast id hid =>
    refine ⟨_, ⟨.persistence, .string id, ""⟩, rfl, rfl, ⟨trivial, ?_, Nat.zero_le _⟩, rfl⟩
    rintro text ⟨⟩
    exact hshort id _ hid

/-! ## Sessions -/

/-- A call that the types admit and that returns over the receiver returns the same over the channel. -/
theorem run_binary (hconnected : Connected linked protocol) (hidle : c.Idle)
    (hshort : ∀ id type, (id, type) ∈ Γ → (utf8 id).length ≤ 100) {call : Call} (hcall : call.WellTyped Γ) (hints : call.InInts)
    {v : Option Instance} (h : call.run (sendRequest linked.lib {}) c.receiver = .ok (v, s)) :
    ∃ c', call.run (sendBinary linked protocol) c = .ok (v, c') ∧ c'.Idle ∧ c'.receiver = s := by
  cases hcall with
  | wrapper w assignedID actual hw hself hactual => exact wrapper_binary hconnected hidle hshort hw hself hactual h
  | makeArray elem size =>
    obtain ⟨⟨array, s₁⟩, hmake, h⟩ := bind_eq_ok.mp h
    obtain ⟨rfl, rfl⟩ := Prod.mk.inj (Except.ok.inj h)
    obtain ⟨c', hmake', hidle', hreceiver⟩ := make_binary hconnected hidle hints hmake
    exact ⟨c', bind_eq_ok.mpr ⟨_, hmake', rfl⟩, hidle', hreceiver⟩
  | get elem assignedID size index hmem hindex =>
    obtain ⟨⟨element, s₁⟩, hget, h⟩ := bind_eq_ok.mp h
    obtain ⟨rfl, rfl⟩ := Prod.mk.inj (Except.ok.inj h)
    obtain ⟨c', hget', hidle', hreceiver⟩ := get_binary hconnected hidle (hshort _ _ hmem) hints hget
    exact ⟨c', bind_eq_ok.mpr ⟨_, hget', rfl⟩, hidle', hreceiver⟩
  | set elem assignedID size index element hmem hindex helement =>
    obtain ⟨⟨previousValue, s₁⟩, hset, h⟩ := bind_eq_ok.mp h
    obtain ⟨rfl, rfl⟩ := Prod.mk.inj (Except.ok.inj h)
    obtain ⟨argument, message, hargument, hmessage, hsmall, -⟩ := exists_valueArgument hshort helement
    obtain ⟨c', hset', hidle', hreceiver⟩ :=
      set_binary hconnected hidle (hshort _ _ hmem) hints hargument hmessage hsmall hset
    exact ⟨c', bind_eq_ok.mpr ⟨_, hset', rfl⟩, hidle', hreceiver⟩

/-- The library function of a call that returned over the channel did. -/
theorem returns_of_binary (hconnected : Connected linked protocol) (hidle : c.Idle) (h : Holds Γ c.receiver)
    (hlen : c.receiver.drawn.length < 2 ^ 64) {call : Call} (hcall : call.WellTyped Γ) {v : Option Instance} {c' : Channel S}
    (hrun : call.run (sendBinary linked protocol) c = .ok (v, c')) : call.Returns linked.lib c.receiver := by
  cases hcall with
  | wrapper w assignedID actual hw hself hactual =>
    intro call hcall
    obtain ⟨call', hcall', hsmall, -⟩ :=
      Wrapper.exists_small (fun id type hmem => h.short (Nat.le_of_lt hlen) hmem) hw hself hactual
    obtain rfl := Except.ok.inj (hcall.symm.trans hcall')
    obtain ⟨answer, hmake, -⟩ := bind_eq_ok.mp hrun
    obtain ⟨m, hm, hmake⟩ := bind_eq_ok.mp hmake
    obtain ⟨call', hcall', hm⟩ := bind_eq_ok.mp hm
    obtain rfl := Except.ok.inj (hcall.symm.trans hcall')
    obtain rfl := Except.ok.inj hm
    obtain ⟨response, hsend, -⟩ := bind_eq_ok.mp hmake
    obtain ⟨out, hserve⟩ := exists_serve_of_sendBinary hconnected hidle hsmall hsend
    exact returns_of_serve h.heap hserve
  | _ => trivial

/-- A call over the channel, where the handles are what the context says, and its library function returns. -/
theorem Holds.run_binary (hconnected : Connected linked protocol) (hidle : c.Idle) (h : Holds Γ c.receiver)
    (hlen : c.receiver.drawn.length < 2 ^ 64) {call : Call} (hcall : call.WellTyped Γ) (hints : call.InInts)
    (hreturns : call.Returns linked.lib c.receiver) :
    ∃ v c', call.run (sendBinary linked protocol) c = .ok (v, c') ∧ call.returned.Fits v ∧ c'.Idle ∧
      call.run (sendRequest linked.lib {}) c.receiver = .ok (v, c'.receiver) := by
  have hcallocs : ({} : Cpp.Process.Env).callocs = true := rfl
  obtain ⟨v, s, hrun, hfits, -⟩ := answered linked.lib h hlen hcallocs hcall hreturns
  obtain ⟨c', hrun', hidle', rfl⟩ :=
    Z3Kotlin.run_binary hconnected hidle (fun id type hmem => h.short (Nat.le_of_lt hlen) hmem) hcall hints hrun
  exact ⟨v, c', hrun', hfits, hidle', hrun⟩

/-- A session over the channel is a session, and the channel is idle after it. -/
theorem session_of_byteSession (hconnected : Connected linked protocol) (h : ByteSession linked protocol Γ c) :
    c.Idle ∧ Session Γ c.receiver := by
  induction h with
  | start => exact ⟨⟨rfl, rfl, rfl, rfl, rfl⟩, .start⟩
  | call call returned Γ c c' hs hlen hcall hints hrun ih =>
    obtain ⟨hidle, hsession⟩ := ih
    have hholds := holds_of_session hsession (Nat.le_of_lt hlen)
    obtain ⟨v, c'', hrun', -, hidle', hmessages⟩ := hholds.run_binary hconnected hidle hlen hcall hints
      (returns_of_binary hconnected hidle hholds hlen hcall hrun)
    obtain ⟨rfl, rfl⟩ := Prod.mk.inj (Except.ok.inj (hrun'.symm.trans hrun))
    exact ⟨hidle', .call linked.lib {} call v Γ c.receiver c''.receiver hsession hcall rfl hmessages⟩
  | other Γ c s hs hstep ih =>
    obtain ⟨hidle, hsession⟩ := ih
    exact ⟨⟨hidle.buffering, hidle.buffer, hidle.consumed, hidle.toClient, hidle.ended⟩, .other Γ c.receiver s hsession hstep⟩

/-- Every session over the bytes of a channel is one of the sessions of messages, and a further call that the types admit returns, if the
library function that it reaches does, with a value of the type declared: the value that it returns, and the state that it leaves, where
requests and responses are messages that need no channel. -/
theorem calls_return_over_bytes (hconnected : Connected linked protocol) (h : ByteSession linked protocol Γ c)
    (hlen : c.receiver.drawn.length < 2 ^ 64) {call : Call} (hcall : call.WellTyped Γ) (hints : call.InInts)
    (hreturns : call.Returns linked.lib c.receiver) :
    Session Γ c.receiver ∧ ∃ v c', call.run (sendBinary linked protocol) c = .ok (v, c') ∧ call.returned.Fits v ∧ c'.Idle ∧
      call.run (sendRequest linked.lib {}) c.receiver = .ok (v, c'.receiver) := by
  obtain ⟨hidle, hsession⟩ := session_of_byteSession hconnected h
  exact ⟨hsession, (holds_of_session hsession (Nat.le_of_lt hlen)).run_binary hconnected hidle hlen hcall hints hreturns⟩

/-- A response as the receiver's own class has it, for a client that is linked with that. -/
def readResponse (m : Cpp.Messages.ChannelResponse) : Exchange.ChannelResponse where
  result :=
    match m.result with
    | some (.returnValue v) => v.read.map .returnValue
    | some (.exceptionMessage text) => (Cpp.Messages.text text).map .exceptionMessage
    | none => none
  assignedId := (Cpp.Messages.text m.assignedId).getD ""

/-- The protocol of such a client. -/
def standardProtocol : Protocol where
  declared := true
  parseFrom bytes := readResponse (Cpp.Messages.ChannelResponse.parseFromArray .standard bytes).2

theorem standardProtocol_lawful : standardProtocol.Lawful := by
  constructor
  intro resp hlength
  rw [← Cpp.Messages.ChannelResponse.fields_ofProcess] at hlength ⊢
  have hwritten := Cpp.Messages.ChannelResponse.writtenAs (w := .standard) _ hlength
  have hutf8 : (Cpp.Messages.ChannelResponse.ofProcess resp).Utf8 := by
    refine ⟨?_, Cpp.Messages.isUtf8_utf8 _⟩
    intro result hresult
    obtain ⟨result, -, rfl⟩ := Option.map_eq_some_iff.mp hresult
    cases result with
    | returnValue n => trivial
    | exceptionMessage text => exact Cpp.Messages.isUtf8_utf8 text
  have hparse := (hwritten.absorbs Protobuf.WireReader.standard_lawful hutf8 {}).merge Protobuf.WireReader.standard_lawful
  rw [Cpp.Messages.ChannelResponse.mergeFrom_default] at hparse
  simp only [standardProtocol, Cpp.Messages.ChannelResponse.parseFromArray, Cpp.Messages.parseFromArray,
    Cpp.Messages.ChannelResponse.mergePartialFromCodedStream, hparse]
  obtain ⟨id, _ | (n | text)⟩ := resp
  · simp [readResponse, Cpp.Messages.ChannelResponse.ofProcess, Cpp.Messages.text_utf8, Cpp.Process.ChannelResponse.toInt64,
      Exchange.ChannelResponse.ofReceiver]
  · simp [readResponse, Cpp.Messages.ChannelResponse.ofProcess, Cpp.Messages.Result.ofProcess, Cpp.Messages.Value.read,
      Cpp.Messages.text_utf8, Cpp.Process.ChannelResponse.toInt64, Cpp.Process.Result.toInt64, Exchange.ChannelResponse.ofReceiver,
      BitVec.toInt_ofInt]
  · simp [readResponse, Cpp.Messages.ChannelResponse.ofProcess, Cpp.Messages.Result.ofProcess, Cpp.Messages.text_utf8,
      Cpp.Process.ChannelResponse.toInt64, Cpp.Process.Result.toInt64, Exchange.ChannelResponse.ofReceiver]

theorem connected_standard : Connected Cpp.Batch.generated standardProtocol :=
  ⟨⟨.standard, Protobuf.WireReader.standard_lawful, Cpp.Batch.generated_generated⟩, standardProtocol_lawful⟩

/-- A session in which a configuration was made. -/
theorem byteSession_config : ∃ c : Channel Unit, ByteSession Cpp.Batch.generated standardProtocol [("0", .object .config)] c ∧
    c.receiver.drawn = ["0"] := by
  have hcall : (Call.wrapper z3MkConfig "" []).WellTyped [] := .wrapper z3MkConfig "" [] (by decide) nofun .nil
  obtain ⟨v, c, hrun, -, -, hmessages⟩ := Holds.start.run_binary (c := {}) connected_standard ⟨rfl, rfl, rfl, rfl, rfl⟩ (by decide)
    hcall trivial (fun _ _ => Cpp.Process.returns_of_total (fun _ _ _ => rfl) _ _)
  obtain ⟨rfl, hreceiver⟩ : v = some (.handle "0") ∧ c.receiver.drawn = ["0"] := by
    obtain ⟨hv, hs⟩ := Prod.mk.inj (Except.ok.inj hmessages)
    exact ⟨hv.symm, hs ▸ rfl⟩
  exact ⟨c, .call (.wrapper z3MkConfig "" []) _ [] {} c .start (by decide) hcall trivial hrun, hreceiver⟩

/-- The rule at this session, where a context is made from the configuration. -/
theorem calls_return_over_bytes_context : ∃ c : Channel Unit,
    ByteSession Cpp.Batch.generated standardProtocol [("0", .object .config)] c ∧
      ∃ v c', (Call.wrapper z3MkContext "0" []).run (sendBinary Cpp.Batch.generated standardProtocol) c = .ok (v, c') ∧
        (Returned.handle (.object .context)).Fits v ∧ c'.Idle := by
  obtain ⟨c, hsession, hdrawn⟩ := byteSession_config
  have hlen : c.receiver.drawn.length < 2 ^ 64 := by
    rw [hdrawn]
    decide
  obtain ⟨-, v, c', hrun, hfits, hidle, -⟩ := calls_return_over_bytes connected_standard hsession hlen
    (.wrapper z3MkContext "0" [] (by decide) (fun _ => List.mem_cons_self) .nil) trivial
    (fun _ _ => Cpp.Process.returns_of_total (fun _ _ _ => rfl) _ _)
  exact ⟨c, hsession, v, c', hrun, hfits, hidle⟩

end LibraryLink.Kotlin.Z3Kotlin
