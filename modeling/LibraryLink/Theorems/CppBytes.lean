import LibraryLink.CppBytes
import LibraryLink.Lemmas.CppMessages
import LibraryLink.Lemmas.ReadFrame
import LibraryLink.Theorems.CppBatch

/-!
# The whole way of a request to the C++ receiver

A request of the Kotlin side is serialized, framed, read, parsed and served, and its response comes back the same way. On a channel
with whole reads this is what serving the requests as messages is, response by response, and the channel is idle again.
-/

namespace LibraryLink.Cpp.Messages

open Protobuf (WireReader utf8)

/-! ## Requests -/

theorem stringField_eq (number : Nat) (s : String) : Protobuf.stringField number s = bytesField number (utf8 s) := by
  simp only [Protobuf.stringField, bytesField, Protobuf.utf8_eq_nil_iff]

theorem isUtf8_utf8 (s : String) : IsUtf8 (utf8 s) := ⟨s, rfl⟩

theorem Value.fields_ofExchange {v : Process.Value} (h : Exchange.FitsWord v) : (Value.ofExchange v).fields = Exchange.valueFields v := by
  cases v with
  | notSet => rfl
  | string s => rfl
  | int n => simp [ofExchange, fields, Exchange.valueFields, BitVec.toNat_ofInt]
  | uint n =>
    have hn : n % 2 ^ 64 = n := Nat.mod_eq_of_lt h
    simp only [ofExchange, fields, Exchange.valueFields, BitVec.toNat_ofNat, hn]

theorem Argument.fields_ofExchange {a : Exchange.Argument} (h : Exchange.FitsWord a.value) :
    (Argument.ofExchange a).fields = a.fields := by
  obtain ⟨type, value, key⟩ := a
  have hvalue := Value.fields_ofExchange h
  cases type <;>
    simp [ofExchange, fields, Exchange.Argument.fields, Exchange.typeField, ofArgumentType, enumField, hvalue, stringField_eq]

theorem map_field_ofExchange (number : Nat) {args : List Exchange.Argument} (h : ∀ a ∈ args, Exchange.FitsWord a.value) :
    (args.map Argument.ofExchange).map (Argument.field number) =
      args.map fun a => ⟨number, .bytes (Protobuf.encode a.fields)⟩ := by
  rw [List.map_map]
  refine List.map_congr_left ?_
  intro a ha
  rw [Function.comp_apply, Argument.field, Argument.fields_ofExchange (h a ha)]

theorem RequestCase.field_ofExchange (declared : Bool) {c : Exchange.RequestCase} (h : ∀ a ∈ c.args, Exchange.FitsWord a.value) :
    (RequestCase.ofExchange declared c).field = c.field declared := by
  cases c with
  | methodCall r =>
    have hargs : ∀ a ∈ r.arg, Exchange.FitsWord a.value := h
    simp only [ofExchange, field, Exchange.RequestCase.field, MethodCallRequest.ofExchange, MethodCallRequest.fields,
      Exchange.MethodCallRequest.fields, map_field_ofExchange 3 hargs, stringField_eq]
  | importation r => simp only [ofExchange, field, Exchange.RequestCase.field, ImportRequest.ofExchange, ImportRequest.fields,
      Exchange.ImportRequest.fields, stringField_eq]
  | constructor r =>
    have hargs : ∀ a ∈ r.arg, Exchange.FitsWord a.value := h
    simp only [ofExchange, field, Exchange.RequestCase.field, ConstructorRequest.ofExchange, ConstructorRequest.fields,
      Exchange.ConstructorRequest.fields, map_field_ofExchange 2 hargs, stringField_eq]
  | eval b => rfl
  | dynamicInherit b => rfl

/-- A request has the same fields on both sides. -/
theorem Request.fields_ofExchange (declared : Bool) {r : Exchange.Request} (h : r.FitsWords) :
    (Request.ofExchange declared r).fields = r.fields declared := by
  obtain ⟨request, assignedId⟩ := r
  cases request with
  | none => simp [ofExchange, fields, Exchange.Request.fields, stringField_eq]
  | some c => simp [ofExchange, fields, Exchange.Request.fields, stringField_eq, RequestCase.field_ofExchange declared (h c rfl)]

theorem Argument.utf8_ofExchange (a : Exchange.Argument) : (Argument.ofExchange a).Utf8 := by
  refine ⟨?_, isUtf8_utf8 a.key⟩
  rintro v ⟨⟩
  cases a.value <;> first | trivial | exact isUtf8_utf8 _

theorem Request.utf8_ofExchange (declared : Bool) (r : Exchange.Request) : (Request.ofExchange declared r).Utf8 := by
  have hargs : ∀ args : List Exchange.Argument, ∀ a ∈ args.map Argument.ofExchange, a.Utf8 :=
    fun args => List.forall_mem_map.mpr fun a _ => Argument.utf8_ofExchange a
  obtain ⟨request, assignedId⟩ := r
  refine ⟨?_, isUtf8_utf8 assignedId⟩
  intro c hc
  obtain ⟨c, rfl, rfl⟩ := Option.map_eq_some_iff.mp hc
  cases c with
  | methodCall r => exact ⟨isUtf8_utf8 _, isUtf8_utf8 _, isUtf8_utf8 _, hargs _⟩
  | importation r => exact isUtf8_utf8 _
  | constructor r => exact ⟨isUtf8_utf8 _, hargs _⟩
  | eval b => trivial
  | dynamicInherit b => trivial

/-- The receiver parses the bytes of a request of the Kotlin side to that request. -/
theorem parse_toByteArray {w : WireReader} (hw : w.Lawful) {declared : Bool} {r : Exchange.Request} {bytes : List UInt8}
    (hwords : r.FitsWords) (h : r.toByteArray declared = some bytes) :
    Request.parseFromArray w bytes = (true, Request.ofExchange declared r) := by
  have hfields := Request.fields_ofExchange declared hwords
  simp only [Exchange.Request.toByteArray] at h
  split at h
  · rename_i hlength
    obtain rfl := Option.some.inj h
    rw [← hfields] at hlength ⊢
    have hwritten : (Request.ofExchange declared r).WrittenAs w (Request.ofExchange declared r).fields :=
      Request.writtenAs _ hlength
    have hparse := (hwritten.absorbs hw (Request.utf8_ofExchange declared r) {}).merge hw
    rw [Request.mergeFrom_default] at hparse
    simp only [Request.parseFromArray, parseFromArray, Request.mergePartialFromCodedStream, hparse, decide_true]
  · cases h

/-- A request of some kind has bytes. -/
theorem toByteArray_ne_nil {declared : Bool} {r : Exchange.Request} (hkind : r.request ≠ none) : r.toByteArray declared ≠ some [] := by
  intro h
  simp only [Exchange.Request.toByteArray] at h
  split at h
  · have hfields := Protobuf.encode_eq_nil_iff.mp (Option.some.inj h)
    simp [Exchange.Request.fields, hkind] at hfields
  · cases h

/-! ## Strings -/

theorem text_utf8 (s : String) : text (utf8 s) = some s := by
  have hbytes : (utf8 s).toByteArray = s.toByteArray := String.utf8Encode_toList
  unfold text String.fromUTF8?
  rw [hbytes, dif_pos s.isValidUTF8]
  rfl

theorem Value.read_ofExchange {v : Process.Value} (h : Exchange.FitsWord v) : (Value.ofExchange v).read = some v := by
  cases v with
  | notSet => rfl
  | string s => simp [ofExchange, read, text_utf8]
  | int n =>
    have hn : (BitVec.ofInt 64 n).toInt = n := by
      rw [BitVec.toInt_ofInt]
      exact Int.bmod_eq_of_le_mul_two (by have := h.1; omega) (by have := h.2; omega)
    simp [ofExchange, read, hn]
  | uint n =>
    have hn : n % 2 ^ 64 = n := Nat.mod_eq_of_lt h
    simp only [ofExchange, read, BitVec.toNat_ofNat, hn]

theorem Argument.read_ofExchange {a : Exchange.Argument} (h : Exchange.FitsWord a.value) :
    (Argument.ofExchange a).read = some a.read := by
  obtain ⟨type, value, key⟩ := a
  have hvalue := Value.read_ofExchange h
  cases type <;> simp [ofExchange, read, ofArgumentType, hvalue, Exchange.Argument.read]

theorem mapM_read_ofExchange {args : List Exchange.Argument} (h : ∀ a ∈ args, Exchange.FitsWord a.value) :
    (args.map Argument.ofExchange).mapM Argument.read = some (args.map Exchange.Argument.read) := by
  induction args with
  | nil => rfl
  | cons a args ih =>
    obtain ⟨ha, hargs⟩ := List.forall_mem_cons.mp h
    simp [List.mapM_cons, Argument.read_ofExchange ha, ih hargs]

theorem MethodCallRequest.read_ofExchange (declared : Bool) {r : Exchange.MethodCallRequest}
    (h : ∀ a ∈ r.arg, Exchange.FitsWord a.value) : (MethodCallRequest.ofExchange declared r).read = some r.read := by
  have hargs := mapM_read_ofExchange h
  simp [ofExchange, read, text_utf8, hargs, Exchange.MethodCallRequest.read]

/-- What the receiver reads in a request of the Kotlin side. -/
theorem Request.read_ofExchange (declared : Bool) {r : Exchange.Request} (h : r.FitsWords) :
    (Request.ofExchange declared r).read = some r.read := by
  obtain ⟨request, assignedId⟩ := r
  cases request with
  | none => simp [ofExchange, read, text_utf8, Exchange.Request.read]
  | some c =>
    cases c with
    | methodCall call =>
      have hcall := MethodCallRequest.read_ofExchange declared (h _ rfl)
      simp [ofExchange, RequestCase.ofExchange, read, text_utf8, hcall, Exchange.Request.read]
    | _ => simp [ofExchange, RequestCase.ofExchange, read, text_utf8, Exchange.Request.read]

/-! ## Responses -/

/-- A payload fits a frame. -/
theorem length_responseBytes (resp : Process.ChannelResponse) : (responseBytes resp).length < 2 ^ 31 := by
  unfold responseBytes ChannelResponse.serializeToString serializeToString
  split
  · rename_i hsize
    rw [ChannelResponse.serialize_eq hsize, ChannelResponse.length_fields hsize]
    exact hsize
  · decide

/-- A response has the same fields on both sides. -/
theorem ChannelResponse.fields_ofProcess (resp : Process.ChannelResponse) :
    (ChannelResponse.ofProcess resp).fields = (Exchange.ChannelResponse.ofReceiver resp).fields := by
  obtain ⟨assignedId, result⟩ := resp
  rcases result with _ | result
  · simp [ChannelResponse.ofProcess, ChannelResponse.fields, Exchange.ChannelResponse.ofReceiver, Exchange.ChannelResponse.fields,
      stringField_eq]
  · cases result <;>
      simp [ChannelResponse.ofProcess, Result.ofProcess, ChannelResponse.fields, Result.field, Value.fields, stringField_eq,
        Exchange.ChannelResponse.ofReceiver, Exchange.ChannelResponse.fields, Exchange.valueFields, BitVec.toNat_ofInt]

/-- The payload holds the response as the client has it. -/
theorem responseBytes_eq {resp : Process.ChannelResponse} (h : (ChannelResponse.ofProcess resp).byteSizeLong < 2 ^ 31) :
    responseBytes resp = Protobuf.encode (Exchange.ChannelResponse.ofReceiver resp).fields := by
  rw [← ChannelResponse.fields_ofProcess, ← ChannelResponse.serialize_eq h]
  simp only [responseBytes, ChannelResponse.serializeToString, serializeToString, if_pos h]

end LibraryLink.Cpp.Messages

namespace LibraryLink.Cpp.Batch

open Process Messages Protobuf

variable {S : Type}

/-! ## One request on the channel -/

/-- A frame with a payload is read whole. -/
theorem readFrame_whole (f : Frame) (h : f.message.bytes ≠ []) (rest : List UInt8) :
    ∃ c, readFrame ⟨f.encode ++ rest, whole⟩ = .ok (expected f, ⟨rest, c⟩) := by
  have hlength := f.message.size_lt
  have hsize : ∀ i, whole.size i = 2 ^ 32 := fun _ => rfl
  have hreads : ReadsWhole f whole := by
    unfold ReadsWhole
    simp only [hsize]
    omega
  refine ⟨whole.drop 3, ?_⟩
  rw [readFrame_expected_iff]
  refine ⟨h, hreads.losesOnlyZeros, ?_⟩
  rw [(leftover_eq_zero_iff f whole).mpr hreads]
  rfl

/-- A frame that is written by a framing that holds nothing back is written out. -/
theorem write_flushed {framing : SimpleBinaryFraming} (hbuffering : framing.buffering = false)
    (hbuffer : framing.outputStream.buffer = []) (tag : Tag) (message : Message) :
    framing.write tag message = ⟨⟨framing.outputStream.base ++ (Frame.mk tag message).encode, []⟩, false⟩ := by
  have hstream := SimpleBinaryFraming.stream_write framing tag message
  simp only [SimpleBinaryFraming.write, SimpleBinaryFraming.stream, BufferedOutputStream.all, BufferedOutputStream.flush, hbuffering,
    hbuffer, List.append_nil, Bool.false_eq_true, if_false] at hstream ⊢
  rw [hstream]

/-- The framing after a request is written on an idle channel. -/
theorem Channel.Idle.perform {c : Channel S} (h : c.Idle) (message : Message) :
    (c.perform [.request message]).framing = ⟨⟨c.framing.outputStream.base ++ (Frame.mk .request message).encode, []⟩, false⟩ :=
  write_flushed h.buffering h.buffer .request message

/-- What there is to read after a request is written on an idle channel. -/
theorem Channel.Idle.toReceiver {c : Channel S} (h : c.Idle) (message : Message) :
    (c.perform [.request message]).toReceiver = (Frame.mk .request message).encode := by
  have hconsumed : (c.perform [.request message]).consumed = c.framing.outputStream.base.length := h.consumed
  simp [Channel.toReceiver, h.perform message, hconsumed]

/-- The first pass of the loop, which reads the request whole. -/
theorem Channel.Idle.run_eq {c : Channel S} (h : c.Idle) (linked : Linked S) {message : Message} (hne : message.bytes ≠ []) :
    ∃ n cuts, run linked (c.perform [.request message]) = processChannel linked (n + 2) (c.perform [.request message]) ∧
      readFrame ⟨(c.perform [.request message]).toReceiver, whole⟩ = .ok (expected ⟨.request, message⟩, ⟨[], cuts⟩) := by
  have hbytes := h.toReceiver message
  obtain ⟨cuts, hread⟩ := readFrame_whole ⟨.request, message⟩ hne []
  rw [List.append_nil] at hread
  refine ⟨message.bytes.length + 6, cuts, ?_, by rw [hbytes, hread]⟩
  have hlength : (c.perform [.request message]).toReceiver.length = message.bytes.length + 6 + 2 := by
    rw [hbytes, Frame.length_encode]
    exact Nat.add_comm 8 _
  rw [run, hlength]

/-- A request that is served is read, and the loop then waits. -/
theorem Channel.Idle.run_ok {c : Channel S} (h : c.Idle) {linked : Linked S} {message : Message} (hne : message.bytes ≠ [])
    {response : Process.ChannelResponse} {s : State S}
    (hserve : serve linked.lib {} (linked.parse message.bytes) c.receiver = .ok (response, s)) :
    run linked (c.perform [.request message]) = { c.perform [.request message] with
      consumed := (c.perform [.request message]).framing.outputStream.base.length
      toClient := writeFrame Tag.response.code (linked.serialize response)
      receiver := s } := by
  obtain ⟨n, cuts, hrun, hread⟩ := h.run_eq linked hne
  have hsome : (c.perform [.request message]).toReceiver ≠ [] := by
    rw [h.toReceiver]
    exact List.cons_ne_nil _ _
  have hended : (c.perform [.request message]).ended = false := h.ended
  have hclient : (c.perform [.request message]).toClient = [] := h.toClient
  have htag : (expected ⟨.request, message⟩).tag ≠ Tag.stopReceiver.code := nofun
  have hfirst : serve linked.lib {} (linked.parse (expected ⟨.request, message⟩).data) (c.perform [.request message]).receiver =
      .ok (response, s) := hserve
  rw [hrun, processChannel, if_neg (by simp [hended, hsome]), hread]
  simp only [if_neg htag, hfirst, hclient, hended, List.length_nil, Nat.sub_zero, List.nil_append]
  -- nothing is left to read
  simp only [processChannel, Channel.toReceiver, List.drop_length, or_true, if_true]

/-- A request that is not served ends the loop. -/
theorem Channel.Idle.run_error {c : Channel S} (h : c.Idle) {linked : Linked S} {message : Message} (hne : message.bytes ≠ [])
    {e : Fault} (hserve : serve linked.lib {} (linked.parse message.bytes) c.receiver = .error e) :
    run linked (c.perform [.request message]) = { c.perform [.request message] with ended := true } := by
  obtain ⟨n, cuts, hrun, hread⟩ := h.run_eq linked hne
  have hsome : (c.perform [.request message]).toReceiver ≠ [] := by
    rw [h.toReceiver]
    exact List.cons_ne_nil _ _
  have hended : (c.perform [.request message]).ended = false := h.ended
  have htag : (expected ⟨.request, message⟩).tag ≠ Tag.stopReceiver.code := nofun
  have hfirst : serve linked.lib {} (linked.parse (expected ⟨.request, message⟩).data) (c.perform [.request message]).receiver =
      .error e := hserve
  rw [hrun, processChannel, if_neg (by simp [hended, hsome]), hread]
  simp only [if_neg htag, hfirst]

theorem readByteArray_append (part rest : List UInt8) {length : Nat} (h : length = part.length) :
    readByteArray (part ++ rest) length = some (part, rest) := by
  subst h
  simp [readByteArray]

/-- A frame that comes alone is read back. -/
theorem read_writeFrame (tag : Tag) {payload : List UInt8} (hlength : payload.length < 2 ^ 31) :
    read (writeFrame tag.code payload) = some (tag.code, payload, []) := by
  have hsize : LittleEndian.decode (LittleEndian.encode 4 payload.length) = payload.length :=
    LittleEndian.decode_encode_of_lt (by omega)
  have htag : LittleEndian.decode (LittleEndian.encode 4 tag.code) = tag.code :=
    LittleEndian.decode_encode_of_lt (Nat.lt_trans tag.code_lt (by decide))
  have hwidth : ∀ n, 4 = (LittleEndian.encode 4 n).length := fun n => (LittleEndian.length_encode 4 n).symm
  have hpayload := readByteArray_append payload [] rfl
  rw [List.append_nil] at hpayload
  rw [writeFrame, List.append_assoc, read, readByteArray_append _ _ (hwidth _)]
  simp only [Option.bind_eq_bind, Option.bind_some]
  rw [readByteArray_append _ _ (hwidth _)]
  simp only [Option.bind_some, hsize, htag, hpayload]
  rfl

/-- A response that comes alone is read back. -/
theorem readResponse_writeFrame {c : Channel S} {payload : List UInt8} (hlength : payload.length < 2 ^ 31)
    (h : c.toClient = writeFrame Tag.response.code payload) : readResponse c = some (payload, { c with toClient := [] }) := by
  rw [readResponse, h, read_writeFrame .response hlength]
  rfl

/-- A request that is served is answered, and the channel is idle again. -/
theorem Channel.Idle.sendRequest_ok {c : Channel S} (h : c.Idle) {linked : Linked S} {message : Message} (hne : message.bytes ≠ [])
    {response : Process.ChannelResponse} {s : State S}
    (hserve : serve linked.lib {} (linked.parse message.bytes) c.receiver = .ok (response, s))
    (hlength : (linked.serialize response).length < 2 ^ 31) :
    ∃ c', sendRequest linked c message = some (linked.serialize response, c') ∧ c'.Idle ∧ c'.receiver = s := by
  have hrun := h.run_ok hne hserve
  have hframing := h.perform message
  have hresponse := readResponse_writeFrame (c := run linked (c.perform [.request message])) hlength (by rw [hrun])
  rw [hrun] at hresponse
  refine ⟨_, by rw [sendRequest, hrun, hresponse], ?_, rfl⟩
  exact {
    buffering := congrArg SimpleBinaryFraming.buffering hframing
    buffer := congrArg (fun f => f.outputStream.buffer) hframing
    consumed := rfl
    toClient := rfl
    ended := h.ended }

/-- Of a request that is not served `sendRequest` does not return. -/
theorem Channel.Idle.sendRequest_error {c : Channel S} (h : c.Idle) {linked : Linked S} {message : Message}
    (hne : message.bytes ≠ []) {e : Fault} (hserve : serve linked.lib {} (linked.parse message.bytes) c.receiver = .error e) :
    sendRequest linked c message = none := by
  rw [sendRequest, h.run_error hne hserve]
  exact readResponse_of_nil h.toClient

/-- A request that `sendRequest` returns for was served. -/
theorem Channel.Idle.exists_serve {c c' : Channel S} (h : c.Idle) {linked : Linked S} {message : Message} (hne : message.bytes ≠ [])
    {response : List UInt8} (hsend : sendRequest linked c message = some (response, c')) :
    ∃ out, serve linked.lib {} (linked.parse message.bytes) c.receiver = .ok out := by
  cases hserve : serve linked.lib {} (linked.parse message.bytes) c.receiver with
  | ok out => exact ⟨out, rfl⟩
  | error e =>
    rw [h.sendRequest_error hne hserve] at hsend
    cases hsend

/-- A request of the Kotlin side has bytes. -/
theorem ne_nil_of_sends {declared : Bool} {r : Exchange.Request} {message : Message} (h : Exchange.Sends declared r message) :
    message.bytes ≠ [] := by
  intro hnil
  exact toByteArray_ne_nil h.kind (hnil ▸ h.bytes)

/-- The receiver reads a request of the Kotlin side in its bytes. -/
theorem parse_of_sends {w : WireReader} (hw : w.Lawful) {linked : Linked S} (hgenerated : Generated w linked) {declared : Bool}
    {r : Exchange.Request} {message : Message} (h : Exchange.Sends declared r message) : linked.parse message.bytes = r.read := by
  refine hgenerated.parse _ _ ?_
  rw [parse_toByteArray hw h.words h.bytes]
  exact Request.read_ofExchange declared h.words

/-! ## All requests -/

/-- How serving requests one after the other ends. -/
theorem serveEach_cons (lib : Library S) (rq : Process.Request) (rqs : List Process.Request) (s : State S) :
    (∃ e, serve lib {} rq s = .error e ∧ serveEach lib (rq :: rqs) s = .error e) ∨
    ∃ response t, serve lib {} rq s = .ok (response, t) ∧
      ((∃ e, serveEach lib rqs t = .error e ∧ serveEach lib (rq :: rqs) s = .error e) ∨
        ∃ responses u, serveEach lib rqs t = .ok (responses, u) ∧ serveEach lib (rq :: rqs) s = .ok (response :: responses, u)) := by
  cases hfirst : serve lib {} rq s with
  | error e => exact .inl ⟨e, rfl, by rw [serveEach, hfirst]; rfl⟩
  | ok out =>
    refine .inr ⟨out.1, out.2, rfl, ?_⟩
    cases hothers : serveEach lib rqs out.2 with
    | error e => exact .inl ⟨e, rfl, by simp [serveEach, hfirst, bind, Except.bind, hothers]⟩
    | ok others => exact .inr ⟨others.1, others.2, rfl, by simp [serveEach, hfirst, bind, Except.bind, hothers, pure, Except.pure]⟩

/-- On an idle channel `sendRequest` of each message is what serving the requests as messages is: where all are served, the
responses come back as they are serialized, the receiver has the same state, and the channel is idle; otherwise it does not return. -/
theorem sendEach_eq {w : WireReader} (hw : w.Lawful) {linked : Linked S} (hgenerated : Generated w linked) {declared : Bool}
    {rs : List Exchange.Request} {messages : List Message} (hsends : List.Forall₂ (Exchange.Sends declared) rs messages)
    {c : Channel S} (h : c.Idle) :
    (∀ responses s, serveEach linked.lib (rs.map Exchange.Request.read) c.receiver = .ok (responses, s) →
      ∃ c', sendEach linked c messages = some (responses.map responseBytes, c') ∧ c'.Idle ∧ c'.receiver = s ∧
        ∀ response ∈ responses, (ChannelResponse.ofProcess response).byteSizeLong < 2 ^ 31 →
          responseBytes response = Protobuf.encode (Exchange.ChannelResponse.ofReceiver response).fields) ∧
    ∀ e, serveEach linked.lib (rs.map Exchange.Request.read) c.receiver = .error e → sendEach linked c messages = none := by
  induction hsends generalizing c with
  | nil =>
    refine ⟨?_, nofun⟩
    rintro responses s ⟨⟩
    exact ⟨c, rfl, h, rfl, nofun⟩
  | @cons r message rs messages hfirst hsends ih =>
    have hne := ne_nil_of_sends hfirst
    have hparse := parse_of_sends hw hgenerated hfirst
    rw [List.map_cons]
    rcases serveEach_cons linked.lib r.read (rs.map Exchange.Request.read) c.receiver with
      ⟨e, hserve, heach⟩ | ⟨response, t, hserve, hothers⟩
    · -- the first request ends the receiver
      rw [← hparse] at hserve
      rw [heach]
      refine ⟨nofun, ?_⟩
      intro _ _
      rw [sendEach, h.sendRequest_error hne hserve]
      rfl
    · rw [← hparse] at hserve
      have hlength : (linked.serialize response).length < 2 ^ 31 := by
        rw [hgenerated.serialize]
        exact length_responseBytes response
      obtain ⟨c', hrequest, hidle, rfl⟩ := h.sendRequest_ok hne hserve hlength
      rw [hgenerated.serialize] at hrequest
      obtain ⟨hok, herror⟩ := ih hidle
      rcases hothers with ⟨e, hothers, heach⟩ | ⟨responses, u, hothers, heach⟩
      · rw [heach]
        refine ⟨nofun, ?_⟩
        intro _ _
        simp [sendEach, hrequest, herror e hothers]
      · obtain ⟨c'', hsend, hidle, hreceiver, -⟩ := hok responses u hothers
        rw [heach]
        refine ⟨?_, nofun⟩
        rintro _ _ ⟨⟩
        exact ⟨c'', by simp [sendEach, hrequest, hsend], hidle, hreceiver, fun _ _ => responseBytes_eq⟩

/-- A receiver with the generated parser and serializer. -/
def generated : Linked Unit where
  lib := fun _ _ states => some ⟨states, 0, .null⟩
  parse bytes := (Request.parseFromArray .standard bytes).2.read.getD ⟨none, ""⟩
  serialize := responseBytes

theorem generated_generated : Generated WireReader.standard generated := ⟨fun _ _ h => by simp [generated, h], fun _ => rfl⟩

/-- A call of `Z3_mk_config`. -/
def mkConfig : Exchange.Request := ⟨some (.methodCall { methodName := "Z3_mk_config", type := "Z3_config" }), "1"⟩

/-- One request on a channel that has just been opened. -/
theorem sendEach_mkConfig : ∃ message, Exchange.Sends true mkConfig message ∧
    ∃ c', sendEach generated {} [message] = some ([responseBytes { assignedId := "1" }], c') ∧ c'.Idle := by
  have hidle : Channel.Idle ({} : Channel Unit) := ⟨rfl, rfl, rfl, rfl, rfl⟩
  have hwords : mkConfig.FitsWords := by
    rintro c ⟨⟩ a ha
    cases ha
  have hlength : (Protobuf.encode (mkConfig.fields true)).length < 2 ^ 31 := by
    have hname : (utf8 "Z3_mk_config").length = 12 := by decide
    have htype : (utf8 "Z3_config").length = 9 := by decide
    have hid : (utf8 "1").length = 1 := by decide
    simp [mkConfig, Exchange.Request.fields, Exchange.RequestCase.field, Exchange.MethodCallRequest.fields, Protobuf.stringField,
      Protobuf.boolField, Field.encode, Value.wireType, Value.encode, varint_of_lt, hname, htype, hid]
  have hbytes : mkConfig.toByteArray true = some (Protobuf.encode (mkConfig.fields true)) := if_pos hlength
  have hsends : Exchange.Sends true mkConfig ⟨_, hlength⟩ := ⟨Option.some_ne_none _, hwords, hbytes⟩
  refine ⟨_, hsends, ?_⟩
  obtain ⟨c', hsend, hidle', -⟩ :=
    (sendEach_eq WireReader.standard_lawful generated_generated (.cons hsends .nil) hidle).1 [{ assignedId := "1" }] _ rfl
  exact ⟨c', hsend, hidle'⟩

end LibraryLink.Cpp.Batch
