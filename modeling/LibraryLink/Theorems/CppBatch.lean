import LibraryLink.CppBatch
import LibraryLink.Lemmas.ReadFrame

/-!
# A batch never reaches the C++ receiver

The first frame of `sendRequests` announces the buffering and has no payload. `read_block` takes the zero that reading no bytes
gives for the end of the stream, so the receiver leaves its loop before the first request.
-/

namespace LibraryLink.Cpp.Batch

open Process

variable {S : Type}

/-- The bytes of a batch on an idle channel: first comes the frame that announces the buffering. -/
theorem toReceiver_batch {c : Channel S} (h : c.Idle) (messages : List Message) :
    ∃ rest, (c.perform (batch messages)).toReceiver = toByteArray 0 ++ rest := by
  have hlast : (c.perform (batch messages)).framing.outputStream.buffer = [] := by
    rw [Channel.perform, batch, List.foldl_cons, List.foldl_append]
    rfl
  have hstream := SimpleBinaryFraming.stream_foldl_perform (batch messages) c.framing
  unfold SimpleBinaryFraming.stream BufferedOutputStream.all at hstream
  rw [h.buffer, List.append_nil] at hstream
  have hbase : (c.perform (batch messages)).framing.outputStream.base =
      c.framing.outputStream.base ++ encodeAll ((batch messages).map FramingOp.frame) := by
    rw [← hstream, ← List.append_nil (c.perform (batch messages)).framing.outputStream.base, ← hlast]
    rfl
  unfold Channel.toReceiver
  rw [hbase]
  show ∃ rest, (c.framing.outputStream.base ++ _).drop c.consumed = _
  rw [h.consumed, List.drop_left]
  exact ⟨_, rfl⟩

/-- Four bytes of zero in front are read as an empty payload, and the loop of the receiver ends. -/
theorem processChannel_of_zero (linked : Linked S) {c : Channel S} (hended : c.ended = false) {bytes : List UInt8}
    (h : c.toReceiver = toByteArray 0 ++ bytes) (n : Nat) : processChannel linked (n + 1) c = { c with ended := true } := by
  have hne : c.toReceiver ≠ [] := by
    rw [h]
    exact List.cons_ne_nil _ _
  have hread : readFrame ⟨c.toReceiver, whole⟩ = .error connectionClosed := by
    rw [h]
    exact ReadFrameAux.readFrame_of_zero _ whole rfl
  simp only [processChannel, hended, hne, hread, Bool.false_eq_true, or_self, if_false]

/-- A batch ends the receiver's loop, before anything is served. -/
theorem run_batch (linked : Linked S) {c : Channel S} (h : c.Idle) (messages : List Message) :
    (run linked (c.perform (batch messages))).toClient = [] ∧
      (run linked (c.perform (batch messages))).receiver = c.receiver := by
  obtain ⟨rest, hbytes⟩ := toReceiver_batch h messages
  obtain ⟨n, hn⟩ : ∃ n, (c.perform (batch messages)).toReceiver.length = n + 1 := by
    rw [hbytes]
    exact ⟨_, rfl⟩
  have hended : (c.perform (batch messages)).ended = false := h.ended
  rw [run, hn, processChannel_of_zero linked hended hbytes]
  exact ⟨h.toClient, rfl⟩

/-- Without bytes there is no response. -/
theorem readResponse_of_nil {c : Channel S} (h : c.toClient = []) : readResponse c = none := by
  unfold readResponse read readByteArray
  rw [h]
  rfl

/-- On an idle channel a batch gives the responses that the single requests give, and leaves the same state, exactly when it is
empty: of any other batch `sendRequests` does not return. -/
theorem sameResult_iff (linked : Linked S) {c : Channel S} (h : c.Idle) (messages : List Message) :
    SameResult linked c messages ↔ messages = [] := by
  obtain ⟨hclient, hreceiver⟩ := run_batch linked h messages
  constructor
  · rintro ⟨responses, c₁, c₂, hbatch, -, -⟩
    cases messages with
    | nil => rfl
    | cons message messages =>
      unfold sendRequests at hbatch
      rw [readResponses, readResponse_of_nil hclient] at hbatch
      cases hbatch
  · rintro rfl
    exact ⟨[], _, c, rfl, rfl, hreceiver⟩

/-- A receiver whose first request is no method call: the response has the id `0`. -/
def idsOnly : Linked Unit where
  lib := fun _ _ states => some ⟨states, 0, .null⟩
  parse _ := ⟨none, ""⟩
  serialize _ := [0x3a, 0x01, 0x30]

/-- The rule at a channel that has just been opened, for an empty batch. -/
theorem sameResult_empty : SameResult idsOnly {} [] := by
  have h : Channel.Idle ({} : Channel Unit) := ⟨rfl, rfl, rfl, rfl, rfl⟩
  exact (sameResult_iff idsOnly h []).mpr rfl

/-- One request of two bytes, `3a 00`: `sendRequest` returns its response, and `sendRequests` does not. -/
theorem not_sameResult :
    (sendEach idsOnly {} [⟨[0x3a, 0x00], by decide⟩]).isSome ∧ ¬SameResult idsOnly {} [⟨[0x3a, 0x00], by decide⟩] := by
  have h : Channel.Idle ({} : Channel Unit) := ⟨rfl, rfl, rfl, rfl, rfl⟩
  refine ⟨by decide, fun hsame => ?_⟩
  have hnil := (sameResult_iff idsOnly h _).mp hsame
  cases hnil

end LibraryLink.Cpp.Batch
