import LibraryLink.Lemmas.Requests
import LibraryLink.Lemmas.ReadFrame

/-!
# What becomes of a request to the C++ receiver

A response has a field for the text of an exception, but the receiver never sets it: what a request gets wrong ends the process
with all its channels, by an exception that nobody catches or by a pointer that leads nowhere. So does a library function that does
not return, and a response that nobody reads. So a request is dealt with exactly when there is a handler for it which finds what it
reads, its library function returns, and the peer is there for the response (`handled_iff`).
-/

namespace LibraryLink.Cpp.Process

open Outcome Relation

variable {S : Type}

/-- A request is dealt with: one response is written to its channel, all channels are still served, and if the request is bad,
the response carries an exception message and the pointers of the table are as they were. -/
def Handled (parse : List UInt8 → Request) (lib : Library S) (env : Env) (fd : Nat) (payload : Message) (v : Server S) : Prop :=
  ∃ resp v', v.turn parse lib env fd (received ⟨.request, payload⟩) = some v' ∧ v'.channels = v.channels ∧
    v'.written = Function.update v.written fd (v.written fd ++ [resp]) ∧
    ∀ r, (parse payload.bytes).methodCall = some r → Bad r v.state →
      (∃ text, resp.result = some (.exceptionMessage text)) ∧
        ∀ key a, v'.state.persistence key = some (some a) ↔ v.state.persistence key = some (some a)

/-- A frame that arrives whole is read as it is. -/
theorem received_of_ne_nil {f : Frame} (h : f.message.bytes ≠ []) : received f = .ok (expected f) := by
  have hwhole : ReadsWhole f (Cuts.const (2 ^ 31) (by decide)) :=
    ⟨by simp [Cuts.const], by simp [Cuts.const], Nat.le_of_lt f.message.size_lt⟩
  have hread := (readFrame_expected_iff f [] _ _).mpr ⟨h, hwhole.losesOnlyZeros, rfl⟩
  rw [List.append_nil] at hread
  unfold received
  rw [hread]

/-- A frame without a payload is taken for a closed connection. -/
theorem received_of_nil {f : Frame} (h : f.message.bytes = []) : received f = .error connectionClosed := by
  have hzero : LittleEndian.decode (f.encode.take (min 4 (2 ^ 31))) = 0 := by
    have hlen := (ReadFrameAux.length_read f [] 4 (Nat.le_refl 4)).mpr (ReadFrameAux.length_lt f)
    rw [List.append_nil, h] at hlen
    exact hlen
  unfold received
  rw [ReadFrameAux.readFrame_of_zero _ _ hzero]

/-- A turn of the loop writes a response exactly when the frame has a payload, its request is served, and the peer reads. -/
theorem turn_answers_iff {parse : List UInt8 → Request} {lib : Library S} {env : Env} {fd : Nat} {payload : Message}
    {v : Server S} :
    (∃ resp v', v.turn parse lib env fd (received ⟨.request, payload⟩) = some v' ∧ v'.channels = v.channels ∧
      v'.written = Function.update v.written fd (v.written fd ++ [resp])) ↔
    payload.bytes ≠ [] ∧ env.peerReads = true ∧ ∃ out, serve lib env (parse payload.bytes) v.state = .ok out := by
  by_cases hnil : payload.bytes = []
  · rw [received_of_nil hnil]
    constructor
    · rintro ⟨resp, v', hturn, -, hwritten⟩
      rw [← Option.some.inj hturn] at hwritten
      have hlen := congrArg List.length (congrFun hwritten fd)
      rw [Function.update_self, List.length_append] at hlen
      exact absurd hlen (Nat.ne_of_lt (Nat.lt_succ_self _))
    · rintro ⟨hne, -⟩
      exact absurd hnil hne
  · rw [received_of_ne_nil hnil]
    have htag : (expected ⟨.request, payload⟩).tag ≠ 8 := (by decide : Tag.request.code ≠ 8)
    simp only [Server.turn, htag, if_false]
    constructor
    · rintro ⟨resp, v', hturn, -⟩
      refine ⟨hnil, ?_⟩
      split at hturn
      · rename_i hserve
        split at hturn
        · rename_i hreads
          exact ⟨hreads, _, hserve⟩
        · cases hturn
      · cases hturn
    · rintro ⟨-, hreads, ⟨resp, s⟩, hserve⟩
      have hserve' : serve lib env (parse (expected ⟨.request, payload⟩).data) v.state = .ok (resp, s) := hserve
      rw [hserve']
      exact ⟨resp, _, if_pos hreads, rfl, rfl⟩

/-- In every state that the process reaches, on every channel: a request frame is dealt with as it should exactly when it has a
payload, the peer still reads its channel and, if it is a call, a handler matches it and finds what it reads, and the library function
that the handler calls returns. -/
theorem handled_iff {v : Server S} (hv : ReflTransGen ServerStep {} v) (parse : List UInt8 → Request) (lib : Library S)
    (env : Env) (fd : Nat) (payload : Message) :
    Handled parse lib env fd payload v ↔
      payload.bytes ≠ [] ∧ env.peerReads = true ∧ (∀ r, (parse payload.bytes).methodCall = some r → Served r v.state) ∧
        Returns lib (parse payload.bytes) v.state := by
  have hserves : (∃ out, serve lib env (parse payload.bytes) v.state = .ok out) ↔ _ := serve_succeeds_iff (wellTyped_of_run hv)
  rw [← hserves, ← turn_answers_iff]
  constructor
  · rintro ⟨resp, v', hturn, hchannels, hwritten, -⟩
    exact ⟨resp, v', hturn, hchannels, hwritten⟩
  · intro h
    obtain ⟨-, -, hserved⟩ := turn_answers_iff.mp h
    obtain ⟨resp, v', hturn, hchannels, hwritten⟩ := h
    refine ⟨resp, v', hturn, hchannels, hwritten, fun r hcall hbad => ?_⟩
    exact absurd hbad (((serve_succeeds_iff (wellTyped_of_run hv)).mp hserved).1 r hcall).not_bad

/-- The payload of a request for `Z3_mk_config`. -/
def mkConfigBytes : Message :=
  ⟨[10, 25, 10, 12, 90, 51, 95, 109, 107, 95, 99, 111, 110, 102, 105, 103, 66] ++
    [9, 90, 51, 95, 99, 111, 110, 102, 105, 103], by decide⟩

/-- The payload of a request for a method `f` of no type. -/
def unknownBytes : Message := ⟨[10, 3, 10, 1, 102], by decide⟩

/-- The payload of a request for the length of an array `7`. -/
def strlenBytes : Message := ⟨[10, 11, 10, 6, 115, 116, 114, 108, 101, 110, 18, 1, 55], by decide⟩

/-- What `ParseFromArray` makes of these payloads. -/
def parseBytes (bytes : List UInt8) : Request :=
  if bytes = mkConfigBytes.bytes then ⟨some ⟨"Z3_mk_config", "", "Z3_config", []⟩, ""⟩
  else if bytes = unknownBytes.bytes then ⟨some ⟨"f", "", "", []⟩, ""⟩
  else if bytes = strlenBytes.bytes then ⟨some ⟨"strlen", "7", "", []⟩, ""⟩
  else ⟨none, ""⟩

/-- The process after a channel was accepted. -/
def accepted : Server Unit := ({} : Server Unit).accept 3

theorem run_accepted : ReflTransGen ServerStep {} accepted := .single (.accept {} 3 (by decide))

/-- A library that returns, of which each function makes a new object. -/
def mkLibrary : Library Unit := fun _ _ states => some ⟨states, 0, .fresh ()⟩

/-- The rule at the first request of a channel, for a configuration. -/
theorem handled_mkConfig : Handled parseBytes mkLibrary {} 3 mkConfigBytes accepted := by
  refine (handled_iff run_accepted _ _ _ _ _).mpr ⟨by decide, rfl, fun r hr => ?_, returns_of_total (fun _ _ _ => rfl) _ _⟩
  rw [← Option.some.inj hr]
  exact ⟨.library librarylinkZ3MkConfig, by decide, nofun⟩

/-- A request for an unknown method, and one that names an object which does not exist, are not dealt with: each ends the
process. -/
theorem not_handled :
    ReflTransGen ServerStep {} accepted ∧ 3 ∈ accepted.channels ∧
      ¬Handled parseBytes mkLibrary {} 3 unknownBytes accepted ∧ ¬Handled parseBytes mkLibrary {} 3 strlenBytes accepted := by
  refine ⟨run_accepted, List.mem_cons_self, ?_, ?_⟩
  · rintro ⟨resp, v', hturn, -⟩
    rw [received_of_ne_nil (by decide)] at hturn
    cases hturn
  · rintro ⟨resp, v', hturn, -⟩
    rw [received_of_ne_nil (by decide)] at hturn
    cases hturn

end LibraryLink.Cpp.Process
