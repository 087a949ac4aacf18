import LibraryLink.WebSocketBridge
import LibraryLink.General.Runs
import Mathlib.Data.List.Infix

/-!
# What the WebSocket bridge carries

The length that the bridge writes for a message counts the tag, and the length that it reads of a frame does not, so no message is
written as its frame, and of the responses only those arrive that are made of the tags and lengths around them. Each session's
thread reads from the same channel, so a response can go to any of the sessions.
-/

namespace LibraryLink.WebSocket

open Relation

/-! ## Messages to the receiver -/

/-- The bytes that are written for some messages are their frames only if there are no messages. -/
theorem flatMap_onMessage_eq_iff (messages : List SocketMessage) :
    messages.flatMap (fun m => onMessage m.bytes) = messages.flatMap SocketMessage.frame ↔ messages = [] := by
  constructor
  · intro h
    rcases messages with _ | ⟨m, messages⟩
    · rfl
    · exfalso
      have htake := congrArg (List.take 4) h
      have hsize := m.size_lt
      have hlength : m.bytes.length = 4 + m.payload.length := by
        simp [SocketMessage.bytes]
      simp only [List.flatMap_cons, onMessage, SocketMessage.frame, toByteArray, List.append_assoc] at htake
      rw [List.take_left' (LittleEndian.length_encode 4 _), List.take_left' (LittleEndian.length_encode 4 _)] at htake
      have hdecode := congrArg LittleEndian.decode htake
      rw [LittleEndian.decode_encode_of_lt (by omega), LittleEndian.decode_encode_of_lt (by omega)] at hdecode
      omega
  · rintro rfl
    rfl

/-! ## Messages to the session -/

/-- What the thread would have to find in the channel to send a payload. -/
def Payload.untagged (p : Payload) : List UInt8 := LittleEndian.encode 4 p.bytes.length ++ p.bytes

/-- No whole message is there: no length, one that is negative as an `Int`, or fewer bytes than it says. -/
def Incomplete (input : List UInt8) : Prop :=
  input.length < 4 ∨ 2 ^ 31 ≤ LittleEndian.decode (input.take 4) ∨ (input.drop 4).length < LittleEndian.decode (input.take 4)

/-- Where no whole message is there the thread sends nothing. -/
theorem readingThread_of_incomplete {input : List UInt8} (h : Incomplete input) : readingThread input = [] := by
  rw [readingThread]
  rcases h with hlength | hnegative | hshort
  · rw [if_pos hlength]
  · simp only [if_pos hnegative, ite_self]
  · simp only [if_pos hshort, ite_self]

/-- Where a whole message is there, the thread sends it. -/
theorem readingThread_append {p rest : List UInt8} (hp : p.length < 2 ^ 31) :
    readingThread (LittleEndian.encode 4 p.length ++ p ++ rest) = p :: readingThread rest := by
  have hlength := LittleEndian.length_encode 4 p.length
  have htake : (LittleEndian.encode 4 p.length ++ p ++ rest).take 4 = LittleEndian.encode 4 p.length := by
    rw [List.append_assoc, List.take_left' hlength]
  have hdrop : (LittleEndian.encode 4 p.length ++ p ++ rest).drop 4 = p ++ rest := by
    rw [List.append_assoc, List.drop_left' hlength]
  have hdecode : LittleEndian.decode (LittleEndian.encode 4 p.length) = p.length :=
    LittleEndian.decode_encode_of_lt (by omega)
  rw [readingThread, htake, hdrop, hdecode, if_neg (by simp), if_neg (by omega), if_neg (by simp), List.take_left' rfl,
    List.drop_left' rfl]

/-- What is there is either not a whole message or one, with something after it. -/
theorem incomplete_or_append (input : List UInt8) :
    Incomplete input ∨ ∃ p rest, p.length < 2 ^ 31 ∧ input = LittleEndian.encode 4 p.length ++ p ++ rest := by
  by_cases h : Incomplete input
  · exact Or.inl h
  · unfold Incomplete at h
    rw [not_or, not_or] at h
    obtain ⟨hlength, hnegative, hshort⟩ := h
    refine Or.inr ⟨(input.drop 4).take (LittleEndian.decode (input.take 4)),
      (input.drop 4).drop (LittleEndian.decode (input.take 4)), ?_, ?_⟩
    · rw [List.length_take]
      omega
    · have hfour : (input.take 4).length = 4 := by rw [List.length_take]; omega
      have hencode := LittleEndian.encode_decode (input.take 4)
      rw [hfour] at hencode
      rw [List.length_take_of_le (by omega), hencode, List.append_assoc, List.take_append_drop, List.take_append_drop]

/-- The thread sends some messages if and only if they are at the beginning of the channel, each after its length, and no whole
message follows. -/
theorem readingThread_eq_iff (messages : List (List UInt8)) (input : List UInt8) :
    readingThread input = messages ↔ (∀ p ∈ messages, p.length < 2 ^ 31) ∧
      ∃ rest, input = messages.flatMap (fun p => LittleEndian.encode 4 p.length ++ p) ++ rest ∧ Incomplete rest := by
  induction messages generalizing input with
  | nil =>
    constructor
    · intro h
      rcases incomplete_or_append input with hnone | ⟨p, rest, hp, rfl⟩
      · exact ⟨List.forall_mem_nil _, input, rfl, hnone⟩
      · rw [readingThread_append hp] at h
        cases h
    · rintro ⟨-, rest, rfl, hnone⟩
      exact readingThread_of_incomplete hnone
  | cons p messages ih =>
    constructor
    · intro h
      rcases incomplete_or_append input with hnone | ⟨p', rest, hp', rfl⟩
      · rw [readingThread_of_incomplete hnone] at h
        cases h
      · rw [readingThread_append hp'] at h
        obtain ⟨rfl, hrest⟩ := List.cons.inj h
        obtain ⟨hlt, rest', rfl, hnone⟩ := (ih rest).mp hrest
        refine ⟨List.forall_mem_cons.mpr ⟨hp', hlt⟩, rest', ?_, hnone⟩
        simp [List.append_assoc]
    · rintro ⟨hlt, rest, rfl, hnone⟩
      obtain ⟨hp, hlt⟩ := List.forall_mem_cons.mp hlt
      rw [List.flatMap_cons, List.append_assoc, readingThread_append hp]
      exact congrArg (p :: ·) ((ih _).mpr ⟨hlt, rest, rfl, hnone⟩)

/-- The frames with their tags left out are the beginning of the frames, no length is negative as an `Int`, and the bytes that are
left are no whole message. -/
structure SelfDescribing (responses : List Payload) : Prop where
  sizes : ∀ p ∈ responses, p.bytes.length < 2 ^ 31
  untagged : ∃ rest, responses.flatMap Payload.frame = responses.flatMap Payload.untagged ++ rest ∧ Incomplete rest

/-- The payloads of some responses come back over the session if and only if their frames describe themselves. -/
theorem readingThread_frames_iff (responses : List Payload) :
    readingThread (responses.flatMap Payload.frame) = responses.map (·.bytes) ↔ SelfDescribing responses := by
  have huntagged : (responses.map (·.bytes)).flatMap (fun p => LittleEndian.encode 4 p.length ++ p) =
      responses.flatMap Payload.untagged := by
    rw [List.flatMap_map]
    rfl
  rw [readingThread_eq_iff, huntagged, List.forall_mem_map]
  exact ⟨fun ⟨hsizes, huntagged⟩ => ⟨hsizes, huntagged⟩, fun h => ⟨h.sizes, h.untagged⟩⟩

/-- The bridge carries some messages and responses: the bytes written for the messages are their frames, and the messages sent over
the session are the payloads of the responses. -/
structure Carried (messages : List SocketMessage) (responses : List Payload) : Prop where
  forward : messages.flatMap (fun m => onMessage m.bytes) = messages.flatMap SocketMessage.frame
  backward : readingThread (responses.flatMap Payload.frame) = responses.map (·.bytes)

/-- For all messages and all responses: the bridge carries them if and only if there are no messages and the frames of the responses
describe themselves. -/
theorem carried_iff (messages : List SocketMessage) (responses : List Payload) :
    Carried messages responses ↔ messages = [] ∧ SelfDescribing responses := by
  rw [← flatMap_onMessage_eq_iff, ← readingThread_frames_iff]
  exact ⟨fun h => ⟨h.forward, h.backward⟩, fun h => ⟨h.1, h.2⟩⟩

/-- A request with one byte. -/
def oneRequest : SocketMessage := ⟨0, [7], by decide⟩

/-- A response with one byte. -/
def oneResponse : Payload := ⟨[7], by decide⟩

/-- For a request with one byte a length of five is written, not of one; and of a response with one byte the thread sends a byte of
the tag. -/
theorem not_carried : onMessage oneRequest.bytes = [5, 0, 0, 0, 0, 0, 0, 0, 7] ∧ oneRequest.frame = [1, 0, 0, 0, 0, 0, 0, 0, 7] ∧
    readingThread oneResponse.frame = [[1]] ∧ ¬Carried [oneRequest] [oneResponse] := by
  have hforward : onMessage oneRequest.bytes = [5, 0, 0, 0, 0, 0, 0, 0, 7] := by decide
  have hframe : oneRequest.frame = [1, 0, 0, 0, 0, 0, 0, 0, 7] := by decide
  have hthread : readingThread oneResponse.frame = [[1]] := by
    refine (readingThread_eq_iff _ _).mpr ⟨by simp, [0, 0, 0, 7], by decide, Or.inr (Or.inr (by decide))⟩
  refine ⟨hforward, hframe, hthread, ?_⟩
  intro h
  have hforward' := h.forward
  simp only [List.flatMap_singleton, hforward, hframe] at hforward'
  cases hforward'

/-! ## Sessions -/

variable {P : Type} {arrivals : List (Arrival P)}

/-- All messages are of one session, which has its thread from the first one on, and every message is, in order, answered and sent
back, answered, in the channel, or still to come. -/
structure Bridge.Inv (arrivals : List (Arrival P)) (session : Nat) (b : Bridge P) : Prop where
  sessions : ∀ s ∈ b.sessions, s = session
  order : b.delivered.map (fun d => d.answer.message) ++ b.responses.map (·.message) ++ b.requests ++ b.arriving = arrivals
  delivered : ∀ d ∈ b.delivered, d.session = session
  thread : b.arriving = arrivals ∨ session ∈ b.sessions

theorem Bridge.Inv.step {session : Nat} (hsession : ∀ m ∈ arrivals, m.session = session) {b b' : Bridge P}
    (hi : b.Inv arrivals session) (hs : BridgeStep b b') : b'.Inv arrivals session := by
  obtain ⟨hsessions, horder, hdelivered, hthread⟩ := hi
  cases hs with
  | onMessage m arriving harriving =>
    rw [harriving] at horder
    have hm : m.session = session := hsession m (by rw [← horder]; simp)
    refine ⟨?_, ?_, hdelivered, Or.inr ?_⟩
    · intro s hmem
      split at hmem
      · exact hsessions s hmem
      · rcases List.mem_append.mp hmem with hmem | hmem
        · exact hsessions s hmem
        · rw [List.mem_singleton.mp hmem, hm]
    · rw [← horder]
      simp
    · show session ∈ if m.session ∈ b.sessions then b.sessions else b.sessions ++ [m.session]
      split
      · rwa [← hm]
      · exact List.mem_append_right _ (List.mem_singleton.mpr hm.symm)
  | respond m requests payload hrequests =>
    rw [hrequests] at horder
    refine ⟨hsessions, ?_, hdelivered, hthread⟩
    rw [← horder]
    simp
  | read s a responses hresponses hmem =>
    rw [hresponses] at horder
    refine ⟨hsessions, ?_, ?_, hthread⟩
    · rw [← horder]
      simp
    · intro d hd
      rcases List.mem_append.mp hd with hd | hd
      · exact hdelivered d hd
      · rw [List.mem_singleton.mp hd]
        exact hsessions s hmem

/-- Where all messages are of one session, its responses come back in order. -/
theorem Bridge.Inv.routed {session : Nat} (hsession : ∀ m ∈ arrivals, m.session = session) {b : Bridge P}
    (hi : b.Inv arrivals session) : b.Routed arrivals := by
  obtain ⟨-, horder, hdelivered, -⟩ := hi
  have hpre : b.delivered.map (fun d => d.answer.message) <+: arrivals := by
    rw [← horder, List.append_assoc, List.append_assoc]
    exact List.prefix_append _ _
  refine ⟨?_, ?_⟩
  · intro d hd
    rw [hdelivered d hd, hsession _ (hpre.subset (List.mem_map_of_mem hd))]
  · intro s
    by_cases hs : s = session
    · have hall : (b.delivered.filter fun d => d.session = s) = b.delivered :=
        List.filter_eq_self.mpr fun d hd => by simp [hdelivered d hd, hs]
      have hall' : (arrivals.filter fun m => m.session = s) = arrivals :=
        List.filter_eq_self.mpr fun m hm => by simp [hsession m hm, hs]
      rw [hall, hall']
      exact hpre
    · have hnone : (b.delivered.filter fun d => d.session = s) = [] :=
        List.filter_eq_nil_iff.mpr fun d hd => by simp [hdelivered d hd, Ne.symm hs]
      rw [hnone]
      exact List.nil_prefix

/-- Where all messages are of one session and nothing can happen any more, all are answered, and all responses sent. -/
theorem Bridge.Inv.final {session : Nat} {b : Bridge P} (hi : b.Inv arrivals session) (hfinal : Runs.Final BridgeStep b) :
    b.delivered.map (fun d => d.answer.message) = arrivals := by
  obtain ⟨-, horder, -, hthread⟩ := hi
  have harriving : b.arriving = [] := by
    rcases h : b.arriving with _ | ⟨m, arriving⟩
    · rfl
    · exact absurd (BridgeStep.onMessage b m arriving h) (hfinal _)
  have hrequests : b.requests = [] := by
    rcases h : b.requests with _ | ⟨m, requests⟩
    · rfl
    · exact absurd (BridgeStep.respond b m requests m.payload h) (hfinal _)
  have hresponses : b.responses = [] := by
    rcases h : b.responses with _ | ⟨a, responses⟩
    · rfl
    · rcases hthread with hall | hmem
      · rw [harriving] at hall
        rw [← hall, h] at horder
        simp at horder
      · exact absurd (BridgeStep.read b session a responses h hmem) (hfinal _)
  rw [harriving, hrequests, hresponses] at horder
  simpa using horder

/-- All messages are written to the channel before the receiver answers one. -/
theorem exists_forwarded (arriving : List (Arrival P)) (b : Bridge P) (h : b.arriving = arriving) :
    ∃ b', ReflTransGen BridgeStep b b' ∧ b'.requests = b.requests ++ arriving ∧ b'.responses = b.responses ∧
      b'.delivered = b.delivered ∧ (∀ s ∈ b.sessions, s ∈ b'.sessions) ∧ ∀ m ∈ arriving, m.session ∈ b'.sessions := by
  induction arriving generalizing b with
  | nil => exact ⟨b, .refl, (List.append_nil _).symm, rfl, rfl, fun _ hs => hs, List.forall_mem_nil _⟩
  | cons m arriving ih =>
    let next : Bridge P := { b with
      arriving, requests := b.requests ++ [m],
      sessions := if m.session ∈ b.sessions then b.sessions else b.sessions ++ [m.session] }
    obtain ⟨b', hrun, hrequests, hresponses, hdelivered, hkept, hnew⟩ := ih next rfl
    have hmem : m.session ∈ if m.session ∈ b.sessions then b.sessions else b.sessions ++ [m.session] := by
      split
      · assumption
      · exact List.mem_append_right _ (List.mem_singleton_self _)
    have hold : ∀ s ∈ b.sessions, s ∈ if m.session ∈ b.sessions then b.sessions else b.sessions ++ [m.session] := by
      intro s hs
      split
      · exact hs
      · exact List.mem_append_left _ hs
    refine ⟨b', .head (.onMessage b m arriving h) hrun, ?_, hresponses, hdelivered, fun s hs => hkept s (hold s hs), ?_⟩
    · rw [hrequests, List.append_assoc]
      rfl
    · exact List.forall_mem_cons.mpr ⟨hkept _ hmem, hnew⟩

/-- For every order in which messages of any sessions arrive: in all runs every response goes to the session of its message, in the
order of its messages, and in the end all have been sent, if and only if all messages are of one session. -/
theorem routed_iff (arrivals : List (Arrival P)) :
    (∀ b, ReflTransGen BridgeStep { arriving := arrivals } b → b.Routed arrivals ∧
        (Runs.Final BridgeStep b → b.delivered.map (fun d => d.answer.message) = arrivals)) ↔
      ∀ m ∈ arrivals, ∀ m' ∈ arrivals, m.session = m'.session := by
  constructor
  · intro hrouted
    rcases arrivals with _ | ⟨m, arriving⟩
    · exact List.forall_mem_nil _
    · have hfirst : ∀ m' ∈ m :: arriving, m'.session = m.session := by
        intro m' hm'
        obtain ⟨b, hrun, hrequests, hresponses, hdelivered, -, hsessions⟩ := exists_forwarded (m :: arriving)
          { arriving := m :: arriving } rfl
        -- The thread of the other session is the first to read.
        have hanswer := BridgeStep.respond b m arriving m.payload hrequests
        have hone : b.responses ++ [{ message := m, payload := m.payload }] = { message := m, payload := m.payload } :: [] := by
          rw [hresponses]
          rfl
        have hread := BridgeStep.read
          { b with requests := arriving, responses := b.responses ++ [{ message := m, payload := m.payload }] } m'.session
          { message := m, payload := m.payload } [] hone (hsessions m' hm')
        exact (hrouted _ ((hrun.tail hanswer).tail hread)).1.1 _ (List.mem_append_right _ (List.mem_singleton_self _))
      intro m₁ hm₁ m₂ hm₂
      rw [hfirst m₁ hm₁, hfirst m₂ hm₂]
  · intro hone b hrun
    rcases arrivals with _ | ⟨m, arriving⟩
    · have hi : b.Inv [] 0 := Runs.invariant (fun _ _ hi hs => hi.step (List.forall_mem_nil _) hs) hrun
        ⟨List.forall_mem_nil _, rfl, List.forall_mem_nil _, Or.inl rfl⟩
      exact ⟨hi.routed (List.forall_mem_nil _), hi.final⟩
    · have hsession : ∀ m' ∈ m :: arriving, m'.session = m.session := fun m' hm' => hone m' hm' m List.mem_cons_self
      have hi : b.Inv (m :: arriving) m.session := Runs.invariant (fun _ _ hi hs => hi.step hsession hs) hrun
        ⟨List.forall_mem_nil _, rfl, List.forall_mem_nil _, Or.inl rfl⟩
      exact ⟨hi.routed hsession, hi.final⟩

/-- Two sessions send one message each. -/
def twoSessions : List (Arrival String) := [⟨0, "get"⟩, ⟨1, "post"⟩]

/-- The response to the first message goes to the second session. -/
def misrouted : Bridge String where
  arriving := []
  requests := [⟨1, "post"⟩]
  sessions := [0, 1]
  delivered := [⟨1, ⟨⟨0, "get"⟩, "ok"⟩⟩]

/-- Both messages are forwarded, the first is answered, and the thread of the second session reads the response. -/
theorem not_routed : ReflTransGen BridgeStep { arriving := twoSessions } misrouted ∧ ¬misrouted.Routed twoSessions := by
  have hfirst : BridgeStep { arriving := twoSessions } ⟨[⟨1, "post"⟩], [⟨0, "get"⟩], [], [0], []⟩ := .onMessage _ ⟨0, "get"⟩ _ rfl
  have hsecond : BridgeStep ⟨[⟨1, "post"⟩], [⟨0, "get"⟩], [], [0], []⟩ ⟨[], [⟨0, "get"⟩, ⟨1, "post"⟩], [], [0, 1], []⟩ :=
    .onMessage _ ⟨1, "post"⟩ _ rfl
  have hanswer : BridgeStep ⟨[], [⟨0, "get"⟩, ⟨1, "post"⟩], [], [0, 1], []⟩
      ⟨[], [⟨1, "post"⟩], [⟨⟨0, "get"⟩, "ok"⟩], [0, 1], []⟩ := .respond _ ⟨0, "get"⟩ _ "ok" rfl
  have hread : BridgeStep ⟨[], [⟨1, "post"⟩], [⟨⟨0, "get"⟩, "ok"⟩], [0, 1], []⟩ misrouted :=
    .read _ 1 ⟨⟨0, "get"⟩, "ok"⟩ [] rfl (by decide)
  refine ⟨.head hfirst (.head hsecond (.head hanswer (.single hread))), ?_⟩
  intro h
  have hto := h.1 _ List.mem_cons_self
  cases hto

end LibraryLink.WebSocket
