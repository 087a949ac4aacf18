import LibraryLink.PythonFraming

/-!
# The Python receiver carries frames exactly where no call is partial

Nothing makes up for a partial call: what `send` did not accept is lost, and what `recv` did not give stands in front of the next
part. Both directions are counted: a call takes no more than it is given, so frames that arrive whole leave no room for a call that
took less.
-/

namespace LibraryLink.Python

/-! ## Sending -/

/-- What a frame of a message is cut to by the three calls of `send`. -/
def acceptedOf (m : TaggedData) (c : Cuts) : List UInt8 :=
  (LittleEndian.encode 4 m.data.length).take (c.size 0) ++ (LittleEndian.encode 4 m.tag).take (c.size 1) ++
    m.data.take (c.size 2)

/-- What a call of `send` accepts. -/
theorem SendingSocket.write_snd (data : List UInt8) (channel : SendingSocket) :
    (channel.write data).2 = ⟨channel.accepted ++ data.take (channel.cuts.size 0), channel.cuts.drop 1⟩ := by
  rw [SendingSocket.write, Nat.min_comm, ← List.take_eq_take_min]

/-- What the calls for one frame accept. -/
theorem write_eq (channel : SendingSocket) (m : TaggedData) :
    write channel m = ⟨channel.accepted ++ acceptedOf m channel.cuts, channel.cuts.drop 3⟩ := by
  show ((((channel.write _).2.write _).2.write _).2) = _
  rw [SendingSocket.write_snd, SendingSocket.write_snd, SendingSocket.write_snd]
  simp only [acceptedOf, Cuts.size_drop, Cuts.drop_drop, List.append_assoc]

/-- What is accepted of a frame is no longer than the frame, and as long only if no call is partial. -/
theorem length_acceptedOf (m : TaggedData) (c : Cuts) :
    (acceptedOf m c).length ≤ m.encode.length ∧
      ((acceptedOf m c).length = m.encode.length → 4 ≤ c.size 0 ∧ 4 ≤ c.size 1 ∧ m.data.length ≤ c.size 2) := by
  simp only [acceptedOf, TaggedData.encode, List.length_append, List.length_take, LittleEndian.length_encode]
  omega

/-- Whole calls accept the frame. -/
theorem acceptedOf_eq {m : TaggedData} {c : Cuts} (h : 4 ≤ c.size 0 ∧ 4 ≤ c.size 1 ∧ m.data.length ≤ c.size 2) :
    acceptedOf m c = m.encode := by
  obtain ⟨h₀, h₁, h₂⟩ := h
  rw [acceptedOf, List.take_of_length_le (by rwa [LittleEndian.length_encode]),
    List.take_of_length_le (by rwa [LittleEndian.length_encode]), List.take_of_length_le h₂, TaggedData.encode]

/-- What the calls for all frames accept, after what was accepted before. -/
theorem accepted_writeAll (messages : List TaggedData) (channel : SendingSocket) :
    ∃ more, (writeAll messages channel).accepted = channel.accepted ++ more ∧ more.length ≤ (encodeAll messages).length ∧
      (more.length = (encodeAll messages).length → WholeCalls messages channel.cuts) ∧
      (WholeCalls messages channel.cuts → more = encodeAll messages) := by
  induction messages generalizing channel with
  | nil => exact ⟨[], (List.append_nil _).symm, Nat.le_refl _, fun _ => trivial, fun _ => rfl⟩
  | cons m ms ih =>
    obtain ⟨more, hmore, hle, hwhole, heq⟩ := ih (write channel m)
    obtain ⟨hle', hwhole'⟩ := length_acceptedOf m channel.cuts
    rw [write_eq] at hmore hwhole heq
    refine ⟨acceptedOf m channel.cuts ++ more, ?_, ?_, ?_, ?_⟩
    · show (writeAll ms (write channel m)).accepted = _
      rw [write_eq, hmore, List.append_assoc]
    · rw [encodeAll, List.flatMap_cons, List.length_append, List.length_append, ← encodeAll]
      omega
    · intro hlength
      rw [encodeAll, List.flatMap_cons, List.length_append, List.length_append, ← encodeAll] at hlength
      exact ⟨hwhole' (by omega), hwhole (by omega)⟩
    · rintro ⟨hcalls, hrest⟩
      rw [acceptedOf_eq hcalls, heq hrest, encodeAll, encodeAll, List.flatMap_cons]

/-- The frames are sent exactly when no call of `send` is partial. -/
theorem sent_iff (messages : List TaggedData) (sends : Cuts) : FramesSent messages sends ↔ WholeCalls messages sends := by
  obtain ⟨more, hmore, -, hwhole, heq⟩ := accepted_writeAll messages { cuts := sends }
  rw [List.nil_append] at hmore
  unfold FramesSent
  rw [hmore]
  exact ⟨fun h => hwhole (congrArg List.length h), heq⟩

/-! ## Receiving -/

/-- `read` on a stream that is not at its end. -/
theorem read_eq {bytes : List UInt8} (c : Cuts) (h : bytes ≠ []) :
    read ⟨bytes, c⟩ =
      let length := LittleEndian.decode (bytes.take (min 4 (c.size 0)))
      let tagBytes := bytes.drop (min 4 (c.size 0))
      let dataBytes := tagBytes.drop (min 4 (c.size 1))
      some ((LittleEndian.decode (tagBytes.take (min 4 (c.size 1))), dataBytes.take (min length (c.size 2))),
        ⟨dataBytes.drop (min length (c.size 2)), c.drop 3⟩) := by
  have hpos := c.pos 0
  have hlength := List.length_pos_iff.mpr h
  have hne : (bytes.take (min 4 (c.size 0))).length ≠ 0 := by
    rw [List.length_take]
    omega
  simp only [read, Cut.read, hne, if_false, Cuts.size_drop, Cuts.drop_drop]

/-- At the end of the stream `read` ends the receiver. -/
theorem read_nil (c : Cuts) : read ⟨[], c⟩ = none := by
  simp only [read, Cut.read, List.take_nil, List.length_nil, if_true]

/-- A call of `read` takes at most eight bytes and what it returns as the payload. -/
theorem length_le_of_read {s s' : Cut} {r : Nat × List UInt8} (h : read s = some (r, s')) :
    s.bytes.length ≤ 8 + r.2.length + s'.bytes.length := by
  obtain ⟨bytes, c⟩ := s
  by_cases hnil : bytes = []
  · rw [hnil, read_nil] at h
    cases h
  · rw [read_eq c hnil] at h
    obtain ⟨rfl, rfl⟩ := Prod.mk.inj (Option.some.inj h)
    simp only [List.length_take, List.length_drop]
    omega

/-- Calls of `read` that return some pairs and no more have found no more than their frames. -/
theorem length_le_of_readAll {s : Cut} {rs : List (Nat × List UInt8)} (h : ∀ n, readAll n s = rs.take n) :
    s.bytes.length ≤ (rs.map fun r => 8 + r.2.length).sum := by
  induction rs generalizing s with
  | nil =>
    obtain ⟨bytes, c⟩ := s
    by_cases hnil : bytes = []
    · rw [hnil]
      exact Nat.zero_le _
    · have hone := h 1
      rw [readAll, read_eq c hnil] at hone
      cases hone
  | cons r rs ih =>
    have hone := h 1
    cases hread : read s with
    | none =>
      rw [readAll, hread] at hone
      cases hone
    | some p =>
      obtain ⟨r', s'⟩ := p
      rw [readAll, hread] at hone
      obtain rfl : r' = r := (List.cons.inj hone).1
      have hrest := ih fun n => by
        have hn := h (n + 1)
        rw [readAll, hread] at hn
        exact (List.cons.inj hn).2
      have hfirst := length_le_of_read hread
      rw [List.map_cons, List.sum_cons]
      omega

/-- The length of the frames of some messages. -/
theorem length_encodeAll (messages : List TaggedData) :
    (encodeAll messages).length = ((messages.map TaggedData.pair).map fun r => 8 + r.2.length).sum := by
  induction messages with
  | nil => rfl
  | cons m ms ih =>
    rw [encodeAll, List.flatMap_cons, List.length_append, ← encodeAll, ih, List.map_cons, List.map_cons, List.sum_cons]
    simp only [TaggedData.encode, TaggedData.pair, List.length_append, LittleEndian.length_encode]

/-- `read` on a frame whose length and tag are read by whole calls. -/
theorem read_encode (m : TaggedData) (rest : List UInt8) {c : Cuts} (h₀ : 4 ≤ c.size 0) (h₁ : 4 ≤ c.size 1) :
    read ⟨m.encode ++ rest, c⟩ =
      some ((m.tag, (m.data ++ rest).take (min m.data.length (c.size 2))),
        ⟨(m.data ++ rest).drop (min m.data.length (c.size 2)), c.drop 3⟩) := by
  have hlength := LittleEndian.length_encode 4 m.data.length
  have htag := LittleEndian.length_encode 4 m.tag
  have hdecodeLength : LittleEndian.decode (LittleEndian.encode 4 m.data.length) = m.data.length :=
    LittleEndian.decode_encode_of_lt m.size_lt
  have hdecodeTag : LittleEndian.decode (LittleEndian.encode 4 m.tag) = m.tag := LittleEndian.decode_encode_of_lt m.tag_lt
  have hne : m.encode ++ rest ≠ [] := by
    refine List.ne_nil_of_length_pos ?_
    simp only [TaggedData.encode, List.length_append, hlength]
    omega
  rw [read_eq c hne, Nat.min_eq_left h₀, Nat.min_eq_left h₁]
  simp only [TaggedData.encode, List.append_assoc]
  rw [List.take_left' hlength, List.drop_left' hlength, List.take_left' htag, List.drop_left' htag,
    hdecodeLength, hdecodeTag]

/-- Whole calls read the frame and leave what follows it. -/
theorem read_of_whole (m : TaggedData) (rest : List UInt8) {c : Cuts}
    (h : 4 ≤ c.size 0 ∧ 4 ≤ c.size 1 ∧ m.data.length ≤ c.size 2) :
    read ⟨m.encode ++ rest, c⟩ = some (m.pair, ⟨rest, c.drop 3⟩) := by
  rw [read_encode m rest h.1 h.2.1, Nat.min_eq_left h.2.2, List.take_left, List.drop_left, TaggedData.pair]

/-- A call that returns a message and leaves no more than what follows its frame was whole. -/
theorem whole_of_read {m : TaggedData} {rest : List UInt8} {c : Cuts} {s : Cut}
    (h : read ⟨m.encode ++ rest, c⟩ = some (m.pair, s)) (hle : s.bytes.length ≤ rest.length) :
    4 ≤ c.size 0 ∧ 4 ≤ c.size 1 ∧ m.data.length ≤ c.size 2 := by
  have hsize : (m.encode ++ rest).length = 8 + m.data.length + rest.length := by
    simp only [TaggedData.encode, List.length_append, LittleEndian.length_encode]
  have hheader : 4 ≤ c.size 0 ∧ 4 ≤ c.size 1 := by
    have hne : m.encode ++ rest ≠ [] := List.ne_nil_of_length_pos (by omega)
    rw [read_eq c hne] at h
    obtain ⟨hpair, rfl⟩ := Prod.mk.inj (Option.some.inj h)
    have hdata := congrArg List.length (Prod.mk.inj hpair).2
    simp only [List.length_take, List.length_drop, hsize] at hdata hle
    omega
  rw [read_encode m rest hheader.1 hheader.2] at h
  have hdata := congrArg (fun p => p.1.2.length) (Option.some.inj h)
  simp only [TaggedData.pair, List.length_take, List.length_append] at hdata
  exact ⟨hheader.1, hheader.2, by omega⟩

/-- What is received after a first message that is. -/
theorem received_cons {m : TaggedData} {ms : List TaggedData} {c : Cuts} (h : FramesReceived (m :: ms) c) :
    ∃ s, read ⟨m.encode ++ encodeAll ms, c⟩ = some (m.pair, s) ∧ ∀ n, readAll n s = (ms.map TaggedData.pair).take n := by
  have hone := h 1
  rw [encodeAll, List.flatMap_cons, ← encodeAll] at hone
  cases hread : read ⟨m.encode ++ encodeAll ms, c⟩ with
  | none =>
    rw [readAll, hread] at hone
    cases hone
  | some p =>
    obtain ⟨r, s⟩ := p
    rw [readAll, hread] at hone
    obtain rfl : r = m.pair := (List.cons.inj hone).1
    refine ⟨s, rfl, fun n => ?_⟩
    have hn := h (n + 1)
    rw [encodeAll, List.flatMap_cons, ← encodeAll, readAll, hread] at hn
    exact (List.cons.inj hn).2

/-- The messages are received exactly when no call of `recv` is partial. -/
theorem received_iff (messages : List TaggedData) (recvs : Cuts) : FramesReceived messages recvs ↔ WholeCalls messages recvs := by
  induction messages generalizing recvs with
  | nil =>
    refine iff_of_true (fun n => ?_) trivial
    cases n with
    | zero => rfl
    | succ n => rw [encodeAll, List.flatMap_nil, readAll, read_nil, List.map_nil, List.take_nil]
  | cons m ms ih =>
    constructor
    · intro h
      obtain ⟨s, hread, hrest⟩ := received_cons h
      have hle := length_le_of_readAll hrest
      rw [← length_encodeAll] at hle
      have hcalls := whole_of_read hread hle
      rw [read_of_whole m _ hcalls] at hread
      obtain rfl := (Prod.mk.inj (Option.some.inj hread)).2
      exact ⟨hcalls, (ih _).mp hrest⟩
    · rintro ⟨hcalls, hrest⟩ n
      cases n with
      | zero => rfl
      | succ n =>
        rw [encodeAll, List.flatMap_cons, ← encodeAll, readAll, read_of_whole m _ hcalls, List.map_cons,
          List.take_succ_cons]
        exact congrArg _ ((ih _).mpr hrest n)

/-! ## Both directions -/

/-- Frames are carried in both directions exactly when no call of `send` and no call of `recv` is partial. -/
theorem carries_iff (outgoing incoming : List TaggedData) (sends recvs : Cuts) :
    FramesSent outgoing sends ∧ FramesReceived incoming recvs ↔ WholeCalls outgoing sends ∧ WholeCalls incoming recvs :=
  and_congr (sent_iff outgoing sends) (received_iff incoming recvs)

/-- A RESPONSE with a payload of two bytes. -/
def twoBytes : TaggedData := ⟨1, [10, 0], by decide, by decide⟩

/-- Of a frame that is sent one byte a call, three bytes are accepted; and a frame that arrives whole is returned without the second
byte of its payload when the third call gives only one. -/
theorem not_sent_received :
    ¬ FramesSent [twoBytes] (Cuts.const 1 (by decide)) ∧
      ¬ FramesReceived [twoBytes] ⟨fun i => if i = 2 then 1 else 4, fun i => by split <;> decide⟩ := by
  constructor
  · unfold FramesSent
    decide
  · intro h
    have hone := h 1
    revert hone
    decide

end LibraryLink.Python
