import LibraryLink.Lemmas.ReadFrame

/-!
# What the C++ receiver reads of a stream that the Kotlin side wrote

`read_frame` makes one `read` call for each part of a frame and takes a call that returns nothing for the end of the stream.
So it reads a stream back exactly when no payload is empty and no read call falls short, except where the last frame loses
only zero bytes (`readsBack_iff`). An empty payload is what the Kotlin side sends with `START_BUFFERING` and `STOP_BUFFERING`.
-/

namespace LibraryLink.Cpp

/-- Successive calls of `read_frame` on the stream that `SimpleBinaryFraming.write` makes of the frames, cut in a given way,
return exactly those frames, and report a closed connection after the last. -/
def ReadsBack (fs : List Frame) (c : Cuts) : Prop :=
  readFrames (fs.length + 1) ⟨(fs.foldl (fun s f => s.write f.tag f.message) ({} : SimpleBinaryFraming)).stream, c⟩ =
    (fs.map expected, some connectionClosed)

/-- No payload is empty, the three read calls of every frame but the last give all they are asked for, and those of the last
frame leave out only zero bytes. -/
def HarmlessReads : List Frame → Cuts → Prop
  | [], _ => True
  | [f], c => f.message.bytes ≠ [] ∧ LosesOnlyZeros f c
  | f :: g :: fs, c => f.message.bytes ≠ [] ∧ ReadsWhole f c ∧ HarmlessReads (g :: fs) (c.drop 3)

namespace ReadsBackAux

/-- The calls of `read_frame` return a list of frames when the first returns the first frame and the others the others. -/
theorem readFrames_cons (n : Nat) (fd : Cut) (r : ChannelRequest) (rs : List ChannelRequest) (e : Option String) :
    readFrames (n + 1) fd = (r :: rs, e) ↔ ∃ fd', readFrame fd = .ok (r, fd') ∧ readFrames n fd' = (rs, e) := by
  rw [readFrames]
  cases h : readFrame fd with
  | error e => simp
  | ok p =>
    obtain ⟨r', fd'⟩ := p
    simp only [Prod.mk.injEq, List.cons.injEq, Except.ok.injEq]
    constructor
    · rintro ⟨⟨rfl, h1⟩, h2⟩
      exact ⟨fd', ⟨rfl, rfl⟩, Prod.ext h1 h2⟩
    · rintro ⟨_, ⟨rfl, rfl⟩, h⟩
      rw [h]
      exact ⟨⟨rfl, rfl⟩, rfl⟩

/-- The calls on what a frame and the frames after it leave in the stream, as the induction over the frames needs it. -/
theorem readFrames_iff (fs : List Frame) (c : Cuts) :
    readFrames (fs.length + 1) ⟨encodeAll fs, c⟩ = (fs.map expected, some connectionClosed) ↔ HarmlessReads fs c := by
  induction fs generalizing c with
  | nil =>
    have h : readFrame ⟨[], c⟩ = .error connectionClosed := readFrame_zeros 0 c
    simp [readFrames, h, HarmlessReads]
  | cons f fs ih =>
    rw [List.length_cons, List.map_cons, encodeAll_cons, readFrames_cons]
    cases fs with
    | nil =>
      rw [HarmlessReads]
      constructor
      · rintro ⟨fd, h, -⟩
        obtain ⟨hne, hz, -⟩ := (readFrame_expected_iff f _ c fd).mp h
        exact ⟨hne, hz⟩
      · rintro ⟨hne, hz⟩
        refine ⟨_, (readFrame_expected_iff f _ c _).mpr ⟨hne, hz, rfl⟩, ?_⟩
        rw [encodeAll_nil, List.append_nil, List.length_nil, readFrames, readFrame_zeros]
        rfl
    | cons g fs =>
      rw [HarmlessReads]
      constructor
      · rintro ⟨fd, h, hrest⟩
        obtain ⟨hne, hz, rfl⟩ := (readFrame_expected_iff f _ c fd).mp h
        -- A byte left over would stand before the next frame, which is then not returned.
        have hleft : leftover f c = 0 := by
          by_contra hk
          rw [List.length_cons, List.map_cons, readFrames_cons, encodeAll_cons] at hrest
          obtain ⟨fd', hg, -⟩ := hrest
          exact readFrame_shifted_ne _ g _ _ _ (Nat.pos_of_ne_zero hk) hg
        rw [hleft, List.replicate_zero, List.nil_append] at hrest
        exact ⟨hne, (leftover_eq_zero_iff f c).mp hleft, (ih _).mp hrest⟩
      · rintro ⟨hne, hw, hrest⟩
        refine ⟨_, (readFrame_expected_iff f _ c _).mpr ⟨hne, hw.losesOnlyZeros, rfl⟩, ?_⟩
        rw [(leftover_eq_zero_iff f c).mpr hw, List.replicate_zero, List.nil_append]
        exact (ih _).mpr hrest

end ReadsBackAux

/-- The C++ receiver reads back what the Kotlin side wrote exactly when the reads are harmless: whole ones and no empty
payload, save for zero bytes that the last frame may lose. -/
theorem readsBack_iff (fs : List Frame) (c : Cuts) : ReadsBack fs c ↔ HarmlessReads fs c := by
  unfold ReadsBack
  rw [SimpleBinaryFraming.stream_foldl_write]
  exact ReadsBackAux.readFrames_iff fs c

/-- A `START_BUFFERING` frame is not read back even by whole reads, and a request of two bytes is not when each read call
gives one byte. -/
theorem not_readsBack :
    ¬ReadsBack [⟨.startBuffering, .empty⟩] (Cuts.const 4 (by decide)) ∧
      ¬ReadsBack [⟨.request, ⟨[10, 0], by decide⟩⟩] (Cuts.const 1 (by decide)) := by
  constructor <;> unfold ReadsBack <;> decide

/-- Whole reads of frames without an empty payload read them all back. -/
theorem readsBack_of_whole (fs : List Frame) (c : Cuts) (hne : ∀ f ∈ fs, f.message.bytes ≠ [])
    (hc : ∀ i, ∀ f ∈ fs, max 4 f.message.bytes.length ≤ c.size i) : ReadsBack fs c := by
  unfold ReadsBack
  rw [SimpleBinaryFraming.stream_foldl_write]
  refine (ReadsBackAux.readFrames_iff fs c).mpr ?_
  induction fs generalizing c with
  | nil => trivial
  | cons f fs ih =>
    have hw : ReadsWhole f c := by
      have h0 := hc 0 f (by simp)
      have h1 := hc 1 f (by simp)
      have h2 := hc 2 f (by simp)
      unfold ReadsWhole
      omega
    have hf := hne f (by simp)
    cases fs with
    | nil => exact ⟨hf, hw.losesOnlyZeros⟩
    | cons g fs =>
      exact ⟨hf, hw, ih (c.drop 3) (fun x hx => hne x (List.mem_cons_of_mem f hx))
        (fun i x hx => hc (i + 3) x (List.mem_cons_of_mem f hx))⟩

end LibraryLink.Cpp
