import LibraryLink.Theorems.ArrayHandles

/-!
# Arrays of characters

What `get` of an `ArrayHandle<Char>` returns: the receiver's `char` has a sign, so that the character last stored comes back only as
far as it is ASCII.
-/

namespace LibraryLink.Kotlin

open Outcome
open Cpp.Process (State)

variable {S : Type} {lib : Cpp.Process.Library S}

/-- A character as the receiver keeps it, in a `char`. -/
def narrow (c : UInt16) : Int := (c.toNat : Int).bmod (2 ^ 8)

/-- An array of characters in the receiver's memory. -/
def charArray (cs : List UInt16) : Cpp.Process.Obj S := .chars (cs.map narrow)

/-- An element that is stored is a character of at most eight bits. -/
def StandsForChar (_ : State S) (element : Instance) (c : UInt16) : Prop := element = .value (.char c) ∧ c.toNat ≤ 0xFF

/-! ## One character -/

/-- A character of seven bits stays as it is, any other of eight bits becomes negative. -/
theorem narrow_eq {c : UInt16} (h : c.toNat ≤ 0xFF) :
    narrow c = if c.toNat ≤ 0x7F then (c.toNat : Int) else (c.toNat : Int) - 256 := by
  have hmod : (c.toNat : Int) % (2 ^ 8 : Nat) = c.toNat := by omega
  unfold narrow
  rw [Int.bmod_def, hmod]
  split
  · rw [if_pos (by omega)]
  · rw [if_neg (by omega)]
    rfl

/-- A character of eight bits comes back from a `char` if and only if it has seven. -/
theorem ofInt_narrow_iff {c : UInt16} (h : c.toNat ≤ 0xFF) : UInt16.ofInt (narrow c) = c ↔ c.toNat ≤ 0x7F := by
  have htoNat : ((UInt16.ofInt (narrow c)).toNat : Int) = narrow c % 2 ^ 16 := by
    rw [UInt16.ofInt, UInt16.toNat_ofNat']
    omega
  rw [← UInt16.toNat_inj]
  constructor
  · intro heq
    by_contra hgt
    rw [heq, narrow_eq h, if_neg hgt] at htoNat
    omega
  · intro hle
    rw [narrow_eq h, if_pos hle] at htoNat
    rw [← Int.natCast_inj, narrow_eq h, if_pos hle, htoNat]
    omega

/-! ## Runs -/

variable {s₀ : State S} {l : List (ArrayEvent UInt16)} {c : ArrayClient S} {h : ArrayHandle}

/-- What was set in a run stood for an element. -/
theorem ArrayRun.stands {V : Type} {clazz : Clazz} {Stands : State S → Instance → V → Prop} {zero : V} {c₀ c : ArrayClient S}
    {l : List (ArrayEvent V)} (hrun : ArrayRun lib clazz Stands zero c₀ l c) {k i : Nat} {v : V} {returned : Instance}
    (hmem : .set k i v returned ∈ l) : ∃ s element, Stands s element v := by
  induction hrun with
  | start => cases hmem
  | make size h s _ _ ih => exact ih ((List.mem_append.mp hmem).resolve_right (by simp))
  | allocate array size h h' s _ _ _ ih => exact ih ((List.mem_append.mp hmem).resolve_right (by simp))
  | get array index h returned s _ _ _ _ ih => exact ih ((List.mem_append.mp hmem).resolve_right (by simp))
  | @set l c array index h element value returned' s _ _ _ hstands hcall ih =>
    rcases List.mem_append.mp hmem with hmem | hmem
    · exact ih hmem
    · obtain ⟨-, -, rfl, -⟩ := ArrayEvent.set.inj (List.mem_singleton.mp hmem)
      obtain ⟨s₁, -, -, hget, -⟩ := set_eq_ok.mp hcall
      exact ⟨_, _, hstands _ _ hget⟩

/-- Every character written in a run has at most eight bits. -/
theorem ArrayRun.lastWritten_le {c₀ : ArrayClient S} (hrun : ArrayRun lib .char StandsForChar 0 c₀ l c)
    {before : List (ArrayEvent UInt16)} (hbefore : ∀ e ∈ before, e ∈ l) (k i : Nat) :
    (Arrays.lastWritten 0 k i (updates before)).toNat ≤ 0xFF := by
  refine Arrays.lastWritten_of_forall (P := fun c : UInt16 => c.toNat ≤ 0xFF) (Nat.zero_le _) ?_ k i
  intro k' i' v hmem
  obtain ⟨e, he, hupdate⟩ := List.mem_filterMap.mp hmem
  cases e with
  | allocated array size => cases hupdate
  | got array index returned => cases hupdate
  | set array index value returned =>
    cases hupdate
    obtain ⟨s, element, -, hle⟩ := hrun.stands (hbefore _ he)
    exact hle

/-- `get` returns the character last stored, narrowed and widened again. -/
theorem RunInv.get_char (lib : Cpp.Process.Library S) (hi : RunInv .char charArray 0 s₀ l c) {k i : Nat}
    (hk : c.arrays[k]? = some h) (hlt : i < (Arrays.contents 0 (updates l) k).length) :
    ∃ s', h.get (sendRequest lib {}) i c.receiver =
        .ok (.value (.char (UInt16.ofInt (narrow (Arrays.lastWritten 0 k i (updates l))))), s') ∧
      s'.drawn = c.receiver.drawn ++ [c.receiver.drawId.1] ∧
      (s'.drawn.length ≤ s₀.drawn.length + 2 ^ 64 → Cpp.Process.AddsIds s₀ c.receiver s' ∧
        ∀ l', updates l' = updates l → RunInv .char charArray 0 s₀ l' { c with receiver := s' }) := by
  obtain ⟨b, hpoints, hdata⟩ := hi.array hk
  have hlt' : i < ((Arrays.contents 0 (updates l) k).map narrow).length := by
    rw [List.length_map]
    exact hlt
  obtain ⟨r, resp, s', hget, hserves⟩ := getChar_ok lib (hi.clazz h (List.mem_of_getElem? hk)) ⟨b, hpoints, hdata⟩ hlt'
  have helement : ((Arrays.contents 0 (updates l) k).map narrow)[i] = narrow (Arrays.lastWritten 0 k i (updates l)) := by
    obtain ⟨_, hlast⟩ := List.getElem?_eq_some_iff.mp (Arrays.getElem?_contents hlt)
    rw [List.getElem_map, hlast]
  rw [helement] at hget
  refine ⟨s', hget, hserves.drawn, ?_⟩
  intro hlen
  have ha := hserves.addsIds hi.counts hlen (hserves.keepsCells_same.mono (Set.subset_univ _))
  exact ⟨ha, fun l' hl => hi.grow (hserves.draw hi.counts).1 ha (hserves.heap.trans (List.append_nil _).symm) hl⟩

/-- `set` writes the character. -/
theorem RunInv.set_char (lib : Cpp.Process.Library S) (hi : RunInv .char charArray 0 s₀ l c) {k i : Nat} {element : Instance}
    {value : UInt16} (hk : c.arrays[k]? = some h) (hlt : i < (Arrays.contents 0 (updates l) k).length)
    (hstands : ∀ previous s', h.get (sendRequest lib {}) i c.receiver = .ok (previous, s') → StandsForChar s' element value)
    (hlen : c.receiver.drawn.length + 2 ≤ s₀.drawn.length + 2 ^ 64) :
    ∃ returned s', h.set (sendRequest lib {}) i element c.receiver = .ok (returned, s') ∧
      Cpp.Process.AddsIds s₀ c.receiver s' ∧
      RunInv .char charArray 0 s₀ (l ++ [.set k i value returned]) { c with receiver := s' } := by
  obtain ⟨s₁, hget, hdrawn, hrest⟩ := hi.get_char lib hk hlt
  have hlen₁ : s₁.drawn.length + 1 ≤ s₀.drawn.length + 2 ^ 64 := by
    rw [hdrawn, List.length_append, List.length_singleton]
    exact hlen
  obtain ⟨ha₁, hinv⟩ := hrest (Nat.le_of_succ_le hlen₁)
  have hi₁ := hinv l rfl
  obtain ⟨rfl, -⟩ := hstands _ _ hget
  obtain ⟨b, hpoints, hdata⟩ := hi₁.array hk
  have hlt' : i < ((Arrays.contents 0 (updates l) k).map narrow).length := by
    rw [List.length_map]
    exact hlt
  obtain ⟨r, answer, s', hset, hserves⟩ := setChar_ok lib (value.toNat : Int) (hi₁.clazz h (List.mem_of_getElem? hk)) hpoints hdata
    hlt'
  have hlen' : s'.drawn.length ≤ s₀.drawn.length + 2 ^ 64 := by
    rw [hserves.drawn, List.length_append, List.length_singleton]
    exact hlen₁
  have ha := hserves.addsIds hi₁.counts hlen' ((hserves.keepsCells_set hdata nofun).mono (Set.subset_univ _))
  refine ⟨_, s', set_eq_ok.mpr ⟨s₁, _, answer, hget, rfl, hset⟩, ha₁.trans ha, ?_⟩
  refine hi₁.write (hserves.draw hi₁.counts).1 ha hk hpoints ?_ List.filterMap_append
  rw [hserves.heap, charArray, List.map_set]
  rfl

/-- What `get` returned is the character last stored, after it was kept in a `char`. -/
def Widened (_ : State S) (before : List (ArrayEvent UInt16)) : ArrayEvent UInt16 → Prop
  | .got array index returned =>
    returned = .value (.char (UInt16.ofInt (narrow (Arrays.lastWritten 0 array index (updates before)))))
  | _ => True

/-- The calls on arrays of characters. -/
theorem elements_char (lib : Cpp.Process.Library S) (s₀ : State S) :
    Elements lib .char charArray 0 StandsForChar s₀ Widened := by
  refine ⟨?_, ?_, fun _ _ _ _ => trivial, ?_, ?_, ?_⟩
  · intro n
    have hzero : narrow 0 = 0 := by decide
    rw [charArray, List.map_replicate, hzero]
    rfl
  · intro s s' before e _ h
    cases e with
    | got array index returned => exact h
    | allocated array size => trivial
    | set array index value returned => trivial
  · intro l c k i h hi hk hlt
    obtain ⟨s', hget, -, hrest⟩ := hi.get_char lib hk hlt
    refine ⟨_, s', hget, ?_⟩
    intro hlen
    obtain ⟨ha, hinv⟩ := hrest hlen
    exact ⟨ha, hinv _ ((List.filterMap_append).trans (List.append_nil _)), rfl⟩
  · exact fun _ _ _ _ _ _ value _ _ _ hstands => ⟨value, fun _ _ _ => hstands⟩
  · intro l c k i h element value hi hk hlt hstands hlen
    obtain ⟨returned, s', hset, ha, hinv⟩ := hi.set_char lib hk hlt hstands hlen
    exact ⟨returned, s', hset, ha, hinv, trivial⟩

/-- In every run of calls on arrays of characters of at most eight bits, from any state of the receiver, that draws at most 2^64 ids: a
`get` returned the character last stored, or zero, if and only if that character is ASCII; and every further call returns. -/
theorem returns_last_iff (lib : Cpp.Process.Library S) (hrun : ArrayRun lib .char StandsForChar 0 ⟨s₀, []⟩ l c)
    (hlen : c.receiver.drawn.length ≤ s₀.drawn.length + 2 ^ 64) :
    (∀ before array index returned after, l = before ++ .got array index returned :: after →
      (returned = .value (.char (Arrays.lastWritten 0 array index (updates before))) ↔
        (Arrays.lastWritten 0 array index (updates before)).toNat ≤ 0x7F)) ∧
      (c.receiver.drawn.length + 2 ≤ s₀.drawn.length + 2 ^ 64 → CallsReturn lib .char StandsForChar 0 l c) := by
  obtain ⟨hi, -, hreturned⟩ := (elements_char lib s₀).invariant hrun hlen
  refine ⟨?_, (elements_char lib s₀).callsReturn hi⟩
  intro before array index returned after heq
  have hle := hrun.lastWritten_le (fun e he => heq ▸ List.mem_append_left _ he) array index
  rw [← ofInt_narrow_iff hle, hreturned before _ after heq]
  simp

/-- The receiver with an array of one `char`, after some ids have been drawn. -/
def withChar (data : Int) (drawn : List String) : State Unit where
  assignedIdCounter := UInt64.ofNat drawn.length
  persistence := Function.update (fun _ => none) "0" (some (some 1))
  heap := [.chars [data], .cell .charPointer (some 0)]
  drawn := drawn
  overwritten := [none]

/-- The rule at a run in which an `a` is stored and read again. -/
theorem returns_last_iff_a : ∃ (l : List (ArrayEvent UInt16)) (returned : Instance) (c : ArrayClient Unit),
    ArrayRun makesObjects .char StandsForChar 0 ⟨{}, []⟩ (l ++ [.got 0 0 returned]) c ∧ returned = .value (.char 0x61) := by
  have h₁ : ArrayRun makesObjects .char StandsForChar 0 ⟨{}, []⟩ _ ⟨withChar 0 ["0"], _⟩ := .make 1 ⟨.char, "0"⟩ _ .start rfl
  have h₂ : ArrayRun makesObjects .char StandsForChar 0 ⟨{}, []⟩ _ ⟨withChar 0x61 ["0", "1", "2"], _⟩ :=
    h₁.set 0 0 _ (.value (.char 0x61)) 0x61 (.value (.char 0)) _ rfl Nat.zero_lt_one (fun _ _ _ => ⟨rfl, by decide⟩) rfl
  have h₃ : ArrayRun makesObjects .char StandsForChar 0 ⟨{}, []⟩ _ ⟨withChar 0x61 ["0", "1", "2", "3"], _⟩ :=
    h₂.get 0 0 _ (.value (.char 0x61)) _ rfl Nat.zero_lt_one rfl
  obtain ⟨hreturned, -⟩ := returns_last_iff makesObjects h₃ (by decide)
  exact ⟨_, _, _, h₃, (hreturned _ 0 0 _ [] rfl).mpr (by decide)⟩

/-- An `é` is stored, U+00E9; what is read again is U+FFE9. -/
theorem not_returns_last : ∃ (l : List (ArrayEvent UInt16)) (returned : Instance) (c : ArrayClient Unit),
    ArrayRun makesObjects .char StandsForChar 0 ⟨{}, []⟩ (l ++ [.got 0 0 returned]) c ∧
      Arrays.lastWritten 0 0 0 (updates l) = 0xE9 ∧ returned = .value (.char 0xFFE9) ∧
      returned ≠ .value (.char (Arrays.lastWritten 0 0 0 (updates l))) := by
  have h₁ : ArrayRun makesObjects .char StandsForChar 0 ⟨{}, []⟩ _ ⟨withChar 0 ["0"], _⟩ := .make 1 ⟨.char, "0"⟩ _ .start rfl
  have h₂ : ArrayRun makesObjects .char StandsForChar 0 ⟨{}, []⟩ _ ⟨withChar (-23) ["0", "1", "2"], _⟩ :=
    h₁.set 0 0 _ (.value (.char 0xE9)) 0xE9 (.value (.char 0)) _ rfl Nat.zero_lt_one (fun _ _ _ => ⟨rfl, by decide⟩) rfl
  have h₃ : ArrayRun makesObjects .char StandsForChar 0 ⟨{}, []⟩ _ ⟨withChar (-23) ["0", "1", "2", "3"], _⟩ :=
    h₂.get 0 0 _ (.value (.char 0xFFE9)) _ rfl Nat.zero_lt_one rfl
  exact ⟨_, _, _, h₃, rfl, rfl, by decide⟩

end LibraryLink.Kotlin
