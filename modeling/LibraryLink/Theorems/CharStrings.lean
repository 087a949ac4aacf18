import LibraryLink.CharStrings
import LibraryLink.Theorems.CharArrays

/-!
# Strings as arrays of characters

What `strlen` and `toStringOfSize` make of the array that `toArrayHandle` builds. The array has no byte for a zero after the last
character, so that the scan of `strlen` stays in it only if the string itself brings the zero.
-/

namespace LibraryLink.Kotlin

open Outcome
open Cpp.Process (State Addr Leaves)

variable {S : Type} {lib : Cpp.Process.Library S} {h : ArrayHandle}

/-! ## The array -/

/-- A handle of an array of characters in the receiver's memory. -/
structure Holds (h : ArrayHandle) (data : List Int) (s : State S) : Prop where
  clazz : h.clazz = .char
  array : s.CharArray h.assignedID data

/-- What leaves the memory and the pointers as they are leaves the array as it is. -/
theorem Holds.same {data : List Int} {s s' : State S} (hh : Holds h data s) (hl : Leaves s' s.heap s.entry) : Holds h data s' := by
  obtain ⟨b, ⟨a, ha, hcell⟩, hdata⟩ := hh.array
  refine ⟨hh.clazz, b, ⟨a, (hl.entry _).trans ha, ?_⟩, ?_⟩
  · rw [hl.heap]
    exact hcell
  · rw [hl.heap]
    exact hdata

/-- `get` of an element. -/
theorem Holds.get (lib : Cpp.Process.Library S) {data : List Int} {s : State S} (hh : Holds h data s) {i : Nat} (hi : i < data.length) :
    ∃ s', h.get (sendRequest lib {}) i s = .ok (.value (.char (UInt16.ofInt data[i])), s') ∧ Holds h data s' := by
  obtain ⟨r, resp, s', hget, hserves⟩ := getChar_ok lib hh.clazz hh.array hi
  exact ⟨s', hget, hh.same hserves.toLeaves⟩

/-- `set` of an element. -/
theorem Holds.set (lib : Cpp.Process.Library S) {data : List Int} {s : State S} (hh : Holds h data s) {i : Nat} (hi : i < data.length) (c : UInt16) :
    ∃ returned s', h.set (sendRequest lib {}) i (.value (.char c)) s = .ok (returned, s') ∧
      Holds h (data.set i (narrow c)) s' := by
  obtain ⟨s₁, hget, hh₁⟩ := hh.get lib hi
  obtain ⟨b, hpoints, hdata⟩ := hh₁.array
  obtain ⟨r, answer, s', hset, hserves⟩ := setChar_ok lib (c.toNat : Int) hh₁.clazz hpoints hdata hi
  have hkeeps := hserves.keepsCells_set hdata nofun
  refine ⟨_, s', set_eq_ok.mpr ⟨s₁, _, answer, hget, rfl, hset⟩, hh.clazz, b, hkeeps.points (Set.mem_univ _) hpoints, ?_⟩
  rw [hserves.heap, List.getElem?_set_self (List.getElem?_eq_some_iff.mp hdata).1]
  rfl

/-- The loop of the constructor writes the characters one after the other over the zeros. -/
theorem Holds.setAll (lib : Cpp.Process.Library S) (s : List UInt16) : ∀ {written : List UInt16} {w : State S},
    Holds h (written.map narrow ++ List.replicate s.length 0) w →
    ∃ w', h.setAll (sendRequest lib {}) written.length (s.map fun c => .value (.char c)) w = .ok w' ∧
      Holds h ((written ++ s).map narrow) w' := by
  induction s with
  | nil =>
    intro written w hh
    refine ⟨w, rfl, ?_⟩
    rw [List.append_nil]
    exact List.append_nil (written.map narrow) ▸ hh
  | cons c s ih =>
    intro written w hh
    have hlt : written.length < (written.map narrow ++ List.replicate (s.length + 1) 0).length := by simp
    obtain ⟨returned, w₁, hset, hh₁⟩ := hh.set lib hlt c
    have hdata : (written.map narrow ++ List.replicate (s.length + 1) 0).set written.length (narrow c) =
        (written ++ [c]).map narrow ++ List.replicate s.length 0 := by
      rw [List.set_append_right _ _ (List.length_map narrow).le, List.length_map, Nat.sub_self, List.replicate_succ, List.set_cons_zero]
      simp
    rw [List.length_cons, hdata] at hh₁
    obtain ⟨w', hall, hh'⟩ := ih hh₁
    rw [List.length_append, List.length_singleton] at hall
    refine ⟨w', bind_eq_ok.mpr ⟨(returned, w₁), hset, hall⟩, ?_⟩
    rw [List.append_assoc] at hh'
    exact hh'

/-- `toArrayHandle` returns a handle of an array with the characters of the string and nothing else. -/
theorem toArrayHandle_ok (lib : Cpp.Process.Library S) (s : List UInt16) (w : State S) :
    ∃ h w', toArrayHandle (sendRequest lib {}) s w = .ok (h, w') ∧ Holds h (s.map narrow) w' := by
  obtain ⟨r, w₁, hmake, hserves⟩ := @allocate_ok _ ⟨.char, ""⟩ lib w .char rfl s.length
  have hh : Holds ⟨.char, w.drawId.1⟩ (([] : List UInt16).map narrow ++ List.replicate s.length 0) w₁ := by
    refine ⟨rfl, w.heap.length, ⟨w.heap.length + 1, ?_, ?_⟩, ?_⟩
    · rw [hserves.entry, Function.update_self]
    · rw [hserves.heap, List.getElem?_append_right (Nat.le_add_right _ 1), Nat.add_sub_cancel_left]
      rfl
    · rw [hserves.heap, List.getElem?_append_right (Nat.le_refl _), Nat.sub_self]
      rfl
  obtain ⟨w', hall, hh'⟩ := hh.setAll lib s
  refine ⟨⟨.char, w.drawId.1⟩, w', bind_eq_ok.mpr ⟨(⟨.char, w.drawId.1⟩, w₁), ?_, bind_eq_ok.mpr ⟨w', hall, rfl⟩⟩, hh'⟩
  rw [List.length_map]
  exact hmake

/-! ## Reading it -/

/-- The request of `strlen` as the receiver reads it. -/
def strlenCall (h : ArrayHandle) : Cpp.Process.MethodCallRequest := ⟨"strlen", h.assignedID, "char[]", []⟩

/-- `strlen` of an array scans it. -/
theorem serve_strlenCall (lib : Cpp.Process.Library S) {data : List Int} {s : State S} (hh : Holds h data s) :
    Cpp.Process.serve lib {} ⟨some (strlenCall h), ""⟩ s = (Cpp.Process.strlen data).map fun n =>
      (⟨s.drawId.1, some (.returnValue ((n : Int).bmod (2 ^ 32)))⟩, (s.drawId.2.lookup h.assignedID).2) := by
  have harray : s.drawId.2.CharArray h.assignedID data := hh.array
  obtain ⟨b, hb, hdata⟩ := Cpp.Process.charArray_iff.mpr harray
  show Cpp.Process.librarylinkStrlen (strlenCall h) s.drawId.2 { assignedId := s.drawId.1 } = _
  simp only [Cpp.Process.librarylinkStrlen, strlenCall, Cpp.Process.lookup_fst, Cpp.Process.lookup_heap, hb]
  show (Cpp.Process.charsAt _ b >>= _) = _
  rw [hdata]
  show (Cpp.Process.strlen data >>= _) = _
  cases Cpp.Process.strlen data <;> rfl

/-- `strlen` of an array with a zero. -/
theorem Holds.strlen_ok (lib : Cpp.Process.Library S) {data : List Int} {s : State S} (hh : Holds h data s) (hzero : 0 ∈ data) :
    ∃ s', h.strlen (sendRequest lib {}) s = .ok ((data.idxOf 0 : Int).bmod (2 ^ 32), s') ∧ Holds h data s' := by
  have hserve := serve_strlenCall lib hh
  rw [Cpp.Process.strlen, if_pos hzero] at hserve
  have hanswer : makeRequest (sendRequest lib {})
      (.methodCall { methodName := "strlen", type := "char[]", args := [], objectID := h.assignedID, doGetReturnValue := true }) s =
      .ok (.primitive (.number ((data.idxOf 0 : Int).bmod (2 ^ 32))) s.drawId.1, (s.drawId.2.lookup h.assignedID).2) :=
    makeRequest_eq_ok.mpr ⟨_, _, rfl, hserve, rfl⟩
  have hh' : Holds h data s.drawId.2 := ⟨hh.clazz, hh.array⟩
  refine ⟨(s.drawId.2.lookup h.assignedID).2, bind_eq_ok.mpr ⟨_, hanswer, ?_⟩,
    hh'.same ⟨Cpp.Process.lookup_heap _ _, Cpp.Process.lookup_entry _ _⟩⟩
  show Except.ok ((((data.idxOf 0 : Int).bmod (2 ^ 32)).bmod (2 ^ 32)), _) = _
  rw [Int.bmod_bmod]

/-- The scan of `strlen` runs past the end of an array without a zero: the receiver does not answer. -/
theorem Holds.strlen_closed (lib : Cpp.Process.Library S) {data : List Int} {s : State S} (hh : Holds h data s) (hzero : 0 ∉ data) :
    h.strlen (sendRequest lib {}) s = .error .closed := by
  have hserve := serve_strlenCall lib hh
  rw [Cpp.Process.strlen, if_neg hzero] at hserve
  have hsend : ∀ m, m.read = ⟨some (strlenCall h), ""⟩ → sendRequest lib {} m s = .error .closed := by
    intro m hm
    rw [sendRequest, hm, hserve]
    rfl
  unfold ArrayHandle.strlen makeRequest
  show (sendRequest lib {} _ s >>= _) >>= _ = _
  rw [hsend _ rfl]
  rfl

/-- `toStringOfSize` reads the elements up to the size. -/
theorem Holds.appendAll (lib : Cpp.Process.Library S) {data : List Int} : ∀ {n : Nat} {s : State S}, Holds h data s → n ≤ data.length →
    ∃ s', h.appendAll (sendRequest lib {}) n s = .ok ((data.take n).map UInt16.ofInt, s') ∧ Holds h data s' := by
  intro n
  induction n with
  | zero => exact fun hh _ => ⟨_, rfl, hh⟩
  | succ n ih =>
    intro s hh hn
    obtain ⟨s₁, hall, hh₁⟩ := ih hh (Nat.le_of_succ_le hn)
    obtain ⟨s₂, hget, hh₂⟩ := hh₁.get lib hn
    refine ⟨s₂, bind_eq_ok.mpr ⟨_, hall, bind_eq_ok.mpr ⟨_, hget, ?_⟩⟩, hh₂⟩
    rw [List.take_add_one, List.getElem?_eq_getElem hn, List.map_append]
    rfl

/-! ## A string and back -/

/-- The array of a string is built, `strlen` returns the length and `toStringOfSize` the string. A byte that the receiver reads outside of
the block has no value, so that none is. -/
def RoundTrips (lib : Cpp.Process.Library S) (s : List UInt16) (w : State S) : Prop :=
  ∃ h w₁ w₂ w₃, toArrayHandle (sendRequest lib {}) s w = .ok (h, w₁) ∧
    h.strlen (sendRequest lib {}) w₁ = .ok ((s.length : Int), w₂) ∧
    h.toStringOfSize (sendRequest lib {}) (ArrayHandle.strlen (sendRequest lib {})) w₂ = .ok (s, w₃)

/-- A string that comes back has a zero in it. -/
theorem RoundTrips.zero_mem {s : List UInt16} {w : State S} (hr : RoundTrips lib s w) : 0 ∈ s.map narrow := by
  obtain ⟨h, w₁, w₂, w₃, hmake, hstrlen, -⟩ := hr
  obtain ⟨h', w₁', hmake', hh⟩ := toArrayHandle_ok lib s w
  obtain ⟨rfl, rfl⟩ := Prod.mk.inj (Except.ok.inj (hmake'.symm.trans hmake))
  by_contra hzero
  rw [hh.strlen_closed lib hzero] at hstrlen
  cases hstrlen

/-- A character from U+0001 to U+007F -/
def Ascii (c : UInt16) : Prop := 1 ≤ c.toNat ∧ c.toNat ≤ 0x7F

/-- Such a character is kept as it is. -/
theorem Ascii.narrow_eq {c : UInt16} (hc : Ascii c) : narrow c = c.toNat :=
  (Kotlin.narrow_eq (hc.2.trans (by decide))).trans (if_pos hc.2)

/-- Such a character is no zero. -/
theorem Ascii.narrow_ne {c : UInt16} (hc : Ascii c) : narrow c ≠ 0 := by
  rw [hc.narrow_eq]
  exact Int.natCast_ne_zero.mpr (Nat.ne_of_gt hc.1)

/-- There is no zero among such characters. -/
theorem zero_notMem_narrow {s : List UInt16} (hs : ∀ c ∈ s, Ascii c) : 0 ∉ s.map narrow := by
  intro hmem
  obtain ⟨c, hc, hzero⟩ := List.mem_map.mp hmem
  exact (hs c hc).narrow_ne hzero

/-- Such characters come back from the receiver's memory. -/
theorem map_ofInt_narrow {s : List UInt16} (hs : ∀ c ∈ s, Ascii c) : (s.map narrow).map UInt16.ofInt = s := by
  rw [List.map_map]
  refine (List.map_congr_left ?_).trans (List.map_id s)
  exact fun c hc => (ofInt_narrow_iff ((hs c hc).2.trans (by decide))).mpr (hs c hc).2

/-- With a zero at its end a string comes back: `strlen` and `toStringOfSize` stop at the zero, and stay in the array. -/
theorem returns_of_terminated (lib : Cpp.Process.Library S) {s : List UInt16} (hs : ∀ c ∈ s, Ascii c) (hlen : s.length < 2 ^ 31)
    (w : State S) :
    ∃ h w₁ w₂ w₃, toArrayHandle (sendRequest lib {}) (s ++ [0]) w = .ok (h, w₁) ∧
      h.strlen (sendRequest lib {}) w₁ = .ok ((s.length : Int), w₂) ∧
      h.toStringOfSize (sendRequest lib {}) (ArrayHandle.strlen (sendRequest lib {})) w₂ = .ok (s, w₃) := by
  have hdata : (s ++ [0]).map narrow = s.map narrow ++ [0] := by
    have hnul : narrow 0 = 0 := by decide
    rw [List.map_append, List.map_singleton, hnul]
  have hidx : (((s ++ [0]).map narrow).idxOf 0 : Int).bmod (2 ^ 32) = s.length := by
    rw [hdata, List.idxOf_append_of_notMem (zero_notMem_narrow hs), List.idxOf_cons_self, List.length_map]
    exact Int.bmod_eq_of_le (by omega) (by omega)
  have hzero : 0 ∈ (s ++ [0]).map narrow := hdata ▸ List.mem_append_right _ List.mem_cons_self
  obtain ⟨h, w₁, hmake, hh⟩ := toArrayHandle_ok lib (s ++ [0]) w
  obtain ⟨w₂, hstrlen, hh₂⟩ := hh.strlen_ok lib hzero
  obtain ⟨w₃, hstrlen', hh₃⟩ := hh₂.strlen_ok lib hzero
  have hle : s.length ≤ ((s ++ [0]).map narrow).length := by simp
  obtain ⟨w₄, hall, -⟩ := hh₃.appendAll lib hle
  rw [hidx] at hstrlen hstrlen'
  refine ⟨h, w₁, w₂, w₄, hmake, hstrlen, bind_eq_ok.mpr ⟨_, hstrlen', ?_⟩⟩
  rw [if_neg (Int.not_lt.mpr (Int.natCast_nonneg _))]
  rw [hdata, List.take_left' (List.length_map narrow), map_ofInt_narrow hs] at hall
  exact hall

/-- No string of characters from U+0001 to U+007F comes back: its array is built, and `strlen` reads past the end of it. -/
theorem not_roundTrips (lib : Cpp.Process.Library S) {s : List UInt16} (hs : ∀ c ∈ s, Ascii c) (w : State S) :
    ¬RoundTrips lib s w ∧ ∃ h w₁, toArrayHandle (sendRequest lib {}) s w = .ok (h, w₁) ∧
      Cpp.Process.serve lib {} ⟨some (strlenCall h), ""⟩ w₁ = .error .undefined := by
  obtain ⟨h, w₁, hmake, hh⟩ := toArrayHandle_ok lib s w
  have hzero := zero_notMem_narrow hs
  refine ⟨fun hr => hzero hr.zero_mem, h, w₁, hmake, ?_⟩
  rw [serve_strlenCall lib hh, Cpp.Process.strlen, if_neg hzero]
  rfl

/-- The rule at a string of two characters, and a receiver that has just started. -/
theorem not_roundTrips_ab : ¬RoundTrips makesObjects [0x61, 0x62] {} ∧
    ∃ h w₁, toArrayHandle (sendRequest makesObjects {}) [0x61, 0x62] {} = .ok (h, w₁) ∧
      Cpp.Process.serve makesObjects {} ⟨some (strlenCall h), ""⟩ w₁ = .error .undefined :=
  not_roundTrips makesObjects (by simp [Ascii]) {}

/-- The string `a` does not come back from a receiver that has just started. -/
theorem not_roundTrips_a : ¬RoundTrips makesObjects [0x61] {} := by
  intro hr
  exact absurd hr.zero_mem (by decide)

end LibraryLink.Kotlin
