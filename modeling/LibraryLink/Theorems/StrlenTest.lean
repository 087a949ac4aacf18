import LibraryLink.Theorems.CharStrings

/-!
# The length of a string, found by the client

`strlen_test` looks for the zero itself, with one request for each character, where `strlen` leaves it to the receiver. It returns what
`strlen` returns, for strings of at most a hundred characters; where there is no zero in reach it throws, unless the array ends
before: then it makes the receiver read outside of it, as `strlen` does.
-/

namespace LibraryLink.Kotlin

open Outcome
open Cpp.Process (State)

variable {S : Type} {h : ArrayHandle}

/-- An element outside of the array: the receiver does not answer. -/
theorem Holds.get_closed (lib : Cpp.Process.Library S) {data : List Int} {s : State S} (hh : Holds h data s) {i : Nat}
    (hi : data.length ≤ i) : h.get (sendRequest lib {}) i s = .error .closed := by
  let call : Cpp.Process.MethodCallRequest := ⟨"get<char>", h.assignedID, "Char[]", [⟨.inplace, .int i⟩]⟩
  have hfault : ∀ resp, ∃ e, Cpp.Process.librarylinkGetChar call s.drawId.2 resp = .error e := by
    intro resp
    cases hrun : Cpp.Process.librarylinkGetChar call s.drawId.2 resp with
    | error e => exact ⟨e, rfl⟩
    | ok out =>
      obtain ⟨-, data', ⟨b', ⟨a', ha', hcell'⟩, hdata'⟩, hrange⟩ := Cpp.Process.getChar_succeeds_iff.mp ⟨out, hrun⟩
      obtain ⟨b, ⟨a, ha, hcell⟩, hdata⟩ := hh.array
      obtain rfl : a' = a := Option.some.inj (ha'.symm.trans ha)
      obtain ⟨-, hb⟩ := Cpp.Process.Obj.cell.inj (Option.some.inj (hcell'.symm.trans hcell))
      obtain rfl := Option.some.inj hb
      obtain rfl := Cpp.Process.Obj.chars.inj (Option.some.inj (hdata'.symm.trans hdata))
      have hlt : (i : Int) < data'.length := hrange.2
      omega
  obtain ⟨e, hfault⟩ := hfault ⟨s.drawId.1, none⟩
  have hserve : Cpp.Process.serve lib {} ⟨some call, ""⟩ s = .error e := hfault
  have hsend : ∀ m : Exchange.Request, m.read = ⟨some call, ""⟩ → sendRequest lib {} m s = .error .closed := by
    intro m hm
    rw [sendRequest, hm, hserve]
  unfold ArrayHandle.get makeRequest
  rw [hh.clazz]
  show (sendRequest lib {} _ s >>= _) >>= _ = _
  rw [hsend _ rfl]
  rfl

/-- A character is zero exactly when its sixteen bits in Kotlin are. -/
theorem ofInt_eq_zero_iff {n : Int} (hlo : -128 ≤ n) (hhi : n < 128) : UInt16.ofInt n = 0 ↔ n = 0 := by
  constructor
  · intro h
    have htoNat := congrArg UInt16.toNat h
    rw [UInt16.ofInt, UInt16.toNat_ofNat'] at htoNat
    have hzero : (n % 2 ^ 16).toNat % 2 ^ 16 = 0 := htoNat
    omega
  · rintro rfl
    rfl

/-- The elements are values of `char`. -/
def Chars (data : List Int) : Prop := ∀ n ∈ data, -128 ≤ n ∧ n < 128

/-- One round at an element that is not zero goes on. -/
theorem Holds.strlenFrom_next (lib : Cpp.Process.Library S) {data : List Int} {s : State S} (hh : Holds h data s) (hchars : Chars data)
    {i : Nat} (hi : i < data.length) (hne : data[i] ≠ 0) (rounds : Nat) :
    ∃ s', Holds h data s' ∧
      h.strlenFrom (sendRequest lib {}) (rounds + 1) i s = h.strlenFrom (sendRequest lib {}) rounds (i + 1) s' := by
  obtain ⟨s', hget, hh'⟩ := hh.get lib hi
  obtain ⟨hlo, hhi⟩ := hchars _ (List.getElem_mem hi)
  refine ⟨s', hh', ?_⟩
  rw [ArrayHandle.strlenFrom, hget]
  show (if UInt16.ofInt data[i] = 0 then _ else _) = _
  rw [if_neg fun hzero => hne ((ofInt_eq_zero_iff hlo hhi).mp hzero)]

/-- The loop stops at the first zero from an index on, if there is one in its reach. -/
theorem Holds.strlenFrom_ok (lib : Cpp.Process.Library S) {data : List Int} (hchars : Chars data) :
    ∀ {rounds i : Nat} {s : State S}, Holds h data s → 0 ∈ (data.drop i).take rounds →
      ∃ s', h.strlenFrom (sendRequest lib {}) rounds i s = .ok (((i + (data.drop i).idxOf 0 : Nat) : Int), s') := by
  intro rounds
  induction rounds with
  | zero =>
    intro i s _ hzero
    cases hzero
  | succ rounds ih =>
    intro i s hh hzero
    have hi : i < data.length := by
      by_contra hge
      rw [List.drop_eq_nil_of_le (Nat.le_of_not_lt hge)] at hzero
      cases hzero
    rw [List.drop_eq_getElem_cons hi] at hzero ⊢
    by_cases hne : data[i] = 0
    · obtain ⟨s', hget, -⟩ := hh.get lib hi
      refine ⟨s', ?_⟩
      rw [ArrayHandle.strlenFrom, hget, hne, List.idxOf_cons_self]
      rfl
    · obtain ⟨s', hh', hnext⟩ := hh.strlenFrom_next lib hchars hi hne rounds
      rw [List.take_succ_cons] at hzero
      obtain ⟨s'', hrun⟩ := ih hh' ((List.mem_cons.mp hzero).resolve_left (Ne.symm hne))
      refine ⟨s'', ?_⟩
      rw [hnext, hrun, List.idxOf_cons_ne _ hne, Nat.succ_eq_add_one, Nat.add_right_comm, Nat.add_assoc]

/-- Without a zero in its reach the loop throws, if the array is long enough. -/
theorem Holds.strlenFrom_illegalArgument (lib : Cpp.Process.Library S) {data : List Int} (hchars : Chars data) :
    ∀ {rounds i : Nat} {s : State S}, Holds h data s → 0 ∉ (data.drop i).take rounds → i + rounds ≤ data.length →
      h.strlenFrom (sendRequest lib {}) rounds i s = .error .illegalArgument := by
  intro rounds
  induction rounds with
  | zero => exact fun _ _ _ => rfl
  | succ rounds ih =>
    intro i s hh hzero hlen
    have hi : i < data.length := by omega
    rw [List.drop_eq_getElem_cons hi, List.take_succ_cons, List.mem_cons, not_or] at hzero
    obtain ⟨s', hh', hnext⟩ := hh.strlenFrom_next lib hchars hi (Ne.symm hzero.1) rounds
    rw [hnext]
    exact ih hh' hzero.2 (by omega)

/-- In an array without a zero that ends before the loop does the receiver reads outside of the array. -/
theorem Holds.strlenFrom_closed (lib : Cpp.Process.Library S) {data : List Int} (hchars : Chars data) :
    ∀ {rounds i : Nat} {s : State S}, Holds h data s → 0 ∉ data.drop i → i ≤ data.length → data.length < i + rounds →
      h.strlenFrom (sendRequest lib {}) rounds i s = .error .closed := by
  intro rounds
  induction rounds with
  | zero =>
    intro i s _ _ hle hlen
    omega
  | succ rounds ih =>
    intro i s hh hzero hle hlen
    rcases Nat.lt_or_eq_of_le hle with hi | rfl
    · rw [List.drop_eq_getElem_cons hi, List.mem_cons, not_or] at hzero
      obtain ⟨s', hh', hnext⟩ := hh.strlenFrom_next lib hchars hi (Ne.symm hzero.1) rounds
      rw [hnext]
      exact ih hh' hzero.2 hi (by omega)
    · rw [ArrayHandle.strlenFrom, hh.get_closed lib (Nat.le_refl _)]
      rfl

/-- The zero is in reach exactly where the index that `strlen` finds is. -/
theorem mem_take_iff {data : List Int} (hzero : 0 ∈ data) (n : Nat) : 0 ∈ data.take n ↔ data.idxOf 0 < n :=
  List.mem_take_iff_idxOf_lt hzero

/-- `strlen` of an array with a zero returns its index and nothing else. -/
theorem Holds.strlen_iff (lib : Cpp.Process.Library S) {data : List Int} {s : State S} (hh : Holds h data s)
    (hlen : data.length < 2 ^ 31) (n : Int) :
    (∃ s', h.strlen (sendRequest lib {}) s = .ok (n, s')) ↔ 0 ∈ data ∧ n = data.idxOf 0 := by
  by_cases hzero : 0 ∈ data
  · obtain ⟨s', hrun, -⟩ := hh.strlen_ok lib hzero
    have hlt := List.idxOf_lt_length_of_mem hzero
    have hidx : (data.idxOf 0 : Int).bmod (2 ^ 32) = data.idxOf 0 := Int.bmod_eq_of_le (by omega) (by omega)
    rw [hidx] at hrun
    constructor
    · rintro ⟨s'', hrun'⟩
      exact ⟨hzero, (Prod.mk.inj (Except.ok.inj (hrun'.symm.trans hrun))).1⟩
    · rintro ⟨-, rfl⟩
      exact ⟨s', hrun⟩
  · rw [hh.strlen_closed lib hzero]
    constructor
    · rintro ⟨s', hrun⟩
      cases hrun
    · exact fun hn => absurd hn.1 hzero

/-- What `strlen_test` does: it returns the index of the first zero in reach, throws, or does not get an answer. -/
theorem Holds.strlenTest_cases (lib : Cpp.Process.Library S) {data : List Int} {s : State S} (hh : Holds h data s)
    (hchars : Chars data) :
    (0 ∈ data ∧ data.idxOf 0 < 101 ∧ ∃ s', h.strlenTest (sendRequest lib {}) s = .ok ((data.idxOf 0 : Int), s')) ∨
      (0 ∉ data.take 101 ∧ 100 < data.length ∧ h.strlenTest (sendRequest lib {}) s = .error .illegalArgument) ∨
      0 ∉ data ∧ data.length ≤ 100 ∧ h.strlenTest (sendRequest lib {}) s = .error .closed := by
  by_cases hzero : 0 ∈ data.take 101
  · have hmem := List.mem_of_mem_take hzero
    obtain ⟨s', hrun⟩ := hh.strlenFrom_ok lib hchars (i := 0) (by simpa using hzero)
    refine Or.inl ⟨hmem, (mem_take_iff hmem 101).mp hzero, s', ?_⟩
    rw [Nat.zero_add] at hrun
    exact hrun
  · by_cases hlen : 100 < data.length
    · exact Or.inr (Or.inl ⟨hzero, hlen, hh.strlenFrom_illegalArgument lib hchars hzero (by omega)⟩)
    · rw [List.take_of_length_le (by omega)] at hzero
      exact Or.inr (Or.inr ⟨hzero, Nat.le_of_not_lt hlen,
        hh.strlenFrom_closed lib hchars hzero (Nat.zero_le _) (by omega)⟩)

/-- For every array of characters that a handle has in the receiver's memory, of fewer than 2^31 characters: `strlen_test` returns a
length exactly when `strlen` returns it and it is at most 100; where it does not return, it throws `IllegalArgumentException` if the
array has more than a hundred characters, and otherwise the receiver stops, as it does for `strlen`. -/
theorem strlenTest_eq_strlen (lib : Cpp.Process.Library S) {data : List Int} {s : State S} (hh : Holds h data s) (hchars : Chars data)
    (hlen : data.length < 2 ^ 31) :
    (∀ n : Int, (∃ s', h.strlenTest (sendRequest lib {}) s = .ok (n, s')) ↔
      n ≤ 100 ∧ ∃ s', h.strlen (sendRequest lib {}) s = .ok (n, s')) ∧
    ((∀ n s', h.strlenTest (sendRequest lib {}) s ≠ .ok (n, s')) →
      if 100 < data.length then h.strlenTest (sendRequest lib {}) s = .error .illegalArgument
      else h.strlenTest (sendRequest lib {}) s = .error .closed ∧ h.strlen (sendRequest lib {}) s = .error .closed) := by
  rcases hh.strlenTest_cases lib hchars with ⟨hzero, hlt, s', hrun⟩ | ⟨hzero, hlong, hrun⟩ | ⟨hzero, hshort, hrun⟩
  · refine ⟨fun n => ?_, fun hnot => absurd hrun (hnot _ _)⟩
    rw [hh.strlen_iff lib hlen]
    constructor
    · rintro ⟨s'', hrun'⟩
      obtain rfl := (Prod.mk.inj (Except.ok.inj (hrun.symm.trans hrun'))).1
      exact ⟨by omega, hzero, rfl⟩
    · rintro ⟨-, -, rfl⟩
      exact ⟨s', hrun⟩
  · rw [hrun, if_pos hlong]
    refine ⟨fun n => ?_, fun _ => rfl⟩
    rw [hh.strlen_iff lib hlen]
    constructor
    · rintro ⟨s', hrun'⟩
      cases hrun'
    · rintro ⟨hle, hmem, rfl⟩
      exact absurd ((mem_take_iff hmem 101).mpr (by omega)) hzero
  · rw [hrun, if_neg (Nat.not_lt.mpr hshort)]
    refine ⟨fun n => ?_, fun _ => ⟨rfl, hh.strlen_closed lib hzero⟩⟩
    rw [hh.strlen_iff lib hlen]
    constructor
    · rintro ⟨s', hrun'⟩
      cases hrun'
    · exact fun hn => absurd hn.2.1 hzero

/-- The rule at the array of two characters and a zero that `toArrayHandle` makes in a receiver that has just started. -/
theorem strlenTest_eq_strlen_terminated : ∃ (h : ArrayHandle) (w : State Unit),
    toArrayHandle (sendRequest makesObjects {}) [0x61, 0x62, 0] {} = .ok (h, w) ∧
      ∀ n : Int, (∃ s', h.strlenTest (sendRequest makesObjects {}) w = .ok (n, s')) ↔
        n ≤ 100 ∧ ∃ s', h.strlen (sendRequest makesObjects {}) w = .ok (n, s') := by
  obtain ⟨h, w, hmake, hh⟩ := toArrayHandle_ok makesObjects [0x61, 0x62, 0] {}
  have hchars : Chars (([0x61, 0x62, 0] : List UInt16).map narrow) := by
    have hdata : ([0x61, 0x62, 0] : List UInt16).map narrow = [97, 98, 0] := by decide
    rw [hdata]
    simp [Chars]
  exact ⟨h, w, hmake, (strlenTest_eq_strlen makesObjects hh hchars (by decide)).1⟩

end LibraryLink.Kotlin
