import LibraryLink.GoMessages
import LibraryLink.General.Outcome

/-!
# Helpers for the messages of the Go receiver: what `skipExchange` takes from a slice

A number, a field and a group are read to their end and no further, so what comes behind them makes no difference. Groups in groups take
one call of `skipExchange` each, and a slice of `n` bytes never more than `n`.
-/

namespace LibraryLink.Go

open Outcome

variable {calls : Nat}

/-! ## Numbers -/

/-- A number is read from its own bytes. -/
theorem varintLoop_prefix {value shift : Nat} {dAtA : List UInt8} {p : Nat × List UInt8} (h : varintLoop value shift dAtA = .ok p) :
    ∃ bytes, bytes ≠ [] ∧ dAtA = bytes ++ p.2 ∧ ∀ rest, varintLoop value shift (bytes ++ rest) = .ok (p.1, rest) := by
  induction dAtA generalizing value shift with
  | nil =>
    unfold varintLoop at h
    split at h <;> cases h
  | cons b dAtA ih =>
    simp only [varintLoop] at h
    split at h
    · cases h
    · rename_i hshift
      split at h
      · rename_i hlast
        cases h
        refine ⟨[b], List.cons_ne_nil _ _, rfl, fun rest => ?_⟩
        simp [varintLoop, hshift, hlast]
      · rename_i hmore
        obtain ⟨bytes, -, rfl, hbytes⟩ := ih h
        refine ⟨b :: bytes, List.cons_ne_nil _ _, rfl, fun rest => ?_⟩
        simp only [List.cons_append, varintLoop, if_neg hshift, if_neg hmore]
        exact hbytes rest

theorem readVarint_prefix {dAtA : List UInt8} {p : Nat × List UInt8} (h : readVarint dAtA = .ok p) :
    ∃ bytes, bytes ≠ [] ∧ dAtA = bytes ++ p.2 ∧ ∀ rest, readVarint (bytes ++ rest) = .ok (p.1, rest) :=
  varintLoop_prefix h

theorem varintLoop_length {value shift : Nat} {dAtA : List UInt8} {p : Nat × List UInt8} (h : varintLoop value shift dAtA = .ok p) :
    p.2.length < dAtA.length := by
  obtain ⟨bytes, hne, rfl, -⟩ := varintLoop_prefix h
  rw [List.length_append]
  exact Nat.lt_add_of_pos_left (List.length_pos_iff.mpr hne)

/-- A number is read where what is behind it is cut off. -/
theorem readVarint_cut {dAtA : List UInt8} {p : Nat × List UInt8} (h : readVarint dAtA = .ok p) {n : Nat}
    (hin : dAtA.length - p.2.length ≤ n) (rest : List UInt8) :
    readVarint (dAtA.take n ++ rest) = .ok (p.1, p.2.take (n - (dAtA.length - p.2.length)) ++ rest) := by
  obtain ⟨number, -, hsplit, hread⟩ := readVarint_prefix h
  rw [hsplit, List.length_append, Nat.add_sub_cancel] at hin ⊢
  rw [List.take_append, List.take_of_length_le hin, List.append_assoc]
  exact hread _

/-! ## Groups -/

/-- Where a field ends, behind its key; an index that overflowed is far below zero. -/
def EndsAt (dAtA : List UInt8) (n : Int) : Prop :=
  ∃ p, readVarint dAtA = .ok p ∧ ((dAtA.length - p.2.length : Nat) ≤ n ∧ n < 2 ^ 63 ∨ -2 ^ 63 ≤ n ∧ n < -2 ^ 62)

/-- A function skips a field, and does not look behind its end. -/
structure SkipsField (skip : List UInt8 → Except Failure Int) : Prop where
  ends : ∀ {dAtA : List UInt8} {n : Int}, dAtA.length < 2 ^ 62 → skip dAtA = .ok n → EndsAt dAtA n
  whole : ∀ {dAtA : List UInt8} {n : Nat}, dAtA.length < 2 ^ 62 → skip dAtA = .ok n → n ≤ dAtA.length →
    ∀ rest, skip (dAtA.take n ++ rest) = .ok n

/-- The next index in a group, where it is one. -/
theorem add_bmod {start next : Int} (hstart : 0 ≤ start ∧ start < 2 ^ 62) (hlo : -2 ^ 63 ≤ next) (hhi : next < 2 ^ 63)
    (hnext : 0 ≤ next ∨ next < -2 ^ 62) (h : 0 ≤ (start + next).bmod (2 ^ 64)) :
    0 ≤ next ∧ (start + next).bmod (2 ^ 64) = start + next := by
  rw [Int.bmod_def] at h ⊢
  split at h <;> split <;> omega

/-- The end of a string, where it is an index. -/
theorem eq_of_add_bmod {index n : Nat} {length : Int} (hindex : index < 2 ^ 62) (hlength : 0 ≤ length ∧ length < 2 ^ 63)
    (h : (index + length).bmod (2 ^ 64) = n) : (n : Int) = index + length := by
  rw [Int.bmod_def] at h
  split at h <;> omega

/-- A field that is skipped in the middle of a slice is skipped where the slice is cut behind it. -/
theorem SkipsField.cut {skip : List UInt8 → Except Failure Int} (h : SkipsField skip) {dAtA : List UInt8} {k next m : Nat}
    (hlength : dAtA.length < 2 ^ 62) (hnext : skip (dAtA.drop k) = .ok next) (hin : k + next ≤ m) (hle : m ≤ dAtA.length)
    (rest : List UInt8) : skip ((dAtA.take m ++ rest).drop k) = .ok next := by
  have hfield : (dAtA.drop k).take next ++ ((dAtA.drop k).take (m - k)).drop next = (dAtA.drop k).take (m - k) := by
    conv_rhs => rw [← List.take_append_drop next ((dAtA.drop k).take (m - k)), List.take_take, Nat.min_eq_left (by omega)]
  rw [List.drop_append_of_le_length (by rw [List.length_take]; omega), List.drop_take, ← hfield, List.append_assoc]
  refine h.whole ?_ hnext ?_ _ <;> rw [List.length_drop] <;> omega

/-- A group ends in the slice, behind where its loop stands. -/
theorem skipGroup_whole {skip : List UInt8 → Except Failure Int} (hskip : SkipsField skip) {dAtA : List UInt8}
    (hlength : dAtA.length < 2 ^ 62) {passes : Nat} {start n : Int} (h : skipGroup skip dAtA passes start = .ok n) :
    ∃ m : Nat, n = m ∧ 0 ≤ start ∧ start < m ∧ m ≤ dAtA.length ∧
      ∀ (rest : List UInt8) (passes' : Nat), m < start + passes' → skipGroup skip (dAtA.take m ++ rest) passes' start = .ok n := by
  induction passes generalizing start with
  | zero => cases h
  | succ passes ih =>
    unfold skipGroup at h
    split at h
    · cases h
    rename_i hlt
    split at h
    · cases h
    rename_i hneg
    obtain ⟨k, rfl⟩ := Int.eq_ofNat_of_zero_le (Int.not_lt.mp hneg)
    have hk : k < dAtA.length := by omega
    obtain ⟨p, hkey, h⟩ := bind_eq_ok.mp h
    rw [Int.toNat_natCast] at hkey
    obtain ⟨key, hne, hinner, hread⟩ := readVarint_prefix hkey
    have hpos := List.length_pos_iff.mpr hne
    have hsize : key.length + p.2.length = dAtA.length - k := by rw [← List.length_append, ← hinner, List.length_drop]
    -- the key, where the slice is cut off behind it
    have hcut : ∀ (m : Nat) (rest : List UInt8), k + key.length ≤ m → m ≤ dAtA.length →
        readVarint ((dAtA.take m ++ rest).drop k) = .ok (p.1, p.2.take (m - k - key.length) ++ rest) := by
      intro m rest hm hle
      rw [List.drop_append_of_le_length (by rw [List.length_take]; omega), List.drop_take, hinner, List.take_append,
        List.take_of_length_le (by omega), List.append_assoc]
      exact hread _
    dsimp only at h
    split at h
    · -- the end of the group
      rename_i hend
      obtain rfl := Except.ok.inj h
      refine ⟨k + key.length, by omega, by omega, by omega, by omega, fun rest passes' hpasses => ?_⟩
      obtain ⟨passes', rfl⟩ : ∃ passes'', passes' = passes'' + 1 := ⟨passes' - 1, by omega⟩
      have hlen : (dAtA.take (k + key.length) ++ rest).length = k + key.length + rest.length := by
        rw [List.length_append, List.length_take]
        omega
      unfold skipGroup
      rw [if_neg (by omega), if_neg (by omega)]
      refine bind_eq_ok.mpr ⟨_, hcut _ rest (by omega) (by omega), ?_⟩
      dsimp only
      rw [if_pos hend, hlen, List.length_append, List.length_take]
      congr 2
      omega
    · -- a field in the group
      rename_i hmore
      obtain ⟨next, hnext, h⟩ := bind_eq_ok.mp h
      rw [Int.toNat_natCast] at hnext
      obtain ⟨m, rfl, hstart, hlt', hle, hrest⟩ := ih h
      have hinnerLength : (dAtA.drop k).length < 2 ^ 62 := by
        rw [List.length_drop]
        omega
      obtain ⟨p', hkey', hends⟩ := hskip.ends hinnerLength hnext
      obtain rfl := Except.ok.inj (hkey.symm.trans hkey')
      rw [List.length_drop] at hends
      obtain ⟨hnonneg, hbmod⟩ := add_bmod ⟨by omega, by omega⟩ (by omega) (by omega) (by omega) hstart
      rw [hbmod] at hlt'
      obtain ⟨next, rfl⟩ := Int.eq_ofNat_of_zero_le hnonneg
      refine ⟨m, rfl, by omega, by omega, hle, fun rest passes' hpasses => ?_⟩
      obtain ⟨passes', rfl⟩ : ∃ passes'', passes' = passes'' + 1 := ⟨passes' - 1, by omega⟩
      have hlen : (dAtA.take m ++ rest).length = m + rest.length := by
        rw [List.length_append, List.length_take]
        omega
      unfold skipGroup
      rw [if_neg (by omega), if_neg (by omega)]
      refine bind_eq_ok.mpr ⟨_, hcut m rest (by omega) hle, ?_⟩
      dsimp only
      rw [if_neg hmore]
      refine bind_eq_ok.mpr ⟨next, hskip.cut hlength hnext (by omega) hle rest, ?_⟩
      exact hrest rest passes' (by omega)

/-! ## Fields -/

/-- A call of `skipExchange` where the key is read. -/
theorem skipExchange_succ (calls : Nat) {dAtA : List UInt8} {p : Nat × List UInt8} (h : readVarint dAtA = .ok p) :
    skipExchange (calls + 1) dAtA = (match toUint64 p.1 % 8 with
      | 0 => do
        let q ← readVarint p.2
        .ok (dAtA.length - q.2.length : Nat)
      | 1 => .ok (dAtA.length - p.2.length + 8 : Nat)
      | 2 => do
        let q ← readVarint p.2
        if toInt q.1 < 0 then .error .invalidLength
        else .ok (((dAtA.length - q.2.length : Nat) + toInt q.1 : Int).bmod (2 ^ 64))
      | 3 => skipGroup (skipExchange calls) dAtA (dAtA.length + 1) (dAtA.length - p.2.length : Nat)
      | 4 => .ok (dAtA.length - p.2.length : Nat)
      | 5 => .ok (dAtA.length - p.2.length + 4 : Nat)
      | wireType => .error (.illegalWireType wireType)) := by
  cases dAtA with
  | nil => cases h
  | cons b dAtA =>
    rw [skipExchange, h]
    · rfl
    · exact List.cons_ne_nil b dAtA

theorem skipExchange_key {calls : Nat} {dAtA : List UInt8} {n : Int} (h : skipExchange (calls + 1) dAtA = .ok n) :
    ∃ p, readVarint dAtA = .ok p := by
  cases dAtA with
  | nil => cases h
  | cons b dAtA =>
    obtain ⟨p, hkey, -⟩ := bind_eq_ok.mp h
    exact ⟨p, hkey⟩

theorem toInt_lt (n : Nat) : toInt n < 2 ^ 63 := by
  unfold toInt
  rw [Int.bmod_def]
  split <;> omega

theorem skipExchange_ends (ih : SkipsField (skipExchange calls)) {dAtA : List UInt8} {n : Int} (hlength : dAtA.length < 2 ^ 62)
    (h : skipExchange (calls + 1) dAtA = .ok n) : EndsAt dAtA n := by
  obtain ⟨p, hkey⟩ := skipExchange_key h
  refine ⟨p, hkey, ?_⟩
  obtain ⟨key, hne, rfl, -⟩ := readVarint_prefix hkey
  rw [skipExchange_succ calls hkey] at h
  rw [List.length_append] at h hlength ⊢
  split at h
  · obtain ⟨q, hnumber, h⟩ := bind_eq_ok.mp h
    obtain rfl := Except.ok.inj h
    have := varintLoop_length hnumber
    omega
  · obtain rfl := Except.ok.inj h
    omega
  · obtain ⟨q, hnumber, h⟩ := bind_eq_ok.mp h
    have := varintLoop_length hnumber
    have := toInt_lt q.1
    split at h
    · cases h
    · obtain rfl := Except.ok.inj h
      rw [Int.bmod_def]
      split <;> omega
  · obtain ⟨m, rfl, -, hstart, hle, -⟩ := skipGroup_whole ih (by rwa [List.length_append]) h
    rw [List.length_append] at hle
    omega
  · obtain rfl := Except.ok.inj h
    omega
  · obtain rfl := Except.ok.inj h
    omega
  · cases h

theorem skipExchange_whole (ih : SkipsField (skipExchange calls)) {dAtA : List UInt8} {n : Nat} (hlength : dAtA.length < 2 ^ 62)
    (h : skipExchange (calls + 1) dAtA = .ok n) (hle : n ≤ dAtA.length) (rest : List UInt8) :
    skipExchange (calls + 1) (dAtA.take n ++ rest) = .ok n := by
  obtain ⟨p, hkey, hends⟩ := skipExchange_ends ih hlength h
  obtain ⟨key, hne, rfl, hread⟩ := readVarint_prefix hkey
  rw [skipExchange_succ calls hkey] at h
  have hlength' : key.length + p.2.length < 2 ^ 62 := by rwa [← List.length_append]
  rw [List.length_append] at hends hle
  have htake : (key ++ p.2).take n ++ rest = key ++ (p.2.take (n - key.length) ++ rest) := by
    rw [List.take_append, List.take_of_length_le (by omega), List.append_assoc]
  have hpart : (p.2.take (n - key.length)).length = n - key.length := by
    rw [List.length_take]
    omega
  rw [htake, skipExchange_succ calls (hread _)]
  simp only [List.length_append, hpart, -Nat.reducePow] at h ⊢
  split at h <;> rename_i hwire
  · obtain ⟨q, hq, h⟩ := bind_eq_ok.mp h
    have hlt := varintLoop_length hq
    have hn := Except.ok.inj h
    refine bind_eq_ok.mpr ⟨_, readVarint_cut hq (by omega) rest, ?_⟩
    simp only [List.length_append, List.length_take]
    exact congrArg Except.ok (by omega)
  · have hn := Except.ok.inj h
    exact congrArg Except.ok (by omega)
  · obtain ⟨q, hq, h⟩ := bind_eq_ok.mp h
    have hlt := varintLoop_length hq
    have hint := toInt_lt q.1
    have hsmall : key.length + p.2.length - q.2.length < 2 ^ 62 := by omega
    split at h
    · cases h
    · have hn := Except.ok.inj h
      rename_i hnonneg
      have hend := eq_of_add_bmod hsmall ⟨Int.not_lt.mp hnonneg, hint⟩ hn
      have hin : p.2.length - q.2.length ≤ n - key.length := by
        clear hn
        omega
      refine bind_eq_ok.mpr ⟨_, readVarint_cut hq hin rest, ?_⟩
      have hindex : key.length + (n - key.length + rest.length) -
          (q.2.take (n - key.length - (p.2.length - q.2.length)) ++ rest).length = key.length + p.2.length - q.2.length := by
        rw [List.length_append, List.length_take]
        clear hn
        omega
      dsimp only
      rw [if_neg hnonneg, hindex, hn]
  · obtain ⟨m, hm, -, hstart, -, hgroup⟩ := skipGroup_whole ih hlength h
    obtain rfl := Int.ofNat.inj hm
    have hsame := hgroup rest (key.length + (n - key.length + rest.length) + 1) (by omega)
    rw [htake, Nat.add_sub_cancel] at hsame
    rwa [Nat.add_sub_cancel]
  · have hn := Except.ok.inj h
    exact congrArg Except.ok (by omega)
  · have hn := Except.ok.inj h
    exact congrArg Except.ok (by omega)
  · cases h

/-- `skipExchange` skips a field, whatever stack there is left. -/
theorem skipsField_skipExchange (calls : Nat) : SkipsField (skipExchange calls) := by
  induction calls with
  | zero => exact ⟨nofun, nofun⟩
  | succ calls ih => exact ⟨skipExchange_ends ih, skipExchange_whole ih⟩

/-! ## What groups take of the stack -/

theorem readVarint_group (rest : List UInt8) : readVarint (0x43 :: rest) = .ok (0x43, rest) := by
  simp [readVarint, varintLoop]

/-- Groups that are opened one in another take a call each. -/
theorem skipExchange_groups {calls n : Nat} (h : calls < n) : skipExchange calls (List.replicate n 0x43) = .error .stackOverflow := by
  induction calls generalizing n with
  | zero => rfl
  | succ calls ih =>
    obtain ⟨n, rfl⟩ : ∃ m, n = m + 1 := ⟨n - 1, by omega⟩
    have hkey : readVarint (List.replicate (n + 1) 0x43) = .ok (0x43, List.replicate n 0x43) := readVarint_group _
    have hinner : readVarint (List.replicate n 0x43) = .ok (0x43, List.replicate (n - 1) 0x43) := by
      obtain ⟨n, rfl⟩ : ∃ m, n = m + 1 := ⟨n - 1, by omega⟩
      exact readVarint_group _
    have hdrop : (List.replicate (n + 1) (0x43 : UInt8)).drop ((1 : Nat) : Int).toNat = List.replicate n 0x43 := rfl
    rw [skipExchange_succ calls hkey]
    simp only [List.length_replicate, Nat.add_sub_cancel_left]
    show skipGroup _ _ (n + 1 + 1) _ = _
    unfold skipGroup
    rw [List.length_replicate, if_neg (by omega), if_neg (by omega), hdrop]
    dsimp only
    rw [hinner]
    show (if _ then _ else _) = _
    rw [if_neg (show ¬toUint64 0x43 % 8 = 4 by decide), ih (by omega)]
    rfl

end LibraryLink.Go
