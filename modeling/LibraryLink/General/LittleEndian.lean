import Mathlib.Algebra.Order.Ring.Nat
import Mathlib.Tactic.Ring

/-!
# Little-endian numbers

A number as a fixed count of bytes, least significant first. Besides the round trip, the module says what is left of a number
when only some of its bytes are read and the others read as zero (`decode_take_encode`), and that a number read behind at
least one zero byte is never the number written, unless both are zero (`decode_shifted_eq_self`).
-/

namespace LittleEndian

/-- The `w` low bytes of `n`, least significant first. -/
def encode : Nat → Nat → List UInt8
  | 0, _ => []
  | w + 1, n => UInt8.ofNat n :: encode w (n / 256)

/-- The number that a list of bytes holds, least significant first. -/
def decode : List UInt8 → Nat
  | [] => 0
  | b :: bs => b.toNat + 256 * decode bs

@[simp] theorem encode_zero_width (n : Nat) : encode 0 n = [] := rfl

@[simp] theorem decode_nil : decode [] = 0 := rfl

@[simp] theorem length_encode (w n : Nat) : (encode w n).length = w := by
  induction w generalizing n with
  | zero => rfl
  | succ w ih => simp [encode, ih]

/-- Decoding gives the number back, up to what the width holds. -/
theorem decode_encode (w n : Nat) : decode (encode w n) = n % 256 ^ w := by
  induction w generalizing n with
  | zero => simp [Nat.mod_one]
  | succ w ih =>
    have hp : 256 ^ (w + 1) = 256 * 256 ^ w := pow_succ' 256 w
    rw [encode, decode, ih, UInt8.toNat_ofNat', hp, Nat.mod_mul]

/-- Decoding gives back a number that fits the width. -/
theorem decode_encode_of_lt {w n : Nat} (h : n < 256 ^ w) : decode (encode w n) = n := by
  rw [decode_encode, Nat.mod_eq_of_lt h]

/-- The bytes of the number that a list of bytes holds are these bytes. -/
theorem encode_decode (bs : List UInt8) : encode bs.length (decode bs) = bs := by
  induction bs with
  | nil => rfl
  | cons b bs ih =>
    have hb : b.toNat < 256 := b.toNat_lt
    have hdiv : (b.toNat + 256 * decode bs) / 256 = decode bs := by omega
    have hmod : UInt8.ofNat (b.toNat + 256 * decode bs) = b := by
      refine UInt8.toNat_inj.mp ?_
      rw [UInt8.toNat_ofNat']
      omega
    rw [List.length_cons, encode, decode, hdiv, ih, hmod]

/-- The bytes of a concatenation: the second part counts above the first. -/
theorem decode_append (xs ys : List UInt8) : decode (xs ++ ys) = decode xs + 256 ^ xs.length * decode ys := by
  induction xs with
  | nil => simp
  | cons x xs ih =>
    rw [List.cons_append, decode, decode, ih, List.length_cons, pow_succ]
    ring

/-- Zero bytes hold zero. -/
@[simp] theorem decode_replicate_zero (k : Nat) : decode (List.replicate k 0) = 0 := by
  induction k with
  | zero => rfl
  | succ k ih => simp [List.replicate_succ, decode, ih]

/-- Zero bytes after the bytes of a number do not change it: a zeroed buffer that is filled only in part reads the same. -/
@[simp] theorem decode_append_zeros (xs : List UInt8) (k : Nat) : decode (xs ++ List.replicate k 0) = decode xs := by
  simp [decode_append]

/-- The first `j` bytes of a number are the number at width `j`. -/
theorem take_encode (w n j : Nat) : (encode w n).take j = encode (min j w) n := by
  induction w generalizing n j with
  | zero => simp
  | succ w ih =>
    cases j with
    | zero => simp
    | succ j => rw [Nat.add_min_add_right, encode, encode, List.take_succ_cons, ih]

/-- The bytes after the first `j` are those of the number shifted down. -/
theorem drop_encode (w n j : Nat) : (encode w n).drop j = encode (w - j) (n / 256 ^ j) := by
  induction w generalizing n j with
  | zero => simp
  | succ w ih =>
    cases j with
    | zero => simp
    | succ j =>
      rw [Nat.add_sub_add_right, encode, List.drop_succ_cons, ih, Nat.div_div_eq_div_mul, pow_succ']

/-- The bytes of zero are zero. -/
@[simp] theorem encode_zero (w : Nat) : encode w 0 = List.replicate w 0 := by
  induction w with
  | zero => rfl
  | succ w ih => rw [encode, Nat.zero_div, ih, List.replicate_succ]; rfl

/-- What is read of a number when only its first `j` bytes arrive. -/
theorem decode_take_encode (w n j : Nat) : decode ((encode w n).take j) = n % 256 ^ min j w := by
  rw [take_encode, decode_encode]

/-- A number divided by the powers of a base that it is a shifted remainder of is zero: `n = b ^ k * (n % b ^ s)` with
`0 < k` makes every `b ^ j`, `j ≤ s`, divide `n`. -/
theorem eq_zero_of_shifted_mod {b k s n : Nat} (hk : 0 < k) (h : n = b ^ k * (n % b ^ s)) : n = 0 := by
  have key : ∀ j, j ≤ s → b ^ j ∣ n := by
    intro j
    induction j with
    | zero => intro _; simp
    | succ j ih =>
      intro hj
      have hm : b ^ j ∣ n % b ^ s := (Nat.dvd_mod_iff (pow_dvd_pow b (by omega))).mpr (ih (by omega))
      rw [h]
      calc b ^ (j + 1) ∣ b ^ (k + j) := pow_dvd_pow b (by omega)
        _ = b ^ k * b ^ j := pow_add b k j
        _ ∣ b ^ k * (n % b ^ s) := Nat.mul_dvd_mul_left _ hm
  rw [h, Nat.mod_eq_zero_of_dvd (key s (Nat.le_refl s)), Nat.mul_zero]

/-- A number read one or more zero bytes too early is not the number that was written, unless it is zero. -/
theorem decode_shifted_eq_self {w n k t : Nat} (hk : 0 < k)
    (h : decode ((List.replicate k 0 ++ encode w n).take t) = n) : n = 0 := by
  rw [List.take_append, List.take_replicate, decode_append, decode_replicate_zero, List.length_replicate,
    List.length_replicate, decode_take_encode, Nat.zero_add] at h
  by_cases ht : t ≤ k
  · simpa [Nat.sub_eq_zero_of_le ht, Nat.mod_one] using h.symm
  · rw [Nat.min_eq_right (by omega)] at h
    exact eq_zero_of_shifted_mod hk h.symm

end LittleEndian
