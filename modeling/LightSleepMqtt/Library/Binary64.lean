import Mathlib.Data.Int.Log
import Mathlib.Data.Rat.Floor
import Mathlib.Tactic.FieldSimp
import Mathlib.Tactic.NormNum
import Mathlib.Tactic.Ring

/-! The numbers of binary64 as rationals: a sign, 11 bits of exponent and 52 of fraction. `decode`
takes the exponent of the infinities for an ordinary one, and `encode` is exact where the number
has a code; others are cut off towards zero. -/
namespace Binary64
set_option autoImplicit false

/-- 2 ^ 52. -/
abbrev HIDDEN : ℕ := 4503599627370496
/-- 2 ^ 63. -/
abbrev SIGN : ℕ := 9223372036854775808

def magnitude (exponent fraction : ℕ) : ℚ :=
  if exponent = 0 then fraction * 2 ^ (-1074 : ℤ) else (HIDDEN + fraction) * 2 ^ ((exponent : ℤ) - 1075)

def decode (bits : ℕ) : ℚ :=
  let number := magnitude (bits / HIDDEN % 2048) (bits % HIDDEN)
  if bits / SIGN % 2 = 1 then -number else number

/-- The fraction with the hidden bit in front of it. -/
def significand (x : ℚ) : ℕ := ⌊|x| * 2 ^ (52 - Int.log 2 |x|)⌋₊

def encode (x : ℚ) : ℕ :=
  if x = 0 then 0
  else (if x < 0 then SIGN else 0) + (Int.log 2 |x| + 1023).toNat * HIDDEN + (significand x - HIDDEN)

theorem decode_fields {sign exponent fraction : ℕ} (hsign : sign = 0 ∨ sign = SIGN) (hexponent : exponent < 2048)
    (hfraction : fraction < HIDDEN) : decode (sign + exponent * HIDDEN + fraction) =
      if sign = SIGN then -magnitude exponent fraction else magnitude exponent fraction := by
  unfold HIDDEN SIGN at *
  have hexp : (sign + exponent * 4503599627370496 + fraction) / 4503599627370496 % 2048 = exponent := by omega
  have hfrac : (sign + exponent * 4503599627370496 + fraction) % 4503599627370496 = fraction := by omega
  rw [decode, hexp, hfrac]
  obtain rfl | rfl := hsign
  · have hbit : ¬ (0 + exponent * 4503599627370496 + fraction) / 9223372036854775808 % 2 = 1 := by omega
    exact (if_neg hbit).trans (if_neg (by decide)).symm
  · have hbit : (9223372036854775808 + exponent * 4503599627370496 + fraction) / 9223372036854775808 % 2 = 1 := by
      omega
    exact (if_pos hbit).trans (if_pos rfl).symm

/-- A whole number of up to 53 bits, shifted until the hidden bit is set. -/
theorem significand_natCast {a : ℕ} (ha : 0 < a) (hlt : a < 2 * HIDDEN) :
    Nat.log 2 a ≤ 52 ∧ HIDDEN ≤ a * 2 ^ (52 - Nat.log 2 a) ∧ a * 2 ^ (52 - Nat.log 2 a) < 2 * HIDDEN := by
  have hlog : Nat.log 2 a < 53 := Nat.log_lt_of_lt_pow ha.ne' hlt
  have hle : Nat.log 2 a ≤ 52 := Nat.le_of_lt_succ hlog
  have hlow : 2 ^ Nat.log 2 a ≤ a := Nat.pow_log_le_self 2 ha.ne'
  have hhigh : a < 2 ^ (Nat.log 2 a + 1) := Nat.lt_pow_succ_log_self (by decide) a
  have hsplit : 2 ^ Nat.log 2 a * 2 ^ (52 - Nat.log 2 a) = HIDDEN := by
    rw [← pow_add, Nat.add_sub_cancel' hle]
    rfl
  refine ⟨hle, ?_, ?_⟩
  · rw [← hsplit]
    exact Nat.mul_le_mul_right _ hlow
  · rw [← hsplit, ← mul_assoc, ← pow_succ']
    exact Nat.mul_lt_mul_of_pos_right hhigh (by positivity)

theorem magnitude_natCast {a : ℕ} (ha : 0 < a) (hlt : a < 2 * HIDDEN) :
    magnitude (Nat.log 2 a + 1023) (a * 2 ^ (52 - Nat.log 2 a) - HIDDEN) = a := by
  obtain ⟨hlog, hlow, _⟩ := significand_natCast ha hlt
  have hscale : (HIDDEN + ((a * 2 ^ (52 - Nat.log 2 a) - HIDDEN : ℕ) : ℚ)) = a * 2 ^ (52 - Nat.log 2 a) := by
    rw [← Nat.cast_add, Nat.add_sub_cancel' hlow]
    norm_cast
  have hexponent : ((52 - Nat.log 2 a : ℕ) : ℤ) + (((Nat.log 2 a + 1023 : ℕ) : ℤ) - 1075) = 0 := by
    rw [Nat.cast_sub hlog]
    push_cast
    ring
  rw [magnitude, if_neg (Nat.succ_ne_zero _), hscale, mul_assoc, ← zpow_natCast, ← zpow_add₀ (by norm_num), hexponent,
    zpow_zero, mul_one]

theorem encode_intCast {n : ℤ} (hn : n ≠ 0) (h : n.natAbs < 2 * HIDDEN) :
    encode n = (if n < 0 then SIGN else 0) + (Nat.log 2 n.natAbs + 1023) * HIDDEN +
      (n.natAbs * 2 ^ (52 - Nat.log 2 n.natAbs) - HIDDEN) := by
  obtain ⟨hlog, _⟩ := significand_natCast (Int.natAbs_pos.mpr hn) h
  have habs : |(n : ℚ)| = (n.natAbs : ℚ) := by
    rw [← Int.cast_abs, Int.abs_eq_natAbs, Int.cast_natCast]
  have hpow : (2 : ℚ) ^ (52 - (Nat.log 2 n.natAbs : ℤ)) = ((2 ^ (52 - Nat.log 2 n.natAbs) : ℕ) : ℚ) := by
    rw [← Nat.cast_ofNat (n := 52), ← Nat.cast_sub hlog, zpow_natCast]
    norm_cast
  have hsignificand : significand n = n.natAbs * 2 ^ (52 - Nat.log 2 n.natAbs) := by
    rw [significand, habs, Int.log_natCast, hpow, ← Nat.cast_mul, Nat.floor_natCast]
  have hexponent : (Int.log 2 |(n : ℚ)| + 1023).toNat = Nat.log 2 n.natAbs + 1023 := by
    rw [habs, Int.log_natCast]
    omega
  have hsign : (if (n : ℚ) < 0 then SIGN else 0) = if n < 0 then SIGN else 0 := by norm_cast
  rw [encode, if_neg (Int.cast_ne_zero.mpr hn), hsign, hexponent, hsignificand]

/-- **Whole numbers of up to 53 bits have a code.** -/
theorem decode_encode {n : ℤ} (h : n.natAbs < 2 * HIDDEN) : decode (encode n) = n := by
  by_cases hzero : n = 0
  · rw [hzero]
    norm_num [encode, decode, magnitude]
  have hpos := Int.natAbs_pos.mpr hzero
  obtain ⟨hlog, _, hhigh⟩ := significand_natCast hpos h
  rw [encode_intCast hzero h, decode_fields (by split <;> simp) (by omega) (by omega), magnitude_natCast hpos h]
  by_cases hneg : n < 0
  · rw [if_pos hneg, if_pos rfl, Nat.cast_natAbs, abs_of_neg hneg, Int.cast_neg, neg_neg]
  · rw [if_neg hneg, if_neg (by decide), Nat.cast_natAbs, abs_of_nonneg (Int.not_lt.mp hneg)]

theorem encode_lt {n : ℤ} (h : n.natAbs < 2 * HIDDEN) : encode n < 2 * SIGN := by
  by_cases hzero : n = 0
  · rw [hzero]
    decide +kernel
  obtain ⟨hlog, _, hhigh⟩ := significand_natCast (Int.natAbs_pos.mpr hzero) h
  have hsign : (if n < 0 then SIGN else 0) ≤ SIGN := by split <;> simp
  rw [encode_intCast hzero h]
  unfold HIDDEN SIGN at *
  omega

end Binary64
