import LightSleepMqtt.Http.Numbers
import LightSleepMqtt.Library.Binary64

/-! Exact arithmetic for the multipliers: `double` and `float` hold rationals. What a `double` looks
like and what becomes of a number that does not fit an `int` are left open. -/
namespace LightSleepMqtt.Http
open Config
set_option autoImplicit false

/-- A number without its decimals. -/
def truncated (x : ℚ) : ℤ := x.num.tdiv x.den

/-- The bytes of a `double`, and the conversion to `int`. -/
structure ExactNumbers where
  load : List UInt8 → ℚ
  store : ℚ → List UInt8
  store_length : ∀ x, (store x).length = 8
  load_store : ∀ n : ℤ, FitsInt n → load (store n) = n
  toInt : ℚ → ℤ
  toInt_fits : ∀ x, FitsInt (toInt x)
  toInt_truncated : ∀ x, FitsInt (truncated x) → toInt x = truncated x

namespace ExactNumbers

variable (num : ExactNumbers)

abbrev arithmetic : Arithmetic ℚ where
  ofInt n := n
  toInt := num.toInt
  add x y := x + y
  sub x y := x - y
  mul x y := x * y
  div x y := x / y

abbrev floatingPoint : FloatingPoint where
  Double := ℚ
  Float := ℚ
  double := num.arithmetic
  float := num.arithmetic
  load := num.load
  store := num.store
  store_length := num.store_length

theorem toInt_intCast {n : ℤ} (h : FitsInt n) : num.toInt n = n := by
  have htruncated : truncated n = n := by simp [truncated]
  rw [num.toInt_truncated n (htruncated.symm ▸ h), htruncated]

/-! ## Multipliers on the page and in a body -/

/-- A multiplier is passed as `int`, so that its decimals are zeros. -/
theorem ftoa_intCast {n : ℤ} (h : FitsInt n) :
    ftoa num.floatingPoint (n : ℚ) 2 = printDecimal n ++ ascii ".00" := by
  have hwhole : num.toInt n = n := num.toInt_intCast h
  have hzero : ((n : ℚ) - n) * (power 10 2 : ℤ) = ((0 : ℤ) : ℚ) := by rw [sub_self, zero_mul, Int.cast_zero]
  have hdecimal : num.toInt ((n - n) * (power 10 2 : ℤ)) = 0 := hzero ▸ num.toInt_intCast (by decide)
  have hpadded : ascii "." ++ padded 2 0 = ascii ".00" := by decide
  simp only [ftoa, hwhole, hdecimal, List.append_assoc]
  exact congrArg (printDecimal n ++ ·) hpadded

/-- A digit in front of the point. -/
theorem atofLoop_digit {b : UInt8} (hb : 48 ≤ b.toNat ∧ b.toNat ≤ 57) (s : List UInt8) (rez fact : ℚ) :
    atofLoop num.floatingPoint (b :: s) false rez fact =
      atofLoop num.floatingPoint s false (rez * 10 + ((b.toNat - 48 : ℕ) : ℚ)) fact := by
  have hpoint : b ≠ '.'.toUInt8 := by
    rintro rfl
    exact absurd hb.1 (by decide)
  have hdigit : 0 ≤ (b.toNat : ℤ) - 48 ∧ (b.toNat : ℤ) - 48 ≤ 9 := by omega
  have hvalue : (((b.toNat : ℤ) - 48 : ℤ) : ℚ) = ((b.toNat - 48 : ℕ) : ℚ) := by
    rw [Nat.cast_sub hb.1]
    push_cast
    rfl
  have hstep : atofLoop num.floatingPoint (b :: s) false rez fact =
      atofLoop num.floatingPoint s false (rez * ((10 : ℤ) : ℚ) + (((b.toNat : ℤ) - 48 : ℤ) : ℚ)) fact :=
    (if_neg hpoint).trans (if_pos hdigit)
  rw [hstep, hvalue, Int.cast_ofNat]

theorem atofLoop_decimal {s : List UInt8} (hs : Decimal s) (t : List UInt8) (n : ℕ) (fact : ℚ) :
    atofLoop num.floatingPoint (s ++ t) false (n : ℚ) fact =
      atofLoop num.floatingPoint t false ((s.foldl (fun n b => n * 10 + (b.toNat - 48)) n : ℕ) : ℚ) fact := by
  induction s generalizing n with
  | nil => rfl
  | cons b s ih =>
    obtain ⟨hb, hs⟩ := List.forall_mem_cons.mp hs
    have hnext : (n : ℚ) * 10 + ((b.toNat - 48 : ℕ) : ℚ) = ((n * 10 + (b.toNat - 48) : ℕ) : ℚ) := by push_cast; rfl
    rw [List.cons_append, atofLoop_digit num hb, hnext]
    exact ih hs _

/-- The two decimals divide by 100 what they multiply by it. -/
theorem atofLoop_zeros (rez fact : ℚ) : atofLoop num.floatingPoint (ascii ".00") false rez fact = rez * fact := by
  have hsteps : atofLoop num.floatingPoint (ascii ".00") false rez fact =
      ((rez * ((10 : ℤ) : ℚ) + ((0 : ℤ) : ℚ)) * ((10 : ℤ) : ℚ) + ((0 : ℤ) : ℚ)) *
        (fact / ((10 : ℤ) : ℚ) / ((10 : ℤ) : ℚ)) := rfl
  rw [hsteps]
  push_cast
  ring

/-- **A multiplier without decimals is read back.** -/
theorem os_atof_printDecimal (n : ℤ) : os_atof num.floatingPoint (printDecimal n ++ ascii ".00") = (n : ℚ) := by
  have hread (m : ℕ) (fact : ℚ) :
      atofLoop num.floatingPoint (printDecimal m ++ ascii ".00") false ((0 : ℤ) : ℚ) fact = m * fact := by
    have hdigits := atofLoop_decimal num (decimal_digits m) (ascii ".00") 0 fact
    have hvalue : ((printDecimal m).foldl (fun n b => n * 10 + (b.toNat - 48)) 0) = m := decimal_printDecimal m
    rw [hvalue, atofLoop_zeros] at hdigits
    exact hdigits
  cases n with
  | ofNat n =>
    have hminus : (printDecimal n ++ ascii ".00").head? ≠ some '-'.toUInt8 := by
      have hdigits := decimal_digits n
      cases htext : printDecimal n with
      | nil => decide
      | cons b bs =>
        rintro hhead
        obtain rfl : b = '-'.toUInt8 := Option.some.inj hhead
        have hdigit := hdigits _ (htext ▸ List.mem_cons_self)
        exact absurd hdigit.1 (by decide)
    refine (if_neg hminus).trans ((hread n ((1 : ℤ) : ℚ)).trans ?_)
    rw [Int.cast_one, mul_one]
    rfl
  | negSucc n =>
    rw [printDecimal_negative]
    refine (hread (n + 1) ((-1 : ℤ) : ℚ)).trans ?_
    rw [Int.cast_negSucc]
    push_cast
    ring

end ExactNumbers

/-! ## Doubles in binary64 -/

def binary64 : ExactNumbers where
  load bytes := Binary64.decode (littleEndian bytes)
  store x := uint32 (Binary64.encode x) ++ uint32 (Binary64.encode x / 4294967296)
  store_length x := rfl
  load_store n h := by
    have hsmall : n.natAbs < 2 * Binary64.HIDDEN := by
      unfold FitsInt at h
      unfold Binary64.HIDDEN
      omega
    have hbits := Binary64.encode_lt hsmall
    have hbytes : littleEndian (uint32 (Binary64.encode n) ++ uint32 (Binary64.encode n / 4294967296)) =
        Binary64.encode n := by
      rw [littleEndian_uint32_append, littleEndian_uint32]
      unfold Binary64.SIGN at hbits
      omega
    rw [hbytes]
    exact Binary64.decode_encode hsmall
  toInt x := max (-2147483648) (min (truncated x) 2147483647)
  toInt_fits x := by
    unfold FitsInt
    omega
  toInt_truncated x h := by
    unfold FitsInt at h
    omega

end LightSleepMqtt.Http
