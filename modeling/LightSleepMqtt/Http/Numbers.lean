import Mathlib.Algebra.Order.Group.Int
import LightSleepMqtt.Http.Page
import LightSleepMqtt.Library.FormEncoding

/-! What `strtol` makes of the texts that a form can hold: the two digits behind a '%', decimal
digits, and a number as `%d` prints it. -/
namespace LightSleepMqtt.Http
open Config FormEncoding
set_option autoImplicit false

/-- Decimal digits, possibly none. -/
def Decimal (s : List UInt8) : Prop := ∀ b ∈ s, 48 ≤ b.toNat ∧ b.toNat ≤ 57

instance (s : List UInt8) : Decidable (Decimal s) := inferInstanceAs (Decidable (∀ b ∈ s, _))

/-- The number that decimal digits make up. -/
def decimal (s : List UInt8) : ℕ := s.foldl (fun n b => n * 10 + (b.toNat - 48)) 0

/-- `n` is a value of `int`. -/
def FitsInt (n : ℤ) : Prop := -2147483648 ≤ n ∧ n ≤ 2147483647

instance (n : ℤ) : Decidable (FitsInt n) := inferInstanceAs (Decidable (_ ∧ _))

/-! ## Digits -/

theorem digit_eq (b : UInt8) : digit b =
    if 48 ≤ b.toNat ∧ b.toNat ≤ 57 then some (b.toNat - 48)
    else if 97 ≤ b.toNat ∧ b.toNat ≤ 102 then some (b.toNat - 87)
    else if 65 ≤ b.toNat ∧ b.toNat ≤ 70 then some (b.toNat - 55)
    else none := rfl

theorem digit_decimal {b : UInt8} (h : 48 ≤ b.toNat ∧ b.toNat ≤ 57) : digit b = some (b.toNat - 48) := if_pos h

theorem digit_spells {c : UInt8} {n : ℕ} (h : Spells c n) (hn : n < 16) : digit c = some n := by
  rw [digit_eq]
  obtain ⟨hdigit, hcode⟩ | ⟨hletter, hupper | hlower⟩ := h.toNat hn
  · rw [if_pos (by omega), hcode, Nat.add_sub_cancel_left]
  · rw [if_neg (by omega), if_neg (by omega), if_pos (by omega), hupper, Nat.add_sub_cancel_left]
  · rw [if_neg (by omega), if_pos (by omega), hlower, Nat.add_sub_cancel_left]

/-- A digit lies between '0' and 'f'. -/
theorem digit_code {b : UInt8} {d : ℕ} (h : digit b = some d) : 48 ≤ b.toNat ∧ b.toNat ≤ 102 := by
  rw [digit_eq] at h
  split_ifs at h <;> omega

theorem readDigits_cons {base d : ℕ} {b : UInt8} (h : digit b = some d) (hd : d < base) (bs : List UInt8) (n : ℕ) :
    readDigits base (b :: bs) n = readDigits base bs (n * base + d) := by
  rw [readDigits, h, Option.filter_some, if_pos (decide_eq_true hd)]
  rfl

theorem readDigits_decimal {s : List UInt8} (h : Decimal s) (n : ℕ) :
    readDigits 10 s n = s.foldl (fun n b => n * 10 + (b.toNat - 48)) n := by
  induction s generalizing n with
  | nil => rfl
  | cons b s ih =>
    obtain ⟨hb, hs⟩ := List.forall_mem_cons.mp h
    rw [readDigits_cons (digit_decimal hb) (by omega), ih hs]
    rfl

/-! ## Numbers -/

/-- A number that begins with a digit and has no "0x": there is nothing to skip. -/
theorem strtol_digits {b : UInt8} {d base : ℕ} (hb : digit b = some d) (bs : List UInt8)
    (hbase : ¬ (base = 16 ∧ (ascii "0x" <+: b :: bs ∨ ascii "0X" <+: b :: bs))) :
    strtol (b :: bs) base = min ((readDigits base (b :: bs) 0 : ℕ) : ℤ) 2147483647 := by
  have hcode := (digit_code hb).1
  have hspace : isSpace b = false := by
    rw [Bool.eq_false_iff]
    intro hspace
    simp only [isSpace, Bool.or_eq_true, Bool.and_eq_true, decide_eq_true_eq, UInt8.le_iff_toNat_le] at hspace
    obtain rfl | ⟨_, hcontrol⟩ := hspace
    · exact absurd hcode (by decide)
    · exact absurd (Nat.le_trans hcode hcontrol) (by decide)
  have hhead {c : UInt8} (hc : c.toNat < 48) : ¬ (b :: bs).head? = some c := by
    intro h
    obtain rfl : b = c := Option.some.inj h
    omega
  have hminus := hhead (c := '-'.toUInt8) (by decide)
  have hplus := hhead (c := '+'.toUInt8) (by decide)
  have hskip : (b :: bs).dropWhile isSpace = b :: bs := by
    rw [List.dropWhile_cons, hspace]
    rfl
  simp only [strtol, hskip, hminus, hplus, hbase, or_self, if_false]

/-- **The two digits behind a '%'**, which are all that `strtol` is given. -/
theorem strtol_escape {b high low : UInt8} (hhigh : Spells high (b.toNat / 16)) (hlow : Spells low (b.toNat % 16)) :
    strtol [high, low] 16 = b.toNat := by
  have hhighDigit := digit_spells hhigh (high_lt b)
  have hlowDigit := digit_spells hlow (low_lt b)
  have hx {x : UInt8} (h : [48, x] <+: [high, low]) : low = x :=
    (List.cons.inj (List.cons.inj (h.eq_of_length rfl)).2).1.symm
  rw [strtol_digits hhighDigit, readDigits_cons hhighDigit (high_lt b), readDigits_cons hlowDigit (low_lt b),
    readDigits]
  · have hbyte := b.toNat_lt
    omega
  · rintro ⟨_, hlower | hupper⟩
    · obtain rfl : low = 120 := hx hlower
      cases hlowDigit
    · obtain rfl : low = 88 := hx hupper
      cases hlowDigit

theorem atoi_clamped {s : List UInt8} (h : Decimal s) (hs : s ≠ []) :
    atoi s = min (decimal s : ℤ) 2147483647 := by
  obtain ⟨b, bs, rfl⟩ := List.exists_cons_of_ne_nil hs
  have hb := digit_decimal (List.forall_mem_cons.mp h).1
  rw [atoi, strtol_digits hb bs fun hbase => absurd hbase.1 (by decide), readDigits_decimal h]
  rfl

/-- **Decimal digits**; none of them are 0. -/
theorem atoi_decimal {s : List UInt8} (h : Decimal s) (hfits : decimal s ≤ 2147483647) : atoi s = decimal s := by
  by_cases hs : s = []
  · rw [hs]
    rfl
  · rw [atoi_clamped h hs]
    omega

/-- A minus sign and decimal digits. -/
theorem atoi_negative {s : List UInt8} (h : Decimal s) (hfits : decimal s ≤ 2147483648) :
    atoi ('-'.toUInt8 :: s) = -decimal s := by
  have hread : atoi ('-'.toUInt8 :: s) = max (-(readDigits 10 s 0 : ℤ)) (-2147483648) := rfl
  rw [hread, readDigits_decimal h]
  change max (-(decimal s : ℤ)) (-2147483648) = -decimal s
  omega

/-! ## Printed numbers -/

theorem toUInt8_of_isDigit {c : Char} (h : c.isDigit) :
    48 ≤ c.toUInt8.toNat ∧ c.toUInt8.toNat ≤ 57 ∧ c.toUInt8.toNat = c.toNat := by
  have hdigit : 48 ≤ c.toNat ∧ c.toNat ≤ 57 := Char.isDigit_iff_toNat.mp h
  have hbyte : c.toUInt8.toNat = c.toNat % 256 := rfl
  omega

theorem decimal_of_isDigit {cs : List Char} (h : ∀ c ∈ cs, c.isDigit) : Decimal (cs.map Char.toUInt8) := by
  intro b hb
  obtain ⟨c, hc, rfl⟩ := List.mem_map.mp hb
  have hcode := toUInt8_of_isDigit (h c hc)
  exact ⟨hcode.1, hcode.2.1⟩

theorem decimal_map {cs : List Char} (h : ∀ c ∈ cs, c.isDigit) (n : ℕ) :
    (cs.map Char.toUInt8).foldl (fun n b => n * 10 + (b.toNat - 48)) n = Nat.ofDigitChars 10 cs n := by
  induction cs generalizing n with
  | nil => rfl
  | cons c cs ih =>
    obtain ⟨hc, hcs⟩ := List.forall_mem_cons.mp h
    rw [List.map_cons, List.foldl_cons, ih hcs, Nat.ofDigitChars_cons, (toUInt8_of_isDigit hc).2.2, Nat.mul_comm]
    rfl

theorem printDecimal_ofNat (n : ℕ) : printDecimal n = (Nat.toDigits 10 n).map Char.toUInt8 := by
  have htext : (toString (n : ℤ)).toList = Nat.toDigits 10 n := Nat.toList_repr
  rw [printDecimal, ascii, htext]

theorem decimal_digits (n : ℕ) : Decimal (printDecimal n) := by
  rw [printDecimal_ofNat]
  exact decimal_of_isDigit fun c => Nat.isDigit_of_mem_toDigits (by decide) (by decide)

theorem decimal_printDecimal (n : ℕ) : decimal (printDecimal n) = n := by
  rw [printDecimal_ofNat, decimal, decimal_map fun c => Nat.isDigit_of_mem_toDigits (by decide) (by decide)]
  exact Nat.ofDigitChars_ten_toDigits

theorem printDecimal_negative (n : ℕ) : printDecimal (Int.negSucc n) = '-'.toUInt8 :: printDecimal (n + 1 : ℕ) := by
  have htext : (toString (Int.negSucc n)).toList = '-' :: (toString ((n + 1 : ℕ) : ℤ)).toList := String.toList_append
  rw [printDecimal, ascii, htext]
  rfl

/-- **What `%d` prints is read back.** -/
theorem atoi_printDecimal {n : ℤ} (h : FitsInt n) : atoi (printDecimal n) = n := by
  obtain ⟨hlow, hhigh⟩ := h
  cases n with
  | ofNat n =>
    have hn : Int.ofNat n = (n : ℤ) := rfl
    rw [hn] at hhigh ⊢
    rw [atoi_decimal (decimal_digits n) (by rw [decimal_printDecimal]; omega), decimal_printDecimal]
  | negSucc n =>
    rw [printDecimal_negative, atoi_negative (decimal_digits _) (by rw [decimal_printDecimal]; omega),
      decimal_printDecimal]
    omega

/-- No other number is printed as a natural one is. -/
theorem printDecimal_eq_iff {n : ℕ} {m : ℤ} : printDecimal n = printDecimal m ↔ (n : ℤ) = m := by
  refine ⟨fun h => ?_, congrArg printDecimal⟩
  cases m with
  | ofNat m =>
    have hsame := congrArg decimal (h.trans (show printDecimal (Int.ofNat m) = printDecimal m from rfl))
    rw [decimal_printDecimal, decimal_printDecimal] at hsame
    exact congrArg Int.ofNat hsame
  | negSucc m =>
    have hdigits := decimal_digits n
    rw [h, printDecimal_negative] at hdigits
    exact absurd (hdigits _ List.mem_cons_self).1 (by decide)

end LightSleepMqtt.Http
