import Mathlib.Data.List.Basic

/-! `application/x-www-form-urlencoded` text as bytes. A value has many encodings, which `Encodes`
relates it to; `encode` is the one that escapes every byte but the unreserved ones. A body is its
pairs with '=' behind each name and '&' between them. -/
namespace FormEncoding
set_option autoImplicit false

abbrev SPACE : UInt8 := 32
abbrev PERCENT : UInt8 := 37
abbrev AMPERSAND : UInt8 := 38
abbrev PLUS : UInt8 := 43
abbrev EQUALS : UInt8 := 61

/-! ## Digits of base 16 -/

def upperDigit (n : ℕ) : UInt8 := if n < 10 then UInt8.ofNat (48 + n) else UInt8.ofNat (55 + n)

def lowerDigit (n : ℕ) : UInt8 := if n < 10 then UInt8.ofNat (48 + n) else UInt8.ofNat (87 + n)

/-- The digit stands for the number, in upper or in lower case. -/
def Spells (c : UInt8) (n : ℕ) : Prop := c = upperDigit n ∨ c = lowerDigit n

instance (c : UInt8) (n : ℕ) : Decidable (Spells c n) := inferInstanceAs (Decidable (_ ∨ _))

theorem high_lt (b : UInt8) : b.toNat / 16 < 16 := by
  have := b.toNat_lt
  omega

theorem low_lt (b : UInt8) : b.toNat % 16 < 16 := Nat.mod_lt _ (by decide)

/-- A digit of base 16 is '0' to '9', 'A' to 'F' or 'a' to 'f'. -/
theorem Spells.toNat {c : UInt8} {n : ℕ} (h : Spells c n) (hn : n < 16) :
    n < 10 ∧ c.toNat = 48 + n ∨ 10 ≤ n ∧ (c.toNat = 55 + n ∨ c.toNat = 87 + n) := by
  have hsmall {k : ℕ} (hk : k < 256) : (UInt8.ofNat k).toNat = k := UInt8.toNat_ofNat_of_lt' hk
  unfold Spells upperDigit lowerDigit at h
  by_cases hdigit : n < 10
  · rw [if_pos hdigit, if_pos hdigit, or_self] at h
    exact .inl ⟨hdigit, h ▸ hsmall (by omega)⟩
  · rw [if_neg hdigit, if_neg hdigit] at h
    refine .inr ⟨Nat.not_lt.mp hdigit, ?_⟩
    obtain rfl | rfl := h
    · exact .inl (hsmall (by omega))
    · exact .inr (hsmall (by omega))

/-! ## Values -/

/-- The first bytes are an encoding of the second ones. -/
inductive Encodes : List UInt8 → List UInt8 → Prop
  | nil : Encodes [] []
  | plain {b : UInt8} {encoded value : List UInt8} (hpercent : b ≠ PERCENT) (hplus : b ≠ PLUS)
      (hampersand : b ≠ AMPERSAND) (h : Encodes encoded value) : Encodes (b :: encoded) (b :: value)
  | space {encoded value : List UInt8} (h : Encodes encoded value) : Encodes (PLUS :: encoded) (SPACE :: value)
  | escaped {b high low : UInt8} {encoded value : List UInt8} (hhigh : Spells high (b.toNat / 16))
      (hlow : Spells low (b.toNat % 16)) (h : Encodes encoded value) :
      Encodes (PERCENT :: high :: low :: encoded) (b :: value)

theorem Spells.ne_ampersand {c : UInt8} {n : ℕ} (h : Spells c n) (hn : n < 16) : AMPERSAND ≠ c := by
  rintro rfl
  have hcode := h.toNat hn
  have hampersand : AMPERSAND.toNat = 38 := rfl
  omega

theorem Encodes.ampersand_notMem {encoded value : List UInt8} (h : Encodes encoded value) : AMPERSAND ∉ encoded := by
  induction h with
  | nil => exact List.not_mem_nil
  | plain _ _ hampersand _ ih => exact List.not_mem_cons_of_ne_of_not_mem hampersand.symm ih
  | space _ ih => exact List.not_mem_cons_of_ne_of_not_mem (by decide) ih
  | escaped hhigh hlow _ ih =>
    apply List.not_mem_cons_of_ne_of_not_mem (by decide)
    apply List.not_mem_cons_of_ne_of_not_mem (hhigh.ne_ampersand (high_lt _))
    exact List.not_mem_cons_of_ne_of_not_mem (hlow.ne_ampersand (low_lt _)) ih

/-- A letter, a digit, or one of "*-._". -/
def Unreserved (b : UInt8) : Prop :=
  48 ≤ b ∧ b ≤ 57 ∨ 65 ≤ b ∧ b ≤ 90 ∨ 97 ≤ b ∧ b ≤ 122 ∨ b = 42 ∨ b = 45 ∨ b = 46 ∨ b = 95

instance (b : UInt8) : Decidable (Unreserved b) := inferInstanceAs (Decidable (_ ∨ _))

def encodeByte (b : UInt8) : List UInt8 :=
  if Unreserved b then [b]
  else if b = SPACE then [PLUS]
  else [PERCENT, upperDigit (b.toNat / 16), upperDigit (b.toNat % 16)]

def encode (value : List UInt8) : List UInt8 := value.flatMap encodeByte

theorem encode_cons (b : UInt8) (value : List UInt8) : encode (b :: value) = encodeByte b ++ encode value :=
  List.flatMap_cons

theorem Unreserved.ne {b c : UInt8} (h : Unreserved b) (hc : ¬ Unreserved c) : b ≠ c := fun heq => hc (heq ▸ h)

theorem encodes_encode (value : List UInt8) : Encodes (encode value) value := by
  induction value with
  | nil => exact .nil
  | cons b value ih =>
    rw [encode_cons, encodeByte]
    by_cases hplain : Unreserved b
    · rw [if_pos hplain]
      exact .plain (hplain.ne (by decide)) (hplain.ne (by decide)) (hplain.ne (by decide)) ih
    · rw [if_neg hplain]
      by_cases hspace : b = SPACE
      · rw [if_pos hspace, hspace]
        exact .space ih
      · rw [if_neg hspace]
        exact .escaped (.inl rfl) (.inl rfl) ih

theorem encode_of_unreserved {value : List UInt8} (h : ∀ b ∈ value, Unreserved b) : encode value = value := by
  induction value with
  | nil => rfl
  | cons b value ih =>
    obtain ⟨hb, hvalue⟩ := List.forall_mem_cons.mp h
    rw [encode_cons, encodeByte, if_pos hb, ih hvalue]
    rfl

theorem upperDigit_ne_equals {n : ℕ} (hn : n < 16) : EQUALS ≠ upperDigit n := by
  intro heq
  have hcode := Spells.toNat (.inl heq) hn
  have hequals : EQUALS.toNat = 61 := rfl
  omega

theorem equals_notMem_encode (value : List UInt8) : EQUALS ∉ encode value := by
  intro hmem
  obtain ⟨b, _, hb⟩ := List.mem_flatMap.mp hmem
  unfold encodeByte at hb
  split at hb
  · next hplain =>
    obtain rfl := List.mem_singleton.mp hb
    exact absurd hplain (by decide)
  · split at hb
    · exact absurd hb (by decide)
    · obtain heq | hdigits := List.mem_cons.mp hb
      · exact absurd heq (by decide)
      obtain heq | hlow := List.mem_cons.mp hdigits
      · exact upperDigit_ne_equals (high_lt b) heq
      · exact upperDigit_ne_equals (low_lt b) (List.mem_singleton.mp hlow)

/-! ## Bodies -/

/-- A pair as it stands in a body. -/
def pairText (pair : List UInt8 × List UInt8) : List UInt8 := pair.1 ++ EQUALS :: pair.2

def joined (pairs : List (List UInt8 × List UInt8)) : List UInt8 := [AMPERSAND].intercalate (pairs.map pairText)

theorem joined_singleton (pair : List UInt8 × List UInt8) : joined [pair] = pairText pair :=
  List.intercalate_singleton

theorem joined_cons {pairs : List (List UInt8 × List UInt8)} (pair : List UInt8 × List UInt8) (h : pairs ≠ []) :
    joined (pair :: pairs) = pairText pair ++ AMPERSAND :: joined pairs := by
  obtain ⟨next, rest, rfl⟩ := List.exists_cons_of_ne_nil h
  exact List.intercalate_cons_cons.trans (List.append_assoc _ _ _)

end FormEncoding
