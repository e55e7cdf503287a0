import LightSleepMqtt.Client.Api
import LightSleepMqtt.Http.Numbers
import Mathlib.Data.Nat.Cast.Defs

/-! The two functions of `utils.c` that recognise addresses. `UTILS_StrToIP` reads four groups of
digits in front of a string, also empty ones, each in an `int` that may overflow; `UTILS_IsIPV4`
reads a whole string and counts and adds up its digits in single bytes. -/
namespace LightSleepMqtt.Client
open Message
open Http (Decimal decimal)
set_option autoImplicit false

abbrev DOT : UInt8 := 0x2E

/-! ## `UTILS_IsIPV4` -/

/-- The loop: `segs`, `chcnt` and `accum`. Characters from 128 on are negative, and no digits. -/
def isIPV4Loop : List UInt8 → UInt8 → UInt8 → UInt8 → Bool
  | [], segs, chcnt, _ => if segs ≠ 3 then false else if chcnt = 0 then false else true
  | c :: str, segs, chcnt, accum =>
    if c = DOT then
      if chcnt = 0 then false
      else if segs + 1 = 4 then false
      else isIPV4Loop str (segs + 1) 0 0
    else if c < 0x30 ∨ c > 0x39 then false
    else
      let accum := accum * 10 + (c - 0x30)
      -- `accum` is a `uint8_t` also where it is compared
      if accum.toNat > 255 then false
      else isIPV4Loop str segs (chcnt + 1) accum

def UTILS_IsIPV4 : Option CString → Bool
  | none => false
  | some str => isIPV4Loop str.bytes 0 0 0

/-! ## Dotted groups of digits -/

def isDigit (b : UInt8) : Bool := decide (48 ≤ b.toNat ∧ b.toNat ≤ 57)

/-- The string begins with `n` groups of digits between dots, of which some may be empty; what
follows them is `rest`. -/
structure Dotted (n : ℕ) (gs : List (List UInt8)) (rest s : List UInt8) : Prop where
  count : gs.length = n
  digits : ∀ g ∈ gs, Decimal g
  text : s = [DOT].intercalate gs ++ rest
  ends : ∀ b ∈ rest.head?, isDigit b = false

/-- Each group is a number that fits a byte. -/
def Octets (gs : List (List UInt8)) : Prop := ∀ g ∈ gs, g ≠ [] ∧ decimal g ≤ 255

/-- The bytes of the groups as a word, the first of them lowest. -/
def address : List (List UInt8) → ℕ
  | [] => 0
  | g :: gs => decimal g % 256 + 256 * address gs

variable {n : ℕ} {gs gs' : List (List UInt8)} {rest rest' s g : List UInt8}

theorem isDigit_iff {b : UInt8} : isDigit b = true ↔ 0x30 ≤ b ∧ b ≤ 0x39 := by
  rw [isDigit, decide_eq_true_iff, UInt8.le_iff_toNat_le, UInt8.le_iff_toNat_le]
  rfl

theorem isDigit_dot : isDigit DOT = false := by decide

theorem takeWhile_digits (hg : Decimal g) (hends : ∀ b ∈ rest.head?, isDigit b = false) :
    (g ++ rest).takeWhile isDigit = g ∧ (g ++ rest).dropWhile isDigit = rest := by
  have hall : ∀ b ∈ g, isDigit b = true := fun b hb => decide_eq_true (hg b hb)
  have hrest : rest.takeWhile isDigit = [] ∧ rest.dropWhile isDigit = rest := by
    cases rest with
    | nil => exact ⟨rfl, rfl⟩
    | cons b rest =>
      have hb := hends b rfl
      exact ⟨List.takeWhile_cons_of_neg (by simp [hb]), List.dropWhile_cons_of_neg (by simp [hb])⟩
  rw [List.takeWhile_append_of_pos hall, List.dropWhile_append_of_pos hall, hrest.1, hrest.2, List.append_nil]
  exact ⟨rfl, rfl⟩

theorem decimal_takeWhile (s : List UInt8) : Decimal (s.takeWhile isDigit) := by
  intro b hb
  have hdigit : isDigit b = true := List.mem_takeWhile_imp hb
  exact of_decide_eq_true hdigit

theorem dropWhile_ends (s : List UInt8) : ∀ b ∈ (s.dropWhile isDigit).head?, isDigit b = false := by
  intro b hb
  have hnot := List.head?_dropWhile_not isDigit s
  rw [Option.mem_def.mp hb] at hnot
  simpa using hnot

/-- One group: the digits in front. -/
theorem dotted_one_iff : Dotted 1 gs rest s ↔ gs = [s.takeWhile isDigit] ∧ rest = s.dropWhile isDigit := by
  constructor
  · intro h
    obtain ⟨g, rfl⟩ := List.length_eq_one_iff.mp h.count
    have htext : s = g ++ rest := by simpa [List.intercalate] using h.text
    obtain ⟨htake, hdrop⟩ := takeWhile_digits (h.digits g List.mem_cons_self) h.ends
    rw [htext, htake, hdrop]
    exact ⟨rfl, rfl⟩
  · rintro ⟨rfl, rfl⟩
    refine ⟨rfl, ?_, ?_, dropWhile_ends s⟩
    · intro g hg
      rw [List.mem_singleton.mp hg]
      exact decimal_takeWhile s
    · simp [List.intercalate, List.takeWhile_append_dropWhile]

/-- A group and a dot in front of others. -/
theorem dotted_succ_iff : Dotted (n + 2) gs rest s ↔
    ∃ gs' s', gs = s.takeWhile isDigit :: gs' ∧ s.dropWhile isDigit = DOT :: s' ∧ Dotted (n + 1) gs' rest s' := by
  constructor
  · rintro ⟨hcount, hdigits, htext, hends⟩
    obtain ⟨g, gs', rfl⟩ := List.exists_cons_of_length_eq_add_one hcount
    obtain ⟨hg, hdigits⟩ := List.forall_mem_cons.mp hdigits
    have hne : gs' ≠ [] := by
      rintro rfl
      simp at hcount
    have hsplit : s = g ++ DOT :: ([DOT].intercalate gs' ++ rest) := by
      rw [htext, List.intercalate_cons_of_ne_nil hne]
      simp
    have hdot : ∀ b ∈ (DOT :: ([DOT].intercalate gs' ++ rest)).head?, isDigit b = false := by
      rintro b hb
      obtain rfl := Option.some.inj hb
      exact isDigit_dot
    obtain ⟨htake, hdrop⟩ := takeWhile_digits hg hdot
    refine ⟨gs', [DOT].intercalate gs' ++ rest, ?_, ?_, ?_, hdigits, rfl, hends⟩
    · rw [hsplit, htake]
    · rw [hsplit, hdrop]
    · simpa using hcount
  · rintro ⟨gs', s', rfl, hdrop, hcount, hdigits, rfl, hends⟩
    have hne : gs' ≠ [] := by
      rintro rfl
      simp at hcount
    refine ⟨by rw [List.length_cons, hcount], List.forall_mem_cons.mpr ⟨decimal_takeWhile s, hdigits⟩, ?_, hends⟩
    rw [List.intercalate_cons_of_ne_nil hne]
    simp only [List.append_assoc, List.nil_append, List.cons_append]
    rw [← hdrop, List.takeWhile_append_dropWhile]

/-- The groups are those that the string shows. -/
theorem Dotted.unique (h : Dotted (n + 1) gs rest s) (h' : Dotted (n + 1) gs' rest' s) : gs = gs' := by
  induction n generalizing gs gs' s with
  | zero => rw [(dotted_one_iff.mp h).1, (dotted_one_iff.mp h').1]
  | succ n ih =>
    obtain ⟨gs₁, s₁, rfl, hdrop, hgs⟩ := dotted_succ_iff.mp h
    obtain ⟨gs₂, s₂, rfl, hdrop', hgs'⟩ := dotted_succ_iff.mp h'
    obtain rfl : s₁ = s₂ := (List.cons.inj (hdrop.symm.trans hdrop')).2
    rw [ih hgs hgs']

/-! ## `UTILS_StrToIP` -/

/-- A number in an `int`. -/
def asInt (n : ℕ) : ℤ := Int.bmod n 4294967296

theorem asInt_of_lt {n : ℕ} (h : n < 2147483648) : asInt n = n := by
  refine Int.bmod_eq_of_le_mul_two ?_ ?_
  · rw [Nat.cast_ofNat]
    omega
  · rw [Nat.cast_ofNat]
    omega

theorem asInt_emod (n : ℕ) : (asInt n % 256).toNat = n % 256 := by
  have hmod : asInt n % (4294967296 : ℕ) = (n : ℤ) % (4294967296 : ℕ) := Int.bmod_emod
  rw [Nat.cast_ofNat] at hmod
  omega

theorem bmod_digit (n d m : ℕ) : Int.bmod (Int.bmod n m * 10 + d) m = Int.bmod ((n * 10 + d : ℕ) : ℤ) m := by
  rw [Int.natCast_add, Int.natCast_mul, Nat.cast_ofNat]
  exact Int.add_bmod_eq_add_bmod_right d Int.bmod_mul_bmod

/-- A further digit. -/
theorem asInt_digit (n d : ℕ) : Int.bmod (asInt n * 10 + d) 4294967296 = asInt (n * 10 + d) := bmod_digit n d _

theorem readNumber_digits (hg : Decimal g) {c : UInt8} (hc : isDigit c = false) (n : ℕ) (start : List UInt8) :
    readNumber (asInt n) (g ++ c :: start) =
      some (asInt (g.foldl (fun n b => n * 10 + (b.toNat - 48)) n), c, start) := by
  induction g generalizing n with
  | nil => exact if_neg fun hdigit => absurd (isDigit_iff.mpr hdigit) (by simp [hc])
  | cons b g ih =>
    obtain ⟨hb, hg⟩ := List.forall_mem_cons.mp hg
    have hdigit : 0x30 ≤ b ∧ b ≤ 0x39 := isDigit_iff.mp (decide_eq_true hb)
    have hvalue : (b.toNat : ℤ) - 0x30 = ((b.toNat - 48 : ℕ) : ℤ) := by omega
    rw [List.cons_append, readNumber, if_pos hdigit, hvalue, asInt_digit, ih hg, List.foldl_cons]

theorem readNumber_end (h : s.dropWhile isDigit = []) :
    readNumber 0 (s ++ [0]) = some (asInt (decimal (s.takeWhile isDigit)), 0, []) := by
  have hsplit : s = s.takeWhile isDigit := by
    conv_lhs => rw [← List.takeWhile_append_dropWhile (p := isDigit) (l := s), h, List.append_nil]
  conv_lhs => rw [hsplit]
  exact readNumber_digits (decimal_takeWhile s) (by decide) 0 []

theorem readNumber_cons {c : UInt8} {t : List UInt8} (h : s.dropWhile isDigit = c :: t) :
    readNumber 0 (s ++ [0]) = some (asInt (decimal (s.takeWhile isDigit)), c, t ++ [0]) := by
  have hc : isDigit c = false := dropWhile_ends s c (by rw [h]; rfl)
  have hsplit : s = s.takeWhile isDigit ++ c :: t := by
    rw [← h, List.takeWhile_append_dropWhile]
  conv_lhs => rw [hsplit]
  rw [List.append_assoc, List.cons_append]
  exact readNumber_digits (decimal_takeWhile s) hc 0 (t ++ [0])

/-- The last number may be followed by anything. -/
theorem strToIP_one (ip : ℕ) (s : List UInt8) : strToIP 1 ip (s ++ [0]) =
    if asInt (decimal (s.takeWhile isDigit)) ≥ 256 then (ip, false)
    else (ip + decimal (s.takeWhile isDigit) % 256 * 256 ^ 3, true) := by
  obtain ⟨c, start, hread⟩ : ∃ c start, readNumber 0 (s ++ [0]) =
      some (asInt (decimal (s.takeWhile isDigit)), c, start) := by
    cases hdrop : s.dropWhile isDigit with
    | nil => exact ⟨_, _, readNumber_end hdrop⟩
    | cons c t => exact ⟨_, _, readNumber_cons hdrop⟩
  rw [strToIP, hread]
  simp only [gt_iff_lt, lt_self_iff_false, false_and, if_false, asInt_emod]
  rfl

theorem strToIP_succ {left : ℕ} (ip : ℕ) {s' : List UInt8} (hdrop : s.dropWhile isDigit = DOT :: s') :
    strToIP (left + 2) ip (s ++ [0]) =
      if asInt (decimal (s.takeWhile isDigit)) ≥ 256 then (ip, false)
      else strToIP (left + 1) (ip + decimal (s.takeWhile isDigit) % 256 * 256 ^ (3 - (left + 1))) (s' ++ [0]) := by
  rw [strToIP, readNumber_cons hdrop]
  simp only [ne_eq, not_true_eq_false, and_false, if_false, asInt_emod]

theorem strToIP_undotted {left : ℕ} (ip : ℕ) (hdrop : ∀ s', s.dropWhile isDigit ≠ DOT :: s') :
    strToIP (left + 2) ip (s ++ [0]) = (ip, false) := by
  cases hrest : s.dropWhile isDigit with
  | nil =>
    rw [strToIP, readNumber_end hrest]
    exact if_pos ⟨Nat.succ_pos left, by decide⟩
  | cons c t =>
    have hc : c ≠ DOT := by
      rintro rfl
      exact hdrop t hrest
    rw [strToIP, readNumber_cons hrest]
    exact if_pos ⟨Nat.succ_pos left, hc⟩

/-- Each group is below 256 where it is compared. -/
def Passes32 (gs : List (List UInt8)) : Prop := ∀ g ∈ gs, asInt (decimal g) < 256

theorem Octets.passes (h : Octets gs) : Passes32 gs := by
  intro g hg
  have hle := (h g hg).2
  rw [asInt_of_lt (by omega)]
  omega

theorem strToIP_dotted {left ip : ℕ} (hleft : left ≤ 3) (h : Dotted (left + 1) gs rest s) (hgs : Passes32 gs) :
    strToIP (left + 1) ip (s ++ [0]) = (ip + 256 ^ (3 - left) * address gs, true) := by
  induction left generalizing gs s ip with
  | zero =>
    obtain ⟨rfl, _⟩ := dotted_one_iff.mp h
    have hg := hgs _ List.mem_cons_self
    rw [strToIP_one, if_neg (Int.not_le.mpr hg)]
    rw [address, address, Nat.mul_zero, Nat.add_zero, Nat.sub_zero, Nat.mul_comm]
  | succ left ih =>
    obtain ⟨gs', s', rfl, hdrop, hdotted⟩ := dotted_succ_iff.mp h
    obtain ⟨hg, hgs⟩ := List.forall_mem_cons.mp hgs
    have hpow : 256 ^ (3 - left) = 256 ^ (3 - (left + 1)) * 256 := by
      rw [← Nat.pow_succ]
      congr 1
      omega
    rw [strToIP_succ ip hdrop, if_neg (Int.not_le.mpr hg), ih (by omega) hdotted hgs, hpow, address, Nat.mul_add,
      Nat.mul_assoc, Nat.add_assoc, Nat.mul_comm (256 ^ (3 - (left + 1))) (_ % 256)]

theorem dotted_of_strToIP {left ip : ℕ} (h : (strToIP (left + 1) ip (s ++ [0])).2 = true) :
    ∃ gs rest, Dotted (left + 1) gs rest s ∧ Passes32 gs := by
  induction left generalizing s ip with
  | zero =>
    refine ⟨_, _, dotted_one_iff.mpr ⟨rfl, rfl⟩, ?_⟩
    rw [strToIP_one] at h
    split at h
    · cases h
    · next hlt =>
      intro g hg
      rw [List.mem_singleton.mp hg]
      exact Int.not_le.mp hlt
  | succ left ih =>
    by_cases hdot : ∃ s', s.dropWhile isDigit = DOT :: s'
    · obtain ⟨s', hdrop⟩ := hdot
      rw [strToIP_succ ip hdrop] at h
      split at h
      · cases h
      · next hlt =>
        obtain ⟨gs, rest, hdotted, hgs⟩ := ih h
        refine ⟨_, rest, dotted_succ_iff.mpr ⟨gs, s', rfl, hdrop, hdotted⟩, ?_⟩
        exact List.forall_mem_cons.mpr ⟨Int.not_le.mp hlt, hgs⟩
    · rw [strToIP_undotted ip (fun s' hs' => hdot ⟨s', hs'⟩)] at h
      cases h

/-- What `UTILS_StrToIP` accepts. -/
theorem strToIP_accepts_iff (str : CString) :
    (UTILS_StrToIP str).2 = true ↔ ∃ gs rest, Dotted 4 gs rest str.bytes ∧ Passes32 gs := by
  constructor
  · exact dotted_of_strToIP
  · rintro ⟨gs, rest, hdotted, hgs⟩
    rw [UTILS_StrToIP, strToIP_dotted (Nat.le_refl 3) hdotted hgs]

theorem strToIP_octets {str : CString} (h : Dotted 4 gs rest str.bytes) (hgs : Octets gs) :
    UTILS_StrToIP str = (address gs, true) := by
  have hread : strToIP 4 0 (str.bytes ++ [0]) = _ := strToIP_dotted (Nat.le_refl 3) h hgs.passes
  rwa [Nat.sub_self, Nat.pow_zero, Nat.one_mul, Nat.zero_add] at hread

/-- `UTILS_StrToIP` accepts what begins with four bytes in decimal, and stores these. -/
structure RecognisesAddress (str : CString) : Prop where
  accepts : (UTILS_StrToIP str).2 = true ↔ ∃ gs rest, Dotted 4 gs rest str.bytes ∧ Octets gs
  stores : ∀ gs rest, Dotted 4 gs rest str.bytes → Octets gs → (UTILS_StrToIP str).1 = address gs

/-- **When addresses are recognised**: four groups of digits that all look smaller than 256 have to
be numbers that fit a byte. -/
theorem recognises_address_iff (str : CString) :
    RecognisesAddress str ↔ ∀ gs rest, Dotted 4 gs rest str.bytes → Passes32 gs → Octets gs := by
  constructor
  · intro h gs rest hdotted hgs
    obtain ⟨gs', rest', hdotted', hoctets⟩ := h.accepts.mp ((strToIP_accepts_iff str).mpr ⟨gs, rest, hdotted, hgs⟩)
    rw [hdotted.unique hdotted']
    exact hoctets
  · intro h
    refine ⟨?_, fun gs rest hdotted hgs => congrArg Prod.fst (strToIP_octets hdotted hgs)⟩
    rw [strToIP_accepts_iff]
    constructor
    · rintro ⟨gs, rest, hdotted, hgs⟩
      exact ⟨gs, rest, hdotted, h gs rest hdotted hgs⟩
    · rintro ⟨gs, rest, hdotted, hgs⟩
      exact ⟨gs, rest, hdotted, hgs.passes⟩

/-- The string "4294967297..2.3x": its first group is 1 in an `int`, its second one is empty. -/
def overlongAddress : CString := .ofBytes
  [0x34, 0x32, 0x39, 0x34, 0x39, 0x36, 0x37, 0x32, 0x39, 0x37, 0x2E, 0x2E, 0x32, 0x2E, 0x33, 0x78]

/-- It is taken for 1.0.2.3. -/
theorem overlong_accepted : UTILS_StrToIP overlongAddress = (0x03020001, true) ∧ ¬ RecognisesAddress overlongAddress := by
  refine ⟨by decide +kernel, fun h => ?_⟩
  obtain ⟨gs, rest, hdotted, hgs⟩ := h.accepts.mp (by decide +kernel)
  have hshown : Dotted 4 [[0x34, 0x32, 0x39, 0x34, 0x39, 0x36, 0x37, 0x32, 0x39, 0x37], [], [0x32], [0x33]] [0x78]
      overlongAddress.bytes := ⟨rfl, by decide +kernel, by decide +kernel, by decide +kernel⟩
  rw [hdotted.unique hshown] at hgs
  exact (hgs [] (List.mem_cons_of_mem _ List.mem_cons_self)).1 rfl

/-! ## Both recognisers -/

/-- The digits of each group, as `chcnt` counts them; it has counted some of the first already. -/
def Counted (chcnt : ℕ) : List (List UInt8) → Prop
  | [] => True
  | g :: gs => (chcnt + g.length) % 256 ≠ 0 ∧ ∀ g ∈ gs, g.length % 256 ≠ 0

theorem counted_zero : Counted 0 gs ↔ ∀ g ∈ gs, g.length % 256 ≠ 0 := by
  cases gs with
  | nil => simp [Counted]
  | cons g gs => rw [Counted, List.forall_mem_cons, Nat.zero_add]

theorem not_above (accum : UInt8) : ¬ accum.toNat > 255 := by
  have := accum.toNat_lt
  omega

/-- A dot where `segs` dots are behind: the next group begins. -/
theorem counted_dot (str : List UInt8) {chcnt : ℕ} (n : ℕ) (hchcnt : chcnt < 256) :
    (∃ gs, Dotted (n + 2) gs [] (DOT :: str) ∧ Counted chcnt gs) ↔
      chcnt ≠ 0 ∧ ∃ gs, Dotted (n + 1) gs [] str ∧ Counted 0 gs := by
  have htake : (DOT :: str).takeWhile isDigit = [] := List.takeWhile_cons_of_neg (by decide)
  have hdrop : (DOT :: str).dropWhile isDigit = DOT :: str := List.dropWhile_cons_of_neg (by decide)
  constructor
  · rintro ⟨gs, hdotted, hcounted⟩
    obtain ⟨gs', s', rfl, hs', hdotted⟩ := dotted_succ_iff.mp hdotted
    obtain rfl : str = s' := (List.cons.inj (hdrop.symm.trans hs')).2
    rw [htake, Counted, List.length_nil, Nat.add_zero, Nat.mod_eq_of_lt hchcnt] at hcounted
    exact ⟨hcounted.1, gs', hdotted, counted_zero.mpr hcounted.2⟩
  · rintro ⟨hne, gs, hdotted, hcounted⟩
    refine ⟨[] :: gs, dotted_succ_iff.mpr ⟨gs, str, by rw [htake], hdrop, hdotted⟩, ?_, counted_zero.mp hcounted⟩
    rwa [List.length_nil, Nat.add_zero, Nat.mod_eq_of_lt hchcnt]

/-- A digit belongs to the first group. -/
theorem dotted_digit {c : UInt8} (str : List UInt8) (hc : isDigit c = true) :
    Dotted (n + 1) gs rest (c :: str) ↔ ∃ g gs', gs = (c :: g) :: gs' ∧ Dotted (n + 1) (g :: gs') rest str := by
  have htake : (c :: str).takeWhile isDigit = c :: str.takeWhile isDigit := List.takeWhile_cons_of_pos hc
  have hdrop : (c :: str).dropWhile isDigit = str.dropWhile isDigit := List.dropWhile_cons_of_pos hc
  cases n with
  | zero =>
    rw [dotted_one_iff, htake, hdrop]
    constructor
    · rintro ⟨rfl, rfl⟩
      exact ⟨_, [], rfl, dotted_one_iff.mpr ⟨rfl, rfl⟩⟩
    · rintro ⟨g, gs', rfl, hdotted⟩
      obtain ⟨hgs, rfl⟩ := dotted_one_iff.mp hdotted
      obtain ⟨rfl, rfl⟩ := List.cons.inj hgs
      exact ⟨rfl, rfl⟩
  | succ n =>
    rw [dotted_succ_iff, htake, hdrop]
    constructor
    · rintro ⟨gs', s', rfl, hs', hdotted⟩
      exact ⟨_, gs', rfl, dotted_succ_iff.mpr ⟨gs', s', rfl, hs', hdotted⟩⟩
    · rintro ⟨g, gs', rfl, hdotted⟩
      obtain ⟨gs'', s', hgs, hs', hdotted⟩ := dotted_succ_iff.mp hdotted
      obtain ⟨rfl, rfl⟩ := List.cons.inj hgs
      exact ⟨gs', s', rfl, hs', hdotted⟩

theorem counted_digit {c : UInt8} (str : List UInt8) (chcnt : UInt8) (n : ℕ) (hc : isDigit c = true) :
    (∃ gs, Dotted (n + 1) gs [] (c :: str) ∧ Counted chcnt.toNat gs) ↔
      ∃ gs, Dotted (n + 1) gs [] str ∧ Counted (chcnt + 1).toNat gs := by
  have hcount : ∀ k, (chcnt.toNat + (k + 1)) % 256 = ((chcnt + 1).toNat + k) % 256 := by
    intro k
    rw [UInt8.toNat_add, UInt8.toNat_one]
    omega
  constructor
  · rintro ⟨gs, hdotted, hcounted⟩
    obtain ⟨g, gs', rfl, hrest⟩ := (dotted_digit str hc).mp hdotted
    rw [Counted, List.length_cons, hcount] at hcounted
    exact ⟨g :: gs', hrest, hcounted⟩
  · rintro ⟨gs, hdotted, hcounted⟩
    obtain ⟨g, gs', rfl⟩ := List.exists_cons_of_length_eq_add_one hdotted.count
    refine ⟨(c :: g) :: gs', (dotted_digit str hc).mpr ⟨g, gs', rfl, hdotted⟩, ?_⟩
    rw [Counted, List.length_cons, hcount]
    exact hcounted

/-- Another character begins nothing that ends the string. -/
theorem not_dotted {c : UInt8} (str : List UInt8) (hdot : c ≠ DOT) (hc : isDigit c = false) :
    ¬ Dotted (n + 1) gs [] (c :: str) := by
  have hdrop : (c :: str).dropWhile isDigit = c :: str := List.dropWhile_cons_of_neg (by simp [hc])
  intro hdotted
  cases n with
  | zero =>
    have hrest := (dotted_one_iff.mp hdotted).2
    rw [hdrop] at hrest
    cases hrest
  | succ n =>
    obtain ⟨gs', s', -, hs', -⟩ := dotted_succ_iff.mp hdotted
    exact hdot (List.cons.inj (hdrop.symm.trans hs')).1

/-- The loop accepts what ends here: no dot is to come, and the last group has a digit. -/
theorem dotted_nil {segs chcnt : UInt8} (accum : UInt8) (hn : segs.toNat + n = 3) :
    isIPV4Loop [] segs chcnt accum = true ↔ ∃ gs, Dotted (n + 1) gs [] [] ∧ Counted chcnt.toNat gs := by
  have hchcnt : chcnt.toNat % 256 = chcnt.toNat := Nat.mod_eq_of_lt chcnt.toNat_lt
  cases n with
  | zero =>
    have hsegs : segs = 3 := UInt8.toNat_inj.mp hn
    have hcounted : (∃ gs, Dotted 1 gs [] [] ∧ Counted chcnt.toNat gs) ↔ chcnt.toNat ≠ 0 := by
      simp only [dotted_one_iff, List.takeWhile_nil, List.dropWhile_nil, and_true, exists_eq_left, Counted,
        List.length_nil, Nat.add_zero, hchcnt, List.not_mem_nil, IsEmpty.forall_iff, implies_true]
    rw [hcounted, isIPV4Loop, if_neg (not_not.mpr hsegs)]
    have hzero : chcnt = 0 ↔ chcnt.toNat = 0 := UInt8.toNat_inj.symm
    simp [hzero]
  | succ n =>
    have hsegs : segs ≠ 3 := by
      rintro rfl
      exact absurd hn (by simp)
    rw [isIPV4Loop, if_pos hsegs]
    constructor
    · intro h
      cases h
    · rintro ⟨gs, hdotted, -⟩
      obtain ⟨gs', s', -, hs', -⟩ := dotted_succ_iff.mp hdotted
      cases hs'

/-- What the loop is to accept from `str` on, with `n` dots to come. -/
def LoopAccepts (str : List UInt8) : Prop :=
  ∀ (segs chcnt accum : UInt8) (n : ℕ), segs.toNat + n = 3 →
    (isIPV4Loop str segs chcnt accum = true ↔ ∃ gs, Dotted (n + 1) gs [] str ∧ Counted chcnt.toNat gs)

/-- A dot ends a group that has a digit, if one is to come. -/
theorem loopAccepts_dot {str : List UInt8} (h : LoopAccepts str) : LoopAccepts (DOT :: str) := by
  intro segs chcnt accum n hn
  rw [isIPV4Loop, if_pos rfl]
  cases n with
  | zero =>
    have hlast : segs + 1 = 4 := by
      rw [show segs = 3 from UInt8.toNat_inj.mp hn]
      rfl
    rw [if_pos hlast, ite_self]
    constructor
    · intro haccepted
      cases haccepted
    · rintro ⟨gs, hdotted, -⟩
      have hrest := (dotted_one_iff.mp hdotted).2
      rw [List.dropWhile_cons_of_neg (by decide)] at hrest
      cases hrest
  | succ n =>
    have hsegs : (segs + 1).toNat = segs.toNat + 1 := by
      rw [UInt8.toNat_add, UInt8.toNat_one]
      omega
    have hmore : segs + 1 ≠ 4 := by
      intro h
      have hfour : segs.toNat + 1 = 4 := by rw [← hsegs, h]; rfl
      omega
    have hzero : chcnt = 0 ↔ chcnt.toNat = 0 := UInt8.toNat_inj.symm
    rw [counted_dot str n chcnt.toNat_lt, if_neg hmore]
    by_cases hchcnt : chcnt = 0
    · rw [if_pos hchcnt]
      simp [hzero.mp hchcnt]
    · rw [if_neg hchcnt, h (segs + 1) 0 0 n (by omega), UInt8.toNat_zero]
      simp [hzero.not.mp hchcnt]

/-- A digit is counted, and any other character refused. -/
theorem loopAccepts_char {str : List UInt8} (h : LoopAccepts str) {c : UInt8} (hdot : c ≠ DOT) : LoopAccepts (c :: str) := by
  intro segs chcnt accum n hn
  rw [isIPV4Loop, if_neg hdot]
  by_cases hdigit : isDigit c = true
  · have hnot : ¬ (c < 0x30 ∨ c > 0x39) := by
      have hc := isDigit_iff.mp hdigit
      rw [not_or, UInt8.not_lt, UInt8.not_lt]
      exact hc
    rw [if_neg hnot]
    simp only [not_above, if_false, h segs (chcnt + 1) (accum * 10 + (c - 0x30)) n hn, counted_digit str chcnt n hdigit]
  · have hnot : c < 0x30 ∨ c > 0x39 := by
      have hc := isDigit_iff.not.mp hdigit
      rw [not_and_or, UInt8.not_le, UInt8.not_le] at hc
      exact hc
    rw [if_pos hnot]
    constructor
    · intro haccepted
      cases haccepted
    · rintro ⟨gs, hdotted, -⟩
      exact absurd hdotted (not_dotted str hdot (by simpa using hdigit))

theorem isIPV4Loop_iff (str : List UInt8) : LoopAccepts str := by
  induction str with
  | nil => exact fun segs chcnt accum n hn => dotted_nil accum hn
  | cons c str ih =>
    by_cases hdot : c = DOT
    · rw [hdot]
      exact loopAccepts_dot ih
    · exact loopAccepts_char ih hdot

/-- **What `UTILS_IsIPV4` accepts**: four groups whose lengths a byte does not lose. -/
theorem isIPV4_accepts_iff (str : CString) :
    UTILS_IsIPV4 (some str) = true ↔ ∃ gs, Dotted 4 gs [] str.bytes ∧ ∀ g ∈ gs, g.length % 256 ≠ 0 := by
  rw [UTILS_IsIPV4, isIPV4Loop_iff str.bytes 0 0 0 3 rfl, UInt8.toNat_zero]
  simp only [counted_zero]

/-- The two recognisers agree on a string: `UTILS_IsIPV4` accepts four bytes in decimal, and what it
accepts `UTILS_StrToIP` converts. -/
structure RecognisersAgree (str : CString) : Prop where
  validates : UTILS_IsIPV4 (some str) = true ↔ ∃ gs, Dotted 4 gs [] str.bytes ∧ Octets gs
  converts : ∀ gs, Dotted 4 gs [] str.bytes → Octets gs → UTILS_StrToIP str = (address gs, true)

/-- **When the recognisers agree**: the lengths of the four groups tell whether they are bytes. -/
theorem recognisers_agree_iff (str : CString) : RecognisersAgree str ↔
    ∀ gs, Dotted 4 gs [] str.bytes → ((∀ g ∈ gs, g.length % 256 ≠ 0) ↔ Octets gs) := by
  constructor
  · intro h gs hdotted
    have hsame := (isIPV4_accepts_iff str).symm.trans h.validates
    constructor
    · intro hlengths
      obtain ⟨gs', hdotted', hoctets⟩ := hsame.mp ⟨gs, hdotted, hlengths⟩
      rwa [hdotted.unique hdotted']
    · intro hoctets
      obtain ⟨gs', hdotted', hlengths⟩ := hsame.mpr ⟨gs, hdotted, hoctets⟩
      rwa [hdotted.unique hdotted']
  · intro h
    refine ⟨?_, fun gs hdotted hgs => strToIP_octets hdotted hgs⟩
    rw [isIPV4_accepts_iff]
    constructor
    · rintro ⟨gs, hdotted, hlengths⟩
      exact ⟨gs, hdotted, (h gs hdotted).mp hlengths⟩
    · rintro ⟨gs, hdotted, hoctets⟩
      exact ⟨gs, hdotted, (h gs hdotted).mpr hoctets⟩

/-- The string "256.1.1.1", which only `UTILS_IsIPV4` accepts. -/
def largeAddress : CString := .ofBytes [0x32, 0x35, 0x36, 0x2E, 0x31, 0x2E, 0x31, 0x2E, 0x31]

theorem large_accepted : UTILS_IsIPV4 (some largeAddress) = true ∧ (UTILS_StrToIP largeAddress).2 = false ∧
    ¬ RecognisersAgree largeAddress := by
  refine ⟨by decide +kernel, by decide +kernel, fun h => ?_⟩
  obtain ⟨gs, hdotted, hgs⟩ := h.validates.mp (by decide +kernel)
  have hshown : Dotted 4 [[0x32, 0x35, 0x36], [0x31], [0x31], [0x31]] [] largeAddress.bytes :=
    ⟨rfl, by decide +kernel, by decide +kernel, by decide +kernel⟩
  rw [hdotted.unique hshown] at hgs
  exact absurd (hgs [0x32, 0x35, 0x36] List.mem_cons_self).2 (by decide +kernel)

end LightSleepMqtt.Client
