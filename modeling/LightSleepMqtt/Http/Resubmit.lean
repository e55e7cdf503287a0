import LightSleepMqtt.Http.Browser
import LightSleepMqtt.Http.Parse

/-! The form posted as it was shown. A string comes back unless a quote or a character reference in
it means something to HTML, and a multiplier comes back if it is an `int`, as which it is passed to
its row. -/
namespace LightSleepMqtt.Http
open Config FormEncoding Substring
set_option autoImplicit false

/-! ## Pairs in the order of their fields -/

section Pairs

variable {fp : FloatingPoint} {cfg cfg' : SYSCFG}

theorem setPair_put {key value : List UInt8} {m : Member} (hm : memberOf key = some m)
    (h : setPair fp cfg key value = some cfg') :
    cfg' = cfg.put m.field.offset (m.bytes fp (HTTPConfig_HTMLEntityDecode value)) := by
  rw [setPair] at h
  split at h
  · rw [hm] at h
    cases m with
    | string f =>
      rw [assign] at h
      split at h
      · exact (Option.some.inj h).symm
      · cases h
    | number f => exact (Option.some.inj h).symm
    | multiplier f => exact (Option.some.inj h).symm
  · cases h

theorem setPairs_append {pairs pairs' : List (List UInt8 × List UInt8)}
    (h : setPairs fp cfg (pairs ++ pairs') = some cfg') :
    ∃ cfg₁, setPairs fp cfg pairs = some cfg₁ ∧ setPairs fp cfg₁ pairs' = some cfg' := by
  induction pairs generalizing cfg with
  | nil => exact ⟨cfg, rfl, h⟩
  | cons pair pairs ih =>
    obtain ⟨cfg₂, hpair, hrest⟩ := Option.bind_eq_some_iff.mp h
    obtain ⟨cfg₁, hfirst, hsecond⟩ := ih hrest
    exact ⟨cfg₁, Option.bind_eq_some_iff.mpr ⟨cfg₂, hpair, hfirst⟩, hsecond⟩

/-- Pairs for fields behind one leave it as it is, however long their values are. -/
theorem setPairs_get {f : Field} {pairs : List (List UInt8 × List UInt8)}
    (hbehind : ∀ pair ∈ pairs, ∃ m, memberOf pair.1 = some m ∧ f.offset + f.size ≤ m.field.offset)
    (h : setPairs fp cfg pairs = some cfg') : cfg'.get f = cfg.get f := by
  induction pairs generalizing cfg with
  | nil => exact congrArg (·.get f) (Option.some.inj h).symm
  | cons pair pairs ih =>
    obtain ⟨⟨m, hm, hle⟩, hbehind⟩ := List.forall_mem_cons.mp hbehind
    obtain ⟨cfg₁, hpair, hrest⟩ := Option.bind_eq_some_iff.mp h
    rw [ih hbehind hrest, setPair_put hm hpair]
    exact SYSCFG.get_put_disjoint cfg (.inl hle)

/-- A string that is written over a field is found there as far as it fits. -/
theorem cstring_put {f : Field} (hfit : f.offset + f.size ≤ sizeofSYSCFG) {value : List UInt8} (hvalue : 0 ∉ value) :
    cstring ((cfg.put f.offset (value ++ [0])).get f) = value.take f.size := by
  rw [SYSCFG.get_put_take cfg hfit]
  by_cases hlength : value.length < f.size
  · rw [List.take_of_length_le (by rw [List.length_append]; exact hlength), List.append_assoc, cstring_append hvalue,
      List.take_of_length_le hlength.le]
    exact List.append_nil value
  · have hlong : f.size ≤ value.length := Nat.not_lt.mp hlength
    have hnil : (cfg.get f).drop (value ++ [0]).length = [] :=
      List.drop_eq_nil_of_le (by rw [cfg.length_get hfit, List.length_append]; omega)
    rw [hnil, List.append_nil, List.take_append_of_le_length hlong]
    exact cstring_of_notMem fun hmem => hvalue (List.mem_of_mem_take hmem)

end Pairs

/-! ## The fields of the page -/

theorem formRows_members : formRows.map (fun row => (row.name, row.member)) = formMembers := by decide

/-- The rows stand in the order of their fields. -/
theorem formRows_ordered : formRows.Pairwise fun row row' =>
    row.member.field.offset + row.member.field.size ≤ row'.member.field.offset := by decide

theorem formRows_names : ∀ row ∈ formRows, (∀ b ∈ ascii row.name, Unreserved b) ∧ (ascii row.name).length < 64 := by
  decide +kernel

theorem row_mem {row : Row} (h : row ∈ formRows) : (row.name, row.member) ∈ formMembers := by
  rw [← formRows_members]
  exact List.mem_map_of_mem h

theorem mem_row {name : String} {m : Member} (h : (name, m) ∈ formMembers) :
    ∃ row ∈ formRows, row.name = name ∧ row.member = m := by
  rw [← formRows_members] at h
  obtain ⟨row, hrow, heq⟩ := List.mem_map.mp h
  exact ⟨row, hrow, congrArg Prod.fst heq, congrArg Prod.snd heq⟩

theorem encode_name {row : Row} (h : row ∈ formRows) : encode (ascii row.name) = ascii row.name :=
  encode_of_unreserved (formRows_names row h).1

/-- The field of a row, when the rows in front of it have been posted somehow, it with a text, and of
the rows behind it those that a browser has read. -/
theorem setPairs_row {fp : FloatingPoint} {html : CharacterReferences} {before after : List Row} {row : Row}
    (hrows : formRows = before ++ row :: after) {firsts : List (List UInt8 × List UInt8)} {text : List UInt8}
    (htext : 0 ∉ text) {others : List (String × List UInt8)}
    (hothers : (others.map Prod.fst).Sublist (after.map Row.name)) {cfg cfg' : SYSCFG}
    (h : setPairs fp cfg (firsts ++ postedPair html (row.name, text) :: others.map (postedPair html)) = some cfg') :
    ∃ cfg₁ : SYSCFG, cfg'.get row.member.field =
      (cfg₁.put row.member.field.offset (row.member.bytes fp (html.resolve text))).get row.member.field := by
  have hrow : row ∈ formRows := hrows ▸ List.mem_append_right before List.mem_cons_self
  have hbehind : ∀ pair ∈ others.map (postedPair html), ∃ m, memberOf pair.1 = some m ∧
      row.member.field.offset + row.member.field.size ≤ m.field.offset := by
    intro pair hpair
    obtain ⟨input, hinput, rfl⟩ := List.mem_map.mp hpair
    obtain ⟨row', hafter, hname⟩ := List.mem_map.mp (hothers.mem (List.mem_map_of_mem hinput))
    have hrow' : row' ∈ formRows := hrows ▸ List.mem_append_right before (List.mem_cons_of_mem row hafter)
    have hordered := formRows_ordered
    rw [hrows, List.pairwise_append] at hordered
    refine ⟨row'.member, ?_, List.rel_of_pairwise_cons hordered.2.1 hafter⟩
    change memberOf (encode (ascii input.1)) = _
    rw [← hname, encode_name hrow']
    exact memberOf_name (row_mem hrow')
  obtain ⟨cfg₁, _, hrest⟩ := setPairs_append h
  obtain ⟨cfg₂, hpair, hothers⟩ := Option.bind_eq_some_iff.mp hrest
  have hmember : memberOf (postedPair html (row.name, text)).1 = some row.member := by
    change memberOf (encode (ascii row.name)) = _
    rw [encode_name hrow]
    exact memberOf_name (row_mem hrow)
  have hdecoded : HTTPConfig_HTMLEntityDecode (postedPair html (row.name, text)).2 = html.resolve text :=
    entityDecode_encodes (encodes_encode _) (html.resolve_text htext)
  refine ⟨cfg₁, ?_⟩
  rw [setPairs_get hbehind hothers, setPair_put hmember hpair, hdecoded]

/-! ## The values of the page -/

theorem notMem_cstring (s : List UInt8) : 0 ∉ cstring s := by
  intro hmem
  have hne := List.mem_takeWhile_imp hmem
  exact absurd hne (by decide)

/-- What is kept of a text that is too long fills the room. -/
theorem eq_of_take_eq {text kept : List UInt8} {size : ℕ} (h : text.take size = kept) (hkept : kept.length < size) :
    text = kept := by
  have hall := congrArg List.length h
  rw [List.length_take] at hall
  rwa [List.take_of_length_le (by omega)] at h

section Values

variable {cfg : SYSCFG} {f : Field}

theorem stringMember_eq (h : 0 ∈ cfg.get f) : stringMember cfg f = cstring (cfg.get f) := by
  have hsplit : cfg.bytes.drop f.offset = cfg.get f ++ (cfg.bytes.drop f.offset).drop f.size :=
    (List.take_append_drop _ _).symm
  rw [stringMember, hsplit, cstring_append_of_mem h]

theorem length_cstring_lt (h : 0 ∈ cfg.get f) : (cstring (cfg.get f)).length < f.size := by
  have hlength : (cfg.get f).length ≤ f.size := List.length_take_le _ _
  have hfront : cstring (cfg.get f) <+: cfg.get f := List.takeWhile_prefix _
  refine Nat.lt_of_lt_of_le (Nat.lt_of_le_of_ne hfront.length_le fun heq => ?_) hlength
  exact notMem_cstring _ (hfront.eq_of_length heq ▸ h)

theorem printDecimal_unreserved (n : ℤ) : ∀ b ∈ printDecimal n, Unreserved b := by
  have hdigits (m : ℕ) : ∀ b ∈ printDecimal m, Unreserved b := fun b hb => .inl (decimal_digits m b hb)
  cases n with
  | ofNat n => exact hdigits n
  | negSucc n =>
    rw [printDecimal_negative]
    exact List.forall_mem_cons.mpr ⟨by decide, hdigits (n + 1)⟩

theorem length_printDecimal {n : ℤ} (h : FitsInt n) : (printDecimal n).length ≤ 11 := by
  have hdigits (m : ℕ) (hm : m < 10 ^ 10) : (printDecimal m).length ≤ 10 := by
    rw [printDecimal_ofNat, List.length_map]
    exact (Nat.length_toDigits_le_iff (by decide) (by decide)).mpr hm
  obtain ⟨hlow, hhigh⟩ := h
  cases n with
  | ofNat n =>
    have hn : Int.ofNat n = (n : ℤ) := rfl
    rw [hn] at hhigh
    exact (hdigits n (by omega)).trans (by decide)
  | negSucc n =>
    rw [printDecimal_negative, List.length_cons]
    exact Nat.succ_le_succ (hdigits (n + 1) (by omega))

variable {num : ExactNumbers} {row : Row}

theorem fitsInt_bmod (n : ℤ) : FitsInt (Int.bmod n 4294967296) := by
  have hlow := Int.le_bmod (x := n) (m := 4294967296) (by decide)
  have hhigh := Int.bmod_lt (x := n) (m := 4294967296) (by decide)
  unfold FitsInt
  omega

theorem value_string (h : row.member = .string f) :
    row.value num.floatingPoint cfg = stringMember cfg f := by rw [Row.value, h]

theorem value_number (h : row.member = .number f) :
    row.value num.floatingPoint cfg = printDecimal (Int.bmod (cfg.word f) 4294967296) := by rw [Row.value, h]

theorem value_multiplier (h : row.member = .multiplier f) :
    row.value num.floatingPoint cfg = printDecimal (num.toInt (num.load (cfg.get f))) ++ ascii ".00" := by
  rw [Row.value, h]
  exact num.ftoa_intCast (num.toInt_fits _)

/-- Numbers are shown in characters that mean nothing to HTML or to the encoding of a form. -/
theorem value_unreserved (h : ∀ f, row.member ≠ .string f) :
    (∀ b ∈ row.value num.floatingPoint cfg, Unreserved b) ∧ (row.value num.floatingPoint cfg).length < 64 := by
  cases hmember : row.member with
  | string f => exact absurd hmember (h f)
  | number f =>
    rw [value_number hmember]
    exact ⟨printDecimal_unreserved _, (length_printDecimal (fitsInt_bmod _)).trans_lt (by decide)⟩
  | multiplier f =>
    have hlength := length_printDecimal (num.toInt_fits (num.load (cfg.get f)))
    rw [value_multiplier hmember, List.length_append]
    refine ⟨List.forall_mem_append.mpr ⟨printDecimal_unreserved _, by decide +kernel⟩, ?_⟩
    exact Nat.lt_of_le_of_lt (Nat.add_le_add_right hlength _) (by decide)

theorem printable_of_unreserved {b : UInt8} (h : Unreserved b) : Printable b := by
  have hrange {low high : UInt8} (hb : low ≤ b ∧ b ≤ high) (hin : 32 ≤ low ∧ high ≤ 126) : Printable b :=
    ⟨UInt8.le_trans hin.1 hb.1, UInt8.le_trans hb.2 hin.2⟩
  obtain hdigit | hupper | hlower | rfl | rfl | rfl | rfl := h
  · exact hrange hdigit (by decide)
  · exact hrange hupper (by decide)
  · exact hrange hlower (by decide)
  all_goals decide

theorem notMem_of_unreserved {s : List UInt8} (h : ∀ b ∈ s, Unreserved b) {c : UInt8} (hc : ¬ Unreserved c) : c ∉ s :=
  fun hmem => hc (h c hmem)

end Values

/-! ## Configurations that come back -/

/-- Strings with their NUL, of printable characters, that the parser has room for; multipliers
with two decimals; and rows that fit the blocks they are written in. -/
structure Submittable (num : ExactNumbers) (cfg : SYSCFG) : Prop where
  ended : ∀ {name f}, (name, .string f) ∈ formMembers → 0 ∈ cfg.get f
  printable : ∀ {name f}, (name, .string f) ∈ formMembers → ∀ b ∈ cstring (cfg.get f), Printable b
  short : ∀ {name f}, (name, .string f) ∈ formMembers → (encode (cstring (cfg.get f))).length < 64
  decimals : ∀ {name f}, (name, .multiplier f) ∈ formMembers → ∃ hundredths : ℤ, num.load (cfg.get f) = hundredths / 100
  rows : ∀ row ∈ formRows, (row.append num.floatingPoint cfg []).length < 128

/-- The same strings, numbers and multipliers. -/
structure Unchanged (num : ExactNumbers) (cfg cfg' : SYSCFG) : Prop where
  strings : ∀ {name f}, (name, .string f) ∈ formMembers → cstring (cfg'.get f) = cstring (cfg.get f)
  numbers : ∀ {name f}, (name, .number f) ∈ formMembers → cfg'.word f = cfg.word f
  multipliers : ∀ {name f}, (name, .multiplier f) ∈ formMembers → num.load (cfg'.get f) = num.load (cfg.get f)

/-- No string has a quote or a character reference in it, and every multiplier is an `int`. -/
structure Unmarked (html : CharacterReferences) (num : ExactNumbers) (cfg : SYSCFG) : Prop where
  quotes : ∀ {name f}, (name, .string f) ∈ formMembers → QUOTE ∉ cstring (cfg.get f)
  references : ∀ {name f}, (name, .string f) ∈ formMembers → html.resolve (cstring (cfg.get f)) = cstring (cfg.get f)
  whole : ∀ {name f}, (name, .multiplier f) ∈ formMembers → ∃ n : ℤ, FitsInt n ∧ num.load (cfg.get f) = n

variable {html : CharacterReferences} {num : ExactNumbers} {cfg cfg' : SYSCFG} {page : List UInt8}

/-- The page of a configuration. -/
def pageText (num : ExactNumbers) (cfg : SYSCFG) : List UInt8 :=
  ascii formHead ++ (formRows.flatMap (Row.text num.floatingPoint cfg) ++ ascii formFoot)

theorem page_eq (clientId : List UInt8) (d : Device) :
    (HTTPConfig_GetForm num.floatingPoint clientId d).2 = pageText num (CFG_Load clientId d).sysCfg := by
  rw [HTTPConfig_GetForm, foldl_append_eq, List.append_assoc, pageText]

/-- The pairs that a browser posts. -/
def postedPairs (html : CharacterReferences) (page : List UInt8) : List (List UInt8 × List UInt8) :=
  (readInputs (formRows.map Row.name) page).map (postedPair html)

/-- The pairs that are posted when no value has a quote in it. -/
def shownPairs (html : CharacterReferences) (num : ExactNumbers) (cfg : SYSCFG) (rows : List Row) :
    List (List UInt8 × List UInt8) :=
  rows.map fun row => postedPair html (row.name, row.value num.floatingPoint cfg)

theorem postedPairs_page (h : ∀ row ∈ formRows, QUOTE ∉ row.value num.floatingPoint cfg) :
    postedPairs html (pageText num cfg) = shownPairs html num cfg formRows := by
  rw [postedPairs, pageText, readInputs_rows formRows_separated h, List.map_map]
  rfl

/-- A row shows a string of the configuration, or characters without a meaning of their own. -/
theorem value_cases (hform : Submittable num cfg) {row : Row} (hrow : row ∈ formRows) :
    (∃ f, row.member = .string f ∧ (row.name, .string f) ∈ formMembers ∧
      row.value num.floatingPoint cfg = cstring (cfg.get f)) ∨
    (∀ f, row.member ≠ .string f) ∧ (∀ b ∈ row.value num.floatingPoint cfg, Unreserved b) ∧
      (row.value num.floatingPoint cfg).length < 64 := by
  by_cases hstring : ∃ f, row.member = .string f
  · obtain ⟨f, hmember⟩ := hstring
    have hm : (row.name, .string f) ∈ formMembers := hmember ▸ row_mem hrow
    exact .inl ⟨f, hmember, hm, (value_string hmember).trans (stringMember_eq (hform.ended hm))⟩
  · have hplain : ∀ f, row.member ≠ .string f := fun f hf => hstring ⟨f, hf⟩
    exact .inr ⟨hplain, value_unreserved hplain⟩

theorem value_text (row : Row) : 0 ∉ row.value num.floatingPoint cfg := by
  by_cases hmember : ∃ f, row.member = .string f
  · obtain ⟨f, hf⟩ := hmember
    rw [value_string hf]
    exact notMem_cstring _
  · exact notMem_of_unreserved (value_unreserved fun f hf => hmember ⟨f, hf⟩).1 (by decide)

theorem resolve_value {row : Row} (h : ∀ f, row.member ≠ .string f) :
    html.resolve (row.value num.floatingPoint cfg) = row.value num.floatingPoint cfg := by
  have hunreserved : ∀ b ∈ row.value num.floatingPoint cfg, Unreserved b := (value_unreserved h).1
  have hplain : AMPERSAND ∉ row.value num.floatingPoint cfg := notMem_of_unreserved hunreserved (by decide)
  exact html.resolve_plain (fun b hb => printable_of_unreserved (hunreserved b hb)) hplain

/-! ## What is saved of the values shown -/

section Shown

variable (h : setPairs num.floatingPoint cfg (shownPairs html num cfg formRows) = some cfg')
include h

theorem saved_row {row : Row} (hrow : row ∈ formRows) : ∃ cfg₁ : SYSCFG, cfg'.get row.member.field =
    (cfg₁.put row.member.field.offset
      (row.member.bytes num.floatingPoint (html.resolve (row.value num.floatingPoint cfg)))).get row.member.field := by
  obtain ⟨before, after, hrows⟩ := List.append_of_mem hrow
  have hothers : ((after.map fun row => (row.name, row.value num.floatingPoint cfg)).map Prod.fst).Sublist
      (after.map Row.name) := by
    rw [List.map_map]
    exact List.Sublist.refl _
  have hsplit : shownPairs html num cfg formRows = shownPairs html num cfg before ++
      postedPair html (row.name, row.value num.floatingPoint cfg) ::
        (after.map fun row => (row.name, row.value num.floatingPoint cfg)).map (postedPair html) := by
    rw [hrows, shownPairs, List.map_append, List.map_cons, List.map_map]
    rfl
  rw [hsplit] at h
  exact setPairs_row hrows (value_text row) hothers h

theorem saved_string {name : String} {f : Field} (hm : (name, .string f) ∈ formMembers) :
    cstring (cfg'.get f) = (html.resolve (stringMember cfg f)).take f.size := by
  obtain ⟨row, hrow, _, hmember⟩ := mem_row hm
  obtain ⟨cfg₁, hget⟩ := saved_row h hrow
  rw [value_string hmember, hmember] at hget
  have hfit := Field.members_fit f (formMembers_field hm)
  rw [show cfg'.get f = _ from hget]
  exact cstring_put hfit (html.resolve_text (notMem_cstring _))

theorem saved_plain {name : String} {m : Member} (hm : (name, m) ∈ formMembers) (hplain : ∀ f, m ≠ .string f) :
    ∃ row : Row, row.member = m ∧ ∃ cfg₁ : SYSCFG, cfg'.get m.field =
      (cfg₁.put m.field.offset (m.bytes num.floatingPoint (row.value num.floatingPoint cfg))).get m.field := by
  obtain ⟨row, hrow, _, rfl⟩ := mem_row hm
  obtain ⟨cfg₁, hget⟩ := saved_row h hrow
  rw [resolve_value hplain] at hget
  exact ⟨row, rfl, cfg₁, hget⟩

theorem saved_number {name : String} {f : Field} (hm : (name, .number f) ∈ formMembers) : cfg'.word f = cfg.word f := by
  obtain ⟨row, hmember, cfg₁, hget⟩ := saved_plain h hm (fun _ hf => by cases hf)
  rw [value_number hmember] at hget
  have hfit := Field.members_fit f (formMembers_field hm)
  have hsize : f.size = 4 := formMembers_sized hm
  have hword : cfg.word f < 4294967296 := littleEndian_lt ((cfg.length_get hfit).trans hsize)
  have hnumber : (Int.bmod (cfg.word f) 4294967296 % 4294967296).toNat = cfg.word f := by
    have hmod : Int.bmod (cfg.word f) 4294967296 % 4294967296 = (cfg.word f : ℤ) % 4294967296 := Int.bmod_emod
    omega
  have hbytes : (Member.number f).bytes num.floatingPoint (printDecimal (Int.bmod (cfg.word f) 4294967296)) =
      uint32 (cfg.word f) := by
    rw [Member.bytes, atoi_printDecimal (fitsInt_bmod _), hnumber]
  have hsame : cfg'.get f = uint32 (cfg.word f) := by
    rw [hbytes] at hget
    exact hget.trans (SYSCFG.get_put cfg₁ hsize.symm hfit)
  rw [SYSCFG.word, hsame, littleEndian_uint32, Nat.mod_eq_of_lt hword]

theorem saved_multiplier {name : String} {f : Field} (hm : (name, .multiplier f) ∈ formMembers) :
    num.load (cfg'.get f) = num.toInt (num.load (cfg.get f)) := by
  obtain ⟨row, hmember, cfg₁, hget⟩ := saved_plain h hm (fun _ hf => by cases hf)
  rw [value_multiplier hmember] at hget
  have hfit := Field.members_fit f (formMembers_field hm)
  have hsize : f.size = 8 := formMembers_sized hm
  have hbytes : (Member.multiplier f).bytes num.floatingPoint
      (printDecimal (num.toInt (num.load (cfg.get f))) ++ ascii ".00") =
        num.store (num.toInt (num.load (cfg.get f))) := by
    rw [Member.bytes, num.os_atof_printDecimal]
  have hsame : cfg'.get f = num.store (num.toInt (num.load (cfg.get f))) := by
    rw [hbytes] at hget
    exact hget.trans (SYSCFG.get_put cfg₁ ((num.store_length _).trans hsize.symm) hfit)
  rw [hsame, num.load_store _ (num.toInt_fits _)]

/-- Without quotes, a configuration is saved as it is exactly when HTML leaves its strings as they
are and its multipliers have no decimals. -/
theorem shown_unchanged_iff (hform : Submittable num cfg) : Unchanged num cfg cfg' ↔
    (∀ {name f}, (name, .string f) ∈ formMembers → html.resolve (cstring (cfg.get f)) = cstring (cfg.get f)) ∧
      ∀ {name f}, (name, .multiplier f) ∈ formMembers → ∃ n : ℤ, FitsInt n ∧ num.load (cfg.get f) = n := by
  have hstring {name : String} {f : Field} (hm : (name, .string f) ∈ formMembers) :
      cstring (cfg'.get f) = cstring (cfg.get f) ↔ html.resolve (cstring (cfg.get f)) = cstring (cfg.get f) := by
    have hlength := length_cstring_lt (hform.ended hm)
    rw [saved_string h hm, stringMember_eq (hform.ended hm)]
    constructor
    · intro htake
      exact eq_of_take_eq htake hlength
    · intro hsame
      rw [hsame, List.take_of_length_le hlength.le]
  constructor
  · intro hunchanged
    refine ⟨fun hm => (hstring hm).mp (hunchanged.strings hm), fun hm => ?_⟩
    exact ⟨_, num.toInt_fits _, (hunchanged.multipliers hm).symm.trans (saved_multiplier h hm)⟩
  · rintro ⟨hreferences, hwhole⟩
    refine ⟨fun hm => (hstring hm).mpr (hreferences hm), fun hm => saved_number h hm, fun hm => ?_⟩
    obtain ⟨n, hn, hload⟩ := hwhole hm
    rw [saved_multiplier h hm, hload, num.toInt_intCast hn]

end Shown

/-! ## The page as a whole -/

/-- The first string with a quote is saved up to it. -/
theorem saved_cut (hform : Submittable num cfg) {before after : List Row} {row : Row} {f : Field}
    (hrows : formRows = before ++ row :: after)
    (hplain : ∀ row ∈ before, QUOTE ∉ row.value num.floatingPoint cfg) (hmember : row.member = .string f)
    (hm : (row.name, .string f) ∈ formMembers)
    (h : setPairs num.floatingPoint cfg (postedPairs html (pageText num cfg)) = some cfg') :
    cstring (cfg'.get f) = (html.resolve ((cstring (cfg.get f)).takeWhile (· ≠ QUOTE))).take f.size := by
  have htext : 0 ∉ (cstring (cfg.get f)).takeWhile (· ≠ QUOTE) := fun hmem =>
    notMem_cstring _ ((List.takeWhile_prefix _).mem hmem)
  obtain ⟨page', hread⟩ := readInputs_cut (hrows ▸ formRows_separated) hplain (ascii formFoot)
  rw [value_string hmember, stringMember_eq (hform.ended hm)] at hread
  rw [postedPairs, pageText, hrows, hread, List.map_append, List.map_cons] at h
  obtain ⟨cfg₁, hget⟩ := setPairs_row hrows htext (readInputs_names _ _) h
  rw [hmember] at hget
  rw [show cfg'.get f = _ from hget]
  exact cstring_put (Field.members_fit f (formMembers_field hm)) (html.resolve_text htext)

/-- No reference makes up for what is cut off. -/
theorem resolve_cut_ne {text : List UInt8} (hprintable : ∀ b ∈ text, Printable b) (hquote : QUOTE ∈ text) :
    html.resolve (text.takeWhile (· ≠ QUOTE)) ≠ text := by
  intro hback
  have hle := html.resolve_short (fun b hb => hprintable b (hback ▸ hb))
  rw [hback] at hle
  have hwhole := (List.takeWhile_prefix (· ≠ QUOTE)).eq_of_length_le hle
  have hne := List.takeWhile_eq_self_iff.mp hwhole QUOTE hquote
  exact absurd hne (by decide)

/-- A configuration that comes back has no quotes in it. -/
theorem unchanged_quotes (hform : Submittable num cfg)
    (h : setPairs num.floatingPoint cfg (postedPairs html (pageText num cfg)) = some cfg')
    (hsame : Unchanged num cfg cfg') : ∀ row ∈ formRows, QUOTE ∉ row.value num.floatingPoint cfg := by
  cases hfind : formRows.find? fun row => decide (QUOTE ∈ row.value num.floatingPoint cfg) with
  | none =>
    intro row hrow hquote
    exact List.find?_eq_none.mp hfind row hrow (decide_eq_true hquote)
  | some row =>
    exfalso
    obtain ⟨hquote, before, after, hrows, hbefore⟩ := List.find?_eq_some_iff_append.mp hfind
    have hquote := of_decide_eq_true hquote
    have hplain : ∀ row ∈ before, QUOTE ∉ row.value num.floatingPoint cfg := by simpa using hbefore
    have hrow : row ∈ formRows := hrows ▸ List.mem_append_right before List.mem_cons_self
    obtain ⟨f, hmember, hm, hvalue⟩ | ⟨_, hunreserved, _⟩ := value_cases hform hrow
    · rw [hvalue] at hquote
      have hsaved := saved_cut hform hrows hplain hmember hm h
      have hback := eq_of_take_eq (hsaved.symm.trans (hsame.strings hm)) (length_cstring_lt (hform.ended hm))
      exact resolve_cut_ne (hform.printable hm) hquote hback
    · exact notMem_of_unreserved hunreserved (by decide) hquote

theorem setPairs_isSome {fp : FloatingPoint} {pairs : List (List UInt8 × List UInt8)}
    (h : ∀ pair ∈ pairs, PairFits pair) (cfg : SYSCFG) : ∃ cfg', setPairs fp cfg pairs = some cfg' := by
  induction pairs generalizing cfg with
  | nil => exact ⟨cfg, rfl⟩
  | cons pair pairs ih =>
    obtain ⟨hpair, hpairs⟩ := List.forall_mem_cons.mp h
    obtain ⟨cfg₁, hset⟩ := Option.isSome_iff_exists.mp ((setPair_isSome fp cfg pair.1 pair.2).mpr hpair)
    obtain ⟨cfg', hrest⟩ := ih hpairs cfg₁
    exact ⟨cfg', Option.bind_eq_some_iff.mpr ⟨cfg₁, hset, hrest⟩⟩

/-- What the page shows fits where it is put. -/
theorem shown_fits (hform : Submittable num cfg)
    (hreferences : ∀ {name f}, (name, .string f) ∈ formMembers →
      html.resolve (cstring (cfg.get f)) = cstring (cfg.get f)) :
    ∀ pair ∈ shownPairs html num cfg formRows, PairFits pair := by
  intro pair hpair
  obtain ⟨row, hrow, rfl⟩ := List.mem_map.mp hpair
  have hkey : (postedPair html (row.name, row.value num.floatingPoint cfg)).1 = ascii row.name := encode_name hrow
  have hdecoded : HTTPConfig_HTMLEntityDecode (postedPair html (row.name, row.value num.floatingPoint cfg)).2 =
      html.resolve (row.value num.floatingPoint cfg) :=
    entityDecode_encodes (encodes_encode _) (html.resolve_text (value_text row))
  unfold PairFits
  rw [hkey, hdecoded]
  refine ⟨(formRows_names row hrow).2, ?_, fun f hf => ?_⟩
  · change (encode (html.resolve (row.value num.floatingPoint cfg))).length < 64
    obtain ⟨f, _, hm, hvalue⟩ | ⟨hplain, hunreserved, hlength⟩ := value_cases hform hrow
    · rw [hvalue, hreferences hm]
      exact hform.short hm
    · rw [resolve_value hplain, encode_of_unreserved hunreserved]
      exact hlength
  · have hmember : row.member = .string f := Option.some.inj ((memberOf_name (row_mem hrow)).symm.trans hf)
    have hm : (row.name, .string f) ∈ formMembers := hmember ▸ row_mem hrow
    have hfit := Field.members_fit f (formMembers_field hm)
    have hlength := length_cstring_lt (hform.ended hm)
    rw [value_string hmember, stringMember_eq (hform.ended hm), hreferences hm]
    exact show f.offset + ((cstring (cfg.get f)).length + 1) ≤ sizeofSYSCFG by omega

variable {clientId recieveBuffer : List UInt8} {d : Device}

theorem setData_posted
    (hbody : Carries recieveBuffer (postedForm html (HTTPConfig_GetForm num.floatingPoint clientId d).2)) :
    HTTPConfig_SetData num.floatingPoint clientId recieveBuffer (HTTPConfig_GetForm num.floatingPoint clientId d).1 =
      (setPairs num.floatingPoint (CFG_Load clientId d).sysCfg
        (postedPairs html (pageText num (CFG_Load clientId d).sysCfg))).map fun cfg =>
          CFG_Save { CFG_Load clientId (CFG_Load clientId d) with sysCfg := cfg } := by
  have hkeys : ∀ pair ∈ postedPairs html (pageText num (CFG_Load clientId d).sysCfg), EQUALS ∉ pair.1 := by
    intro pair hpair
    obtain ⟨input, _, rfl⟩ := List.mem_map.mp hpair
    exact equals_notMem_encode _
  have hvalues : ∀ pair ∈ postedPairs html (pageText num (CFG_Load clientId d).sysCfg), AMPERSAND ∉ pair.2 := by
    intro pair hpair
    obtain ⟨input, _, rfl⟩ := List.mem_map.mp hpair
    exact (encodes_encode _).ampersand_notMem
  have hloop : formLoop num.floatingPoint (CFG_Load clientId d).sysCfg
      (postedForm html (pageText num (CFG_Load clientId d).sysCfg)) = _ :=
    formLoop_joined _ _ hkeys hvalues
  have hdevice : (HTTPConfig_GetForm num.floatingPoint clientId d).1 = CFG_Load clientId d := rfl
  rw [page_eq] at hbody
  rw [hdevice, setData_carries _ hbody, CFG_Load_again, hloop]
  rfl

section Submitted

variable (hform : Submittable num (CFG_Load clientId d).sysCfg)
  (hbody : Carries recieveBuffer (postedForm html (HTTPConfig_GetForm num.floatingPoint clientId d).2))
include hform hbody

theorem unmarked_of_unchanged {d' : Device}
    (hset : HTTPConfig_SetData num.floatingPoint clientId recieveBuffer
      (HTTPConfig_GetForm num.floatingPoint clientId d).1 = some d')
    (hsame : Unchanged num (CFG_Load clientId d).sysCfg (activeSysCfg d'.flash)) :
    Unmarked html num (CFG_Load clientId d).sysCfg := by
  rw [setData_posted hbody] at hset
  obtain ⟨cfg', hpairs, rfl⟩ := Option.map_eq_some_iff.mp hset
  rw [CFG_Save_active] at hsame
  have hquotes := unchanged_quotes hform hpairs hsame
  rw [postedPairs_page hquotes] at hpairs
  obtain ⟨hreferences, hwhole⟩ := (shown_unchanged_iff hpairs hform).mp hsame
  refine ⟨fun hm => ?_, hreferences, hwhole⟩
  obtain ⟨row, hrow, _, hmember⟩ := mem_row hm
  have hvalue := hquotes row hrow
  rwa [value_string hmember, stringMember_eq (hform.ended hm)] at hvalue

theorem unchanged_of_unmarked (hunmarked : Unmarked html num (CFG_Load clientId d).sysCfg) :
    ∃ d', HTTPConfig_SetData num.floatingPoint clientId recieveBuffer
        (HTTPConfig_GetForm num.floatingPoint clientId d).1 = some d' ∧
      Unchanged num (CFG_Load clientId d).sysCfg (activeSysCfg d'.flash) := by
  have hquotes : ∀ row ∈ formRows, QUOTE ∉ row.value num.floatingPoint (CFG_Load clientId d).sysCfg := by
    intro row hrow
    obtain ⟨f, _, hm, hvalue⟩ | ⟨_, hunreserved, _⟩ := value_cases hform hrow
    · rw [hvalue]
      exact hunmarked.quotes hm
    · exact notMem_of_unreserved hunreserved (by decide)
  obtain ⟨cfg', hpairs⟩ := setPairs_isSome (shown_fits hform hunmarked.references) (CFG_Load clientId d).sysCfg
  rw [setData_posted hbody, postedPairs_page hquotes, hpairs]
  refine ⟨_, rfl, ?_⟩
  rw [CFG_Save_active]
  exact (shown_unchanged_iff hpairs hform).mpr ⟨hunmarked.references, hunmarked.whole⟩

end Submitted

/-- **When submitting the form as it is shown changes nothing**: no string holds a quote or anything
that HTML replaces, and every multiplier is a value of `int`. -/
theorem resubmitted_unchanged_iff (hform : Submittable num (CFG_Load clientId d).sysCfg)
    (hbody : Carries recieveBuffer (postedForm html (HTTPConfig_GetForm num.floatingPoint clientId d).2)) :
    (∃ d', HTTPConfig_SetData num.floatingPoint clientId recieveBuffer
        (HTTPConfig_GetForm num.floatingPoint clientId d).1 = some d' ∧
      Unchanged num (CFG_Load clientId d).sysCfg (activeSysCfg d'.flash)) ↔
        Unmarked html num (CFG_Load clientId d).sysCfg :=
  ⟨fun ⟨_, hset, hsame⟩ => unmarked_of_unchanged hform hbody hset hsame, unchanged_of_unmarked hform hbody⟩

/-! ## Two multipliers -/

/-- A stored configuration with a network, a port, and a multiplier of the given bytes. -/
def networkSysCfg (multiplier : List UInt8) : SYSCFG :=
  let cfg := SYSCFG.zero.put Field.cfg_holder.offset (uint32 CFG_HOLDER)
  let cfg := cfg.put Field.sta_ssid.offset (ascii "net & <lab>" ++ [0])
  let cfg := cfg.put Field.mqtt_port.offset (uint32 1883)
  cfg.put Field.mqtt_muladc0.offset multiplier

def networkDevice (multiplier : List UInt8) : Device := CFG_Save ⟨fun _ => 0, networkSysCfg multiplier, ⟨0, []⟩⟩

/-- References are not resolved, as they would not be in the texts of these pages. -/
def noReferences : CharacterReferences where
  resolve s := s
  resolve_plain _ _ := rfl
  resolve_text h := h
  resolve_short _ := Nat.le_refl _

section Network

variable {multiplier : List UInt8} (hsize : multiplier.length = 8)
include hsize

theorem network_other {f : Field} (hf : f ∈ Field.members)
    (h : f ∉ [Field.cfg_holder, .sta_ssid, .mqtt_port, .mqtt_muladc0]) :
    (networkSysCfg multiplier).get f = List.replicate f.size 0 := by
  simp only [List.mem_cons, List.not_mem_nil, or_false, not_or] at h
  obtain ⟨hholder, hssid, hport, hmul⟩ := h
  have hfit := Field.members_fit f hf
  rw [networkSysCfg, SYSCFG.get_put_other _ hf (by decide) hmul hsize.le,
    SYSCFG.get_put_other _ hf (by decide) hport (by decide), SYSCFG.get_put_other _ hf (by decide) hssid (by decide),
    SYSCFG.get_put_other _ hf (by decide) hholder (by decide), SYSCFG.get, SYSCFG.zero, List.drop_replicate,
    List.take_replicate, Nat.min_eq_left (by omega)]

theorem network_multiplier : (networkSysCfg multiplier).get .mqtt_muladc0 = multiplier :=
  SYSCFG.get_put _ hsize (by decide)

theorem network_holder : (networkSysCfg multiplier).word .cfg_holder = CFG_HOLDER := by
  have hget : (networkSysCfg multiplier).get .cfg_holder = uint32 CFG_HOLDER := by
    rw [networkSysCfg, SYSCFG.get_put_other _ (by decide) (by decide) (by decide) hsize.le,
      SYSCFG.get_put_other _ (by decide) (by decide) (by decide) (by decide),
      SYSCFG.get_put_other _ (by decide) (by decide) (by decide) (by decide)]
    exact SYSCFG.get_put _ rfl (by decide)
  rw [SYSCFG.word, hget]
  rfl

theorem network_ssid : ∃ rest, (networkSysCfg multiplier).get .sta_ssid = ascii "net & <lab>" ++ 0 :: rest := by
  rw [networkSysCfg, SYSCFG.get_put_other _ (by decide) (by decide) (by decide) hsize.le,
    SYSCFG.get_put_other _ (by decide) (by decide) (by decide) (by decide), SYSCFG.get_put_take _ (by decide),
    List.take_of_length_le (by decide), List.append_assoc]
  exact ⟨_, rfl⟩

/-- A field of the form is one of the three that are set, or it is zero. -/
theorem network_member {name : String} {m : Member} (hm : (name, m) ∈ formMembers) :
    m = .string .sta_ssid ∨ m = .number .mqtt_port ∨ m = .multiplier .mqtt_muladc0 ∨
      (networkSysCfg multiplier).get m.field = List.replicate m.field.size 0 := by
  by_cases hset : m.field ∈ [Field.cfg_holder, .sta_ssid, .mqtt_port, .mqtt_muladc0]
  · have hall : ∀ entry ∈ formMembers, entry.2.field ∈ [Field.cfg_holder, .sta_ssid, .mqtt_port, .mqtt_muladc0] →
        entry.2 = .string .sta_ssid ∨ entry.2 = .number .mqtt_port ∨ entry.2 = .multiplier .mqtt_muladc0 := by decide
    obtain hssid | hport | hmul := hall _ hm hset
    · exact .inl hssid
    · exact .inr (.inl hport)
    · exact .inr (.inr (.inl hmul))
  · exact .inr (.inr (.inr (network_other hsize (formMembers_field hm) hset)))

theorem network_string {name : String} {f : Field} (hm : (name, .string f) ∈ formMembers) :
    0 ∈ (networkSysCfg multiplier).get f ∧
      (cstring ((networkSysCfg multiplier).get f) = [] ∨
        cstring ((networkSysCfg multiplier).get f) = ascii "net & <lab>") := by
  obtain hssid | hport | hmul | hzero := network_member hsize hm
  · cases hssid
    obtain ⟨rest, hget⟩ := network_ssid hsize
    rw [hget, cstring_append (by decide)]
    exact ⟨List.mem_append_right _ List.mem_cons_self, .inr (List.append_nil _)⟩
  · cases hport
  · cases hmul
  · have hsizes : ∀ g ∈ Field.members, g.size ≠ 0 := by decide
    obtain ⟨n, hn⟩ := Nat.exists_eq_succ_of_ne_zero (hsizes f (formMembers_field hm))
    have hget : (networkSysCfg multiplier).get f = 0 :: List.replicate n 0 :=
      hzero.trans (congrArg (List.replicate · 0) hn)
    rw [hget]
    exact ⟨List.mem_cons_self, .inl rfl⟩

theorem network_load {name : String} {f : Field} (hm : (name, .multiplier f) ∈ formMembers) :
    binary64.load ((networkSysCfg multiplier).get f) = binary64.load multiplier ∨
      binary64.load ((networkSysCfg multiplier).get f) = 0 := by
  obtain hssid | hport | hmul | hzero := network_member hsize hm
  · cases hssid
  · cases hport
  · cases hmul
    rw [network_multiplier hsize]
    exact .inl rfl
  · have hsized : f.size = 8 := formMembers_sized hm
    have hget : (networkSysCfg multiplier).get f = List.replicate 8 0 :=
      hzero.trans (congrArg (List.replicate · 0) hsized)
    have hbits : littleEndian (List.replicate 8 0) = 0 := by decide
    have hdecoded : Binary64.decode (littleEndian (List.replicate 8 0)) = 0 := by
      rw [hbits]
      norm_num [Binary64.decode, Binary64.magnitude]
    rw [hget]
    exact .inr hdecoded

theorem network_loaded (clientId : List UInt8) :
    (CFG_Load clientId (networkDevice multiplier)).sysCfg = networkSysCfg multiplier := by
  have hactive : activeSysCfg (networkDevice multiplier).flash = networkSysCfg multiplier := CFG_Save_active _
  rw [CFG_Load_active (hactive.symm ▸ network_holder hsize)]
  exact hactive

theorem network_value_length (hshort : (printDecimal (binary64.toInt (binary64.load multiplier))).length ≤ 10)
    {row : Row} (hrow : row ∈ formRows) :
    (row.value binary64.floatingPoint (networkSysCfg multiplier)).length ≤ 13 := by
  have hm := row_mem hrow
  cases hmember : row.member with
  | string f =>
    obtain ⟨hended, hnil | htext⟩ := network_string hsize (hmember ▸ hm)
    · rw [value_string hmember, stringMember_eq hended, hnil]
      decide
    · rw [value_string hmember, stringMember_eq hended, htext]
      decide +kernel
  | number f =>
    rw [value_number hmember]
    exact (length_printDecimal (fitsInt_bmod _)).trans (by decide)
  | multiplier f =>
    rw [value_multiplier hmember, List.length_append]
    obtain hmul | hzero := network_load hsize (hmember ▸ hm)
    · rw [hmul]
      exact Nat.add_le_add_right hshort 3
    · have hint : binary64.toInt 0 = 0 := binary64.toInt_intCast (n := 0) (by decide)
      rw [hzero, hint]
      decide

theorem network_submittable (hundredths : ℤ) (hload : binary64.load multiplier = hundredths / 100)
    (hshort : (printDecimal (binary64.toInt (binary64.load multiplier))).length ≤ 10) :
    Submittable binary64 (networkSysCfg multiplier) where
  ended hm := (network_string hsize hm).1
  printable hm := by
    obtain hnil | htext := (network_string hsize hm).2
    · rw [hnil]
      exact List.forall_mem_nil _
    · rw [htext]
      decide +kernel
  short hm := by
    obtain hnil | htext := (network_string hsize hm).2
    · rw [hnil]
      decide
    · rw [htext]
      decide +kernel
  decimals hm := by
    obtain hmul | hzero := network_load hsize hm
    · exact ⟨hundredths, hmul.trans hload⟩
    · exact ⟨0, by rw [hzero, Int.cast_zero, zero_div]⟩
  rows row hrow := by
    have hframes : ∀ row ∈ formRows, (row.front ++ inputHead row.name ++ QUOTE :: row.rest).length ≤ 114 := by
      decide +kernel
    have hframe := hframes row hrow
    have hvalue := network_value_length hsize hshort hrow
    rw [Row.append_eq, List.nil_append, Row.text]
    simp only [List.length_append, List.length_cons] at hframe ⊢
    omega

end Network

/-- The bytes of 3 and of 0.5. -/
def three : List UInt8 := [0, 0, 0, 0, 0, 0, 8, 64]
def half : List UInt8 := [0, 0, 0, 0, 0, 0, 224, 63]

theorem load_three : binary64.load three = 3 := by
  have hbits : littleEndian three = 4613937818241073152 := by decide
  change Binary64.decode (littleEndian three) = 3
  rw [hbits]
  norm_num [Binary64.decode, Binary64.magnitude]

theorem load_half : binary64.load half = 1 / 2 := by
  have hbits : littleEndian half = 4602678819172646912 := by decide
  change Binary64.decode (littleEndian half) = 1 / 2
  rw [hbits]
  norm_num [Binary64.decode, Binary64.magnitude]

/-- A body behind the shortest header. -/
theorem carries_post (body : List UInt8) :
    Carries (ascii "POST / HTTP/1.1" ++ (ascii "\r\n\r\n" ++ body)) body :=
  ⟨15, find_append (by decide) (by decide) body, rfl⟩

/-- A network with an ampersand and a multiplier of 3 come back. -/
theorem resubmitted_unchanged_three :
    let shown := HTTPConfig_GetForm binary64.floatingPoint [] (networkDevice three)
    ∃ d', HTTPConfig_SetData binary64.floatingPoint []
        (ascii "POST / HTTP/1.1" ++ (ascii "\r\n\r\n" ++ postedForm noReferences shown.2)) shown.1 = some d' ∧
      Unchanged binary64 (CFG_Load [] (networkDevice three)).sysCfg (activeSysCfg d'.flash) := by
  have hsize : three.length = 8 := rfl
  have hint : binary64.toInt 3 = 3 := binary64.toInt_intCast (n := 3) (by decide)
  have hform : Submittable binary64 (CFG_Load [] (networkDevice three)).sysCfg := by
    rw [network_loaded hsize]
    refine network_submittable hsize 300 ?_ ?_
    · rw [load_three]
      norm_num
    · rw [load_three, hint]
      decide
  refine (resubmitted_unchanged_iff hform (carries_post _)).mpr ?_
  rw [network_loaded hsize]
  refine ⟨fun hm => ?_, fun _ => rfl, fun hm => ?_⟩
  · obtain hnil | htext := (network_string hsize hm).2
    · rw [hnil]
      decide
    · rw [htext]
      decide +kernel
  · obtain hmul | hzero := network_load hsize hm
    · exact ⟨3, by decide, by rw [hmul, load_three]; norm_num⟩
    · exact ⟨0, by decide, by rw [hzero]; norm_num⟩

/-- A multiplier of 0.5 is shown as "0.00". -/
theorem half_lost :
    let shown := HTTPConfig_GetForm binary64.floatingPoint [] (networkDevice half)
    Submittable binary64 (CFG_Load [] (networkDevice half)).sysCfg ∧
      ¬ ∃ d', HTTPConfig_SetData binary64.floatingPoint []
          (ascii "POST / HTTP/1.1" ++ (ascii "\r\n\r\n" ++ postedForm noReferences shown.2)) shown.1 = some d' ∧
        Unchanged binary64 (CFG_Load [] (networkDevice half)).sysCfg (activeSysCfg d'.flash) := by
  have hsize : half.length = 8 := rfl
  have hint : binary64.toInt (1 / 2) = 0 := by decide +kernel
  have hform : Submittable binary64 (CFG_Load [] (networkDevice half)).sysCfg := by
    rw [network_loaded hsize]
    refine network_submittable hsize 50 ?_ ?_
    · rw [load_half]
      norm_num
    · rw [load_half, hint]
      decide
  refine ⟨hform, ?_⟩
  rintro ⟨d', hset, hsame⟩
  have hunmarked := unmarked_of_unchanged hform (carries_post _) hset hsame
  rw [network_loaded hsize] at hunmarked
  have hm : ("mqtt_muladc0", Member.multiplier .mqtt_muladc0) ∈ formMembers := by decide
  obtain ⟨n, _, hn⟩ := hunmarked.whole hm
  rw [network_multiplier hsize, load_half, div_eq_iff (by norm_num)] at hn
  have hodd : 1 = n * 2 := by exact_mod_cast hn
  omega

end LightSleepMqtt.Http
