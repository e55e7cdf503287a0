import LightSleepMqtt.Http.Page
import LightSleepMqtt.Library.FormEncoding

/-! A browser that is given the page of `HTTPConfig_GetForm` and posts its form: it reads each input's
value up to the closing quote, replaces the character references of HTML in it, and encodes it. -/
namespace LightSleepMqtt.Http
open Config FormEncoding Substring
set_option autoImplicit false

abbrev QUOTE : UInt8 := 39

/-! ## The form a browser posts -/

/-- A character of ASCII that is not a control character. -/
def Printable (b : UInt8) : Prop := 32 ≤ b ∧ b ≤ 126

instance (b : UInt8) : Decidable (Printable b) := inferInstanceAs (Decidable (_ ∧ _))

/-- The character references that HTML knows, such as `&lt;`: all begin with '&', none of them
stands for NUL, and one that stands for ASCII is longer than that. -/
structure CharacterReferences where
  resolve : List UInt8 → List UInt8
  resolve_plain : ∀ {s}, (∀ b ∈ s, Printable b) → AMPERSAND ∉ s → resolve s = s
  resolve_text : ∀ {s}, 0 ∉ s → 0 ∉ resolve s
  resolve_short : ∀ {s}, (∀ b ∈ resolve s, Printable b) → (resolve s).length ≤ s.length

/-- The text of an input in front of its value. -/
def inputHead (name : String) : List UInt8 := ascii "<input name='" ++ ascii name ++ ascii "' value='"

/-- The inputs of the given names with the texts of their values. The search for the next input
goes on at the closing quote of the one before. -/
def readInputs : List String → List UInt8 → List (String × List UInt8)
  | [], _ => []
  | name :: names, page =>
    match strstr page (inputHead name) with
    | none => readInputs names page
    | some found =>
      let rest := page.drop (found + (inputHead name).length)
      (name, rest.takeWhile (· ≠ QUOTE)) :: readInputs names (rest.dropWhile (· ≠ QUOTE))

/-- An input as it stands in the body of the request. -/
def postedPair (html : CharacterReferences) (input : String × List UInt8) : List UInt8 × List UInt8 :=
  (encode (ascii input.1), encode (html.resolve input.2))

def postedForm (html : CharacterReferences) (page : List UInt8) : List UInt8 :=
  joined ((readInputs (formRows.map Row.name) page).map (postedPair html))

/-! ## The rows as a browser reads them -/

variable (fp : FloatingPoint) (cfg : SYSCFG)

/-- What stands in front of the input. -/
def Row.front (row : Row) : List UInt8 := ascii "<tr>\t\t<td>" ++ ascii row.label ++ ascii ":</td>\t\t<td>"

/-- The value between the quotes. -/
def Row.value (row : Row) : List UInt8 :=
  match row.member with
  | .string f => stringMember cfg f
  | .number f => printDecimal (Int.bmod (cfg.word f) 4294967296)
  | .multiplier f => ftoa fp (fp.float.ofInt (fp.double.toInt (fp.load (cfg.get f)))) 2

/-- What follows the closing quote. -/
def Row.rest (row : Row) : List UInt8 :=
  match row.member with
  | .string f =>
    ascii " maxlength='" ++ printDecimal f.size ++ ascii "' type='" ++ ascii row.type ++ ascii "'></td>\t</tr>"
  | .number _ => ascii " type='" ++ ascii row.type ++ ascii "'></td>\t</tr>"
  | .multiplier _ => ascii " type='number' step='.01'></td>\t</tr>"

def Row.text (row : Row) : List UInt8 := row.front ++ (inputHead row.name ++ (row.value fp cfg ++ QUOTE :: row.rest))

theorem ascii_append (s t : String) : ascii (s ++ t) = ascii s ++ ascii t := by
  rw [ascii, String.toList_append, List.map_append]
  rfl

theorem Row.append_eq (row : Row) (html : List UInt8) : row.append fp cfg html = html ++ row.text fp cfg := by
  obtain ⟨label, name, member, type⟩ := row
  have hinput : ascii ":</td>\t\t<td><input name='" = ascii ":</td>\t\t<td>" ++ ascii "<input name='" :=
    ascii_append ":</td>\t\t<td>" "<input name='"
  have hmaxlength : ascii "' maxlength='" = QUOTE :: ascii " maxlength='" := rfl
  have htype : ascii "' type='" = QUOTE :: ascii " type='" := rfl
  have hstep : ascii "' type='number' step='.01'></td>\t</tr>" =
    QUOTE :: ascii " type='number' step='.01'></td>\t</tr>" := rfl
  cases member with
  | string f =>
    simp only [Row.append, HTTPConfig_GetFormInputString, text, front, value, rest, inputHead, hinput, hmaxlength,
      List.append_assoc, List.cons_append]
  | number f =>
    simp only [Row.append, HTTPConfig_GetFormInputNumber, text, front, value, rest, inputHead, hinput, htype,
      List.append_assoc, List.cons_append]
  | multiplier f =>
    simp only [Row.append, HTTPConfig_GetFormInputFloat, text, front, value, rest, inputHead, hinput, hstep,
      List.append_assoc]

theorem foldl_append_eq (rows : List Row) (html : List UInt8) :
    rows.foldl (Row.append fp cfg) html = html ++ rows.flatMap (Row.text fp cfg) := by
  induction rows generalizing html with
  | nil => exact (List.append_nil html).symm
  | cons row rows ih => rw [List.foldl_cons, ih, Row.append_eq, List.flatMap_cons, List.append_assoc]

/-! ## Reading the page -/

/-- Between one input and the next, the text in front of the value occurs only at its end. -/
def Separated : List UInt8 → List Row → Prop
  | _, [] => True
  | gap, row :: rows =>
    strstr (gap ++ row.front ++ (inputHead row.name).dropLast) (inputHead row.name) = none ∧
      Separated (QUOTE :: row.rest) rows

instance : (gap : List UInt8) → (rows : List Row) → Decidable (Separated gap rows)
  | _, [] => .isTrue trivial
  | _, row :: rows =>
    have := instDecidableSeparated (QUOTE :: row.rest) rows
    inferInstanceAs (Decidable (_ ∧ _))

/-- Literals as lists of characters, on which `decide` is fast. -/
theorem ascii_six (a b c d e f : List Char) :
    ascii (.ofList a ++ .ofList b ++ .ofList c ++ .ofList d ++ .ofList e ++ .ofList f) =
      (a ++ b ++ c ++ d ++ e ++ f).map Char.toUInt8 := by
  rw [ascii]
  simp only [String.toList_append, String.toList_ofList]

theorem formRows_separated : Separated (ascii formHead) formRows := by
  have hhead : ascii formHead = _ := ascii_six _ _ _ _ _ _
  rw [hhead]
  decide +kernel

variable {fp cfg}

theorem takeWhile_quote (value page : List UInt8) :
    (value ++ QUOTE :: page).takeWhile (· ≠ QUOTE) = value.takeWhile (· ≠ QUOTE) := by
  induction value with
  | nil => rfl
  | cons b value ih =>
    rw [List.cons_append, List.takeWhile_cons, List.takeWhile_cons, ih]

/-- An input is read where it stands. -/
theorem readInputs_cons {gap : List UInt8} {row : Row} {rows : List Row} (h : Separated gap (row :: rows))
    (names : List String) (page : List UInt8) :
    readInputs (row.name :: names) (gap ++ (row.text fp cfg ++ page)) =
      (row.name, (row.value fp cfg ++ QUOTE :: (row.rest ++ page)).takeWhile (· ≠ QUOTE)) ::
        readInputs names ((row.value fp cfg ++ QUOTE :: (row.rest ++ page)).dropWhile (· ≠ QUOTE)) := by
  have hne : inputHead row.name ≠ [] := List.cons_ne_nil _ _
  have hpage : gap ++ (row.text fp cfg ++ page) =
      (gap ++ row.front) ++ (inputHead row.name ++ (row.value fp cfg ++ QUOTE :: (row.rest ++ page))) := by
    simp only [Row.text, List.append_assoc, List.cons_append]
  have hfound : strstr (gap ++ (row.text fp cfg ++ page)) (inputHead row.name) = some (gap ++ row.front).length :=
    hpage ▸ find_append hne h.1 _
  have hrest : (gap ++ (row.text fp cfg ++ page)).drop ((gap ++ row.front).length + (inputHead row.name).length) =
      row.value fp cfg ++ QUOTE :: (row.rest ++ page) := by
    rw [hpage, List.drop_length_add_append, List.drop_append_length]
  rw [readInputs, hfound]
  simp only [hrest]

/-- A value without quotes is read as it stands, and the search goes on at its closing quote. -/
theorem readInputs_plain {gap : List UInt8} {row : Row} {rows : List Row} (h : Separated gap (row :: rows))
    (hvalue : QUOTE ∉ row.value fp cfg) (names : List String) (page : List UInt8) :
    readInputs (row.name :: names) (gap ++ (row.text fp cfg ++ page)) =
      (row.name, row.value fp cfg) :: readInputs names (QUOTE :: row.rest ++ page) := by
  have hplain : ∀ b ∈ row.value fp cfg, decide (b ≠ QUOTE) = true := fun b hb =>
    decide_eq_true fun heq => hvalue (heq ▸ hb)
  rw [readInputs_cons h, takeWhile_quote, List.takeWhile_eq_self_iff.mpr hplain, List.dropWhile_append_of_pos hplain]
  rfl

theorem readInputs_rows {gap : List UInt8} {rows : List Row} (h : Separated gap rows)
    (hvalues : ∀ row ∈ rows, QUOTE ∉ row.value fp cfg) (page : List UInt8) :
    readInputs (rows.map Row.name) (gap ++ (rows.flatMap (Row.text fp cfg) ++ page)) =
      rows.map fun row => (row.name, row.value fp cfg) := by
  induction rows generalizing gap with
  | nil => rfl
  | cons row rows ih =>
    obtain ⟨hvalue, hvalues⟩ := List.forall_mem_cons.mp hvalues
    rw [List.map_cons, List.flatMap_cons, List.append_assoc, readInputs_plain h hvalue, ih h.2 hvalues, List.map_cons]

/-- The first value with a quote is cut at it; what is read behind it does not matter. -/
theorem readInputs_cut {gap : List UInt8} {before after : List Row} {row : Row}
    (h : Separated gap (before ++ row :: after)) (hvalues : ∀ row ∈ before, QUOTE ∉ row.value fp cfg)
    (page : List UInt8) :
    ∃ page', readInputs ((before ++ row :: after).map Row.name)
        (gap ++ ((before ++ row :: after).flatMap (Row.text fp cfg) ++ page)) =
      before.map (fun row => (row.name, row.value fp cfg)) ++
        (row.name, (row.value fp cfg).takeWhile (· ≠ QUOTE)) :: readInputs (after.map Row.name) page' := by
  induction before generalizing gap with
  | nil =>
    rw [List.nil_append, List.map_cons, List.flatMap_cons, List.append_assoc, readInputs_cons h, takeWhile_quote]
    exact ⟨_, rfl⟩
  | cons first before ih =>
    obtain ⟨hvalue, hvalues⟩ := List.forall_mem_cons.mp hvalues
    obtain ⟨page', hread⟩ := ih h.2 hvalues
    refine ⟨page', ?_⟩
    rw [List.cons_append, List.map_cons, List.flatMap_cons, List.append_assoc, readInputs_plain h hvalue, hread,
      List.map_cons, List.cons_append]

theorem readInputs_names (names : List String) (page : List UInt8) :
    ((readInputs names page).map Prod.fst).Sublist names := by
  induction names generalizing page with
  | nil => exact .slnil
  | cons name names ih =>
    rw [readInputs]
    split
    · exact (ih page).cons name
    · exact (ih _).cons_cons name

end LightSleepMqtt.Http
