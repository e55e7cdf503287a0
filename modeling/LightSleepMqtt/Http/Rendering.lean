import LightSleepMqtt.Http.Browser
import LightSleepMqtt.Http.Parse

/-! The memory in which the page is rendered: each row in a block of its own, and the page in a block
that grows with it. Each resize for a row counts the bytes of the page and of the row, but not the
NUL that `strcat` writes behind them. -/
namespace LightSleepMqtt.Http
open Config
set_option autoImplicit false

/-- `os_sprintf` or `strcpy` into a block. -/
def writeText (block : ℕ) (text : List UInt8) : Option (List UInt8) := if text.length + 1 ≤ block then some text else none

def strcat (block : ℕ) (s t : List UInt8) : Option (List UInt8) :=
  if s.length + t.length + 1 ≤ block then some (s ++ t) else none

variable (fp : FloatingPoint) (cfg : SYSCFG)

/-- What the three functions for a row have in common. -/
def appendRow (buffer : List UInt8) (row : Row) : Option (List UInt8) := do
  let html ← writeText 128 (row.append fp cfg [])
  strcat (buffer.length + html.length) buffer html

/-- `HTTPConfig_GetForm`; the head goes to the first block of the page. -/
def renderForm : Option (List UInt8) := do
  let html ← writeText 4096 (ascii formHead)
  let html ← formRows.foldlM (appendRow fp cfg) html
  strcat (html.length + 130) html (ascii formFoot)

/-! ## Where there is room -/

theorem writeText_isSome {block : ℕ} {text : List UInt8} : (writeText block text).isSome ↔ text.length < block := by
  unfold writeText
  split
  · next hfits => exact iff_of_true rfl hfits
  · next hfull => exact iff_of_false (by simp) hfull

theorem head_fits : writeText 4096 (ascii formHead) = some (ascii formHead) := by
  have hhead : ascii formHead = _ := ascii_six _ _ _ _ _ _
  rw [hhead]
  exact if_pos (by decide +kernel)

/-- The last resize has 18 bytes left. -/
theorem foot_fits (html : List UInt8) : strcat (html.length + 130) html (ascii formFoot) = some (html ++ ascii formFoot) := by
  have hfoot : (ascii formFoot).length = 112 := by decide +kernel
  exact if_pos (by omega)

/-- The bytes of a row around its value. -/
def Row.markup (row : Row) : ℕ := (row.front ++ (inputHead row.name ++ QUOTE :: row.rest)).length

theorem Row.length_append (row : Row) : (row.append fp cfg []).length = row.markup + (row.value fp cfg).length := by
  rw [Row.append_eq, Row.text, Row.markup]
  simp only [List.nil_append, List.length_append, List.length_cons]
  omega

/-- A row fits its block if its value is short. -/
theorem row_fits_iff (row : Row) :
    (writeText 128 (row.append fp cfg [])).isSome ↔ row.markup + (row.value fp cfg).length < 128 := by
  rw [writeText_isSome, Row.length_append]

/-- For every string there is a value that fits its member, but not its row. -/
theorem string_rows_narrow : ∀ row ∈ formRows, ∀ f, row.member = .string f → 128 < row.markup + f.size := by
  have hall : ∀ row ∈ formRows, 128 < row.markup + row.member.field.size ∨ row.member ≠ .string row.member.field := by
    decide +kernel
  intro row hrow f hf
  have hrow := hall row hrow
  rw [hf] at hrow
  exact hrow.resolve_right fun hne => hne rfl

/-! ## Where there is none -/

/-- The NUL goes behind the block at every row. -/
theorem appendRow_outside (buffer : List UInt8) (row : Row) : appendRow fp cfg buffer row = none := by
  rw [appendRow]
  cases hrow : writeText 128 (row.append fp cfg []) with
  | none => rfl
  | some html => exact if_neg (by omega)

theorem renderForm_outside : renderForm fp cfg = none := by
  have hfirst : formRows.foldlM (appendRow fp cfg) (ascii formHead) = none := by
    rw [formRows, List.foldlM_cons, appendRow_outside]
    rfl
  rw [renderForm, head_fits, Option.bind_eq_bind, Option.bind_some, hfirst]
  rfl

/-- **No page is rendered inside its memory**, whatever the configuration. -/
theorem form_never_inside : ¬ (renderForm fp cfg).isSome := by
  rw [renderForm_outside]
  exact Bool.false_ne_true

/-- Not even with empty strings. -/
theorem empty_form_not_inside : ¬ (renderForm binary64.floatingPoint .zero).isSome := by
  rw [renderForm_outside]
  exact Bool.false_ne_true

end LightSleepMqtt.Http
