import Mathlib.Data.Int.Notation
import Mathlib.Data.List.TakeWhile
import LightSleepMqtt.Config.Store
import LightSleepMqtt.Library.Substring

/-! The form of `http_config.c` on its way into `sysCfg`: `HTTPConfig_HTMLEntityDecode`, `os_atof`
and `HTTPConfig_SetData`. A C string is the list of the bytes in front of its NUL, and `none` is a
write behind the end of a buffer or through a NULL pointer. The compiler's floating point is a
parameter. -/
namespace LightSleepMqtt.Http
open Config Substring
set_option autoImplicit false

/-! ## Strings -/

def ascii (s : String) : List UInt8 := s.toList.map Char.toUInt8

/-- The string at the front of some bytes. -/
def cstring (bytes : List UInt8) : List UInt8 := bytes.takeWhile (· ≠ 0)

theorem cstring_append_of_mem {s : List UInt8} (h : 0 ∈ s) (s' : List UInt8) : cstring (s ++ s') = cstring s := by
  unfold cstring
  rw [List.takeWhile_append, if_neg]
  intro hall
  have hself : s.takeWhile (· ≠ 0) = s := (List.takeWhile_prefix _).eq_of_length hall
  exact absurd (List.takeWhile_eq_self_iff.mp hself 0 h) (by simp)

theorem cstring_append {s : List UInt8} (h : 0 ∉ s) (s' : List UInt8) : cstring (s ++ s') = s ++ cstring s' := by
  unfold cstring
  refine List.takeWhile_append_of_pos fun b hb => ?_
  exact decide_eq_true fun hzero => h (hzero ▸ hb)

theorem cstring_of_notMem {s : List UInt8} (h : 0 ∉ s) : cstring s = s := by
  have happend := cstring_append h []
  rw [List.append_nil] at happend
  exact happend.trans (List.append_nil s)

def strstr (s pat : List UInt8) : Option ℕ := find pat s

def isSpace (b : UInt8) : Bool := b = ' '.toUInt8 || (9 ≤ b && b ≤ 13)

def digit (b : UInt8) : Option ℕ :=
  if '0'.toUInt8 ≤ b ∧ b ≤ '9'.toUInt8 then some (b.toNat - 48)
  else if 'a'.toUInt8 ≤ b ∧ b ≤ 'f'.toUInt8 then some (b.toNat - 87)
  else if 'A'.toUInt8 ≤ b ∧ b ≤ 'F'.toUInt8 then some (b.toNat - 55)
  else none

/-- The number the leading digits of a base make up behind `n`. -/
def readDigits (base : ℕ) : List UInt8 → ℕ → ℕ
  | [], n => n
  | b :: bs, n => ((digit b).filter (· < base)).elim n fun d => readDigits base bs (n * base + d)

/-- `strtol` of the C library: blanks, a sign, the prefix of base 16, and digits as far as they go.
`long` has 32 bits, and a number out of its range becomes the nearest one. -/
def strtol (s : List UInt8) (base : ℕ) : ℤ :=
  let s := s.dropWhile isSpace
  let negative := s.head? = some '-'.toUInt8
  let s := if negative ∨ s.head? = some '+'.toUInt8 then s.tail else s
  let s := if base = 16 ∧ (ascii "0x" <+: s ∨ ascii "0X" <+: s) then s.drop 2 else s
  let n : ℤ := readDigits base s 0
  if negative then max (-n) (-2147483648) else min n 2147483647

def atoi (s : List UInt8) : ℤ := strtol s 10

/-! ## Multipliers -/

/-- Floating point arithmetic as the compiler provides it. -/
structure Arithmetic (α : Type) where
  ofInt : ℤ → α
  toInt : α → ℤ
  add : α → α → α
  sub : α → α → α
  mul : α → α → α
  div : α → α → α

/-- `double` with the bytes of a stored one, and `float`. -/
structure FloatingPoint where
  Double : Type
  Float : Type
  double : Arithmetic Double
  float : Arithmetic Float
  load : List UInt8 → Double
  store : Double → List UInt8
  store_length : ∀ x, (store x).length = 8

variable (fp : FloatingPoint)

/-- The loop of `os_atof`: `point_seen`, `rez` and `fact`. -/
def atofLoop : List UInt8 → Bool → fp.Double → fp.Double → fp.Double
  | [], _, rez, fact => fp.double.mul rez fact
  | c :: cs, point_seen, rez, fact =>
    if c = '.'.toUInt8 then atofLoop cs true rez fact
    else
      let d : ℤ := (c.toNat : ℤ) - 48
      if 0 ≤ d ∧ d ≤ 9 then
        let fact := if point_seen then fp.double.div fact (fp.double.ofInt 10) else fact
        atofLoop cs point_seen
          (fp.double.add (fp.double.mul rez (fp.double.ofInt 10)) (fp.double.ofInt d)) fact
      else atofLoop cs point_seen rez fact

def os_atof (s : List UInt8) : fp.Double :=
  if s.head? = some '-'.toUInt8 then atofLoop fp s.tail false (fp.double.ofInt 0) (fp.double.ofInt (-1))
  else atofLoop fp s false (fp.double.ofInt 0) (fp.double.ofInt 1)

/-! ## Decoding -/

/-- The loop of `HTTPConfig_HTMLEntityDecode`. The first argument counts the bytes that
`encodedPosition` has still to pass behind a '%'. -/
def decodeLoop : ℕ → List UInt8 → List UInt8
  | _, [] => []
  | passed + 1, _ :: cs => decodeLoop passed cs
  | 0, c :: cs =>
    if c = '+'.toUInt8 then ' '.toUInt8 :: decodeLoop 0 cs
    else if c = '%'.toUInt8 then UInt8.ofInt (strtol (cs.take 2) 16) :: decodeLoop 2 cs
    else c :: decodeLoop 0 cs

/-- The string in `decoded`; a NUL that was decoded ends it. -/
def HTTPConfig_HTMLEntityDecode (encoded : List UInt8) : List UInt8 := cstring (decodeLoop 0 encoded)

/-! ## The fields of the form -/

/-- How the value of a form field is stored. -/
inductive Member where
  | string (f : Field)
  | number (f : Field)
  | multiplier (f : Field)
  deriving DecidableEq

/-- The comparisons of a key, in their order. -/
def formMembers : List (String × Member) := [
  ("sta_ssid", .string .sta_ssid),
  ("sta_pwd", .string .sta_pwd),
  ("mqtt_host", .string .mqtt_host),
  ("mqtt_port", .number .mqtt_port),
  ("mqtt_user", .string .mqtt_user),
  ("mqtt_pass", .string .mqtt_pass),
  ("mqtt_keepalive", .number .mqtt_keepalive),
  ("mqtt_topicroot", .string .mqtt_topicroot),
  ("mqtt_topicadc0", .string .mqtt_topicadc0),
  ("mqtt_muladc0", .multiplier .mqtt_muladc0),
  ("mqtt_topicadc1", .string .mqtt_topicadc1),
  ("mqtt_muladc1", .multiplier .mqtt_muladc1),
  ("mqtt_topicadc2", .string .mqtt_topicadc2),
  ("mqtt_muladc2", .multiplier .mqtt_muladc2),
  ("mqtt_topicadc3", .string .mqtt_topicadc3),
  ("mqtt_muladc3", .multiplier .mqtt_muladc3)]

def memberOf (key : List UInt8) : Option Member :=
  (formMembers.find? fun entry => ascii entry.1 = key).map Prod.snd

/-- A value and its NUL fit behind the start of a field, not necessarily into the field. -/
def Copies (f : Field) (value : List UInt8) : Prop := f.offset + (value.length + 1) ≤ sizeofSYSCFG

instance (f : Field) (value : List UInt8) : Decidable (Copies f value) := inferInstanceAs (Decidable (_ ≤ _))

/-- What the chain of comparisons does with a decoded value. -/
def assign (cfg : SYSCFG) (value : List UInt8) : Option Member → Option SYSCFG
  | some (.string f) => if Copies f value then some (cfg.put f.offset (value ++ [0])) else none
  | some (.number f) => some (cfg.put f.offset (uint32 (atoi value % 4294967296).toNat))
  | some (.multiplier f) => some (cfg.put f.offset (fp.store (os_atof fp value)))
  | none => some cfg

/-- One pass of the loop of `HTTPConfig_SetData`, with the key and the value as they stand in the
body: both are copied into blocks of 64 bytes that have to keep a NUL. -/
def setPair (cfg : SYSCFG) (key value : List UInt8) : Option SYSCFG :=
  if key.length < 64 ∧ value.length < 64 then
    assign fp cfg (HTTPConfig_HTMLEntityDecode value) (memberOf key)
  else none

theorem strstr_rest {s : List UInt8} {e : ℕ} (h : strstr s (ascii "=") = some e) :
    (s.drop (e + 1)).length < s.length := by
  have hle : e + 1 ≤ s.length := find_le h (by decide)
  rw [List.length_drop]
  omega

/-- The loop of `HTTPConfig_SetData` from `httpData` on: the field up to '=' is the key, the value
goes on to '&' or to the end, where the loop ends. -/
def formLoop (cfg : SYSCFG) (httpData : List UInt8) : Option SYSCFG :=
  match _hfound : strstr httpData (ascii "=") with
  | none => some cfg
  | some e =>
    match strstr (httpData.drop (e + 1)) (ascii "&") with
    | none => setPair fp cfg (httpData.take e) (httpData.drop (e + 1))
    | some a =>
      (setPair fp cfg (httpData.take e) ((httpData.drop (e + 1)).take a)).bind fun cfg =>
        formLoop cfg ((httpData.drop (e + 1)).drop (a + 1))
  termination_by httpData.length
  decreasing_by
    have := strstr_rest _hfound
    rw [List.length_drop]
    omega

/-- `recieveBuffer` is parsed into the stored configuration, which is saved. -/
def HTTPConfig_SetData (clientId recieveBuffer : List UInt8) (d : Device) : Option Device :=
  (strstr recieveBuffer (ascii "\r\n\r\n")).bind fun httpData =>
    let d := CFG_Load clientId d
    (formLoop fp d.sysCfg (recieveBuffer.drop (httpData + 4))).map fun cfg => CFG_Save { d with sysCfg := cfg }

/-! ## Forms that fit -/

/-- The keys and values of a body, encoded as they stand there. -/
def formPairs (httpData : List UInt8) : List (List UInt8 × List UInt8) :=
  match _hfound : strstr httpData (ascii "=") with
  | none => []
  | some e =>
    match strstr (httpData.drop (e + 1)) (ascii "&") with
    | none => [(httpData.take e, httpData.drop (e + 1))]
    | some a =>
      (httpData.take e, (httpData.drop (e + 1)).take a) :: formPairs ((httpData.drop (e + 1)).drop (a + 1))
  termination_by httpData.length
  decreasing_by
    have := strstr_rest _hfound
    rw [List.length_drop]
    omega

/-- The pair is stored without a write behind the end of `key`, `value` or `sysCfg`. -/
def PairFits (pair : List UInt8 × List UInt8) : Prop :=
  pair.1.length < 64 ∧ pair.2.length < 64 ∧
    ∀ f, memberOf pair.1 = some (.string f) → Copies f (HTTPConfig_HTMLEntityDecode pair.2)

def FormFits (httpData : List UInt8) : Prop := ∀ pair ∈ formPairs httpData, PairFits pair

theorem setPair_isSome (cfg : SYSCFG) (key value : List UInt8) :
    (setPair fp cfg key value).isSome ↔ PairFits (key, value) := by
  unfold setPair PairFits
  split
  · next hshort =>
    cases hmember : memberOf key with
    | none => simp [assign, hshort.1, hshort.2]
    | some m =>
      cases m with
      | string f =>
        simp only [assign, Option.some.injEq, Member.string.injEq]
        split
        · next hcopies => exact iff_of_true rfl ⟨hshort.1, hshort.2, fun g hg => hg ▸ hcopies⟩
        · next hcopies => exact iff_of_false (by simp) fun h => hcopies (h.2.2 f rfl)
      | number f => simp [assign, hshort.1, hshort.2]
      | multiplier f => simp [assign, hshort.1, hshort.2]
  · next hlong => exact iff_of_false (by simp) fun h => hlong ⟨h.1, h.2.1⟩

theorem formPairs_none {httpData : List UInt8} (h : strstr httpData (ascii "=") = none) : formPairs httpData = [] := by
  rw [formPairs]
  split
  · rfl
  · next e he => cases h.symm.trans he

theorem formPairs_last {httpData : List UInt8} {e : ℕ} (h : strstr httpData (ascii "=") = some e)
    (hlast : strstr (httpData.drop (e + 1)) (ascii "&") = none) :
    formPairs httpData = [(httpData.take e, httpData.drop (e + 1))] := by
  rw [formPairs]
  split
  · next hnone => cases h.symm.trans hnone
  · next e' he =>
    obtain rfl : e = e' := Option.some.inj (h.symm.trans he)
    rw [hlast]

theorem formPairs_cons {httpData : List UInt8} {e a : ℕ} (h : strstr httpData (ascii "=") = some e)
    (hmore : strstr (httpData.drop (e + 1)) (ascii "&") = some a) :
    formPairs httpData = (httpData.take e, (httpData.drop (e + 1)).take a) ::
      formPairs ((httpData.drop (e + 1)).drop (a + 1)) := by
  rw [formPairs]
  split
  · next hnone => cases h.symm.trans hnone
  · next e' he =>
    obtain rfl : e = e' := Option.some.inj (h.symm.trans he)
    rw [hmore]

/-- **When a form can be parsed**: whatever is stored, exactly when all its pairs fit. -/
theorem formLoop_isSome (cfg : SYSCFG) (httpData : List UInt8) :
    (formLoop fp cfg httpData).isSome ↔ FormFits httpData := by
  unfold FormFits
  fun_induction formLoop fp cfg httpData with
  | case1 cfg httpData hnone =>
    rw [formPairs_none hnone]
    simp
  | case2 cfg httpData e hfound hlast =>
    rw [formPairs_last hfound hlast, List.forall_mem_singleton]
    exact setPair_isSome fp cfg _ _
  | case3 cfg httpData e hfound a hmore ih =>
    rw [formPairs_cons hfound hmore, List.forall_mem_cons, ← setPair_isSome fp cfg]
    cases setPair fp cfg (httpData.take e) ((httpData.drop (e + 1)).take a) with
    | none => simp
    | some cfg' =>
      rw [Option.bind_some, ih cfg']
      simp

end LightSleepMqtt.Http
