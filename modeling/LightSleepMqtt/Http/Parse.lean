import LightSleepMqtt.Http.Exact
import LightSleepMqtt.Library.Transition

/-! The loop of `HTTPConfig_SetData` on a body that is a form: one pass for each of its pairs, and
a configuration in which the fields that the form names have the last values it gives them. -/
namespace LightSleepMqtt.Http
open Config FormEncoding Substring Transition
set_option autoImplicit false

/-! ## Decoding -/

theorem decodeLoop_plain {c : UInt8} (hpercent : c ≠ PERCENT) (hplus : c ≠ PLUS) (cs : List UInt8) :
    decodeLoop 0 (c :: cs) = c :: decodeLoop 0 cs := by
  rw [decodeLoop]
  exact (if_neg hplus).trans (if_neg hpercent)

theorem decodeLoop_escape {b high low : UInt8} (hhigh : Spells high (b.toNat / 16)) (hlow : Spells low (b.toNat % 16))
    (cs : List UInt8) : decodeLoop 0 (PERCENT :: high :: low :: cs) = b :: decodeLoop 0 cs := by
  have hbyte : decodeLoop 0 (PERCENT :: high :: low :: cs) =
    UInt8.ofInt (strtol [high, low] 16) :: decodeLoop 0 cs := rfl
  have hsame : UInt8.ofInt b.toNat = b := by
    have hlt : (b.toNat : ℤ) < 2 ^ 8 := Int.ofNat_lt.mpr b.toNat_lt
    rw [UInt8.ofInt, Int.emod_eq_of_lt (Int.natCast_nonneg _) hlt, Int.toNat_natCast, UInt8.ofNat_toNat]
  rw [hbyte, strtol_escape hhigh hlow, hsame]

theorem decodeLoop_encodes {encoded value : List UInt8} (h : Encodes encoded value) : decodeLoop 0 encoded = value := by
  induction h with
  | nil => rfl
  | plain hpercent hplus _ _ ih => rw [decodeLoop_plain hpercent hplus, ih]
  | space _ ih => exact congrArg (SPACE :: ·) ih
  | escaped hhigh hlow _ ih => rw [decodeLoop_escape hhigh hlow, ih]

/-- **Every encoding is decoded.** -/
theorem entityDecode_encodes {encoded value : List UInt8} (h : Encodes encoded value) (hvalue : 0 ∉ value) :
    HTTPConfig_HTMLEntityDecode encoded = value := by
  rw [HTTPConfig_HTMLEntityDecode, decodeLoop_encodes h, cstring_of_notMem hvalue]

/-! ## Passes -/

variable (fp : FloatingPoint)

/-- The variables of the loop in front of a pass. -/
@[ext] structure Parsing where
  sysCfg : SYSCFG
  httpData : List UInt8
  loop : Bool

/-- A pass of the loop, which there is only while `loop` is set. -/
def formPass (s : Parsing) (_ : Unit) : Option Parsing :=
  if s.loop then
    match strstr s.httpData (ascii "=") with
    | none => some { s with loop := false }
    | some e =>
      let key := s.httpData.take e
      let httpData := s.httpData.drop (e + 1)
      match strstr httpData (ascii "&") with
      | none => (setPair fp s.sysCfg key httpData).map fun cfg => ⟨cfg, [], false⟩
      | some a => (setPair fp s.sysCfg key (httpData.take a)).map fun cfg => ⟨cfg, httpData.drop (a + 1), true⟩
  else none

theorem formLoop_eq {s : Parsing} (hs : s.loop = true) : formLoop fp s.sysCfg s.httpData =
    (formPass fp s ()).bind fun t => if t.loop then formLoop fp t.sysCfg t.httpData else some t.sysCfg := by
  rw [formLoop, formPass, if_pos hs]
  split
  · next hnone =>
    rw [hnone]
    rfl
  · next e hfound =>
    rw [hfound]
    simp only
    cases strstr (s.httpData.drop (e + 1)) (ascii "&") with
    | none =>
      simp only
      cases setPair fp s.sysCfg (s.httpData.take e) (s.httpData.drop (e + 1)) <;> rfl
    | some a =>
      simp only
      cases setPair fp s.sysCfg (s.httpData.take e) ((s.httpData.drop (e + 1)).take a) <;> rfl

/-- The pairs of a body, one after the other. -/
def setPairs (cfg : SYSCFG) : List (List UInt8 × List UInt8) → Option SYSCFG
  | [] => some cfg
  | pair :: pairs => (setPair fp cfg pair.1 pair.2).bind fun cfg => setPairs cfg pairs

section Pair

variable {pair : List UInt8 × List UInt8} (hkey : EQUALS ∉ pair.1) (hvalue : AMPERSAND ∉ pair.2) (cfg : SYSCFG)
include hkey hvalue

theorem formPass_last : formPass fp ⟨cfg, pairText pair, true⟩ () =
    (setPair fp cfg pair.1 pair.2).map fun cfg => ⟨cfg, [], false⟩ := by
  have hequals : strstr (pairText pair) (ascii "=") = some pair.1.length := find_singleton_append hkey _
  have hfront : (pairText pair).take pair.1.length = pair.1 := List.take_append_length
  have hrest : (pairText pair).drop (pair.1.length + 1) = pair.2 := List.drop_length_add_append 1
  have hnone : strstr pair.2 (ascii "&") = none := find_singleton_none hvalue
  rw [formPass, if_pos rfl]
  simp only [hequals, hfront, hrest, hnone]

theorem formPass_more (body : List UInt8) : formPass fp ⟨cfg, pairText pair ++ AMPERSAND :: body, true⟩ () =
    (setPair fp cfg pair.1 pair.2).map fun cfg => ⟨cfg, body, true⟩ := by
  have htext : pairText pair ++ AMPERSAND :: body = pair.1 ++ EQUALS :: (pair.2 ++ AMPERSAND :: body) :=
    List.append_assoc _ _ _
  have hequals : strstr (pair.1 ++ EQUALS :: (pair.2 ++ AMPERSAND :: body)) (ascii "=") = some pair.1.length :=
    find_singleton_append hkey _
  have hmore : strstr (pair.2 ++ AMPERSAND :: body) (ascii "&") = some pair.2.length :=
    find_singleton_append hvalue body
  rw [formPass, if_pos rfl, htext]
  simp only [hequals, List.take_append_length, List.drop_length_add_append, List.drop_succ_cons, List.drop_zero, hmore]

/-- A pass takes the first pair of a body, and leaves `loop` set if there are others. -/
theorem formPass_joined (pairs : List (List UInt8 × List UInt8)) :
    formPass fp ⟨cfg, joined (pair :: pairs), true⟩ () =
      (setPair fp cfg pair.1 pair.2).map fun cfg => ⟨cfg, joined pairs, !pairs.isEmpty⟩ := by
  by_cases hlast : pairs = []
  · rw [hlast, joined_singleton, formPass_last fp hkey hvalue]
    rfl
  · rw [joined_cons pair hlast, formPass_more fp hkey hvalue, List.isEmpty_eq_false_iff.mpr hlast]
    rfl

end Pair

section Body

variable {pairs : List (List UInt8 × List UInt8)} (cfg : SYSCFG)
variable (hkeys : ∀ pair ∈ pairs, EQUALS ∉ pair.1) (hvalues : ∀ pair ∈ pairs, AMPERSAND ∉ pair.2)
include hkeys hvalues

/-- **A body takes one pass for each of its pairs.** -/
theorem run_joined : run (formPass fp) ⟨cfg, joined pairs, !pairs.isEmpty⟩ (List.replicate pairs.length ()) =
    (setPairs fp cfg pairs).map fun cfg => ⟨cfg, [], false⟩ := by
  induction pairs generalizing cfg with
  | nil => rfl
  | cons pair pairs ih =>
    obtain ⟨hkey, hkeys⟩ := List.forall_mem_cons.mp hkeys
    obtain ⟨hvalue, hvalues⟩ := List.forall_mem_cons.mp hvalues
    rw [List.length_cons, List.replicate_succ, run, setPairs, List.isEmpty_cons, Bool.not_false,
      formPass_joined fp hkey hvalue]
    cases setPair fp cfg pair.1 pair.2 with
    | none => rfl
    | some cfg => exact ih cfg hkeys hvalues

theorem formLoop_joined : formLoop fp cfg (joined pairs) = setPairs fp cfg pairs := by
  induction pairs generalizing cfg with
  | nil =>
    rw [formLoop]
    rfl
  | cons pair pairs ih =>
    obtain ⟨hkey, hkeys⟩ := List.forall_mem_cons.mp hkeys
    obtain ⟨hvalue, hvalues⟩ := List.forall_mem_cons.mp hvalues
    have hloop := formLoop_eq fp (s := ⟨cfg, joined (pair :: pairs), true⟩) rfl
    rw [hloop, formPass_joined fp hkey hvalue, setPairs]
    cases setPair fp cfg pair.1 pair.2 with
    | none => rfl
    | some cfg =>
      cases pairs with
      | nil => rfl
      | cons next rest => exact ih cfg hkeys hvalues

end Body

/-! ## Members -/

def Member.field : Member → Field
  | .string f => f
  | .number f => f
  | .multiplier f => f

/-- The bytes that a value becomes. -/
def Member.bytes : Member → List UInt8 → List UInt8
  | .string _, value => value ++ [0]
  | .number _, value => uint32 (atoi value % 4294967296).toNat
  | .multiplier _, value => fp.store (os_atof fp value)

/-- The field has the size of its type. -/
def Member.Sized : Member → Prop
  | .string _ => True
  | .number f => f.size = 4
  | .multiplier f => f.size = 8

instance : DecidablePred Member.Sized
  | .string _ => .isTrue trivial
  | .number f => inferInstanceAs (Decidable (f.size = 4))
  | .multiplier f => inferInstanceAs (Decidable (f.size = 8))

/-- A string that leaves room for its NUL, or the digits of an `int`. -/
def Member.Fits : Member → List UInt8 → Prop
  | .string f, value => value.length < f.size
  | .number _, value => Decimal value ∧ decimal value ≤ 2147483647
  | .multiplier _, _ => True

instance : (m : Member) → (value : List UInt8) → Decidable (m.Fits value)
  | .string f, value => inferInstanceAs (Decidable (value.length < f.size))
  | .number _, value => inferInstanceAs (Decidable (Decimal value ∧ _))
  | .multiplier _, _ => .isTrue trivial

theorem Member.Sized.length_bytes_le {m : Member} (h : m.Sized) {value : List UInt8} (hfits : m.Fits value) :
    (m.bytes fp value).length ≤ m.field.size := by
  cases m with
  | string f => exact (List.length_append ..).trans_le hfits
  | number f => exact Nat.le_of_eq (Eq.symm h)
  | multiplier f => exact Nat.le_of_eq ((fp.store_length _).trans (Eq.symm h))

theorem memberOf_name {name : String} {m : Member} (h : (name, m) ∈ formMembers) : memberOf (ascii name) = some m := by
  have hall : ∀ entry ∈ formMembers, memberOf (ascii entry.1) = some entry.2 := by decide +kernel
  exact hall (name, m) h

theorem formMembers_field {name : String} {m : Member} (h : (name, m) ∈ formMembers) : m.field ∈ Field.members := by
  have hall : ∀ entry ∈ formMembers, entry.2.field ∈ Field.members := by decide +kernel
  exact hall (name, m) h

theorem formMembers_sized {name : String} {m : Member} (h : (name, m) ∈ formMembers) : m.Sized := by
  have hall : ∀ entry ∈ formMembers, entry.2.Sized := by decide
  exact hall (name, m) h

theorem formMembers_inj {name name' : String} {m m' : Member} (h : (name, m) ∈ formMembers)
    (h' : (name', m') ∈ formMembers) (hfield : m.field = m'.field) : name = name' := by
  have hall : ∀ entry ∈ formMembers, ∀ entry' ∈ formMembers, entry.2.field = entry'.2.field → entry.1 = entry'.1 := by
    decide +kernel
  exact hall (name, m) h (name', m') h' hfield

theorem memberOf_mem {key : List UInt8} {m : Member} (h : memberOf key = some m) :
    ∃ name, (name, m) ∈ formMembers ∧ ascii name = key := by
  obtain ⟨entry, hfound, rfl⟩ := Option.map_eq_some_iff.mp h
  have hkey : decide (ascii entry.1 = key) = true :=
    List.find?_some (p := fun entry : String × Member => decide (ascii entry.1 = key)) hfound
  exact ⟨entry.1, List.mem_of_find?_eq_some hfound, of_decide_eq_true hkey⟩

theorem fits_of_name {name : String} {m : Member} {value : List UInt8} (hm : (name, m) ∈ formMembers)
    (h : m.Fits value) (m' : Member) (hm' : memberOf (ascii name) = some m') : m'.Fits value := by
  obtain rfl : m = m' := Option.some.inj ((memberOf_name hm).symm.trans hm')
  exact h

/-! ## Forms -/

/-- A pair of a form, with a value that fits the field it is for. -/
structure Entry where
  key : List UInt8
  encoded : List UInt8
  value : List UInt8
  encodes : Encodes encoded value
  key_plain : EQUALS ∉ key
  key_short : key.length < 64
  encoded_short : encoded.length < 64
  value_text : 0 ∉ value
  fits : ∀ m, memberOf key = some m → m.Fits value

namespace Entry

def pair (e : Entry) : List UInt8 × List UInt8 := (e.key, e.encoded)

/-- The configuration with the value in its field, if the key names one. -/
def store (cfg : SYSCFG) (e : Entry) : SYSCFG :=
  (memberOf e.key).elim cfg fun m => cfg.put m.field.offset (m.bytes fp e.value)

theorem length_bytes_le (e : Entry) {m : Member} (h : memberOf e.key = some m) :
    (m.bytes fp e.value).length ≤ m.field.size := by
  obtain ⟨name, hm, _⟩ := memberOf_mem h
  exact (formMembers_sized hm).length_bytes_le fp (e.fits m h)

theorem setPair_eq (e : Entry) (cfg : SYSCFG) : setPair fp cfg e.key e.encoded = some (e.store fp cfg) := by
  rw [setPair, if_pos ⟨e.key_short, e.encoded_short⟩, entityDecode_encodes e.encodes e.value_text, store]
  cases hm : memberOf e.key with
  | none => rfl
  | some m =>
    cases m with
    | string f =>
      obtain ⟨name, hmem, _⟩ := memberOf_mem hm
      have hfit : f.offset + f.size ≤ sizeofSYSCFG := Field.members_fit f (formMembers_field hmem)
      have hlength : e.value.length < f.size := e.fits _ hm
      exact if_pos (show f.offset + (e.value.length + 1) ≤ sizeofSYSCFG by omega)
    | number f => rfl
    | multiplier f => rfl

variable {f : Field} (hf : f ∈ Field.members)
include hf

theorem get_store_other {e : Entry} (h : (memberOf e.key).map Member.field ≠ some f) (cfg : SYSCFG) :
    (e.store fp cfg).get f = cfg.get f := by
  rw [store]
  cases hm : memberOf e.key with
  | none => rfl
  | some m =>
    obtain ⟨name, hmem, _⟩ := memberOf_mem hm
    rw [hm] at h
    have hne : f ≠ m.field := fun heq => h (congrArg some heq.symm)
    exact SYSCFG.get_put_other cfg hf (formMembers_field hmem) hne (e.length_bytes_le fp hm)

theorem get_foldl_other {form : List Entry} (h : ∀ e ∈ form, (memberOf e.key).map Member.field ≠ some f)
    (cfg : SYSCFG) : (form.foldl (store fp) cfg).get f = cfg.get f := by
  induction form generalizing cfg with
  | nil => rfl
  | cons e form ih =>
    obtain ⟨he, hform⟩ := List.forall_mem_cons.mp h
    exact (ih hform (e.store fp cfg)).trans (get_store_other fp hf he cfg)

end Entry

/-- The value that a form gives a name last. -/
def lastValue (form : List Entry) (name : List UInt8) : Option (List UInt8) :=
  (form.reverse.find? fun e => e.key = name).map Entry.value

theorem lastValue_split {form : List Entry} {name value : List UInt8} (h : lastValue form name = some value) :
    ∃ before e after, form = before ++ e :: after ∧ e.key = name ∧ e.value = value ∧ ∀ e' ∈ after, e'.key ≠ name := by
  obtain ⟨e, hfound, hvalue⟩ := Option.map_eq_some_iff.mp h
  obtain ⟨hkey, after, before, hform, hafter⟩ := List.find?_eq_some_iff_append.mp hfound
  refine ⟨before.reverse, e, after.reverse, ?_, of_decide_eq_true hkey, hvalue, fun e' he' => ?_⟩
  · rw [← List.reverse_reverse form, hform, List.reverse_append, List.reverse_cons, List.append_assoc]
    rfl
  · simpa using hafter e' (List.mem_reverse.mp he')

/-- **The last value of a name is what its field begins with**: nothing behind it writes there. -/
theorem get_foldl_last {form : List Entry} {name : String} {m : Member} {value : List UInt8}
    (hm : (name, m) ∈ formMembers) (h : lastValue form (ascii name) = some value) (cfg : SYSCFG) :
    ∃ rest, (form.foldl (Entry.store fp) cfg).get m.field = m.bytes fp value ++ rest := by
  obtain ⟨before, e, after, rfl, hkey, rfl, hafter⟩ := lastValue_split h
  have hmember : memberOf e.key = some m := hkey ▸ memberOf_name hm
  have hother : ∀ e' ∈ after, (memberOf e'.key).map Member.field ≠ some m.field := by
    intro e' he' heq
    obtain ⟨m', hm', hfield⟩ := Option.map_eq_some_iff.mp heq
    obtain ⟨name', hmem, hname⟩ := memberOf_mem hm'
    have hsame := formMembers_inj hmem hm hfield
    exact hafter e' he' (hname ▸ congrArg ascii hsame)
  have hstore (cfg : SYSCFG) : e.store fp cfg = cfg.put m.field.offset (m.bytes fp e.value) := by
    rw [Entry.store, hmember]
    rfl
  have hin := formMembers_field hm
  rw [List.foldl_append, List.foldl_cons, Entry.get_foldl_other fp hin hother, hstore,
    SYSCFG.get_put_take _ (Field.members_fit _ hin), List.take_of_length_le (e.length_bytes_le fp hmember)]
  exact ⟨_, rfl⟩

theorem get_foldl_whole {form : List Entry} {name : String} {m : Member} {value : List UInt8}
    (hm : (name, m) ∈ formMembers) (h : lastValue form (ascii name) = some value)
    (hlength : (m.bytes fp value).length = m.field.size) (cfg : SYSCFG) :
    (form.foldl (Entry.store fp) cfg).get m.field = m.bytes fp value := by
  obtain ⟨rest, hget⟩ := get_foldl_last fp hm h cfg
  have hin : m.field ∈ Field.members := formMembers_field hm
  have hall := congrArg List.length hget
  rw [SYSCFG.length_get _ (Field.members_fit _ hin), List.length_append, hlength] at hall
  have hrest : rest = [] := List.eq_nil_of_length_eq_zero (by omega)
  rw [hget, hrest, List.append_nil]

/-- The second configuration is the first one with the last value of each name of the form in its
field. -/
structure Updates (form : List Entry) (cfg cfg' : SYSCFG) : Prop where
  strings : ∀ {name f value}, (name, .string f) ∈ formMembers → lastValue form (ascii name) = some value →
    cstring (cfg'.get f) = value
  numbers : ∀ {name f value}, (name, .number f) ∈ formMembers → lastValue form (ascii name) = some value →
    cfg'.word f = decimal value
  multipliers : ∀ {name f value}, (name, .multiplier f) ∈ formMembers → lastValue form (ascii name) = some value →
    cfg'.get f = fp.store (os_atof fp value)
  others : ∀ f ∈ Field.members, (∀ e ∈ form, (memberOf e.key).map Member.field ≠ some f) → cfg'.get f = cfg.get f

theorem updates_foldl (form : List Entry) (cfg : SYSCFG) : Updates fp form cfg (form.foldl (Entry.store fp) cfg) where
  strings {name f value} hm h := by
    obtain ⟨rest, hget⟩ := get_foldl_last fp hm h cfg
    obtain ⟨_, e, _, _, _, rfl, _⟩ := lastValue_split h
    have hbytes : (Member.string f).bytes fp e.value = e.value ++ [0] := rfl
    have hget : (form.foldl (Entry.store fp) cfg).get f = e.value ++ 0 :: rest := by
      rw [← List.singleton_append, ← List.append_assoc]
      exact hget
    rw [hget, cstring_append e.value_text]
    exact List.append_nil _
  numbers {name f value} hm h := by
    have hget := get_foldl_whole fp hm h (Eq.symm (formMembers_sized hm)) cfg
    obtain ⟨_, e, _, _, hkey, rfl, _⟩ := lastValue_split h
    obtain ⟨hdecimal, hfits⟩ := e.fits _ (hkey ▸ memberOf_name hm)
    have hmod : (atoi e.value % 4294967296).toNat = decimal e.value := by
      rw [atoi_decimal hdecimal hfits]
      omega
    rw [SYSCFG.word, show (form.foldl (Entry.store fp) cfg).get f = uint32 (decimal e.value) from hmod ▸ hget]
    exact (littleEndian_uint32 _).trans (Nat.mod_eq_of_lt (by omega))
  multipliers {name f value} hm h :=
    get_foldl_whole fp hm h ((fp.store_length _).trans (Eq.symm (formMembers_sized hm))) cfg
  others f hf h := Entry.get_foldl_other fp hf h cfg

/-- The bytes behind the first empty line of the buffer. -/
def Carries (recieveBuffer body : List UInt8) : Prop :=
  ∃ data, strstr recieveBuffer (ascii "\r\n\r\n") = some data ∧ recieveBuffer.drop (data + 4) = body

theorem setPairs_form (form : List Entry) (cfg : SYSCFG) :
    setPairs fp cfg (form.map Entry.pair) = some (form.foldl (Entry.store fp) cfg) := by
  induction form generalizing cfg with
  | nil => rfl
  | cons e form ih =>
    have hpair : setPair fp cfg e.pair.1 e.pair.2 = some (e.store fp cfg) := e.setPair_eq fp cfg
    rw [List.map_cons, setPairs, hpair, Option.bind_some, ih, List.foldl_cons]

variable {clientId recieveBuffer : List UInt8} {d : Device}

theorem setData_carries {body : List UInt8} (h : Carries recieveBuffer body) :
    HTTPConfig_SetData fp clientId recieveBuffer d =
      (formLoop fp (CFG_Load clientId d).sysCfg body).map fun cfg =>
        CFG_Save { CFG_Load clientId d with sysCfg := cfg } := by
  obtain ⟨data, hdata, hbody⟩ := h
  rw [HTTPConfig_SetData, hdata, Option.bind_some, hbody]

/-- **Parsing a form updates exactly the fields it names.** -/
theorem form_updates {form : List Entry} (hform : form ≠ [])
    (hholder : (activeSysCfg d.flash).word .cfg_holder = CFG_HOLDER)
    (hbody : Carries recieveBuffer (joined (form.map Entry.pair))) :
    ∃ d', HTTPConfig_SetData fp clientId recieveBuffer d = some d' ∧
      run (formPass fp) ⟨activeSysCfg d.flash, joined (form.map Entry.pair), true⟩ (List.replicate form.length ()) =
        some ⟨activeSysCfg d'.flash, [], false⟩ ∧
      Updates fp form (activeSysCfg d.flash) (activeSysCfg d'.flash) := by
  have hmore : (form.map Entry.pair).isEmpty = false := by simpa using hform
  have hkeys : ∀ pair ∈ form.map Entry.pair, EQUALS ∉ pair.1 := by
    intro pair hpair
    obtain ⟨e, _, rfl⟩ := List.mem_map.mp hpair
    exact e.key_plain
  have hvalues : ∀ pair ∈ form.map Entry.pair, AMPERSAND ∉ pair.2 := by
    intro pair hpair
    obtain ⟨e, _, rfl⟩ := List.mem_map.mp hpair
    exact e.encodes.ampersand_notMem
  have hrun := run_joined fp (activeSysCfg d.flash) hkeys hvalues
  have hset : HTTPConfig_SetData fp clientId recieveBuffer d = _ := setData_carries fp hbody
  rw [formLoop_joined fp _ hkeys hvalues, CFG_Load_active hholder, setPairs_form, Option.map_some] at hset
  rw [hmore, Bool.not_false, List.length_map, setPairs_form] at hrun
  have hactive := CFG_Save_active
    { d with saveFlag := readSaveFlag d.flash, sysCfg := form.foldl (Entry.store fp) (activeSysCfg d.flash) }
  refine ⟨_, hset, ?_, ?_⟩
  · rw [hrun, hactive]
    rfl
  · rw [hactive]
    exact updates_foldl fp form (activeSysCfg d.flash)

/-- A network named twice, its last name with a '=' in it, and a key that is not one of the form's. -/
def networkForm : List Entry := [
  ⟨ascii "sta_ssid", ascii "a%26b", ascii "a&b",
    .plain (by decide) (by decide) (by decide) <| .escaped (.inl rfl) (.inl rfl) <|
      .plain (by decide) (by decide) (by decide) .nil,
    by decide +kernel, by decide +kernel, by decide +kernel, by decide +kernel,
    fits_of_name (m := .string .sta_ssid) (by decide) (by decide +kernel)⟩,
  ⟨ascii "mqtt_port", ascii "1883", ascii "1883", encodes_encode (ascii "1883"),
    by decide +kernel, by decide +kernel, by decide +kernel, by decide +kernel,
    fits_of_name (m := .number .mqtt_port) (by decide) (by decide +kernel)⟩,
  ⟨ascii "x", ascii "y", ascii "y", .plain (by decide) (by decide) (by decide) .nil,
    by decide +kernel, by decide +kernel, by decide +kernel, by decide +kernel,
    fun m hm => absurd hm.symm (Option.some_ne_none m)⟩,
  ⟨ascii "sta_ssid", ascii "%6eet+=", ascii "net =",
    .escaped (.inr rfl) (.inr rfl) <| .plain (by decide) (by decide) (by decide) <|
      .plain (by decide) (by decide) (by decide) <| .space <| .plain (by decide) (by decide) (by decide) .nil,
    by decide +kernel, by decide +kernel, by decide +kernel, by decide +kernel,
    fits_of_name (m := .string .sta_ssid) (by decide) (by decide +kernel)⟩]

theorem form_updates_network :
    let flash : NorFlash.Memory := fun a => if a = CFG_LOCATION * SPI_FLASH_SEC_SIZE then 2 else 0
    let recieveBuffer := ascii "POST / HTTP/1.1\r\n\r\nsta_ssid=a%26b&mqtt_port=1883&x=y&sta_ssid=%6eet+="
    ∃ d', HTTPConfig_SetData binary64.floatingPoint [] recieveBuffer ⟨flash, .zero, ⟨0, []⟩⟩ = some d' ∧
      cstring ((activeSysCfg d'.flash).get .sta_ssid) = ascii "net =" ∧
      (activeSysCfg d'.flash).word .mqtt_port = 1883 ∧
      (activeSysCfg d'.flash).get .mqtt_host = (activeSysCfg flash).get .mqtt_host := by
  intro flash recieveBuffer
  have hbody : Carries recieveBuffer (joined (networkForm.map Entry.pair)) :=
    ⟨15, by decide +kernel, by decide +kernel⟩
  obtain ⟨d', hset, _, hupdates⟩ := form_updates binary64.floatingPoint (d := ⟨flash, .zero, ⟨0, []⟩⟩)
    (List.cons_ne_nil _ _) (by decide +kernel) hbody
  have hssid : ("sta_ssid", Member.string .sta_ssid) ∈ formMembers := by decide
  have hport : ("mqtt_port", Member.number .mqtt_port) ∈ formMembers := by decide
  exact ⟨d', hset, hupdates.strings hssid rfl, hupdates.numbers hport rfl,
    hupdates.others _ (by decide) (by decide +kernel)⟩

end LightSleepMqtt.Http
