import Mathlib.Data.List.Basic

/-! `SYSCFG` of `config.h` as the block of bytes it occupies. The compiler's layout gives each
member its offset: `mqtt_topicroot` follows `security` directly, and the doubles are aligned to 8
bytes. A write may begin in one member and run on into the next, as a C write does. -/
namespace LightSleepMqtt.Config
set_option autoImplicit false

abbrev sizeofSYSCFG : ℕ := 544

/-- `sysCfg` in memory and in flash. -/
@[ext] structure SYSCFG where
  bytes : List UInt8
  size_eq : bytes.length = sizeofSYSCFG
  deriving DecidableEq

/-- A member of `SYSCFG`. -/
structure Field where
  offset : ℕ
  size : ℕ
  deriving DecidableEq

namespace Field

def cfg_holder : Field := ⟨0, 4⟩
def device_id : Field := ⟨4, 32⟩
def sta_ssid : Field := ⟨36, 64⟩
def sta_pwd : Field := ⟨100, 64⟩
def sta_type : Field := ⟨164, 4⟩
def mqtt_host : Field := ⟨168, 64⟩
def mqtt_port : Field := ⟨232, 4⟩
def mqtt_user : Field := ⟨236, 32⟩
def mqtt_pass : Field := ⟨268, 32⟩
def mqtt_keepalive : Field := ⟨300, 4⟩
def security : Field := ⟨304, 1⟩
def mqtt_topicroot : Field := ⟨305, 64⟩
def mqtt_topicadc0 : Field := ⟨369, 32⟩
def mqtt_muladc0 : Field := ⟨408, 8⟩
def mqtt_topicadc1 : Field := ⟨416, 32⟩
def mqtt_muladc1 : Field := ⟨448, 8⟩
def mqtt_topicadc2 : Field := ⟨456, 32⟩
def mqtt_muladc2 : Field := ⟨488, 8⟩
def mqtt_topicadc3 : Field := ⟨496, 32⟩
def mqtt_muladc3 : Field := ⟨528, 8⟩
def bootToConfig : Field := ⟨536, 1⟩

/-- The members in their order. -/
def members : List Field := [cfg_holder, device_id, sta_ssid, sta_pwd, sta_type, mqtt_host, mqtt_port, mqtt_user,
  mqtt_pass, mqtt_keepalive, security, mqtt_topicroot, mqtt_topicadc0, mqtt_muladc0, mqtt_topicadc1, mqtt_muladc1,
  mqtt_topicadc2, mqtt_muladc2, mqtt_topicadc3, mqtt_muladc3, bootToConfig]

theorem members_fit : ∀ f ∈ members, f.offset + f.size ≤ sizeofSYSCFG := by decide

theorem members_disjoint :
    ∀ f ∈ members, ∀ g ∈ members, f = g ∨ f.offset + f.size ≤ g.offset ∨ g.offset + g.size ≤ f.offset := by
  decide +kernel

end Field

/-- The bytes written over a block from an offset on, as far as they lie in it. -/
def overwrite (block : List UInt8) (offset : ℕ) (bytes : List UInt8) : List UInt8 :=
  block.mapIdx fun i b => if offset ≤ i then bytes.getD (i - offset) b else b

@[simp] theorem length_overwrite (block : List UInt8) (offset : ℕ) (bytes : List UInt8) :
    (overwrite block offset bytes).length = block.length := List.length_mapIdx

theorem getElem?_overwrite (block : List UInt8) (offset : ℕ) (bytes : List UInt8) (i : ℕ) :
    (overwrite block offset bytes)[i]? =
      if offset ≤ i then block[i]?.map fun b => bytes.getD (i - offset) b else block[i]? := by
  rw [overwrite, List.getElem?_mapIdx]
  split
  · rfl
  · simp

/-- An unsigned integer in the byte order of the processor. -/
def littleEndian (bytes : List UInt8) : ℕ := bytes.foldr (fun b n => b.toNat + 256 * n) 0

/-- The `uint32_t` of a number. -/
def uint32 (n : ℕ) : List UInt8 := (List.range 4).map fun i => UInt8.ofNat (n >>> (8 * i))

theorem littleEndian_lt {bytes : List UInt8} (h : bytes.length = 4) : littleEndian bytes < 4294967296 := by
  match bytes, h with
  | [a, b, c, d], _ =>
    have ha := a.toNat_lt
    have hb := b.toNat_lt
    have hc := c.toNat_lt
    have hd := d.toNat_lt
    simp only [littleEndian, List.foldr_cons, List.foldr_nil]
    omega

theorem littleEndian_uint32_append (n : ℕ) (bytes : List UInt8) :
    littleEndian (uint32 n ++ bytes) = n % 4294967296 + 4294967296 * littleEndian bytes := by
  have hbyte (i : ℕ) : (UInt8.ofNat i).toNat = i % 256 := UInt8.toNat_ofNat'
  have hbytes : uint32 n = [.ofNat n, .ofNat (n >>> 8), .ofNat (n >>> 16), .ofNat (n >>> 24)] := rfl
  rw [hbytes]
  simp only [littleEndian, List.cons_append, List.nil_append, List.foldr_cons, hbyte, Nat.shiftRight_eq_div_pow]
  omega

theorem littleEndian_uint32 (n : ℕ) : littleEndian (uint32 n) = n % 4294967296 := by
  have happend := littleEndian_uint32_append n []
  rw [List.append_nil] at happend
  exact happend

namespace SYSCFG

def get (cfg : SYSCFG) (f : Field) : List UInt8 := (cfg.bytes.drop f.offset).take f.size

def put (cfg : SYSCFG) (offset : ℕ) (bytes : List UInt8) : SYSCFG where
  bytes := overwrite cfg.bytes offset bytes
  size_eq := (length_overwrite _ _ _).trans cfg.size_eq

/-- An integer member. -/
def word (cfg : SYSCFG) (f : Field) : ℕ := littleEndian (cfg.get f)

/-- All bytes zero, as `os_memset` leaves it and the startup code finds it. -/
def zero : SYSCFG := ⟨List.replicate sizeofSYSCFG 0, List.length_replicate⟩

variable (cfg : SYSCFG)

theorem length_get {f : Field} (h : f.offset + f.size ≤ sizeofSYSCFG) : (cfg.get f).length = f.size := by
  have hsize := cfg.size_eq
  rw [get, List.length_take, List.length_drop]
  omega

theorem get_put_disjoint {f : Field} {offset : ℕ} {bytes : List UInt8}
    (h : f.offset + f.size ≤ offset ∨ offset + bytes.length ≤ f.offset) :
    (cfg.put offset bytes).get f = cfg.get f := by
  apply List.ext_getElem?
  intro i
  simp only [get, put, List.getElem?_take, List.getElem?_drop, getElem?_overwrite]
  split
  case isFalse => rfl
  case isTrue hi =>
    split
    case isFalse => rfl
    case isTrue hle =>
      have hnone : bytes[f.offset + i - offset]? = none := List.getElem?_eq_none (by omega)
      simp [List.getD_eq_getElem?_getD, hnone]

/-- A write at the beginning of a field covers as much of it as it is long. -/
theorem get_put_take {f : Field} (hfit : f.offset + f.size ≤ sizeofSYSCFG) (bytes : List UInt8) :
    (cfg.put f.offset bytes).get f = bytes.take f.size ++ (cfg.get f).drop bytes.length := by
  have hsize := cfg.size_eq
  apply List.ext_getElem?
  intro i
  simp only [get, put, List.getElem?_append, List.getElem?_take, List.getElem?_drop, getElem?_overwrite,
    List.length_take]
  split
  case isFalse hi =>
    rw [if_neg (by omega)]
    exact (if_neg (by omega)).symm
  case isTrue hi =>
    rw [if_pos (Nat.le_add_right _ _), Nat.add_sub_cancel_left]
    split
    case isTrue hin =>
      have hget : bytes[i]? = some bytes[i] := List.getElem?_eq_getElem (by omega)
      rw [List.getElem?_eq_getElem (by omega), hget]
      simp [List.getD_eq_getElem?_getD, hget]
    case isFalse hout =>
      have hnone : bytes[i]? = none := List.getElem?_eq_none (by omega)
      rw [if_pos (by omega)]
      simp [List.getD_eq_getElem?_getD, hnone, show bytes.length + (i - min f.size bytes.length) = i by omega]

/-- A write inside a field. -/
theorem get_put_inside {f : Field} (k : ℕ) (bytes : List UInt8) :
    (cfg.put (f.offset + k) bytes).get f = overwrite (cfg.get f) k bytes := by
  apply List.ext_getElem?
  intro i
  simp only [get, put, List.getElem?_take, List.getElem?_drop, getElem?_overwrite]
  have hindex : f.offset + i - (f.offset + k) = i - k := by omega
  split
  case isTrue hi => simp only [Nat.add_le_add_iff_left, hindex]
  case isFalse hi => simp

theorem get_put {f : Field} {bytes : List UInt8} (hlen : bytes.length = f.size)
    (hfit : f.offset + f.size ≤ sizeofSYSCFG) : (cfg.put f.offset bytes).get f = bytes := by
  have hget : (cfg.get f).drop bytes.length = [] := List.drop_eq_nil_of_le (hlen ▸ List.length_take_le _ _)
  rw [get_put_take cfg hfit, hget, List.append_nil, ← hlen, List.take_length]

/-- A write that fits its field leaves the others as they are. -/
theorem get_put_other {f g : Field} (hf : f ∈ Field.members) (hg : g ∈ Field.members) (hne : f ≠ g)
    {bytes : List UInt8} (hlen : bytes.length ≤ g.size) : (cfg.put g.offset bytes).get f = cfg.get f := by
  apply get_put_disjoint
  obtain heq | hbefore | hbehind := Field.members_disjoint f hf g hg
  · exact absurd heq hne
  · exact .inl hbefore
  · exact .inr (by omega)

end SYSCFG

end LightSleepMqtt.Config
