import Mathlib.Data.Int.Notation
import Mathlib.Tactic.SplitIfs
import LightSleepMqtt.Library.MqttWire

/-! The decoders of `mqtt_msg.c` and the field readers of `mqtt_msg.h`. A pointer into the
buffer is an offset, a NULL result is `none`, and the in/out parameter `*length` is the
second result. An `int` that the C lets overflow is taken modulo 2^32, and the count of a shift
modulo 32, as the processor takes it. -/
namespace LightSleepMqtt.Message
open MqttWire
set_option autoImplicit false

/-! ## The message types -/

abbrev MQTT_MSG_TYPE_CONNECT : ℕ := 1
abbrev MQTT_MSG_TYPE_CONNACK : ℕ := 2
abbrev MQTT_MSG_TYPE_PUBLISH : ℕ := 3
abbrev MQTT_MSG_TYPE_PUBACK : ℕ := 4
abbrev MQTT_MSG_TYPE_PUBREC : ℕ := 5
abbrev MQTT_MSG_TYPE_PUBREL : ℕ := 6
abbrev MQTT_MSG_TYPE_PUBCOMP : ℕ := 7
abbrev MQTT_MSG_TYPE_SUBSCRIBE : ℕ := 8
abbrev MQTT_MSG_TYPE_SUBACK : ℕ := 9
abbrev MQTT_MSG_TYPE_UNSUBSCRIBE : ℕ := 10
abbrev MQTT_MSG_TYPE_UNSUBACK : ℕ := 11
abbrev MQTT_MSG_TYPE_PINGREQ : ℕ := 12
abbrev MQTT_MSG_TYPE_PINGRESP : ℕ := 13
abbrev MQTT_MSG_TYPE_DISCONNECT : ℕ := 14

/-! ## The decoders -/

def byteAt (buffer : List UInt8) (i : ℕ) : UInt8 := buffer.getD i 0

/-- The value of an `int` computation whose exact result is `n`. -/
def toInt32 (n : ℕ) : ℤ := Int.bmod n 4294967296

/-- `x << count` before it is narrowed to an `int`. From 32 on the count is undefined in C, and the
processor uses its five low bits. -/
def shl (x count : ℕ) : ℕ := x <<< (count % 32)

/-- `buffer[i] << 8 | buffer[i + 1]`. -/
def wordAt (buffer : List UInt8) (i : ℕ) : ℕ :=
  (byteAt buffer i).toNat <<< 8 ||| (byteAt buffer (i + 1)).toNat

def mqtt_get_type (buffer : List UInt8) : ℕ := ((byteAt buffer 0 &&& 0xf0) >>> 4).toNat

def mqtt_get_qos (buffer : List UInt8) : ℕ := ((byteAt buffer 0 &&& 0x06) >>> 1).toNat

/-- The loop over the remaining-length bytes, shared by the decoders: the bytes still to be
read below the limit, the index `i` of the first of them and `totlen`. -/
def lengthLoop : List UInt8 → ℕ → ℕ → ℕ × ℕ
  | [], i, totlen => (i, totlen)
  | b :: bs, i, totlen =>
    let totlen := totlen + shl (b &&& 0x7f).toNat (7 * (i - 1))
    if b &&& 0x80 = 0 then (i + 1, totlen) else lengthLoop bs (i + 1) totlen

/-- The loop from `i = 1`, `totlen = 0` below `length`. -/
def readLength (buffer : List UInt8) (length : ℕ) : ℕ × ℕ :=
  lengthLoop ((buffer.take length).drop 1) 1 0

def mqtt_get_total_length (buffer : List UInt8) (length : ℕ) : ℤ :=
  let (i, totlen) := readLength buffer length
  toInt32 (totlen + i)

def mqtt_get_publish_topic (buffer : List UInt8) (length : ℕ) : Option ℕ × ℕ :=
  let (i, _) := readLength buffer length
  if i + 2 ≥ length then (none, length)
  else
    let topiclen := wordAt buffer i
    if i + 2 + topiclen > length then (none, length)
    else (some (i + 2), topiclen)

def mqtt_get_publish_data (buffer : List UInt8) (length : ℕ) : Option ℕ × ℕ :=
  let (i, totlen) := readLength buffer length
  if i + 2 ≥ length then (none, 0)
  else
    let topiclen := wordAt buffer i
    if i + 2 + topiclen ≥ length then (none, 0)
    else if mqtt_get_qos buffer > 0 ∧ i + 2 + topiclen + 2 ≥ length then (none, 0)
    else
      let j := if mqtt_get_qos buffer > 0 then i + 2 + topiclen + 2 else i + 2 + topiclen
      let total := toInt32 (totlen + i)
      if total < j then (none, 0)
      else if total ≤ length then (some j, (total - j).toNat)
      else (some j, length - j)

def mqtt_get_id (buffer : List UInt8) (length : ℕ) : ℕ :=
  if length < 1 then 0
  else
    let type := mqtt_get_type buffer
    if type = MQTT_MSG_TYPE_PUBLISH then
      let (i, _) := readLength buffer length
      if i + 2 ≥ length then 0
      else
        let topiclen := wordAt buffer i
        if i + 2 + topiclen ≥ length then 0
        else if mqtt_get_qos buffer > 0 then
          if i + 2 + topiclen + 2 ≥ length then 0 else wordAt buffer (i + 2 + topiclen)
        else 0
    else if type = MQTT_MSG_TYPE_PUBACK ∨ type = MQTT_MSG_TYPE_PUBREC ∨ type = MQTT_MSG_TYPE_PUBREL ∨
        type = MQTT_MSG_TYPE_PUBCOMP ∨ type = MQTT_MSG_TYPE_SUBACK ∨ type = MQTT_MSG_TYPE_UNSUBACK ∨
        type = MQTT_MSG_TYPE_SUBSCRIBE then
      if length ≥ 4 ∧ byteAt buffer 1 &&& 0x80 = 0 then wordAt buffer 2 else 0
    else 0

/-! ## Bits -/

theorem and_7f (b : UInt8) : (b &&& 0x7f).toNat = b.toNat % 128 := by
  rw [UInt8.toNat_and]
  exact Nat.and_two_pow_sub_one_eq_mod b.toNat 7

theorem and_80 (b : UInt8) : b &&& 0x80 = 0 ↔ b.toNat < 128 := by
  have h : ∀ i : Fin 256, i.val &&& 128 = 0 ↔ i.val < 128 := by decide +kernel
  rw [← UInt8.toNat_inj, UInt8.toNat_and]
  exact h ⟨b.toNat, b.toNat_lt⟩

theorem mqtt_get_type_eq (buffer : List UInt8) : mqtt_get_type buffer = (byteAt buffer 0).toNat / 16 := by
  have hlt := (byteAt buffer 0).toNat_lt
  have hshift : ((byteAt buffer 0).toNat &&& 240) >>> 4 = ((byteAt buffer 0).toNat >>> 4) &&& 15 :=
    Nat.shiftRight_and_distrib
  rw [mqtt_get_type, UInt8.toNat_shiftRight, UInt8.toNat_and]
  show ((byteAt buffer 0).toNat &&& 240) >>> 4 = _
  rw [hshift, Nat.shiftRight_eq_div_pow, show 15 = 2 ^ 4 - 1 from rfl, Nat.and_two_pow_sub_one_eq_mod]
  omega

theorem mqtt_get_qos_eq (buffer : List UInt8) : mqtt_get_qos buffer = (byteAt buffer 0).toNat / 2 % 4 := by
  have hshift : ((byteAt buffer 0).toNat &&& 6) >>> 1 = ((byteAt buffer 0).toNat >>> 1) &&& 3 :=
    Nat.shiftRight_and_distrib
  rw [mqtt_get_qos, UInt8.toNat_shiftRight, UInt8.toNat_and]
  show ((byteAt buffer 0).toNat &&& 6) >>> 1 = _
  rw [hshift, Nat.shiftRight_eq_div_pow, show 3 = 2 ^ 2 - 1 from rfl, Nat.and_two_pow_sub_one_eq_mod]

theorem shl_of_lt (x : ℕ) {count : ℕ} (h : count < 32) : shl x count = x <<< count := by
  rw [shl, Nat.mod_eq_of_lt h]

theorem lengthLoop_cons (b : UInt8) (bs : List UInt8) (i totlen : ℕ) :
    lengthLoop (b :: bs) i totlen =
      if b.toNat < 128 then (i + 1, totlen + shl (b.toNat % 128) (7 * (i - 1)))
      else lengthLoop bs (i + 1) (totlen + shl (b.toNat % 128) (7 * (i - 1))) := by
  rw [lengthLoop]
  simp only [and_7f, and_80]

theorem wordAt_eq (buffer : List UInt8) (i : ℕ) :
    wordAt buffer i = (byteAt buffer i).toNat * 256 + (byteAt buffer (i + 1)).toNat := by
  have hlt : (byteAt buffer (i + 1)).toNat < 2 ^ 8 := (byteAt buffer (i + 1)).toNat_lt
  rw [wordAt, Nat.shiftLeft_eq, Nat.mul_comm, ← Nat.two_pow_add_eq_or_of_lt hlt, Nat.mul_comm]

theorem wordAt_lt (buffer : List UInt8) (i : ℕ) : wordAt buffer i < 65536 := by
  have := (byteAt buffer i).toNat_lt
  have := (byteAt buffer (i + 1)).toNat_lt
  rw [wordAt_eq]
  omega

theorem toInt32_of_lt {n : ℕ} (h : n < 2147483648) : toInt32 n = n := by
  unfold toInt32
  rw [Int.bmod_def]
  split_ifs <;> omega

/-! ## Well-formed packets -/

theorem lengthLoop_groups (k n i totlen : ℕ) (h : n < 128 ^ (k + 1)) (hi : 1 ≤ i) (hk : i + k ≤ 5) (rest : List UInt8) :
    lengthLoop (groups (k + 1) n ++ rest) i totlen =
      (i + (groups (k + 1) n).length, totlen + n <<< (7 * (i - 1))) := by
  have hshl (x : ℕ) : shl x (7 * (i - 1)) = x <<< (7 * (i - 1)) := shl_of_lt x (by omega)
  induction k generalizing n i totlen with
  | zero =>
    have hlt : n < 128 := by simpa using h
    have hb := ofNat_toNat_of_lt (n := n) (by omega)
    rw [groups, if_pos hlt, List.singleton_append, lengthLoop_cons, hb, if_pos hlt,
      Nat.mod_eq_of_lt hlt, hshl]
    rfl
  | succ k ih =>
    by_cases hlt : n < 128
    · have hb := ofNat_toNat_of_lt (n := n) (by omega)
      rw [groups, if_pos hlt, List.singleton_append, lengthLoop_cons, hb, if_pos hlt,
        Nat.mod_eq_of_lt hlt, hshl]
      rfl
    · have hb := ofNat_toNat_of_lt (n := n % 128 + 128) (by omega)
      have hq : n / 128 < 128 ^ (k + 1) := by
        rw [Nat.div_lt_iff_lt_mul (by omega), ← Nat.pow_succ]
        exact h
      rw [groups, if_neg hlt, List.cons_append, lengthLoop_cons, hb, if_neg (by omega),
        ih (n / 128) (i + 1) _ hq (by omega) (by omega) (fun x => shl_of_lt x (by omega)), List.length_cons, hshl]
      refine Prod.ext (by simp only; omega) ?_
      have hexp : 7 * (i + 1 - 1) = 7 * (i - 1) + 7 := by omega
      simp only [Nat.shiftLeft_eq, hexp, Nat.pow_add]
      have hn : n = n % 128 + n / 128 * 128 := by omega
      generalize 2 ^ (7 * (i - 1)) = e
      have hsplit : n * e = (n % 128) * e + n / 128 * 128 * e := by
        conv_lhs => rw [hn]
        rw [Nat.add_mul]
      rw [hsplit, show (n % 128 + 128) % 128 = n % 128 by omega, Nat.add_assoc,
        Nat.mul_assoc (n / 128) 128 e, Nat.mul_comm 128 e, ← Nat.mul_assoc]

end LightSleepMqtt.Message
