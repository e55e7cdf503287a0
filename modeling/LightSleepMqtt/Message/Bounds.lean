import LightSleepMqtt.Message.Leftover

/-! What the decoders do with bytes that are no packet. `Checked` writes them down once more with
every read of the buffer checked against the length they are given. `lengthPasses` records the
shift counts and the sums of the loop over the remaining length: four bytes of it fit an `int`. -/
namespace LightSleepMqtt.Message
set_option autoImplicit false

namespace Checked

variable (buffer : List UInt8) (length : ℕ)

/-- `buffer[i]`; a read behind the first `length` bytes fails. -/
def read (i : ℕ) : Option UInt8 := if i < length then some (byteAt buffer i) else none

/-- `buffer[i] << 8 | buffer[i + 1]`. -/
def word (i : ℕ) : Option ℕ := do
  let high ← read buffer length i
  let low ← read buffer length (i + 1)
  return high.toNat <<< 8 ||| low.toNat

/-- The loop from `i` on, with `n` indices left in front of `length`. -/
def lengthLoop : ℕ → ℕ → ℕ → Option (ℕ × ℕ)
  | 0, i, totlen => some (i, totlen)
  | n + 1, i, totlen => do
    let b ← read buffer length i
    let totlen := totlen + shl (b &&& 0x7f).toNat (7 * (i - 1))
    if b &&& 0x80 = 0 then return (i + 1, totlen) else lengthLoop n (i + 1) totlen

def readLength : Option (ℕ × ℕ) := lengthLoop buffer length (length - 1) 1 0

def mqtt_get_type : Option ℕ := do
  let b ← read buffer length 0
  return ((b &&& 0xf0) >>> 4).toNat

def mqtt_get_qos : Option ℕ := do
  let b ← read buffer length 0
  return ((b &&& 0x06) >>> 1).toNat

def mqtt_get_total_length : Option ℤ := do
  let (i, totlen) ← readLength buffer length
  return toInt32 (totlen + i)

def mqtt_get_publish_topic : Option (Option ℕ × ℕ) := do
  let (i, _) ← readLength buffer length
  if i + 2 ≥ length then return (none, length)
  let topiclen ← word buffer length i
  if i + 2 + topiclen > length then return (none, length)
  return (some (i + 2), topiclen)

def mqtt_get_publish_data : Option (Option ℕ × ℕ) := do
  let (i, totlen) ← readLength buffer length
  if i + 2 ≥ length then return (none, 0)
  let topiclen ← word buffer length i
  if i + 2 + topiclen ≥ length then return (none, 0)
  let qos ← mqtt_get_qos buffer length
  if qos > 0 ∧ i + 2 + topiclen + 2 ≥ length then return (none, 0)
  let j := if qos > 0 then i + 2 + topiclen + 2 else i + 2 + topiclen
  let total := toInt32 (totlen + i)
  if total < j then return (none, 0)
  if total ≤ length then return (some j, (total - j).toNat)
  return (some j, length - j)

def mqtt_get_id : Option ℕ := do
  if length < 1 then return 0
  let type ← mqtt_get_type buffer length
  if type = MQTT_MSG_TYPE_PUBLISH then
    let (i, _) ← readLength buffer length
    if i + 2 ≥ length then return 0
    let topiclen ← word buffer length i
    if i + 2 + topiclen ≥ length then return 0
    let qos ← mqtt_get_qos buffer length
    if qos > 0 then
      if i + 2 + topiclen + 2 ≥ length then return 0
      word buffer length (i + 2 + topiclen)
    else return 0
  else if type = MQTT_MSG_TYPE_PUBACK ∨ type = MQTT_MSG_TYPE_PUBREC ∨ type = MQTT_MSG_TYPE_PUBREL ∨
      type = MQTT_MSG_TYPE_PUBCOMP ∨ type = MQTT_MSG_TYPE_SUBACK ∨ type = MQTT_MSG_TYPE_UNSUBACK ∨
      type = MQTT_MSG_TYPE_SUBSCRIBE then
    if length ≥ 4 then
      let b ← read buffer length 1
      if b &&& 0x80 = 0 then word buffer length 2 else return 0
    else return 0
  else return 0

variable {buffer length}

theorem read_of_lt {i : ℕ} (h : i < length) : read buffer length i = some (byteAt buffer i) := if_pos h

theorem word_of_lt {i : ℕ} (h : i + 1 < length) : word buffer length i = some (wordAt buffer i) := by
  rw [word, read_of_lt (by omega), read_of_lt h]
  rfl

theorem lengthLoop_eq (h : length ≤ buffer.length) {n i : ℕ} (hi : i + n = length) (totlen : ℕ) :
    lengthLoop buffer length n i totlen = some (Message.lengthLoop ((buffer.take length).drop i) i totlen) := by
  induction n generalizing i totlen with
  | zero =>
    have hnil : (buffer.take length).drop i = [] := by
      rw [List.drop_eq_nil_iff, List.length_take]
      omega
    rw [hnil]
    rfl
  | succ n ih =>
    have hlt : i < (buffer.take length).length := by
      rw [List.length_take]
      omega
    have hbyte : (buffer.take length)[i] = byteAt buffer i := by
      rw [List.getElem_take, byteAt, List.getD_eq_getElem?_getD, List.getElem?_eq_getElem (by omega), Option.getD_some]
    rw [List.drop_eq_getElem_cons hlt, hbyte, lengthLoop, read_of_lt (by omega), Option.bind_eq_bind, Option.bind_some,
      Message.lengthLoop]
    simp only
    split
    · rfl
    · exact ih (by omega) _

theorem readLength_eq (h : length ≤ buffer.length) :
    readLength buffer length = some (Message.readLength buffer length) := by
  cases length with
  | zero => rfl
  | succ n => exact lengthLoop_eq h (by omega) 0

end Checked

/-! ## Reads stay below the length -/

section
variable {buffer : List UInt8} {length : ℕ} (h : length ≤ buffer.length)
include h

theorem checked_total_length : Checked.mqtt_get_total_length buffer length = some (mqtt_get_total_length buffer length) := by
  rw [Checked.mqtt_get_total_length, Checked.readLength_eq h]
  rfl

theorem checked_publish_topic :
    Checked.mqtt_get_publish_topic buffer length = some (mqtt_get_publish_topic buffer length) := by
  rw [Checked.mqtt_get_publish_topic, Checked.readLength_eq h, mqtt_get_publish_topic]
  simp only [Option.bind_eq_bind, Option.bind_some]
  split
  · rfl
  · rw [Checked.word_of_lt (by omega)]
    simp only [Option.bind_some]
    split <;> rfl

theorem checked_publish_data :
    Checked.mqtt_get_publish_data buffer length = some (mqtt_get_publish_data buffer length) := by
  rw [Checked.mqtt_get_publish_data, Checked.readLength_eq h, mqtt_get_publish_data]
  simp only [Option.bind_eq_bind, Option.bind_some]
  split
  · rfl
  · rw [Checked.word_of_lt (by omega), Checked.mqtt_get_qos, Checked.read_of_lt (by omega)]
    simp only [Option.bind_eq_bind, Option.bind_some, Option.pure_def]
    split
    · rfl
    · rw [← mqtt_get_qos]
      split
      · rfl
      · simp only [apply_ite some]

theorem checked_id : Checked.mqtt_get_id buffer length = some (mqtt_get_id buffer length) := by
  rw [Checked.mqtt_get_id, mqtt_get_id]
  split
  · rfl
  · next hpos =>
    rw [Checked.mqtt_get_type, Checked.read_of_lt (by omega)]
    simp only [Option.bind_eq_bind, Option.bind_some, Option.pure_def]
    rw [← mqtt_get_type]
    split
    · rw [Checked.readLength_eq h]
      simp only [Option.bind_some]
      split
      · rfl
      · rw [Checked.word_of_lt (by omega)]
        simp only [Option.bind_some]
        split
        · rfl
        · rw [Checked.mqtt_get_qos, Checked.read_of_lt (by omega)]
          simp only [Option.bind_eq_bind, Option.bind_some, Option.pure_def]
          rw [← mqtt_get_qos]
          split
          · split
            · rfl
            · exact Checked.word_of_lt (by omega)
          · rfl
    · split
      · by_cases hfour : length ≥ 4
        · rw [if_pos hfour, Checked.read_of_lt (by omega), Option.bind_some]
          by_cases hbit : byteAt buffer 1 &&& 0x80 = 0
          · rw [if_pos hbit, if_pos ⟨hfour, hbit⟩, Checked.word_of_lt (by omega)]
          · rw [if_neg hbit, if_neg fun hand => hbit hand.2]
        · rw [if_neg hfour, if_neg fun hand => hfour hand.1]
      · rfl

end

/-- **The decoders read only what they are given**, and so lie the slices they return. -/
theorem decoders_inside {buffer : List UInt8} {length : ℕ} (h : length ≤ buffer.length) :
    Checked.mqtt_get_total_length buffer length = some (mqtt_get_total_length buffer length) ∧
    Checked.mqtt_get_publish_topic buffer length = some (mqtt_get_publish_topic buffer length) ∧
    Checked.mqtt_get_publish_data buffer length = some (mqtt_get_publish_data buffer length) ∧
    Checked.mqtt_get_id buffer length = some (mqtt_get_id buffer length) ∧
    (∀ start, (mqtt_get_publish_topic buffer length).1 = some start →
      start + (mqtt_get_publish_topic buffer length).2 ≤ length) ∧
    ∀ start, (mqtt_get_publish_data buffer length).1 = some start →
      start + (mqtt_get_publish_data buffer length).2 ≤ length :=
  ⟨checked_total_length h, checked_publish_topic h, checked_publish_data h, checked_id h,
    fun _ => mqtt_get_publish_topic_inside, fun _ => mqtt_get_publish_data_inside⟩

/-- A remaining length that does not end in front of a byte that is not to be read. -/
theorem decoders_inside_unended :
    Checked.mqtt_get_id [0x32, 0x80, 0x80, 0x01] 3 = some (mqtt_get_id [0x32, 0x80, 0x80, 0x01] 3) :=
  (decoders_inside (show 3 ≤ [(0x32 : UInt8), 0x80, 0x80, 0x01].length by decide)).2.2.2.1

/-! ## The sum of the remaining length -/

/-- The shift count of each pass of the loop and `totlen` behind it. -/
def lengthPasses : List UInt8 → ℕ → ℕ → List (ℕ × ℕ)
  | [], _, _ => []
  | b :: bs, i, totlen =>
    let shift := 7 * (i - 1)
    let totlen := totlen + shl (b &&& 0x7f).toNat shift
    (shift, totlen) :: if b &&& 0x80 = 0 then [] else lengthPasses bs (i + 1) totlen

theorem lengthPasses_cons (b : UInt8) (bs : List UInt8) (i totlen : ℕ) :
    lengthPasses (b :: bs) i totlen =
      (7 * (i - 1), totlen + shl (b.toNat % 128) (7 * (i - 1))) ::
        if b.toNat < 128 then [] else lengthPasses bs (i + 1) (totlen + shl (b.toNat % 128) (7 * (i - 1))) := by
  rw [lengthPasses]
  simp only [and_7f, and_80]

/-- The passes are those of the loop: one for each byte it reads, the last with its result. -/
theorem lengthLoop_passes (bs : List UInt8) (i totlen : ℕ) :
    lengthLoop bs i totlen = (i + (lengthPasses bs i totlen).length,
      ((lengthPasses bs i totlen).getLast?.map Prod.snd).getD totlen) := by
  induction bs generalizing i totlen with
  | nil => rfl
  | cons b bs ih =>
    rw [lengthLoop_cons, lengthPasses_cons]
    split
    · rfl
    · rw [ih, List.length_cons, Nat.add_assoc, Nat.add_comm 1, List.getLast?_cons]
      cases (lengthPasses bs (i + 1) (totlen + shl (b.toNat % 128) (7 * (i - 1)))).getLast? <;> rfl

/-- A byte without continuation bit is among the first `k`, or there are no more than `k`. -/
def EndsWithin (k : ℕ) (bs : List UInt8) : Prop := bs.length ≤ k ∨ ∃ b ∈ bs.take k, b.toNat < 128

instance (k : ℕ) (bs : List UInt8) : Decidable (EndsWithin k bs) := inferInstanceAs (Decidable (_ ∨ _))

theorem lengthPasses_length_le (k : ℕ) (bs : List UInt8) (i totlen : ℕ) :
    (lengthPasses bs i totlen).length ≤ k ↔ EndsWithin k bs := by
  induction bs generalizing k i totlen with
  | nil => exact iff_of_true (Nat.zero_le k) (.inl (Nat.zero_le k))
  | cons b bs ih =>
    rw [lengthPasses_cons, List.length_cons]
    cases k with
    | zero => exact iff_of_false (Nat.not_succ_le_zero _) (by simp [EndsWithin])
    | succ k =>
      rw [Nat.add_le_add_iff_right]
      by_cases hlast : b.toNat < 128
      · rw [if_pos hlast]
        exact iff_of_true (Nat.zero_le k) (.inr ⟨b, by simp, hlast⟩)
      · rw [if_neg hlast, ih]
        simp [EndsWithin, hlast]

/-- The shift counts go up by 7, and over four passes `totlen` keeps below the next power. -/
theorem lengthPasses_bound {bs : List UInt8} {i totlen : ℕ} (hi : 1 ≤ i) (ht : totlen < 2 ^ (7 * (i - 1)))
    (hfew : i + (lengthPasses bs i totlen).length ≤ 5) {pass : ℕ × ℕ} (h : pass ∈ lengthPasses bs i totlen) :
    pass.1 ≤ 21 ∧ pass.2 < 2 ^ (pass.1 + 7) := by
  induction bs generalizing i totlen with
  | nil => cases h
  | cons b bs ih =>
    rw [lengthPasses_cons] at h hfew
    rw [List.length_cons] at hfew
    have hsum : totlen + shl (b.toNat % 128) (7 * (i - 1)) < 2 ^ (7 * (i - 1) + 7) := by
      have hgroup : b.toNat % 128 * 2 ^ (7 * (i - 1)) ≤ 127 * 2 ^ (7 * (i - 1)) :=
        Nat.mul_le_mul_right _ (by omega)
      rw [shl_of_lt _ (by omega), Nat.shiftLeft_eq, Nat.pow_add]
      omega
    generalize totlen + shl (b.toNat % 128) (7 * (i - 1)) = next at h hsum hfew
    obtain rfl | hlater := List.mem_cons.mp h
    · exact ⟨by simp only; omega, hsum⟩
    · by_cases hlast : b.toNat < 128
      · rw [if_pos hlast] at hlater
        cases hlater
      · rw [if_neg hlast] at hlater hfew
        have hpow : 7 * (i - 1) + 7 = 7 * (i + 1 - 1) := by omega
        rw [hpow] at hsum
        exact ih (by omega) hsum (by omega) hlater

theorem lengthPasses_shift {bs : List UInt8} {i totlen j : ℕ} (hi : 1 ≤ i)
    (h : j < (lengthPasses bs i totlen).length) : ∃ pass ∈ lengthPasses bs i totlen, pass.1 = 7 * (i - 1 + j) := by
  induction bs generalizing i totlen j with
  | nil => cases h
  | cons b bs ih =>
    rw [lengthPasses_cons] at h ⊢
    cases j with
    | zero => exact ⟨_, List.mem_cons_self, rfl⟩
    | succ j =>
      by_cases hlast : b.toNat < 128
      · rw [if_pos hlast] at h
        simp at h
      · rw [if_neg hlast, List.length_cons] at h
        rw [if_neg hlast]
        obtain ⟨pass, hmem, hshift⟩ := ih (by omega) (Nat.lt_of_succ_lt_succ h)
        exact ⟨pass, List.mem_cons_of_mem _ hmem, by omega⟩

/-- The bytes that the loop over the remaining length may read. -/
def lengthField (buffer : List UInt8) (length : ℕ) : List UInt8 := (buffer.take length).drop 1

/-- No shift of the loop and no sum leaves an `int`, and the total is that of a remaining length of
at most four bytes. -/
def SumsUp (buffer : List UInt8) (length : ℕ) : Prop :=
  (∀ pass ∈ lengthPasses (lengthField buffer length) 1 0, pass.1 ≤ 21 ∧ pass.2 ≤ 268435455) ∧
    ∃ n i, n ≤ 268435455 ∧ i ≤ 5 ∧ mqtt_get_total_length buffer length = ((n + i : ℕ) : ℤ)

/-- **When the remaining length can be summed up.** -/
theorem sums_up_iff (buffer : List UInt8) (length : ℕ) :
    SumsUp buffer length ↔ EndsWithin 4 (lengthField buffer length) := by
  rw [← lengthPasses_length_le 4 (lengthField buffer length) 1 0]
  constructor
  · rintro ⟨hpasses, _⟩
    by_contra hmore
    obtain ⟨pass, hmem, hshift⟩ := lengthPasses_shift (j := 4) (Nat.le_refl 1) (Nat.lt_of_not_le hmore)
    have hle := (hpasses pass hmem).1
    omega
  · intro hfew
    have hbound {pass : ℕ × ℕ} (h : pass ∈ lengthPasses (lengthField buffer length) 1 0) :
        pass.1 ≤ 21 ∧ pass.2 ≤ 268435455 := by
      obtain ⟨hshift, hsum⟩ := lengthPasses_bound (Nat.le_refl 1) (by decide) (by omega) h
      have hpow : 2 ^ (pass.1 + 7) ≤ 2 ^ 28 := Nat.pow_le_pow_right (by decide) (by omega)
      omega
    have hread : readLength buffer length = (1 + (lengthPasses (lengthField buffer length) 1 0).length,
        ((lengthPasses (lengthField buffer length) 1 0).getLast?.map Prod.snd).getD 0) := lengthLoop_passes _ 1 0
    have hsum : (readLength buffer length).2 ≤ 268435455 := by
      rw [hread]
      cases hlast : (lengthPasses (lengthField buffer length) 1 0).getLast? with
      | none => exact Nat.zero_le _
      | some pass => exact (hbound (List.mem_of_getLast? hlast)).2
    have hindex : (readLength buffer length).1 ≤ 5 := by
      rw [hread]
      simp only
      omega
    have hint : (readLength buffer length).2 + (readLength buffer length).1 < 2147483648 := by omega
    exact ⟨fun pass hpass => hbound hpass, _, _, hsum, hindex, toInt32_of_lt hint⟩

/-- Five bytes with the continuation bit: the fifth group is shifted by 28 and leaves an `int`. -/
theorem fifth_group_overflows : ¬ SumsUp [0x30, 0xff, 0xff, 0xff, 0xff, 0x7f] 6 := by
  rintro ⟨hpasses, _⟩
  have hfifth : (28, 34359738367) ∈ lengthPasses (lengthField [0x30, 0xff, 0xff, 0xff, 0xff, 0x7f] 6) 1 0 := by decide
  exact absurd (hpasses _ hfifth).1 (by decide)

end LightSleepMqtt.Message
