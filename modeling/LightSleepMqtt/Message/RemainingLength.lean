import LightSleepMqtt.Message.RoundTrip

/-! The remaining length that the builders write. Its two bytes hold bodies of up to 16383
bytes, but a body is only checked against the buffer: in a larger one a longer body goes out
behind a remaining length that is not its own. -/
namespace LightSleepMqtt.Message
open MqttWire
set_option autoImplicit false

/-! ## The bytes of a call -/

def BuilderCall.header : BuilderCall → UInt8
  | .connect _ => fixedHeader MQTT_MSG_TYPE_CONNECT 0 0 0
  | .publish _ _ qos retain => fixedHeader MQTT_MSG_TYPE_PUBLISH 0 qos retain
  | .subscribe .. => fixedHeader MQTT_MSG_TYPE_SUBSCRIBE 0 1 0
  | .unsubscribe _ => fixedHeader MQTT_MSG_TYPE_UNSUBSCRIBE 0 1 0
  | .puback _ => fixedHeader MQTT_MSG_TYPE_PUBACK 0 0 0
  | .pubrec _ => fixedHeader MQTT_MSG_TYPE_PUBREC 0 0 0
  | .pubrel _ => fixedHeader MQTT_MSG_TYPE_PUBREL 0 1 0
  | .pubcomp _ => fixedHeader MQTT_MSG_TYPE_PUBCOMP 0 0 0
  | .pingreq => fixedHeader MQTT_MSG_TYPE_PINGREQ 0 0 0
  | .pingresp => fixedHeader MQTT_MSG_TYPE_PINGRESP 0 0 0
  | .disconnect => fixedHeader MQTT_MSG_TYPE_DISCONNECT 0 0 0

/-- What follows the remaining length, unless a mandatory string is missing. -/
def BuilderCall.body (connection : mqtt_connection_t) : BuilderCall → Option (List UInt8)
  | .connect info => connectBytes info
  | .publish topic data qos _ => publishBody topic data qos (nextMessageId connection.message_id)
  | .subscribe topic qos => subscribeBody topic qos (nextMessageId connection.message_id)
  | .unsubscribe topic => unsubscribeBody topic (nextMessageId connection.message_id)
  | .puback message_id | .pubrec message_id | .pubrel message_id | .pubcomp message_id =>
    some (word (drawnId connection message_id))
  | .pingreq | .pingresp | .disconnect => some []

section
variable {B : ℕ} {connection : mqtt_connection_t}

theorem BuilderCall.exec_emitted (h : Sized B connection) (hB : 3 ≤ B) (stored : ℕ) (call : BuilderCall) :
    Emitted B call.header (call.body connection) (call.exec connection stored).1 := by
  cases call with
  | connect info => exact mqtt_msg_connect_emitted h hB info
  | publish topic data qos retain => exact (mqtt_msg_publish_emitted h hB topic data qos retain stored).1
  | subscribe topic qos => exact (mqtt_msg_subscribe_emitted h hB topic qos stored).1
  | unsubscribe topic => exact (mqtt_msg_unsubscribe_emitted h hB topic stored).1
  | puback id | pubrec id | pubrel id | pubcomp id => exact idMessage_emitted h hB id _ _
  | pingreq | pingresp | disconnect => exact emptyMessage_emitted h hB _

theorem emission_some {header : UInt8} {body : List UInt8} (hroom : 3 + body.length ≤ B) :
    emission B header (some body) = header :: (lengthBytes body.length ++ body) := if_pos hroom

/-- A packet goes out if the body exists and fits behind the reserved bytes. -/
theorem Emitted.length_ne_zero_iff {header : UInt8} {body : Option (List UInt8)} (h : Emitted B header body connection) :
    connection.message.length ≠ 0 ↔ ∃ bs, body = some bs ∧ 3 + bs.length ≤ B := by
  rw [h.length, Ne, List.length_eq_zero_iff, emission_eq_nil_iff]
  simp only [not_forall, Nat.not_lt, exists_prop]

/-- The decoder reads no byte behind the message. -/
theorem mqtt_get_total_length_take (buffer : List UInt8) (length : ℕ) :
    mqtt_get_total_length (buffer.take length) length = mqtt_get_total_length buffer length := by
  simp only [mqtt_get_total_length, readLength, List.take_take, Nat.min_self]

end

/-! ## The two reserved bytes -/

theorem lengthBytes_long {n : ℕ} (h : 127 < n) :
    lengthBytes n = [UInt8.ofNat (n % 128 + 128), UInt8.ofNat (n / 128)] := by
  have hlt : n % 128 < 2 ^ 7 := Nat.mod_lt _ (by decide)
  have hor : 0x80 ||| n % 128 = n % 128 + 128 := by
    show 2 ^ 7 * 1 ||| n % 128 = _
    rw [← Nat.two_pow_add_eq_or_of_lt hlt 1]
    omega
  rw [lengthBytes, if_pos h, hor]

/-- At most four bytes, all but the last with the continuation bit, start `bs`. -/
def StartsLength (bs : List UInt8) : Prop :=
  ∃ init last rest, bs = init ++ last :: rest ∧ init.length < 4 ∧ (∀ b ∈ init, 128 ≤ b.toNat) ∧ last.toNat < 128

theorem lengthLoop_index {init : List UInt8} (hinit : ∀ b ∈ init, 128 ≤ b.toNat) {last : UInt8}
    (hlast : last.toNat < 128) (rest : List UInt8) (i totlen : ℕ) :
    (lengthLoop (init ++ last :: rest) i totlen).1 = i + init.length + 1 := by
  induction init generalizing i totlen with
  | nil => rw [List.nil_append, lengthLoop_cons, if_pos hlast, List.length_nil, Nat.add_zero]
  | cons b bs ih =>
    have hb := hinit b List.mem_cons_self
    rw [List.cons_append, lengthLoop_cons, if_neg (by omega), ih fun c hc => hinit c (List.mem_cons_of_mem b hc),
      List.length_cons]
    omega

/-- The groups behind the first count by multiples of 128, as long as no shift count reaches 32. -/
theorem lengthLoop_mod {init : List UInt8} (hinit : ∀ b ∈ init, 128 ≤ b.toNat) {last : UInt8} (hlast : last.toNat < 128)
    (rest : List UInt8) {i : ℕ} (hi : 2 ≤ i) (hfew : i + init.length ≤ 5) (totlen : ℕ) :
    (lengthLoop (init ++ last :: rest) i totlen).2 % 128 = totlen % 128 := by
  have hgroup (i totlen : ℕ) (b : UInt8) (hi : 2 ≤ i) (hfew : i ≤ 5) :
      (totlen + shl (b.toNat % 128) (7 * (i - 1))) % 128 = totlen % 128 := by
    rw [shl_of_lt _ (by omega), Nat.shiftLeft_eq, show 7 * (i - 1) = 7 * (i - 2) + 7 by omega, Nat.pow_add,
      ← Nat.mul_assoc]
    omega
  induction init generalizing i totlen with
  | nil =>
    rw [List.nil_append, lengthLoop_cons, if_pos hlast]
    exact hgroup i totlen last hi hfew
  | cons b init ih =>
    have hb := hinit b List.mem_cons_self
    rw [List.length_cons] at hfew
    rw [List.cons_append, lengthLoop_cons, if_neg (by omega),
      ih (fun c hc => hinit c (List.mem_cons_of_mem b hc)) (by omega) (by omega)]
    exact hgroup i totlen b hi (by omega)

theorem toInt32_mod {n m : ℕ} (h : toInt32 n = m) : n % 128 = m % 128 := by
  unfold toInt32 at h
  rw [Int.bmod_def] at h
  split_ifs at h <;> omega

/-- The remaining length behind the first byte of the message is well formed and its own. -/
structure LengthRight (connection : mqtt_connection_t) : Prop where
  starts : StartsLength (connection.bytes.drop 1)
  total : mqtt_get_total_length (connection.buffer.drop connection.message.data) connection.message.length =
    connection.message.length

section
variable {B : ℕ} {connection : mqtt_connection_t} {header : UInt8} {body : List UInt8}

theorem Emitted.total (h : Emitted B header (some body) connection) (hroom : 3 + body.length ≤ B) :
    mqtt_get_total_length (connection.buffer.drop connection.message.data) connection.message.length =
      toInt32 ((lengthLoop (lengthBytes body.length ++ body) 1 0).2 +
        (lengthLoop (lengthBytes body.length ++ body) 1 0).1) := by
  have hbytes := h.bytes
  have hlength := h.length
  rw [emission_some hroom] at hbytes hlength
  rw [← mqtt_get_total_length_take]
  show mqtt_get_total_length connection.bytes connection.message.length = _
  rw [hbytes, hlength, mqtt_get_total_length, readLength, List.take_length]
  rfl

/-- Up to 16383 bytes the remaining length is the one of the wire format. -/
theorem Emitted.right (h : Emitted B header (some body) connection) (hroom : 3 + body.length ≤ B)
    (hshort : body.length ≤ 16383) : LengthRight connection := by
  have hbytes := h.bytes
  rw [emission_some hroom] at hbytes
  constructor
  · rw [hbytes, List.drop_succ_cons, List.drop_zero]
    by_cases hlong : 127 < body.length
    · rw [lengthBytes_long hlong]
      refine ⟨[UInt8.ofNat (body.length % 128 + 128)], UInt8.ofNat (body.length / 128), body, rfl,
        Nat.lt_of_sub_eq_succ rfl, fun b hb => ?_, ?_⟩
      · rw [List.mem_singleton.mp hb, ofNat_toNat_of_lt (by omega)]
        omega
      · rw [ofNat_toNat_of_lt (by omega)]
        omega
    · rw [lengthBytes, if_neg hlong]
      refine ⟨[], UInt8.ofNat body.length, body, rfl, by decide, fun b hb => absurd hb List.not_mem_nil, ?_⟩
      rw [ofNat_toNat_of_lt (by omega)]
      omega
  · have hloop : lengthLoop (groups 4 body.length ++ body) 1 0 =
        (1 + (groups 4 body.length).length, 0 + body.length <<< (7 * (1 - 1))) :=
      lengthLoop_groups 3 body.length 1 0 (by omega) (Nat.le_refl 1) (by decide) body
    have hgroups := groups_length_le 4 body.length
    rw [h.total hroom, h.length, emission_some hroom, lengthBytes_eq hshort, remainingLength, hloop]
    simp only [Nat.sub_self, Nat.mul_zero, Nat.shiftLeft_zero, Nat.zero_add, List.length_cons, List.length_append]
    rw [toInt32_of_lt (by omega)]
    omega

theorem Emitted.not_right (h : Emitted B header (some body) connection) (hroom : 3 + body.length ≤ B)
    (hlong : 16383 < body.length) : ¬ LengthRight connection := by
  rintro ⟨⟨init, last, rest, hsplit, hfew, hinit, hlast⟩, htotal⟩
  have hbytes := h.bytes
  have hfirst := ofNat_toNat_of_lt (n := body.length % 128 + 128) (by omega)
  rw [hbytes, emission_some hroom, List.drop_succ_cons, List.drop_zero] at hsplit
  rw [h.total hroom, h.length, emission_some hroom] at htotal
  have hindex := lengthLoop_index hinit hlast rest 1 0
  rw [← hsplit] at hindex
  rw [lengthBytes_long (by omega)] at hsplit htotal hindex
  simp only [List.cons_append, List.nil_append, List.length_cons] at hsplit htotal hindex
  -- the first byte goes on, so it is one of `init`
  cases init with
  | nil =>
    obtain rfl := (List.cons.inj hsplit).1
    rw [hfirst] at hlast
    omega
  | cons first init =>
    obtain ⟨_, hrest⟩ := List.cons.inj hsplit
    rw [List.length_cons] at hfew hindex
    rw [lengthLoop_cons, hfirst, if_neg (by omega)] at htotal hindex
    have hloop := lengthLoop_mod (fun b hb => hinit b (List.mem_cons_of_mem first hb)) hlast rest (Nat.le_refl 2)
      (show 2 + init.length ≤ 5 by omega) (0 + shl ((body.length % 128 + 128) % 128) (7 * (1 - 1)))
    rw [← List.append_eq, ← hrest] at hloop
    -- the sum agrees with the length modulo 128, so the remaining length ends in its second byte
    have hmod := toInt32_mod htotal
    rw [hindex, Nat.add_mod, hloop] at hmod
    simp only [shl, Nat.sub_self, Nat.mul_zero, Nat.zero_mod, Nat.shiftLeft_zero, Nat.zero_add] at hmod
    obtain rfl := List.length_eq_zero_iff.mp (show init.length = 0 by omega)
    obtain ⟨rfl, rfl⟩ : UInt8.ofNat (body.length / 128) = last ∧ body = rest := by simpa using hrest
    rw [ofNat_toNat_mod] at hlast
    rw [lengthLoop_cons, ofNat_toNat_mod, if_pos hlast, shl_of_lt _ (by decide), shl_of_lt _ (by decide),
      toInt32_of_lt (by simp only [Nat.shiftLeft_eq]; omega)] at htotal
    simp only [Nat.shiftLeft_eq] at htotal
    omega

end

/-! ## Every builder, every buffer -/

/-- **The remaining length is right exactly for the bodies that its two bytes hold**, or that do
not fit into the buffer. -/
theorem length_right_iff {B : ℕ} (hB : 3 ≤ B) {connection : mqtt_connection_t} (h : Sized B connection)
    (stored : ℕ) (call : BuilderCall) :
    ((call.exec connection stored).1.message.length ≠ 0 → LengthRight (call.exec connection stored).1) ∧
        ((∃ body, call.body connection = some body ∧ 16383 < body.length) →
          (call.exec connection stored).1.message.length = 0) ↔
      ∀ body, call.body connection = some body → body.length ≤ 16383 ∨ B < 3 + body.length := by
  have hemitted := call.exec_emitted h hB stored
  have hsent := hemitted.length_ne_zero_iff
  constructor
  · rintro ⟨hright, _⟩ body hbody
    by_contra hlong
    rw [hbody] at hemitted
    exact hemitted.not_right (by omega) (by omega) (hright (hsent.mpr ⟨body, hbody, by omega⟩))
  · intro hfits
    constructor
    · intro hne
      obtain ⟨body, hbody, hroom⟩ := hsent.mp hne
      have hshort := hfits body hbody
      rw [hbody] at hemitted
      exact hemitted.right hroom (by omega)
    · rintro ⟨body, hbody, hlong⟩
      by_contra hne
      obtain ⟨body', hbody', hroom⟩ := hsent.mp hne
      obtain rfl := Option.some.inj (hbody.symm.trans hbody')
      have hshort := hfits body hbody
      omega

theorem mqtt_msg_init_sized {B : ℕ} (hB : B ≤ 65535) (buffer : List UInt8) (h : buffer.length = B) :
    Sized B (mqtt_msg_init buffer B) := by
  constructor
  · exact Nat.mod_eq_of_lt (by omega)
  · exact h

/-- A block of 20000 bytes and a topic that fits. -/
theorem length_right_iff_subscribe :
    let call := BuilderCall.subscribe (some (.ofBytes [0x61])) 0
    let connection := mqtt_msg_init (List.replicate 20000 0) 20000
    ((call.exec connection 0).1.message.length ≠ 0 → LengthRight (call.exec connection 0).1) ∧
        ((∃ body, call.body connection = some body ∧ 16383 < body.length) →
          (call.exec connection 0).1.message.length = 0) ↔
      ∀ body, call.body connection = some body → body.length ≤ 16383 ∨ 20000 < 3 + body.length :=
  length_right_iff (by decide) (mqtt_msg_init_sized (by decide) _ List.length_replicate) 0 _

/-- A payload of 16381 bytes behind a one-byte topic in the largest buffer: the packet goes out
with a remaining length that is not its own. -/
theorem long_publish_wrong :
    let call := BuilderCall.publish (some (.ofBytes [0x61])) (List.replicate 16381 0x78) 0 0
    let connection := mqtt_msg_init (List.replicate 65535 0) 65535
    (call.exec connection 0).1.message.length ≠ 0 ∧ ¬ LengthRight (call.exec connection 0).1 := by
  intro call connection
  have h : Sized 65535 connection := mqtt_msg_init_sized (by decide) _ List.length_replicate
  have hemitted := call.exec_emitted h (by decide) 0
  have hbody : call.body connection = some ([0, 1, 0x61] ++ List.replicate 16381 0x78) := rfl
  have hlength : ([0, 1, 0x61] ++ List.replicate 16381 (0x78 : UInt8)).length = 16384 := by
    rw [List.length_append, List.length_replicate]
    rfl
  have hroom : 3 + ([0, 1, 0x61] ++ List.replicate 16381 (0x78 : UInt8)).length ≤ 65535 := by omega
  refine ⟨hemitted.length_ne_zero_iff.mpr ⟨_, hbody, hroom⟩, ?_⟩
  rw [hbody] at hemitted
  exact hemitted.not_right hroom (by omega)

end LightSleepMqtt.Message
