import LightSleepMqtt.Message.Decoders

/-! The decoders on well-formed packets: in a buffer that starts with the bytes of a packet
they find its type, its length, its identifier, its topic and its payload, whatever follows
the packet in the buffer. -/
namespace LightSleepMqtt.Message
open MqttWire
set_option autoImplicit false

theorem byteAt_append_left {a : List UInt8} (b : List UInt8) {i : ℕ} (h : i < a.length) :
    byteAt (a ++ b) i = byteAt a i := by
  simp only [byteAt, List.getD_eq_getElem?_getD]
  rw [List.getElem?_append_left h]

theorem byteAt_append_right (a b : List UInt8) (i : ℕ) :
    byteAt (a ++ b) (a.length + i) = byteAt b i := by
  simp only [byteAt, List.getD_eq_getElem?_getD]
  rw [List.getElem?_append_right (Nat.le_add_right _ _), Nat.add_sub_cancel_left]

theorem wordAt_append (a b : List UInt8) {n : ℕ} (h : n < 65536) :
    wordAt (a ++ (word n ++ b)) a.length = n := by
  have h0 := byteAt_append_right a (word n ++ b) 0
  have h1 := byteAt_append_right a (word n ++ b) 1
  rw [Nat.add_zero] at h0
  rw [wordAt_eq, h0, h1]
  show (UInt8.ofNat (n / 256)).toNat * 256 + (UInt8.ofNat n).toNat = n
  rw [ofNat_toNat_mod, ofNat_toNat_mod]
  omega

theorem mqtt_get_type_append {p : List UInt8} (hp : p ≠ []) (rest : List UInt8) :
    mqtt_get_type (p ++ rest) = mqtt_get_type p := by
  cases p with
  | nil => exact absurd rfl hp
  | cons b bs => rfl

theorem mqtt_get_qos_append {p : List UInt8} (hp : p ≠ []) (rest : List UInt8) :
    mqtt_get_qos (p ++ rest) = mqtt_get_qos p := by
  cases p with
  | nil => exact absurd rfl hp
  | cons b bs => rfl

/-- The length loop stops behind the remaining length, having summed it up. -/
theorem readLength_bytes (header : UInt8) {n : ℕ} (hsize : n < 128 ^ 4) (bs : List UInt8) {length : ℕ}
    (hlen : 1 + (remainingLength n).length ≤ length) :
    readLength (header :: (remainingLength n ++ bs)) length = (1 + (remainingLength n).length, n) := by
  obtain ⟨length, rfl⟩ : ∃ k, length = k + 1 := ⟨length - 1, by omega⟩
  rw [readLength, List.take_succ_cons, List.drop_succ_cons, List.drop_zero, List.take_append,
    List.take_of_length_le (by omega), remainingLength, lengthLoop_groups 3 n 1 0 hsize (by omega) (by omega)]
  simp

def head (p : Packet) : List UInt8 := UInt8.ofNat (p.kind * 16 + p.flags) :: remainingLength p.body.length

theorem encode_eq (p : Packet) : p.encode = head p ++ p.body := rfl

theorem head_length_pos (p : Packet) : 1 < (head p).length := by
  have hpos : 0 < (groups 4 p.body.length).length := groups_length_pos 3 p.body.length
  rw [head, List.length_cons, remainingLength]
  omega

theorem encode_length (p : Packet) : p.encode.length = (head p).length + p.body.length := by
  rw [encode_eq, List.length_append]

section
variable (p : Packet) (rest : List UInt8)

theorem byteAt_encode_zero (h : p.Fields) :
    (byteAt (p.encode ++ rest) 0).toNat = p.kind * 16 + p.flags := by
  have := p.kind_lt
  have := p.flags_lt h
  exact ofNat_toNat_of_lt (by omega)

theorem mqtt_get_type_encode (h : p.Fields) : mqtt_get_type (p.encode ++ rest) = p.kind := by
  have := p.flags_lt h
  rw [mqtt_get_type_eq, byteAt_encode_zero p rest h]
  omega

theorem mqtt_get_qos_encode (h : p.Fields) : mqtt_get_qos (p.encode ++ rest) = p.flags / 2 % 4 := by
  rw [mqtt_get_qos_eq, byteAt_encode_zero p rest h]
  omega

theorem readLength_encode (hsize : p.body.length < 128 ^ 4) {length : ℕ} (hlen : (head p).length ≤ length) :
    readLength (p.encode ++ rest) length = ((head p).length, p.body.length) := by
  have hbytes : p.encode ++ rest = UInt8.ofNat (p.kind * 16 + p.flags) ::
      (remainingLength p.body.length ++ (p.body ++ rest)) := by
    rw [encode_eq, List.append_assoc]
    rfl
  have hhead : (head p).length = 1 + (remainingLength p.body.length).length := by
    rw [head, List.length_cons]
    exact Nat.add_comm _ 1
  rw [hhead] at hlen ⊢
  rw [hbytes, readLength_bytes _ hsize _ hlen]

theorem mqtt_get_total_length_encode (h : p.WellFormed) {length : ℕ} (hlen : (head p).length ≤ length) :
    mqtt_get_total_length (p.encode ++ rest) length = p.encode.length := by
  have hsize := h.size
  have hhead : (head p).length ≤ 5 := by
    have := groups_length_le 4 p.body.length
    rw [head, List.length_cons, remainingLength]
    omega
  rw [mqtt_get_total_length, readLength_encode p rest h.size hlen]
  simp only
  rw [toInt32_of_lt (by omega), encode_length]
  omega

end

/-! ## PUBLISH -/

section
variable {dup retain : Bool} {qos id : ℕ} {topic payload : List UInt8}

abbrev topicAt (p : Packet) : ℕ := (head p).length + 2

theorem publish_body_length (dup retain : Bool) (qos id : ℕ) (topic payload : List UInt8) :
    (Packet.publish dup qos retain topic id payload).body.length =
      2 + topic.length + (if 0 < qos then 2 else 0) + payload.length := by
  simp only [Packet.body, List.length_append, string_length]
  split <;> simp

theorem publish_flags (h : qos ≤ 2) :
    (Packet.publish dup qos retain topic id payload).flags / 2 % 4 = qos := by
  have := Bool.toNat_le dup
  have := Bool.toNat_le retain
  simp only [Packet.flags]
  omega

theorem topic_slice (dup retain : Bool) (qos id : ℕ) (topic payload rest : List UInt8) :
    (((Packet.publish dup qos retain topic id payload).encode ++ rest).drop
      (topicAt (.publish dup qos retain topic id payload))).take topic.length = topic := by
  have hsplit : (Packet.publish dup qos retain topic id payload).encode ++ rest =
      (head (.publish dup qos retain topic id payload) ++ word topic.length) ++
        (topic ++ ((if 0 < qos then word id else []) ++ payload ++ rest)) := by
    simp only [encode_eq, Packet.body, string, List.append_assoc]
  rw [hsplit, show topicAt (.publish dup qos retain topic id payload) =
    (head (.publish dup qos retain topic id payload) ++ word topic.length).length by simp,
    List.drop_left, List.take_left]

/-- The payload stands behind the topic and, for a positive quality of service, the identifier. -/
theorem payload_slice (dup retain : Bool) (qos id : ℕ) (topic payload rest : List UInt8) :
    (((Packet.publish dup qos retain topic id payload).encode ++ rest).drop
      ((head (.publish dup qos retain topic id payload)).length + 2 + topic.length +
        (if 0 < qos then 2 else 0))).take payload.length = payload := by
  have hsplit : (Packet.publish dup qos retain topic id payload).encode ++ rest =
      (head (.publish dup qos retain topic id payload) ++ string topic ++
        (if 0 < qos then word id else [])) ++ (payload ++ rest) := by
    simp only [encode_eq, Packet.body, List.append_assoc]
  have hlength : (head (.publish dup qos retain topic id payload)).length + 2 + topic.length +
      (if 0 < qos then 2 else 0) = (head (.publish dup qos retain topic id payload) ++ string topic ++
        (if 0 < qos then word id else [])).length := by
    simp only [List.length_append, string_length]
    split <;> simp <;> omega
  rw [hsplit, hlength, List.drop_left, List.take_left]

variable (rest : List UInt8) (h : (Packet.publish dup qos retain topic id payload).WellFormed)
include h

theorem publish_qos :
    mqtt_get_qos ((Packet.publish dup qos retain topic id payload).encode ++ rest) = qos := by
  rw [mqtt_get_qos_encode _ _ h.fields, publish_flags h.fields.2.2.1]

theorem publish_topic_length :
    wordAt ((Packet.publish dup qos retain topic id payload).encode ++ rest)
      (head (Packet.publish dup qos retain topic id payload)).length = topic.length := by
  rw [encode_eq, List.append_assoc]
  simp only [Packet.body, string, List.append_assoc]
  exact wordAt_append _ _ h.fields.2.1

theorem mqtt_get_publish_topic_encode {length : ℕ}
    (hlen : (Packet.publish dup qos retain topic id payload).encode.length ≤ length) :
    mqtt_get_publish_topic ((Packet.publish dup qos retain topic id payload).encode ++ rest) length =
      (some (topicAt (.publish dup qos retain topic id payload)), topic.length) := by
  have htopic := List.length_pos_iff.mpr h.fields.1
  have hbody := publish_body_length dup retain qos id topic payload
  rw [encode_length, hbody] at hlen
  rw [mqtt_get_publish_topic, readLength_encode _ _ h.size (by omega)]
  simp only
  rw [publish_topic_length rest h, if_neg (by omega), if_neg (by omega)]

/-- The payload slice, which ends with the packet; an empty payload may also come back as NULL. -/
theorem mqtt_get_publish_data_encode {length : ℕ}
    (hlen : (Packet.publish dup qos retain topic id payload).encode.length ≤ length) :
    mqtt_get_publish_data ((Packet.publish dup qos retain topic id payload).encode ++ rest) length =
        (none, 0) ∧ payload = [] ∨
      ∃ j, mqtt_get_publish_data ((Packet.publish dup qos retain topic id payload).encode ++ rest) length =
          (some j, payload.length) ∧
        j + payload.length = (Packet.publish dup qos retain topic id payload).encode.length ∧
        (((Packet.publish dup qos retain topic id payload).encode ++ rest).drop j).take payload.length =
          payload := by
  have htopic := List.length_pos_iff.mpr h.fields.1
  have hqos := publish_qos rest h
  have hbody := publish_body_length dup retain qos id topic payload
  have hhead : (head (.publish dup qos retain topic id payload)).length ≤ length := by
    rw [encode_length] at hlen
    omega
  have htotal := mqtt_get_total_length_encode _ rest h hhead
  have hread := readLength_encode _ rest h.size hhead
  rw [mqtt_get_total_length, hread] at htotal
  simp only at htotal
  rw [mqtt_get_publish_data, hread]
  simp only
  rw [publish_topic_length rest h, hqos, htotal]
  rw [encode_length, hbody] at hlen ⊢
  set start := (head (.publish dup qos retain topic id payload)).length + 2 + topic.length +
    (if 0 < qos then 2 else 0) with hstart
  have hj : (if qos > 0 then (head (.publish dup qos retain topic id payload)).length + 2 + topic.length + 2
      else (head (.publish dup qos retain topic id payload)).length + 2 + topic.length) = start := by
    rw [hstart]
    split <;> simp
  have hslice := payload_slice dup retain qos id topic payload rest
  rw [← hstart] at hslice
  rw [hj, if_neg (by omega)]
  by_cases hend : start + payload.length = length ∧ payload = []
  · left
    refine ⟨?_, hend.2⟩
    have hnil : payload.length = 0 := by rw [hend.2]; rfl
    by_cases hq : qos > 0
    · rw [if_pos hq] at hstart
      rw [if_neg (by omega), if_pos ⟨hq, by omega⟩]
    · rw [if_neg hq] at hstart
      rw [if_pos (by omega)]
  · right
    have hroom : start < length := by
      obtain hlt | hge := Nat.lt_or_ge start length
      · exact hlt
      · exact absurd ⟨by omega, List.length_eq_zero_iff.mp (by omega)⟩ hend
    refine ⟨start, ?_, by omega, hslice⟩
    have hrest : (head (.publish dup qos retain topic id payload)).length +
        (2 + topic.length + (if 0 < qos then 2 else 0) + payload.length) = start + payload.length := by
      rw [hstart]
      omega
    have hvalue : (((start + payload.length : ℕ) : ℤ) - (start : ℕ)).toNat = payload.length := by omega
    have hguard : ¬ (qos > 0 ∧ (head (.publish dup qos retain topic id payload)).length + 2 +
        topic.length + 2 ≥ length) := by
      intro hread
      obtain ⟨hq, hge⟩ := hread
      rw [if_pos hq] at hstart
      omega
    rw [hrest] at hlen ⊢
    rw [if_neg (by omega), if_neg hguard, if_neg (by omega), if_pos (by omega), hvalue]

/-- The identifier of a PUBLISH that asks for an answer, read with room behind the packet. -/
theorem mqtt_get_id_publish (hqos : 0 < qos) {length : ℕ}
    (hlen : (Packet.publish dup qos retain topic id payload).encode.length < length) :
    mqtt_get_id ((Packet.publish dup qos retain topic id payload).encode ++ rest) length = id := by
  have htype : mqtt_get_type ((Packet.publish dup qos retain topic id payload).encode ++ rest) = 3 :=
    mqtt_get_type_encode _ rest h.fields
  have hbody := publish_body_length dup retain qos id topic payload
  rw [if_pos hqos] at hbody
  rw [encode_length, hbody] at hlen
  have hword : wordAt ((Packet.publish dup qos retain topic id payload).encode ++ rest)
      ((head (.publish dup qos retain topic id payload)).length + 2 + topic.length) = id := by
    have hsplit : (Packet.publish dup qos retain topic id payload).encode ++ rest =
        (head (.publish dup qos retain topic id payload) ++ string topic) ++
          (word id ++ (payload ++ rest)) := by
      simp only [encode_eq, Packet.body, if_pos hqos, List.append_assoc]
    have hlength : (head (.publish dup qos retain topic id payload)).length + 2 + topic.length =
        (head (.publish dup qos retain topic id payload) ++ string topic).length := by
      simp only [List.length_append, string_length]
      omega
    rw [hsplit, hlength]
    exact wordAt_append _ _ h.fields.2.2.2.1
  rw [mqtt_get_id, if_neg (by omega)]
  simp only [htype, if_true]
  rw [readLength_encode _ _ h.size (by omega)]
  simp only
  rw [publish_topic_length rest h, publish_qos rest h, if_neg (by omega), if_neg (by omega), if_pos hqos,
    if_neg (by omega), hword]

end

/-- The decoders find a PUBLISH of `size` bytes at the front of the buffer, with this topic and this
payload, and no slice reaches behind it. -/
structure FindsPublish (buffer : List UInt8) (size : ℕ) (topic payload : List UInt8) : Prop where
  total : mqtt_get_total_length buffer buffer.length = size
  topic : ∃ i, mqtt_get_publish_topic buffer buffer.length = (some i, topic.length) ∧ i + topic.length ≤ size ∧
    (buffer.drop i).take topic.length = topic
  data : mqtt_get_publish_data buffer buffer.length = (none, 0) ∧ payload = [] ∨
    ∃ j, mqtt_get_publish_data buffer buffer.length = (some j, payload.length) ∧ j + payload.length = size ∧
      (buffer.drop j).take payload.length = payload

/-- **The decoders agree with the wire format** on every PUBLISH, whatever follows it. -/
theorem publish_decoders_agree {dup retain : Bool} {qos id : ℕ} {topic payload : List UInt8}
    (h : (Packet.publish dup qos retain topic id payload).WellFormed) (rest : List UInt8) :
    FindsPublish ((Packet.publish dup qos retain topic id payload).encode ++ rest)
      (Packet.publish dup qos retain topic id payload).encode.length topic payload := by
  have hlen : (Packet.publish dup qos retain topic id payload).encode.length ≤
      ((Packet.publish dup qos retain topic id payload).encode ++ rest).length := by
    rw [List.length_append]
    exact Nat.le_add_right _ _
  have hsplit := encode_length (.publish dup qos retain topic id payload)
  have hbody := publish_body_length dup retain qos id topic payload
  constructor
  · exact mqtt_get_total_length_encode _ rest h (by omega)
  · refine ⟨topicAt (.publish dup qos retain topic id payload), mqtt_get_publish_topic_encode rest h hlen, ?_, ?_⟩
    · rw [topicAt]
      omega
    · exact topic_slice dup retain qos id topic payload rest
  · exact mqtt_get_publish_data_encode rest h hlen

/-- A retained QoS 1 message with the start of the next packet behind it. -/
theorem publish_decoders_agree_retained :
    FindsPublish ((Packet.publish false 1 true [0x61, 0x2F] 7 [0x00, 0xFF]).encode ++ [0xD0, 0x00])
      (Packet.publish false 1 true [0x61, 0x2F] 7 [0x00, 0xFF]).encode.length [0x61, 0x2F] [0x00, 0xFF] :=
  publish_decoders_agree ⟨⟨by decide, by decide, by decide, by decide, by decide⟩, by decide⟩ [0xD0, 0x00]

/-! ## PUBREC and PUBREL -/

theorem mqtt_get_id_word {p : Packet} {id : ℕ} (hkind : p.kind = 5 ∨ p.kind = 6) (hbody : p.body = word id)
    (h : p.Fields) (hid : id < 65536) (rest : List UInt8) {length : ℕ} (hlen : 4 ≤ length) :
    mqtt_get_id (p.encode ++ rest) length = id := by
  have htype := mqtt_get_type_encode p rest h
  have hencode : p.encode ++ rest = [UInt8.ofNat (p.kind * 16 + p.flags), 2] ++ (word id ++ rest) := by
    rw [Packet.encode, hbody]
    rfl
  have hword : wordAt (p.encode ++ rest) 2 = id := by
    rw [hencode]
    exact wordAt_append [UInt8.ofNat (p.kind * 16 + p.flags), 2] rest hid
  have hshort : byteAt (p.encode ++ rest) 1 &&& 0x80 = 0 := by
    rw [hencode, and_80]
    show (2 : UInt8).toNat < 128
    decide
  rw [mqtt_get_id, if_neg (by omega)]
  simp only [htype, hshort, and_true, ge_iff_le, if_pos hlen, hword]
  rcases hkind with hkind | hkind <;>
    simp only [hkind, MQTT_MSG_TYPE_PUBLISH, MQTT_MSG_TYPE_PUBACK, MQTT_MSG_TYPE_PUBREC,
      MQTT_MSG_TYPE_PUBREL, Nat.reduceEqDiff, if_false, if_true, true_or, or_true]

end LightSleepMqtt.Message
