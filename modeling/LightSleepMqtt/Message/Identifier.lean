import LightSleepMqtt.Message.RemainingLength

/-! The packet identifier by the wire format, beside what `mqtt_get_id` reads in the bytes of a
packet. The decoder finds the identifiers of the packets a client sends except in an
UNSUBSCRIBE, in a SUBSCRIBE whose remaining length takes two bytes, and in a PUBLISH that ends
with its identifier. -/
namespace LightSleepMqtt.Message
open MqttWire
set_option autoImplicit false

/-- The bytes of a packet with this first byte and body. -/
def packetBytes (header : UInt8) (body : List UInt8) : List UInt8 :=
  header :: (remainingLength body.length ++ body)

def packetBody : List UInt8 → List UInt8
  | [] => []
  | _ :: bs => ((takeGroups 4 true bs).map Prod.snd).getD []

/-- The bytes of a PUBLISH body behind its topic. -/
def behindTopic (body : List UInt8) : List UInt8 := ((takeString body).map Prod.snd).getD []

def leadingWord (bs : List UInt8) : ℕ := ((takeWord bs).map Prod.fst).getD 0

/-- The identifier of a packet, 0 if it has none. -/
def packetId (p : List UInt8) : ℕ :=
  if mqtt_get_type p = MQTT_MSG_TYPE_PUBLISH then
    if mqtt_get_qos p = 0 then 0 else leadingWord (behindTopic (packetBody p))
  else if MQTT_MSG_TYPE_PUBACK ≤ mqtt_get_type p ∧ mqtt_get_type p ≤ MQTT_MSG_TYPE_UNSUBACK then
    leadingWord (packetBody p)
  else 0

/-- `mqtt_get_id` returns 0 whatever the identifier of the packet is. -/
def Overlooked (p : List UInt8) : Prop :=
  mqtt_get_type p = MQTT_MSG_TYPE_UNSUBSCRIBE ∨
    mqtt_get_type p = MQTT_MSG_TYPE_SUBSCRIBE ∧ 127 < (packetBody p).length ∨
    mqtt_get_type p = MQTT_MSG_TYPE_PUBLISH ∧ (behindTopic (packetBody p)).length = 2

instance (p : List UInt8) : Decidable (Overlooked p) := inferInstanceAs (Decidable (_ ∨ _))

/-- A PUBLISH starts with a topic, and an acknowledgement has a one-byte remaining length. -/
structure Shaped (header : UInt8) (body : List UInt8) : Prop where
  size : body.length < 128 ^ 4
  publish : header.toNat / 16 = MQTT_MSG_TYPE_PUBLISH →
    ∃ topic more : List UInt8, topic.length < 65536 ∧ body = string topic ++ more
  short : MQTT_MSG_TYPE_PUBACK ≤ header.toNat / 16 → header.toNat / 16 ≤ MQTT_MSG_TYPE_UNSUBACK →
    header.toNat / 16 = MQTT_MSG_TYPE_SUBSCRIBE ∨ header.toNat / 16 = MQTT_MSG_TYPE_UNSUBSCRIBE ∨ body.length < 128

theorem leadingWord_short {bs : List UInt8} (h : bs.length < 2) : leadingWord bs = 0 := by
  rcases bs with _ | ⟨b, _ | ⟨c, bs⟩⟩
  · rfl
  · rfl
  · simp only [List.length_cons] at h
    omega

theorem wordAt_leadingWord (front : List UInt8) {bs : List UInt8} (h : 2 ≤ bs.length) (rest : List UInt8) :
    wordAt (front ++ (bs ++ rest)) front.length = leadingWord bs := by
  rcases bs with _ | ⟨b, _ | ⟨c, bs⟩⟩
  · simp at h
  · simp at h
  · have h0 := byteAt_append_right front (b :: c :: bs ++ rest) 0
    have h1 := byteAt_append_right front (b :: c :: bs ++ rest) 1
    rw [Nat.add_zero] at h0
    rw [wordAt_eq, h0, h1]
    rfl

section
variable {header : UInt8} {body : List UInt8}

theorem packetBody_packetBytes (h : body.length < 128 ^ 4) : packetBody (packetBytes header body) = body := by
  have htake := takeGroups_groups 3 body.length true h (by simp) body
  rw [packetBytes, packetBody, remainingLength, htake]
  rfl

theorem packetBytes_length : (packetBytes header body).length = 1 + (remainingLength body.length).length + body.length := by
  simp only [packetBytes, List.length_cons, List.length_append]
  omega

theorem mqtt_get_type_packetBytes : mqtt_get_type (packetBytes header body) = header.toNat / 16 :=
  mqtt_get_type_eq _

theorem behindTopic_string {topic : List UInt8} (h : topic.length < 65536) (more : List UInt8) :
    behindTopic (string topic ++ more) = more := by
  rw [behindTopic, takeString_string h]
  rfl

/-! ## What the decoder finds -/

theorem mqtt_get_id_publish_bytes (hsize : body.length < 128 ^ 4) (htype : header.toNat / 16 = MQTT_MSG_TYPE_PUBLISH)
    {topic more : List UInt8} (htopic : topic.length < 65536) (hbody : body = string topic ++ more)
    (rest : List UInt8) :
    mqtt_get_id (packetBytes header body ++ rest) (packetBytes header body).length =
      if mqtt_get_qos (packetBytes header body) = 0 ∨ more.length ≤ 2 then 0 else leadingWord more := by
  have hne : packetBytes header body ≠ [] := List.cons_ne_nil _ _
  have hlength : (packetBytes header body).length =
      1 + (remainingLength body.length).length + 2 + topic.length + more.length := by
    rw [packetBytes_length, hbody, List.length_append, string_length]
    omega
  have hread : readLength (packetBytes header body ++ rest) (packetBytes header body).length =
      (1 + (remainingLength body.length).length, body.length) := by
    have hbytes : packetBytes header body ++ rest = header :: (remainingLength body.length ++ (body ++ rest)) := by
      simp only [packetBytes, List.cons_append, List.append_assoc]
    rw [hbytes, readLength_bytes header hsize _ (by rw [packetBytes_length]; omega)]
  have hsplit : packetBytes header body ++ rest =
      (header :: remainingLength body.length) ++ (word topic.length ++ (topic ++ (more ++ rest))) := by
    simp only [packetBytes, hbody, string, List.cons_append, List.append_assoc]
  have htopiclen : wordAt (packetBytes header body ++ rest) (1 + (remainingLength body.length).length) =
      topic.length := by
    rw [hsplit, Nat.add_comm 1]
    exact wordAt_append _ _ htopic
  have hid (hmore : 2 ≤ more.length) :
      wordAt (packetBytes header body ++ rest) (1 + (remainingLength body.length).length + 2 + topic.length) =
        leadingWord more := by
    have hfront : 1 + (remainingLength body.length).length + 2 + topic.length =
        ((header :: remainingLength body.length) ++ word topic.length ++ topic).length := by
      simp only [List.length_append, List.length_cons, word_length]
      omega
    rw [hsplit, hfront, ← List.append_assoc, ← List.append_assoc]
    exact wordAt_leadingWord _ hmore rest
  rw [mqtt_get_id, if_neg (by omega), mqtt_get_type_append hne, mqtt_get_type_packetBytes]
  simp only [if_pos htype]
  rw [hread]
  simp only
  rw [htopiclen, mqtt_get_qos_append hne]
  by_cases hqos : mqtt_get_qos (packetBytes header body) = 0
  · simp [hqos]
  · simp only [hqos, false_or, Nat.pos_of_ne_zero hqos, if_true]
    split_ifs <;> first | rfl | omega

theorem mqtt_get_id_short_bytes (htype : header.toNat / 16 ≠ MQTT_MSG_TYPE_PUBLISH) (rest : List UInt8) :
    mqtt_get_id (packetBytes header body ++ rest) (packetBytes header body).length =
      if MQTT_MSG_TYPE_PUBACK ≤ header.toNat / 16 ∧ header.toNat / 16 ≤ MQTT_MSG_TYPE_UNSUBACK ∧
          header.toNat / 16 ≠ MQTT_MSG_TYPE_UNSUBSCRIBE ∧ body.length < 128 then
        leadingWord body
      else 0 := by
  have hne : packetBytes header body ≠ [] := List.cons_ne_nil _ _
  have hpos : ¬ (packetBytes header body).length < 1 := by
    rw [packetBytes_length]
    omega
  rw [mqtt_get_id, if_neg hpos, mqtt_get_type_append hne, mqtt_get_type_packetBytes]
  simp only [if_neg htype]
  by_cases hlong : body.length < 128
  · have hlengths : remainingLength body.length = [UInt8.ofNat body.length] := if_pos hlong
    have hsplit : packetBytes header body ++ rest = [header, UInt8.ofNat body.length] ++ (body ++ rest) := by
      simp only [packetBytes, hlengths, List.cons_append, List.nil_append]
    have hbit : byteAt (packetBytes header body ++ rest) 1 &&& 0x80 = 0 := by
      rw [and_80, hsplit]
      show (UInt8.ofNat body.length).toNat < 128
      rw [ofNat_toNat_of_lt (by omega)]
      exact hlong
    have hword : (if (packetBytes header body).length ≥ 4 ∧ byteAt (packetBytes header body ++ rest) 1 &&& 0x80 = 0 then
        wordAt (packetBytes header body ++ rest) 2 else 0) = leadingWord body := by
      rw [packetBytes_length, hlengths, hsplit] at *
      by_cases htwo : 2 ≤ body.length
      · rw [if_pos ⟨by simp only [List.length_singleton]; omega, hbit⟩]
        exact wordAt_leadingWord [header, UInt8.ofNat body.length] htwo rest
      · rw [if_neg fun hand => by simp only [List.length_singleton] at hand; omega, leadingWord_short (by omega)]
    rw [hword]
    refine if_congr ?_ rfl rfl
    simp only [MQTT_MSG_TYPE_PUBACK, MQTT_MSG_TYPE_PUBREC, MQTT_MSG_TYPE_PUBREL, MQTT_MSG_TYPE_PUBCOMP,
      MQTT_MSG_TYPE_SUBACK, MQTT_MSG_TYPE_UNSUBACK, MQTT_MSG_TYPE_SUBSCRIBE, MQTT_MSG_TYPE_UNSUBSCRIBE]
    omega
  · have hbit : ¬ byteAt (packetBytes header body ++ rest) 1 &&& 0x80 = 0 := by
      have hfirst : remainingLength body.length = UInt8.ofNat (body.length % 128 + 128) :: groups 3 (body.length / 128) :=
        if_neg hlong
      rw [and_80, packetBytes, hfirst]
      show ¬ (UInt8.ofNat (body.length % 128 + 128)).toNat < 128
      rw [ofNat_toNat_of_lt (by omega)]
      omega
    have hnot : ¬ ((packetBytes header body).length ≥ 4 ∧ byteAt (packetBytes header body ++ rest) 1 &&& 0x80 = 0) :=
      fun hand => hbit hand.2
    rw [if_neg hnot, ite_self, if_neg fun hand => hlong hand.2.2.2]

/-- **The decoder finds the identifier of a packet unless it overlooks it.** -/
theorem mqtt_get_id_iff (h : Shaped header body) (rest : List UInt8) :
    mqtt_get_id (packetBytes header body ++ rest) (packetBytes header body).length =
        packetId (packetBytes header body) ↔
      (packetId (packetBytes header body) ≠ 0 → ¬ Overlooked (packetBytes header body)) := by
  unfold packetId Overlooked
  rw [packetBody_packetBytes h.size, mqtt_get_type_packetBytes]
  by_cases htype : header.toNat / 16 = MQTT_MSG_TYPE_PUBLISH
  · obtain ⟨topic, more, htopic, rfl⟩ := h.publish htype
    have hother : ¬ MQTT_MSG_TYPE_PUBLISH = MQTT_MSG_TYPE_UNSUBSCRIBE ∧ ¬ MQTT_MSG_TYPE_PUBLISH = MQTT_MSG_TYPE_SUBSCRIBE := by
      decide
    rw [mqtt_get_id_publish_bytes h.size htype htopic rfl, if_pos htype, behindTopic_string htopic, htype]
    simp only [hother, true_and, false_and, false_or]
    by_cases hqos : mqtt_get_qos (packetBytes header (string topic ++ more)) = 0
    · simp [hqos]
    · by_cases hshort : more.length < 2
      · simp [hqos, leadingWord_short hshort, Nat.le_of_lt hshort]
      · by_cases htwo : more.length = 2
        · simp [hqos, htwo, eq_comm]
        · simp [hqos, htwo, show ¬ more.length ≤ 2 by omega]
  · rw [mqtt_get_id_short_bytes htype, if_neg htype]
    simp only [htype, false_and, or_false]
    by_cases hrange : MQTT_MSG_TYPE_PUBACK ≤ header.toNat / 16 ∧ header.toNat / 16 ≤ MQTT_MSG_TYPE_UNSUBACK
    · have hshort := h.short hrange.1 hrange.2
      rw [if_pos hrange]
      by_cases hoverlooked : header.toNat / 16 = MQTT_MSG_TYPE_UNSUBSCRIBE ∨
          header.toNat / 16 = MQTT_MSG_TYPE_SUBSCRIBE ∧ 127 < body.length
      · rw [if_neg (by omega)]
        constructor
        · exact fun hzero hne => absurd hzero.symm hne
        · exact fun hfound => of_not_not fun hne => hfound (Ne.symm hne) hoverlooked
      · rw [if_pos (by omega)]
        exact iff_of_true rfl fun _ => hoverlooked
    · rw [if_neg fun hand => hrange ⟨hand.1, hand.2.1⟩, if_neg hrange]
      simp

end

/-! ## What the builders write -/

/-- The calls that put an identifier into their packet. -/
def BuilderCall.CarriesId : BuilderCall → Prop
  | .publish _ _ qos _ => qos = 1 ∨ qos = 2
  | .subscribe .. | .unsubscribe _ => True
  | .puback message_id | .pubrec message_id | .pubrel message_id | .pubcomp message_id =>
    message_id ≠ 0 ∧ message_id < 65536
  | _ => False

/-- The identifier that goes into the packet. -/
def BuilderCall.identifier (connection : mqtt_connection_t) : BuilderCall → ℕ
  | .puback message_id | .pubrec message_id | .pubrel message_id | .pubcomp message_id => message_id
  | _ => nextMessageId connection.message_id

/-- The decoder finds the identifier in the packet of the call. -/
def BuilderCall.FindsId : BuilderCall → Prop
  | .publish _ data .. => data ≠ []
  | .subscribe topic _ => ∀ s, topic = some s → s.bytes.length ≤ 122
  | .unsubscribe _ => False
  | _ => True

theorem BuilderCall.identifier_ne_zero {connection : mqtt_connection_t} {call : BuilderCall} (hcall : call.CarriesId) :
    call.identifier connection ≠ 0 := by
  cases call with
  | publish | subscribe | unsubscribe => exact nextMessageId_ne_zero _
  | puback | pubrec | pubrel | pubcomp => exact hcall.1
  | connect | pingreq | pingresp | disconnect => cases hcall

theorem leadingWord_word {n : ℕ} (h : n < 65536) (rest : List UInt8) : leadingWord (word n ++ rest) = n := by
  rw [leadingWord, takeWord_word h]
  rfl

section
variable {B : ℕ} {connection : mqtt_connection_t}

theorem Emitted.packetBytes {header : UInt8} {body : List UInt8} (h : Emitted B header (some body) connection)
    (hroom : 3 + body.length ≤ B) (hmax : B ≤ 16386) :
    ∃ rest, connection.buffer.drop connection.message.data = packetBytes header body ++ rest ∧
      connection.message.length = (packetBytes header body).length := by
  have hemission : emission B header (some body) = Message.packetBytes header body := by
    rw [emission_some hroom, lengthBytes_eq (by omega)]
    rfl
  have hbytes := h.bytes
  rw [hemission] at hbytes
  refine ⟨(connection.buffer.drop connection.message.data).drop connection.message.length, ?_, ?_⟩
  · rw [← hbytes]
    exact (List.take_append_drop _ _).symm
  · rw [h.length, hemission]

theorem append_message_id_refused (h : connection.buffer_length < connection.message.length + 2) (message_id : ℕ) :
    (append_message_id connection message_id).2 = 0 := by
  simp only [append_message_id]
  by_cases hzero : message_id = 0
  · rw [if_pos hzero, if_pos hzero, if_pos h]
  · rw [if_neg hzero, if_neg hzero, if_pos h]

/-- A block too small for the reserved bytes: no call gets its identifier in. -/
theorem BuilderCall.exec_small (h : connection.buffer_length < 3) (stored : ℕ) {call : BuilderCall}
    (hcall : call.CarriesId) : (call.exec connection stored).1.message.length = 0 := by
  have hfull : (init_message connection).buffer_length < (init_message connection).message.length + 2 := by
    show connection.buffer_length < 3 + 2
    omega
  have hid := append_message_id_refused hfull
  have hack (message_id type : ℕ) (qos : ℤ) : (idMessage connection message_id type qos).message.length = 0 := by
    rw [idMessage, if_pos (hid message_id)]
    rfl
  have htopic (topic : Option CString) : ∃ c n, topicRequest connection topic stored = (.error c, n) := by
    unfold topicRequest
    cases nonEmpty topic with
    | none => exact ⟨_, _, rfl⟩
    | some t => exact ⟨_, _, if_pos (hid 0)⟩
  cases call with
  | publish topic data qos retain =>
    rw [BuilderCall.exec, mqtt_msg_publish]
    cases nonEmpty topic with
    | none => rfl
    | some t =>
      have happend : append_string (init_message connection) t.bytes = .error (init_message connection) :=
        if_pos (by omega)
      simp only [happend]
      rfl
  | subscribe topic qos =>
    obtain ⟨c, n, hrequest⟩ := htopic topic
    rw [BuilderCall.exec, mqtt_msg_subscribe, hrequest]
    rfl
  | unsubscribe topic =>
    obtain ⟨c, n, hrequest⟩ := htopic topic
    rw [BuilderCall.exec, mqtt_msg_unsubscribe, hrequest]
    rfl
  | puback | pubrec | pubrel | pubcomp => exact hack _ _ _
  | connect | pingreq | pingresp | disconnect => cases hcall

end

theorem publish_header_fields {qos : ℤ} (hqos : qos = 1 ∨ qos = 2) (retain : ℤ) :
    (fixedHeader MQTT_MSG_TYPE_PUBLISH 0 qos retain).toNat / 16 = MQTT_MSG_TYPE_PUBLISH ∧
      (fixedHeader MQTT_MSG_TYPE_PUBLISH 0 qos retain).toNat / 2 % 4 ≠ 0 := by
  have hretain : retain % 2 = 0 ∨ retain % 2 = 1 := by omega
  unfold fixedHeader
  obtain rfl | rfl := hqos <;> obtain hretain | hretain := hretain <;> rw [hretain] <;> decide

/-- The identifier stands in the packet by the wire format, and the decoder overlooks it or not. -/
structure BuilderCall.Writes (call : BuilderCall) (connection : mqtt_connection_t) (header : UInt8)
    (body : List UInt8) : Prop where
  shaped : Shaped header body
  written : packetId (packetBytes header body) = call.identifier connection
  finds : ¬ Overlooked (packetBytes header body) ↔ call.FindsId

section
variable {connection : mqtt_connection_t} {body : List UInt8} (hsize : body.length < 65536)
include hsize

theorem writes_publish {topic : Option CString} {data : List UInt8} {qos : ℤ} (hqos : qos = 1 ∨ qos = 2) (retain : ℤ)
    (hbody : (BuilderCall.publish topic data qos retain).body connection = some body) :
    (BuilderCall.publish topic data qos retain).Writes connection
      (fixedHeader MQTT_MSG_TYPE_PUBLISH 0 qos retain) body := by
  obtain ⟨t, ht, rfl⟩ := Option.map_eq_some_iff.mp hbody
  obtain ⟨htype, hbits⟩ := publish_header_fields hqos retain
  have hmore : string t.bytes ++ (if qos > 0 then word (nextMessageId connection.message_id) else []) ++ data =
      string t.bytes ++ (word (nextMessageId connection.message_id) ++ data) := by
    rw [if_pos (by omega), List.append_assoc]
  rw [hmore] at hsize ⊢
  have htopic : t.bytes.length < 65536 := by
    rw [List.length_append, string_length] at hsize
    omega
  have hbehind := behindTopic_string htopic (word (nextMessageId connection.message_id) ++ data)
  have hpacket : packetBody (packetBytes (fixedHeader MQTT_MSG_TYPE_PUBLISH 0 qos retain)
      (string t.bytes ++ (word (nextMessageId connection.message_id) ++ data))) = _ :=
    packetBody_packetBytes (by omega)
  constructor
  · exact ⟨by omega, fun _ => ⟨t.bytes, _, htopic, rfl⟩, fun hack _ => absurd (htype ▸ hack) (by decide)⟩
  · have hqosBits : mqtt_get_qos (packetBytes (fixedHeader MQTT_MSG_TYPE_PUBLISH 0 qos retain)
        (string t.bytes ++ (word (nextMessageId connection.message_id) ++ data))) ≠ 0 := by
      rw [mqtt_get_qos_eq]
      exact hbits
    rw [packetId, mqtt_get_type_packetBytes, if_pos htype, if_neg hqosBits, hpacket, hbehind]
    exact leadingWord_word (nextMessageId_lt _) _
  · rw [Overlooked, mqtt_get_type_packetBytes, htype, hpacket, hbehind]
    have hlength : (word (nextMessageId connection.message_id) ++ data).length = 2 + data.length := List.length_append
    rw [hlength]
    show ¬ (3 = 10 ∨ 3 = 8 ∧ _ ∨ 3 = 3 ∧ 2 + data.length = 2) ↔ data ≠ []
    rw [Ne, ← List.length_eq_zero_iff]
    omega

/-- The packets whose body starts with the identifier. -/
theorem writes_front {call : BuilderCall} {header : UInt8} {type : ℕ} {rest : List UInt8}
    (htype : header.toNat / 16 = type) (hid : call.identifier connection < 65536)
    (hbody : body = word (call.identifier connection) ++ rest)
    (hkind : type = MQTT_MSG_TYPE_SUBSCRIBE ∨ type = MQTT_MSG_TYPE_UNSUBSCRIBE ∨
      (MQTT_MSG_TYPE_PUBACK ≤ type ∧ type ≤ MQTT_MSG_TYPE_PUBCOMP) ∧ rest = [])
    (hfinds : call.FindsId ↔ type ≠ MQTT_MSG_TYPE_UNSUBSCRIBE ∧ (type = MQTT_MSG_TYPE_SUBSCRIBE → rest.length ≤ 125)) :
    call.Writes connection header body := by
  have hpacket : packetBody (packetBytes header body) = body := packetBody_packetBytes (by omega)
  have hlength : body.length = 2 + rest.length := by
    rw [hbody, List.length_append, word_length]
  have hrange : MQTT_MSG_TYPE_PUBACK ≤ type ∧ type ≤ MQTT_MSG_TYPE_UNSUBACK := by
    simp only [MQTT_MSG_TYPE_SUBSCRIBE, MQTT_MSG_TYPE_UNSUBSCRIBE, MQTT_MSG_TYPE_PUBACK, MQTT_MSG_TYPE_PUBCOMP,
      MQTT_MSG_TYPE_UNSUBACK] at *
    omega
  have hnot : type ≠ MQTT_MSG_TYPE_PUBLISH := Nat.ne_of_gt hrange.1
  constructor
  · refine ⟨by omega, fun hpub => absurd (htype.symm.trans hpub) hnot, fun _ _ => ?_⟩
    rw [htype]
    obtain hsub | hunsub | ⟨_, hnil⟩ := hkind
    · exact .inl hsub
    · exact .inr (.inl hunsub)
    · rw [hnil, List.length_nil] at hlength
      exact .inr (.inr (by omega))
  · rw [packetId, mqtt_get_type_packetBytes, htype, if_neg hnot, hpacket, if_pos hrange, hbody]
    exact leadingWord_word hid _
  · rw [Overlooked, mqtt_get_type_packetBytes, htype, hpacket, hlength, hfinds]
    simp only [hnot, false_and, or_false]
    constructor
    · intro hread
      exact ⟨fun hunsub => hread (.inl hunsub), fun hsub => by_contra fun hlong => hread (.inr ⟨hsub, by omega⟩)⟩
    · rintro ⟨hunsub, hsub⟩ (hread | ⟨hread, hlong⟩)
      · exact hunsub hread
      · have := hsub hread
        omega

end

theorem writes_ack {connection : mqtt_connection_t} {call : BuilderCall} {header : UInt8} {type message_id : ℕ}
    (htype : header.toNat / 16 = type) (hkind : MQTT_MSG_TYPE_PUBACK ≤ type ∧ type ≤ MQTT_MSG_TYPE_PUBCOMP)
    (hid : message_id ≠ 0 ∧ message_id < 65536) (hcall : call.identifier connection = message_id)
    (hfinds : call.FindsId) : call.Writes connection header (word (drawnId connection message_id)) := by
  have hword : word (drawnId connection message_id) = word (call.identifier connection) ++ [] := by
    rw [hcall, drawnId, if_neg hid.1, List.append_nil]
  have hsize : (word (drawnId connection message_id)).length < 65536 := Nat.lt_of_sub_eq_succ rfl
  apply writes_front hsize htype (by omega) hword (.inr (.inr ⟨hkind, rfl⟩))
  exact iff_of_true hfinds ⟨Nat.ne_of_lt (Nat.lt_of_le_of_lt hkind.2 (by decide)), fun _ => Nat.zero_le _⟩

theorem BuilderCall.writes {connection : mqtt_connection_t} {call : BuilderCall} (hcall : call.CarriesId)
    {body : List UInt8} (hsize : body.length < 65536) (hbody : call.body connection = some body) :
    call.Writes connection call.header body := by
  have hnext := nextMessageId_lt connection.message_id
  cases call with
  | publish topic data qos retain => exact writes_publish hsize hcall retain hbody
  | subscribe topic qos =>
    obtain ⟨t, ht, rfl⟩ := Option.map_eq_some_iff.mp hbody
    have htype : (fixedHeader MQTT_MSG_TYPE_SUBSCRIBE 0 1 0).toNat / 16 = MQTT_MSG_TYPE_SUBSCRIBE := by decide
    refine writes_front hsize htype hnext (List.append_assoc _ _ _) (.inl rfl) ?_
    rw [BuilderCall.FindsId, List.length_append, string_length, List.length_singleton, nonEmpty_eq_some ht]
    constructor
    · exact fun h => ⟨by decide, fun _ => by have := h t rfl; omega⟩
    · rintro ⟨_, h⟩ s ⟨rfl⟩
      have := h rfl
      omega
  | unsubscribe topic =>
    obtain ⟨t, ht, rfl⟩ := Option.map_eq_some_iff.mp hbody
    have htype : (fixedHeader MQTT_MSG_TYPE_UNSUBSCRIBE 0 1 0).toNat / 16 = MQTT_MSG_TYPE_UNSUBSCRIBE := by decide
    exact writes_front hsize htype hnext rfl (.inr (.inl rfl)) ⟨False.elim, fun h => h.1 rfl⟩
  | puback id =>
    obtain rfl := Option.some.inj hbody
    have htype : (fixedHeader MQTT_MSG_TYPE_PUBACK 0 0 0).toNat / 16 = MQTT_MSG_TYPE_PUBACK := by decide
    exact writes_ack htype (by decide) hcall rfl trivial
  | pubrec id =>
    obtain rfl := Option.some.inj hbody
    have htype : (fixedHeader MQTT_MSG_TYPE_PUBREC 0 0 0).toNat / 16 = MQTT_MSG_TYPE_PUBREC := by decide
    exact writes_ack htype (by decide) hcall rfl trivial
  | pubrel id =>
    obtain rfl := Option.some.inj hbody
    have htype : (fixedHeader MQTT_MSG_TYPE_PUBREL 0 1 0).toNat / 16 = MQTT_MSG_TYPE_PUBREL := by decide
    exact writes_ack htype (by decide) hcall rfl trivial
  | pubcomp id =>
    obtain rfl := Option.some.inj hbody
    have htype : (fixedHeader MQTT_MSG_TYPE_PUBCOMP 0 0 0).toNat / 16 = MQTT_MSG_TYPE_PUBCOMP := by decide
    exact writes_ack htype (by decide) hcall rfl trivial
  | connect | pingreq | pingresp | disconnect => cases hcall

/-- **What the decoder makes of the identifiers that the builders write**: it finds the one of an
acknowledgement, of a PUBLISH with a payload and of a SUBSCRIBE with a topic of at most 122 bytes,
and the one of no UNSUBSCRIBE. -/
theorem finds_id_iff {B : ℕ} (hmax : B ≤ 16386) {connection : mqtt_connection_t} (h : Sized B connection)
    (stored : ℕ) {call : BuilderCall} (hcall : call.CarriesId)
    (hsent : (call.exec connection stored).1.message.length ≠ 0) :
    packetId (call.exec connection stored).1.bytes = call.identifier connection ∧
      (mqtt_get_id ((call.exec connection stored).1.buffer.drop (call.exec connection stored).1.message.data)
        (call.exec connection stored).1.message.length = call.identifier connection ↔ call.FindsId) := by
  have hB : 3 ≤ B := by
    by_contra hsmall
    exact hsent (call.exec_small (by rw [h.limit]; omega) stored hcall)
  have hemitted := call.exec_emitted h hB stored
  obtain ⟨body, hbody, hroom⟩ := hemitted.length_ne_zero_iff.mp hsent
  rw [hbody] at hemitted
  obtain ⟨rest, hblock, hlength⟩ := hemitted.packetBytes hroom hmax
  have hid : call.identifier connection ≠ 0 := call.identifier_ne_zero hcall
  obtain ⟨hshaped, hwritten, hfinds⟩ := call.writes hcall (by omega) hbody
  have hbytes : (call.exec connection stored).1.bytes = packetBytes call.header body := by
    rw [mqtt_connection_t.bytes, hblock, hlength, List.take_left]
  have hread := mqtt_get_id_iff hshaped rest
  rw [hwritten, hfinds] at hread
  rw [hbytes, hblock, hlength, hread]
  exact ⟨hwritten, fun h => h hid, fun h _ => h⟩

/-- A QoS 2 message with one byte of payload in a block of 16 bytes. -/
theorem finds_id_iff_publish :
    let call := BuilderCall.publish (some (.ofBytes [0x61])) [0x78] 2 0
    let connection := mqtt_msg_init (List.replicate 16 0) 16
    let sent := (call.exec connection 0).1
    packetId sent.bytes = call.identifier connection ∧
      (mqtt_get_id (sent.buffer.drop sent.message.data) sent.message.length = call.identifier connection ↔
        call.FindsId) :=
  finds_id_iff (B := 16) (by decide) ⟨by decide, by decide⟩ 0 (.inr rfl) (by decide)

/-- An UNSUBSCRIBE and a QoS 1 message without payload carry the identifier 1, and the decoder
returns 0. -/
theorem identifier_missed :
    let connection := mqtt_msg_init (List.replicate 16 0) 16
    let unsubscribe := (mqtt_msg_unsubscribe connection (some (.ofBytes [0x61])) 0).1
    let publish := (mqtt_msg_publish connection (some (.ofBytes [0x61])) [] 1 0 0).1
    (unsubscribe.bytes = [0xA2, 5, 0, 1, 0, 1, 0x61] ∧
        mqtt_get_id (unsubscribe.buffer.drop unsubscribe.message.data) unsubscribe.message.length = 0) ∧
      publish.bytes = [0x32, 5, 0, 1, 0x61, 0, 1] ∧
        mqtt_get_id (publish.buffer.drop publish.message.data) publish.message.length = 0 := by decide

end LightSleepMqtt.Message
