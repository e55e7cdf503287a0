import LightSleepMqtt.Client.Acknowledge
import LightSleepMqtt.Message.Leftover

/-! What `dataCb` is given. The payload of a delivered publish never reaches behind the packet, and
its length is 0 when it is NULL. The topic is bounded by what was received only, and a topic that
is not found is passed on as NULL with the length of the segment. -/
namespace LightSleepMqtt.Client
open Message MqttWire Queue
set_option autoImplicit false

/-! ## The two slices -/

/-- Where the packet at the front ends, or the received bytes do. -/
def packetEnd (buffer : List UInt8) (length : ℕ) : ℤ := min (mqtt_get_total_length buffer length) length

/-- NULL with no length, or a slice in front of `last`. -/
def SliceInside (last : ℤ) : Option ℕ × ℕ → Prop
  | (none, length) => length = 0
  | (some i, length) => ((i + length : ℕ) : ℤ) ≤ last

structure ValidSlices (buffer : List UInt8) (length : ℕ) : Prop where
  topic : SliceInside (packetEnd buffer length) (mqtt_get_publish_topic buffer length)
  data : SliceInside (packetEnd buffer length) (mqtt_get_publish_data buffer length)

/-- The received bytes go on behind the topic's length, and the packet does not end in front of the
topic's end. -/
def TopicInside (buffer : List UInt8) (length : ℕ) : Prop :=
  (readLength buffer length).1 + 2 < length ∧
    (((readLength buffer length).1 + 2 + wordAt buffer (readLength buffer length).1 : ℕ) : ℤ) ≤ packetEnd buffer length

theorem publish_data_inside (buffer : List UInt8) (length : ℕ) :
    SliceInside (packetEnd buffer length) (mqtt_get_publish_data buffer length) := by
  have htotal : toInt32 ((readLength buffer length).2 + (readLength buffer length).1) = mqtt_get_total_length buffer length :=
    rfl
  simp only [mqtt_get_publish_data, packetEnd, htotal]
  generalize mqtt_get_total_length buffer length = total
  have hnull : SliceInside (min total length) (none, 0) := rfl
  generalize hj : (if mqtt_get_qos buffer > 0 then
    (readLength buffer length).1 + 2 + wordAt buffer (readLength buffer length).1 + 2
    else (readLength buffer length).1 + 2 + wordAt buffer (readLength buffer length).1) = j
  split_ifs
  · exact hnull
  · exact hnull
  · exact hnull
  · exact hnull
  · show ((j + (total - j).toNat : ℕ) : ℤ) ≤ min total length
    omega
  · show ((j + (length - j) : ℕ) : ℤ) ≤ min total length
    have hle : j ≤ length := by
      rw [← hj]
      split <;> omega
    omega

theorem publish_topic_inside_iff {length : ℕ} (hpos : 0 < length) (buffer : List UInt8) :
    SliceInside (packetEnd buffer length) (mqtt_get_publish_topic buffer length) ↔ TopicInside buffer length := by
  have hnull : ¬ SliceInside (packetEnd buffer length) (none, length) := Nat.ne_of_gt hpos
  have hle : packetEnd buffer length ≤ length := Int.min_le_right _ _
  simp only [mqtt_get_publish_topic, TopicInside]
  by_cases hshort : (readLength buffer length).1 + 2 ≥ length
  · rw [if_pos hshort]
    exact iff_of_false hnull fun hinside => Nat.not_lt.mpr hshort hinside.1
  · by_cases hlong : (readLength buffer length).1 + 2 + wordAt buffer (readLength buffer length).1 > length
    · rw [if_neg hshort, if_pos hlong]
      exact iff_of_false hnull fun hinside => by omega
    · rw [if_neg hshort, if_neg hlong]
      exact (and_iff_right (Nat.not_le.mp hshort)).symm

theorem validSlices_iff {length : ℕ} (hpos : 0 < length) (buffer : List UInt8) :
    ValidSlices buffer length ↔ TopicInside buffer length := by
  rw [← publish_topic_inside_iff hpos]
  exact ⟨fun h => h.topic, fun h => ⟨h, publish_data_inside buffer length⟩⟩

/-- The bytes behind the received ones do not matter. -/
theorem topicInside_append (rest fill : List UInt8) :
    TopicInside (rest ++ fill) rest.length ↔ TopicInside rest rest.length := by
  have hend : packetEnd (rest ++ fill) rest.length = packetEnd rest rest.length := by
    rw [packetEnd, mqtt_get_total_length, readLength_append, packetEnd, mqtt_get_total_length]
  rw [TopicInside, TopicInside, hend, readLength_append]
  refine and_congr_right fun hroom => ?_
  rw [wordAt_append_left fill (by omega)]

/-! ## The calls of a pass -/

variable {B : ℕ} {app : Application} {s s' t : Sys} {segment rest : List UInt8}

/-- A call of `dataCb` in the pass is made with valid slices of `in_buffer`. -/
def DeliversInside (B : ℕ) (entry : Sys × List UInt8) : Prop :=
  ∀ call, (readPacket B entry.1 entry.2).1.delivered = entry.1.delivered ++ [call] →
    call = eventData (readPacket B entry.1 entry.2).1.client.mqtt_state.in_buffer entry.2.length ∧
      ValidSlices (readPacket B entry.1 entry.2).1.client.mqtt_state.in_buffer entry.2.length

/-- Whatever the client and the application do, every call of `dataCb` is given valid slices. -/
def CallsInside (B : ℕ) (segment : List UInt8) : Prop :=
  ∀ (app : Application) (s : Sys), Receiving s → ∀ n entry,
    passEntry B app (entered s) segment n = some entry → DeliversInside B entry

theorem switchType_keeps_delivered {msg_type : ℕ} (h : msg_type ≠ MQTT_MSG_TYPE_PUBLISH) (s : Sys) (qos id : ℕ) :
    (switchType s msg_type qos id).delivered = s.delivered := by
  rw [switchType, if_neg h]
  split_ifs <;> rfl

/-- Only a pass over a PUBLISH calls `dataCb`. -/
theorem readPacket_delivers {call : DataCall} (h : (readPacket B s rest).1.delivered = s.delivered ++ [call]) :
    Receiving s ∧ 0 < rest.length ∧ rest.length < B ∧ mqtt_get_type rest = MQTT_MSG_TYPE_PUBLISH := by
  have hkept {s' : Sys} (hs' : s'.delivered = s.delivered) : ¬ s'.delivered = s.delivered ++ [call] := by
    intro hcall
    have hlength := congrArg List.length (hs'.symm.trans hcall)
    simp at hlength
  by_cases hguard : rest.length < B ∧ rest.length > 0
  swap
  · rw [readPacket, if_neg hguard] at h
    exact absurd h (hkept rfl)
  by_cases hs : Receiving s
  · refine ⟨hs, hguard.2, hguard.1, ?_⟩
    by_contra htype
    rw [readPacket_switch hs hguard.2 hguard.1] at h
    exact hkept (switchType_keeps_delivered htype (loaded s rest) _ _) h
  · obtain ⟨_, _, _, _, hreceiving, _⟩ | ⟨buffer, _, hpass⟩ | ⟨buffer, hpass⟩ := readPacket_cases B s rest
    · exact absurd hreceiving hs
    · rw [hpass] at h
      exact absurd h (hkept rfl)
    · rw [hpass] at h
      exact absurd h (hkept rfl)

/-- The call of a pass over a PUBLISH, and the buffer it points into. -/
theorem readPacket_call (hs : Receiving s) (hpos : 0 < rest.length) (hlt : rest.length < B)
    (htype : mqtt_get_type rest = MQTT_MSG_TYPE_PUBLISH) :
    (readPacket B s rest).1.client.mqtt_state.in_buffer = copyAt s.client.mqtt_state.in_buffer 0 rest ∧
      (readPacket B s rest).1.delivered =
        if s.client.dataCb then s.delivered ++ [eventData (copyAt s.client.mqtt_state.in_buffer 0 rest) rest.length]
        else s.delivered := by
  have hpass := readPacket_switch hs hpos hlt
  rw [if_pos htype] at hpass
  constructor
  · rw [hpass]
    exact (readPacket_in_buffer hpass).1
  · rw [hpass, htype, switchType_delivered]
    rfl

theorem deliversInside_iff (hs : Receiving s) (hpos : 0 < rest.length) (hlt : rest.length < B)
    (htype : mqtt_get_type rest = MQTT_MSG_TYPE_PUBLISH) :
    DeliversInside B (s, rest) ↔ (s.client.dataCb = true → TopicInside rest rest.length) := by
  obtain ⟨hbuffer, hdelivered⟩ := readPacket_call hs hpos hlt htype
  have hvalid : ValidSlices (copyAt s.client.mqtt_state.in_buffer 0 rest) rest.length ↔ TopicInside rest rest.length := by
    rw [validSlices_iff hpos, copyAt_zero, topicInside_append]
  unfold DeliversInside
  rw [hbuffer, hdelivered, hvalid]
  constructor
  · intro hcalls hcb
    rw [if_pos hcb] at hcalls
    exact (hcalls _ rfl).2
  · intro hinside call hcall
    by_cases hcb : s.client.dataCb = true
    · rw [if_pos hcb] at hcall
      exact ⟨(List.singleton_inj.mp (List.append_cancel_left hcall)).symm, hinside hcb⟩
    · rw [if_neg hcb] at hcall
      simpa using congrArg List.length hcall

theorem callsInside_of (h : ∀ rest, PacketStart segment rest → mqtt_get_type rest = MQTT_MSG_TYPE_PUBLISH →
    TopicInside rest rest.length) : CallsInside B segment := by
  intro app s _ n entry hentry call hcall
  obtain ⟨t, rest⟩ := entry
  obtain ⟨ht, hpos, hlt, htype⟩ := readPacket_delivers hcall
  exact (deliversInside_iff ht hpos hlt htype).mpr (fun _ => h rest (passEntry_start hentry) htype) call hcall

theorem readPacket_keeps_dataCb (hs : s.client.dataCb = true) (h : readPacket B s rest = (s', .publish)) :
    s'.client.dataCb = true := by
  obtain ⟨hs₀, hpos, hlt⟩ := readPacket_publish h
  rw [readPacket_switch hs₀ hpos hlt] at h
  obtain ⟨rfl, _⟩ := Prod.mk.inj h
  obtain ⟨connection, queue, accepted, delivered, hswitch⟩ := switchType_frame (loaded s rest) (mqtt_get_type rest)
    (mqtt_get_qos rest)
    (mqtt_get_id (copyAt s.client.mqtt_state.in_buffer 0 rest) (s.client.mqtt_state.in_buffer_length % 65536))
  rw [hswitch]
  exact hs

/-- A client with `dataCb` registered comes to every PUBLISH of the segment. -/
theorem topicInside_of_calls (hB : 3 ≤ B) (hmax : B ≤ 65535) (hpos : 0 < segment.length) (hlt : segment.length < B)
    (hcalls : CallsInside B segment) (hstart : PacketStart segment rest)
    (htype : mqtt_get_type rest = MQTT_MSG_TYPE_PUBLISH) : TopicInside rest rest.length := by
  obtain ⟨hrest, hle⟩ := hstart.length hpos
  obtain ⟨known, hfront⟩ := hstart.front
  obtain ⟨n, hreach⟩ := hfront.reached hB hpos hlt
  have hroomy : Roomy B (0 + n) (roomyClient B (10 * n + 2) []) := roomyClient_roomy hmax (by omega) (by omega) []
  obtain ⟨t, hentry, ht, _⟩ := hreach 0 _ _ hroomy.entered (copyAt_zero _ _)
  have hcb : t.client.dataCb = true :=
    passEntry_invariant (I := fun s => s.client.dataCb = true) readPacket_keeps_dataCb (fun _ h => h) rfl hentry
  exact (deliversInside_iff ht.receiving hrest (by omega) htype).mp (hcalls .silent _ hroomy.receiving n _ hentry) hcb

/-- **When `dataCb` is given valid slices only**: exactly when every PUBLISH that READPACKET comes to
has its topic within the received bytes and within the packet, and more than the topic's length
has been received. -/
theorem calls_inside_iff (hB : 3 ≤ B) (hmax : B ≤ 65535) (hpos : 0 < segment.length) (hlt : segment.length < B) :
    CallsInside B segment ↔
      ∀ rest, PacketStart segment rest → mqtt_get_type rest = MQTT_MSG_TYPE_PUBLISH → TopicInside rest rest.length :=
  ⟨fun hcalls _ hstart htype => topicInside_of_calls hB hmax hpos hlt hcalls hstart htype, callsInside_of⟩

/-- The whole of a short publish. -/
theorem calls_inside_iff_whole :
    CallsInside 1024 [0x30, 0x03, 0x00, 0x01, 0x61] ↔
      ∀ rest, PacketStart [0x30, 0x03, 0x00, 0x01, 0x61] rest → mqtt_get_type rest = MQTT_MSG_TYPE_PUBLISH →
        TopicInside rest rest.length :=
  calls_inside_iff (by decide) (by decide) (by decide) (by decide)

/-- Three bytes of a publish: the topic is not found, and NULL is passed on with a length of 3. -/
theorem cut_topic_null :
    (eventData [0x30, 0x03, 0x00] 3).topic = none ∧ (eventData [0x30, 0x03, 0x00] 3).topic_len = 3 ∧
      ¬ CallsInside 1024 [0x30, 0x03, 0x00] := by
  refine ⟨by decide, by decide, fun hcalls => ?_⟩
  have hinside := topicInside_of_calls (by decide) (by decide) (by decide) (by decide) hcalls .first (by decide)
  exact absurd hinside.1 (by decide)

end LightSleepMqtt.Client
