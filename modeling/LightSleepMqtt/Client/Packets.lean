import LightSleepMqtt.Client.Termination
import LightSleepMqtt.Message.RoundTrip

/-! What a receiving client does with the well-formed packets of a server. `answers` and
`deliveries` say what a packet asks for, `Absorbs` that a list of packets has been dealt with,
and one pass of READPACKET absorbs the packet at the front of its segment. -/
namespace LightSleepMqtt.Client
open Message MqttWire Queue
set_option autoImplicit false

/-! ## What a packet asks for -/

/-- The packets a server sends on an accepted connection. -/
def FromServer : Packet → Prop
  | .publish .. | .puback _ | .pubrec _ | .pubrel .. | .pubcomp _ | .suback .. | .unsuback _
  | .pingresp => True
  | _ => False

/-- The packets that go back. -/
def answers : Packet → List Packet
  | .publish _ qos _ _ id _ => if qos = 1 then [.puback id] else if qos = 2 then [.pubrec id] else []
  | .pubrec id => [.pubrel false id]
  | .pubrel _ id => [.pubcomp id]
  | _ => []

/-- What `dataCb` finds behind its pointers, with the lengths it is given. -/
def DataCall.contents (call : DataCall) : (List UInt8 × ℕ) × (List UInt8 × ℕ) :=
  ((call.topic.getD [], call.topic_len), (call.data.getD [], call.length))

/-- The `dataCb` call a packet leads to. -/
def deliveries : Packet → List ((List UInt8 × ℕ) × (List UInt8 × ℕ))
  | .publish _ _ _ topic _ payload => [((topic, topic.length), (payload, payload.length))]
  | _ => []

def answerBytes (qs : List Packet) : List (List UInt8) := (qs.flatMap answers).map Packet.encode

def answerFrames (qs : List Packet) : List UInt8 := (answerBytes qs).flatMap stuff

theorem answerBytes_append (qs qs' : List Packet) : answerBytes (qs ++ qs') = answerBytes qs ++ answerBytes qs' := by
  rw [answerBytes, List.flatMap_append, List.map_append]
  rfl

theorem answerFrames_append (qs qs' : List Packet) :
    answerFrames (qs ++ qs') = answerFrames qs ++ answerFrames qs' := by
  rw [answerFrames, answerBytes_append, List.flatMap_append]
  rfl

/-! ## Clients that can deal with a packet -/

/-- A receiving client with a `dataCb`, whose queue has capacity `N` and holds `ps`. -/
structure Ready (B N : ℕ) (ps : List (List UInt8)) (s : Sys) : Prop where
  receiving : Receiving s
  registered : s.client.dataCb = true
  in_length : s.client.mqtt_state.in_buffer_length = B
  sized : Sized B s.client.mqtt_state.mqtt_connection
  holds : s.client.msgQueue.Holds N ps

theorem receivingClient_ready {B : ℕ} (hB : B ≤ 65535) :
    Ready B QUEUE_BUFFER_SIZE [] (receivingClient B) where
  receiving := Or.inl rfl
  registered := rfl
  in_length := rfl
  sized := ⟨Nat.mod_eq_of_lt (by omega), List.length_replicate⟩
  holds := (QUEUE_Init_holds ⟨⟨[], 0, 0, 0, 0⟩⟩ (by decide)).1

/-- From `s` to `s'` the client has dealt with the packets `qs`, in order. -/
structure Absorbs (s s' : Sys) (qs : List Packet) : Prop where
  connState : s'.client.connState = s.client.connState
  accepted : s'.accepted = s.accepted ++ answerBytes qs
  bytes : s'.client.msgQueue.rb.bytes = s.client.msgQueue.rb.bytes ++ answerFrames qs
  delivered : ∃ calls, s'.delivered = s.delivered ++ calls ∧
    calls.map DataCall.contents = qs.flatMap deliveries

theorem Absorbs.nil (s : Sys) : Absorbs s s [] :=
  ⟨rfl, by simp [answerBytes], by simp [answerFrames, answerBytes], [], by simp, rfl⟩

theorem Ready.post {B N : ℕ} {ps : List (List UInt8)} {s : Sys} (h : Ready B N ps s) :
    Ready B N ps (system_os_post s) :=
  ⟨h.receiving, h.registered, h.in_length, h.sized, h.holds⟩

theorem Absorbs.post {s s' : Sys} {qs : List Packet} (h : Absorbs s s' qs) : Absorbs s (system_os_post s') qs :=
  ⟨h.connState, h.accepted, h.bytes, h.delivered⟩

theorem Absorbs.trans {s s' s'' : Sys} {qs qs' : List Packet} (h : Absorbs s s' qs) (h' : Absorbs s' s'' qs') :
    Absorbs s s'' (qs ++ qs') := by
  obtain ⟨calls, hcalls, hcontents⟩ := h.delivered
  obtain ⟨calls', hcalls', hcontents'⟩ := h'.delivered
  refine ⟨h'.connState.trans h.connState, ?_, ?_, calls ++ calls', ?_, ?_⟩
  · rw [h'.accepted, h.accepted, answerBytes_append, List.append_assoc]
  · rw [h'.bytes, h.bytes, answerFrames_append, List.append_assoc]
  · rw [hcalls', hcalls, List.append_assoc]
  · rw [List.map_append, hcontents, hcontents', List.flatMap_append]

/-! ## Responding -/

variable {B N : ℕ} {ps : List (List UInt8)} {s : Sys}

theorem respond_accepted (s : Sys) {connection : mqtt_connection_t} (hlength : connection.message.length < 65536) :
    (respond s connection).accepted =
      if (QUEUE_Puts s.client.msgQueue (connection.buffer.drop connection.message.data)
        (UInt16.ofNat connection.message.length)).2 = -1 then s.accepted
      else s.accepted ++ [connection.bytes] := by
  have hpacket := outbound_packet (s := setOutbound s connection s.client.mqtt_state.pending_msg_id) hlength
  rw [← show _ = connection.bytes from hpacket]
  rfl

theorem respond_fits (h : s.client.msgQueue.Holds N ps) {connection : mqtt_connection_t}
    (hlength : connection.message.length < 65536) (hframe : (stuff connection.bytes).length < 65535)
    (hroom : s.client.msgQueue.rb.bytes.length + (stuff connection.bytes).length ≤ N) :
    (respond s connection).client.msgQueue.Holds N (ps ++ [connection.bytes]) ∧
      (respond s connection).client.msgQueue.rb.bytes =
        s.client.msgQueue.rb.bytes ++ stuff connection.bytes ∧
      (respond s connection).accepted = s.accepted ++ [connection.bytes] := by
  have hpacket : (connection.buffer.drop connection.message.data).take
      (UInt16.ofNat connection.message.length).toNat = connection.bytes :=
    outbound_packet (s := setOutbound s connection 0) hlength
  rw [← hpacket] at hframe hroom
  obtain ⟨queue', ret, hputs, hret, hholds, hbytes⟩ := QUEUE_Puts_fits h _ _ hframe hroom
  rw [hpacket] at hholds hbytes
  have hqueue : (respond s connection).client.msgQueue = queue' := congrArg Prod.fst hputs
  rw [hqueue, respond_accepted s hlength, hputs, if_neg hret]
  exact ⟨hholds, hbytes, rfl⟩

theorem respond_cut (h : s.client.msgQueue.Holds N ps) {connection : mqtt_connection_t}
    (hlength : connection.message.length < 65536)
    (hroom : N < s.client.msgQueue.rb.bytes.length + (stuff connection.bytes).length) :
    (respond s connection).client.msgQueue.Holds N ps ∧ (respond s connection).accepted = s.accepted := by
  have hpacket : (connection.buffer.drop connection.message.data).take
      (UInt16.ofNat connection.message.length).toNat = connection.bytes :=
    outbound_packet (s := setOutbound s connection 0) hlength
  rw [← hpacket] at hroom
  obtain ⟨queue', hputs, hholds, _⟩ := QUEUE_Puts_cut h _ _ hroom
  have hqueue : (respond s connection).client.msgQueue = queue' := congrArg Prod.fst hputs
  rw [hqueue, respond_accepted s hlength, hputs, if_pos rfl]
  exact ⟨hholds, rfl⟩

theorem idMessage_bytes {connection : mqtt_connection_t} (h : Sized B connection) (hB : 5 ≤ B) {p : Packet}
    {id type : ℕ} {qos : ℤ} (hbody : p.body = word id) (hid : id ≠ 0)
    (hheader : fixedHeader type 0 qos 0 = UInt8.ofNat (p.kind * 16 + p.flags)) :
    Sized B (idMessage connection id type qos) ∧ (idMessage connection id type qos).bytes = p.encode ∧
      (idMessage connection id type qos).message.length = 4 := by
  obtain ⟨hsized, hbytes, hlength⟩ := idMessage_emitted h (by omega) id type qos
  have hsize : p.body.length = 2 := by rw [hbody, word_length]
  have hencode := emission_encode (B := B) hheader (by omega) (by omega)
  rw [drawnId, if_neg hid, ← hbody, hencode] at hbytes hlength
  refine ⟨hsized, hbytes, ?_⟩
  rw [hlength, encode_length, hsize, head, hsize]
  rfl

/-! ## Delivering -/

theorem eventData_contents {dup retain : Bool} {qos id : ℕ} {topic payload : List UInt8}
    (h : (Packet.publish dup qos retain topic id payload).WellFormed) (rest : List UInt8) {length : ℕ}
    (hlen : (Packet.publish dup qos retain topic id payload).encode.length ≤ length) :
    (eventData ((Packet.publish dup qos retain topic id payload).encode ++ rest) length).contents =
      ((topic, topic.length), (payload, payload.length)) := by
  have htopic := mqtt_get_publish_topic_encode rest h hlen
  have hslice := topic_slice dup retain qos id topic payload rest
  obtain ⟨hdata, rfl⟩ | ⟨j, hdata, _, hpayload⟩ := mqtt_get_publish_data_encode rest h hlen
  · simp [DataCall.contents, eventData, htopic, hdata, bytesAt, hslice]
  · simp [DataCall.contents, eventData, htopic, hdata, bytesAt, hslice, hpayload]

theorem deliver_publish_absorbs {dup retain : Bool} {qos id : ℕ} {topic payload : List UInt8}
    (h : (Packet.publish dup qos retain topic id payload).WellFormed) (hs : s.client.dataCb = true)
    (rest : List UInt8) {length : ℕ}
    (hlen : (Packet.publish dup qos retain topic id payload).encode.length ≤ length) :
    ∃ calls, (deliver_publish s ((Packet.publish dup qos retain topic id payload).encode ++ rest) length).delivered =
        s.delivered ++ calls ∧
      calls.map DataCall.contents = deliveries (.publish dup qos retain topic id payload) := by
  refine ⟨[_], if_pos hs, ?_⟩
  rw [List.map_singleton, eventData_contents h rest hlen]
  rfl

/-! ## The switch on a packet -/

theorem Ready.responds (h : Ready B N ps s) (hN : N < 65535) (hB : 5 ≤ B) {p : Packet} {id type : ℕ} {qos : ℤ}
    (hbody : p.body = word id) (hid : id ≠ 0)
    (hheader : fixedHeader type 0 qos 0 = UInt8.ofNat (p.kind * 16 + p.flags))
    (hroom : s.client.msgQueue.rb.bytes.length + (stuff p.encode).length ≤ N) :
    let s' := respond s (idMessage s.client.mqtt_state.mqtt_connection id type qos)
    Ready B N (ps ++ [p.encode]) s' ∧ s'.accepted = s.accepted ++ [p.encode] ∧
      s'.client.msgQueue.rb.bytes = s.client.msgQueue.rb.bytes ++ stuff p.encode := by
  obtain ⟨hsized, hbytes, hlength⟩ := idMessage_bytes h.sized hB hbody hid hheader
  obtain ⟨hholds, hring, haccepted⟩ := respond_fits h.holds (by rw [hlength]; decide)
    (by rw [hbytes]; omega) (by rw [hbytes]; exact hroom)
  rw [hbytes] at hholds hring haccepted
  exact ⟨⟨h.receiving, h.registered, h.in_length, hsized, hholds⟩, haccepted, hring⟩

theorem answerFrames_singleton {p a : Packet} (h : answers p = [a]) :
    answerBytes [p] = [a.encode] ∧ answerFrames [p] = stuff a.encode := by
  have hbytes : answerBytes [p] = [a.encode] := by
    rw [answerBytes, List.flatMap_singleton, h, List.map_singleton]
  exact ⟨hbytes, by rw [answerFrames, hbytes, List.flatMap_singleton]⟩

theorem answerFrames_nothing {p : Packet} (h : answers p = []) : answerBytes [p] = [] ∧ answerFrames [p] = [] := by
  have hbytes : answerBytes [p] = [] := by
    rw [answerBytes, List.flatMap_singleton, h, List.map_nil]
  exact ⟨hbytes, by rw [answerFrames, hbytes, List.flatMap_nil]⟩

theorem Ready.answered (h : Ready B N ps s) (hN : N < 65535) (hB : 5 ≤ B) (type : ℕ) (qos : ℤ)
    {q p : Packet} {id : ℕ} (hanswers : answers q = [p]) (hdeliveries : deliveries q = []) (hbody : p.body = word id)
    (hid : id ≠ 0) (hheader : fixedHeader type 0 qos 0 = UInt8.ofNat (p.kind * 16 + p.flags))
    (hroom : s.client.msgQueue.rb.bytes.length + (answerFrames [q]).length ≤ N) :
    Ready B N (ps ++ answerBytes [q]) (respond s (idMessage s.client.mqtt_state.mqtt_connection id type qos)) ∧
      Absorbs s (respond s (idMessage s.client.mqtt_state.mqtt_connection id type qos)) [q] := by
  obtain ⟨hbytes, hframes⟩ := answerFrames_singleton hanswers
  rw [hframes] at hroom
  obtain ⟨hready, haccepted, hring⟩ := h.responds hN hB hbody hid hheader hroom
  rw [hbytes]
  refine ⟨hready, rfl, by rw [hbytes]; exact haccepted, by rw [hframes]; exact hring, [], ?_, ?_⟩
  · exact (List.append_nil _).symm
  · rw [List.flatMap_singleton, hdeliveries, List.map_nil]

theorem Ready.ignored (h : Ready B N ps s) {q : Packet} (hanswers : answers q = [])
    (hdeliveries : deliveries q = []) : Ready B N (ps ++ answerBytes [q]) s ∧ Absorbs s s [q] := by
  obtain ⟨hbytes, hframes⟩ := answerFrames_nothing hanswers
  rw [hbytes, List.append_nil]
  refine ⟨h, rfl, by rw [hbytes, List.append_nil], by rw [hframes, List.append_nil], [], ?_, ?_⟩
  · exact (List.append_nil _).symm
  · rw [List.flatMap_singleton, hdeliveries, List.map_nil]

/-- What the switch does with a publish, in terms of what it has answered before delivering. -/
theorem Ready.delivered {dup retain : Bool} {qos id : ℕ} {topic payload : List UInt8} {s' : Sys}
    (hready : Ready B N (ps ++ answerBytes [.publish dup qos retain topic id payload]) s')
    (hstate : s'.client.connState = s.client.connState)
    (haccepted : s'.accepted = s.accepted ++ answerBytes [.publish dup qos retain topic id payload])
    (hring : s'.client.msgQueue.rb.bytes =
      s.client.msgQueue.rb.bytes ++ answerFrames [.publish dup qos retain topic id payload])
    (hdelivered : s'.delivered = s.delivered)
    (h : (Packet.publish dup qos retain topic id payload).WellFormed) (rest : List UInt8) {length : ℕ}
    (hlen : (Packet.publish dup qos retain topic id payload).encode.length ≤ length) :
    Ready B N (ps ++ answerBytes [.publish dup qos retain topic id payload])
        (deliver_publish s' ((Packet.publish dup qos retain topic id payload).encode ++ rest) length) ∧
      Absorbs s (deliver_publish s' ((Packet.publish dup qos retain topic id payload).encode ++ rest) length)
        [.publish dup qos retain topic id payload] := by
  obtain ⟨calls, hcalls, hcontents⟩ := deliver_publish_absorbs h hready.registered rest hlen
  refine ⟨⟨hready.receiving, hready.registered, hready.in_length, hready.sized, hready.holds⟩,
    hstate, haccepted, hring, calls, ?_, ?_⟩
  · rw [hcalls, hdelivered]
  · rw [hcontents, List.flatMap_singleton]

@[simp] theorem respond_in_buffer (s : Sys) (connection : mqtt_connection_t) :
    (respond s connection).client.mqtt_state.in_buffer = s.client.mqtt_state.in_buffer := rfl

@[simp] theorem respond_message_length_read (s : Sys) (connection : mqtt_connection_t) :
    (respond s connection).client.mqtt_state.message_length_read = s.client.mqtt_state.message_length_read := rfl

theorem Ready.acknowledged {dup retain : Bool} {qos id : ℕ} {topic payload : List UInt8} {a : Packet}
    {type : ℕ} (h : Ready B N ps s) (hN : N < 65535) (hB : 5 ≤ B)
    (hp : (Packet.publish dup qos retain topic id payload).WellFormed)
    (hanswers : answers (.publish dup qos retain topic id payload) = [a]) (hbody : a.body = word id)
    (hid : id ≠ 0) (hheader : fixedHeader type 0 0 0 = UInt8.ofNat (a.kind * 16 + a.flags))
    (hroom : s.client.msgQueue.rb.bytes.length +
      (answerFrames [.publish dup qos retain topic id payload]).length ≤ N)
    (rest : List UInt8) {length : ℕ}
    (hlen : (Packet.publish dup qos retain topic id payload).encode.length ≤ length) :
    let s' := deliver_publish (Client.respond s (idMessage s.client.mqtt_state.mqtt_connection id type 0))
      ((Packet.publish dup qos retain topic id payload).encode ++ rest) length
    Ready B N (ps ++ answerBytes [.publish dup qos retain topic id payload]) s' ∧
      Absorbs s s' [.publish dup qos retain topic id payload] := by
  obtain ⟨hbytes, hframes⟩ := answerFrames_singleton hanswers
  rw [hframes] at hroom
  obtain ⟨hready, haccepted, hring⟩ := h.responds hN hB hbody hid hheader hroom
  rw [← hbytes] at hready haccepted
  rw [← hframes] at hring
  exact Ready.delivered (s := s) hready rfl haccepted hring rfl hp rest hlen

theorem switchType_publish {dup retain : Bool} {qos id : ℕ} {topic payload : List UInt8}
    (h : Ready B N ps s) (hN : N < 65535)
    (hp : (Packet.publish dup qos retain topic id payload).WellFormed) {rest : List UInt8}
    (hB : (Packet.publish dup qos retain topic id payload).encode.length < B)
    (hbuffer : s.client.mqtt_state.in_buffer = (Packet.publish dup qos retain topic id payload).encode ++ rest)
    (hread : (Packet.publish dup qos retain topic id payload).encode.length ≤
      s.client.mqtt_state.message_length_read)
    (hroom : s.client.msgQueue.rb.bytes.length +
      (answerFrames [.publish dup qos retain topic id payload]).length ≤ N) :
    let s' := switchType s MQTT_MSG_TYPE_PUBLISH qos
      (mqtt_get_id ((Packet.publish dup qos retain topic id payload).encode ++ rest) B)
    Ready B N (ps ++ answerBytes [.publish dup qos retain topic id payload]) s' ∧
      Absorbs s s' [.publish dup qos retain topic id payload] := by
  have hqos : qos = 0 ∨ qos = 1 ∨ qos = 2 := by
    have := hp.fields.2.2.1
    omega
  have hbody := publish_body_length dup retain qos id topic payload
  have htopic := List.length_pos_iff.mpr hp.fields.1
  have hhead := head_length_pos (.publish dup qos retain topic id payload)
  have hlength := encode_length (.publish dup qos retain topic id payload)
  have hB5 : 5 ≤ B := by omega
  simp only [switchType, if_true]
  obtain rfl | rfl | rfl := hqos
  · obtain ⟨hbytes, hframes⟩ := answerFrames_nothing (p := .publish dup 0 retain topic id payload) rfl
    simp only [Nat.zero_ne_one, if_false, Nat.reduceEqDiff]
    rw [hbuffer]
    refine Ready.delivered (by rw [hbytes, List.append_nil]; exact h) rfl ?_ ?_ rfl hp rest hread
    · rw [hbytes, List.append_nil]
    · rw [hframes, List.append_nil]
  · have hid : id ≠ 0 := hp.fields.2.2.2.2.mp (by omega)
    rw [mqtt_get_id_publish rest hp (by omega) hB, mqtt_msg_puback]
    simp only [if_true, respond_in_buffer, respond_message_length_read, hbuffer]
    exact h.acknowledged hN hB5 hp rfl (a := .puback id) rfl hid rfl hroom rest hread
  · have hid : id ≠ 0 := hp.fields.2.2.2.2.mp (by omega)
    rw [mqtt_get_id_publish rest hp (by omega) hB, mqtt_msg_pubrec]
    simp only [Nat.reduceEqDiff, if_true, if_false, respond_in_buffer, respond_message_length_read, hbuffer]
    exact h.acknowledged hN hB5 hp rfl (a := .pubrec id) rfl hid rfl hroom rest hread

/-- The switch absorbs the packet at the front of `in_buffer`. -/
theorem switchType_packet {p : Packet} (h : Ready B N ps s) (hN : N < 65535) (hp : p.WellFormed)
    (hserver : FromServer p) {rest : List UInt8} (hB : p.encode.length < B)
    (hbuffer : s.client.mqtt_state.in_buffer = p.encode ++ rest)
    (hread : p.encode.length ≤ s.client.mqtt_state.message_length_read)
    (hroom : s.client.msgQueue.rb.bytes.length + (answerFrames [p]).length ≤ N) :
    let s' := switchType s p.kind (p.flags / 2 % 4) (mqtt_get_id (p.encode ++ rest) B)
    Ready B N (ps ++ answerBytes [p]) s' ∧ Absorbs s s' [p] := by
  cases p with
  | publish dup qos retain topic id payload =>
    rw [publish_flags hp.fields.2.2.1]
    exact switchType_publish h hN hp hB hbuffer hread hroom
  | pubrec id =>
    have hB5 : 5 ≤ B := hB
    rw [mqtt_get_id_word (Or.inl rfl) rfl hp.fields hp.fields.2 rest (by omega)]
    exact h.answered hN hB5 MQTT_MSG_TYPE_PUBREL 1 (p := .pubrel false id) rfl rfl rfl
      hp.fields.1 rfl hroom
  | pubrel dup id =>
    have hB5 : 5 ≤ B := hB
    rw [mqtt_get_id_word (Or.inr rfl) rfl hp.fields hp.fields.2 rest (by omega)]
    exact h.answered hN hB5 MQTT_MSG_TYPE_PUBCOMP 0 (p := .pubcomp id) rfl rfl rfl
      hp.fields.1 rfl hroom
  | puback id | pubcomp id | unsuback id | suback id granted | pingresp => exact h.ignored rfl rfl
  | connect | connack | subscribe | unsubscribe | pingreq | disconnect => exact hserver.elim

end LightSleepMqtt.Client
