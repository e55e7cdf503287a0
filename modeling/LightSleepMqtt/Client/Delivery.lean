import LightSleepMqtt.Library.History
import LightSleepMqtt.Library.MqttStream
import LightSleepMqtt.Client.Session
import LightSleepMqtt.Client.Slices

/-! What the application gets of what a broker sends. READPACKET stops behind every publish for
`dataCb`, which may do what it likes with the client, and goes on where it was; over a whole run, with
all its connections, the calls of `dataCb` are those of the packets dealt with, in their order, and
what is queued in between answers the same packets. -/
namespace LightSleepMqtt.Client
open Message MqttWire Queue DropQueue Transition
set_option autoImplicit false

variable {B : ℕ} {s s' : Sys} {pdata rest : List UInt8}

/-! ## The segments of a broker -/

/-- A packet as a broker sends it. PINGREQs come from clients only. -/
def Sent (q : Packet) : Prop := q.WellFormed ∧ q ≠ .pingreq

/-- Whole packets. -/
def FromBroker (pdata : List UInt8) : Prop := ∃ qs : List Packet, (∀ q ∈ qs, Sent q) ∧ pdata = qs.flatMap Packet.encode

def packetsOf (pdata : List UInt8) : List Packet := (decodeStream pdata).getD []

theorem packetsOf_encoded {qs : List Packet} (h : ∀ q ∈ qs, Sent q) : packetsOf (qs.flatMap Packet.encode) = qs := by
  rw [packetsOf, decodeStream_encoded fun q hq => (h q hq).1]
  rfl

/-! ## The answer to the packet at the front -/

theorem answerHeader_none (h : ¬ (mqtt_get_type rest = MQTT_MSG_TYPE_PUBLISH ∨ mqtt_get_type rest = MQTT_MSG_TYPE_PUBREC ∨
    mqtt_get_type rest = MQTT_MSG_TYPE_PUBREL)) : answerHeader rest = none := by
  rw [not_or, not_or] at h
  rw [answerHeader, if_neg h.1, if_neg h.2.1, if_neg h.2.2]

/-- The packet asks for nothing, or for a packet of two bytes behind a header, under an identifier that
is found in `in_buffer`. -/
theorem answerHeader_encode {q : Packet} (hq : q.WellFormed) (rest : List UInt8) (hB : q.encode.length < B) :
    answers q = [] ∧ answerHeader (q.encode ++ rest) = none ∨
      5 ≤ B ∧ ∃ a type qos id, answers q = [a] ∧ answerHeader (q.encode ++ rest) = some (type, qos) ∧ a.body = word id ∧
        id ≠ 0 ∧ fixedHeader type 0 qos 0 = UInt8.ofNat (a.kind * 16 + a.flags) ∧
        ∀ fill, mqtt_get_id (q.encode ++ fill) B = id := by
  have htype := mqtt_get_type_encode q rest hq.fields
  have hother (hkind : ¬ (q.kind = 3 ∨ q.kind = 5 ∨ q.kind = 6)) : answerHeader (q.encode ++ rest) = none :=
    answerHeader_none (by rw [htype]; exact hkind)
  cases q with
  | publish dup qos retain topic id payload =>
    have hqos := mqtt_get_qos_encode _ rest hq.fields
    rw [publish_flags hq.fields.2.2.1] at hqos
    have hpublish : answerHeader ((Packet.publish dup qos retain topic id payload).encode ++ rest) =
        if qos = 1 then some (MQTT_MSG_TYPE_PUBACK, 0) else if qos = 2 then some (MQTT_MSG_TYPE_PUBREC, 0) else none := by
      rw [answerHeader, if_pos (show mqtt_get_type _ = MQTT_MSG_TYPE_PUBLISH from htype), hqos]
    have hbody := publish_body_length dup retain qos id topic payload
    have hlength := encode_length (.publish dup qos retain topic id payload)
    have hhead := head_length_pos (.publish dup qos retain topic id payload)
    have hfound (hpos : 0 < qos) (fill : List UInt8) :
        mqtt_get_id ((Packet.publish dup qos retain topic id payload).encode ++ fill) B = id :=
      mqtt_get_id_publish fill hq hpos hB
    have hroom (hpos : 0 < qos) : 5 ≤ B := by
      rw [if_pos hpos] at hbody
      omega
    by_cases h1 : qos = 1
    · exact .inr ⟨hroom (by omega), .puback id, MQTT_MSG_TYPE_PUBACK, 0, id, if_pos h1, by rw [hpublish, if_pos h1], rfl,
        hq.fields.2.2.2.2.mp (by omega), rfl, hfound (by omega)⟩
    · by_cases h2 : qos = 2
      · exact .inr ⟨hroom (by omega), .pubrec id, MQTT_MSG_TYPE_PUBREC, 0, id, by rw [answers, if_neg h1, if_pos h2],
          by rw [hpublish, if_neg h1, if_pos h2], rfl, hq.fields.2.2.2.2.mp (by omega), rfl, hfound (by omega)⟩
      · exact .inl ⟨by rw [answers, if_neg h1, if_neg h2], by rw [hpublish, if_neg h1, if_neg h2]⟩
  | pubrec id =>
    have hroom : 5 ≤ B := hB
    exact .inr ⟨hroom, .pubrel false id, MQTT_MSG_TYPE_PUBREL, 1, id, rfl, by rw [answerHeader, htype]; rfl, rfl, hq.fields.1, rfl,
      fun fill => mqtt_get_id_word (.inl rfl) rfl hq.fields hq.fields.2 fill (by omega)⟩
  | pubrel dup id =>
    have hroom : 5 ≤ B := hB
    exact .inr ⟨hroom, .pubcomp id, MQTT_MSG_TYPE_PUBCOMP, 0, id, rfl, by rw [answerHeader, htype]; rfl, rfl, hq.fields.1, rfl,
      fun fill => mqtt_get_id_word (.inr rfl) rfl hq.fields hq.fields.2 fill (by omega)⟩
  | connect | connack | puback | pubcomp | subscribe | suback | unsubscribe | unsuback | pingreq | pingresp | disconnect =>
    exact .inl ⟨rfl, hother (by simp [Packet.kind])⟩

/-- Without an answer the switch leaves the queue alone, unless it is for a ping. -/
theorem switchType_quiet (h : answerHeader rest = none) (hping : mqtt_get_type rest ≠ MQTT_MSG_TYPE_PINGREQ) (id : ℕ) :
    (switchType s (mqtt_get_type rest) (mqtt_get_qos rest) id).accepted = s.accepted := by
  by_cases htype : mqtt_get_type rest = MQTT_MSG_TYPE_PUBLISH
  · exact (switchType_unanswered h htype s id).2
  · rw [answerHeader, if_neg htype] at h
    have hpubrec : mqtt_get_type rest ≠ MQTT_MSG_TYPE_PUBREC := fun hrec => by rw [if_pos hrec] at h; cases h
    rw [if_neg hpubrec] at h
    have hpubrel : mqtt_get_type rest ≠ MQTT_MSG_TYPE_PUBREL := fun hrel => by rw [if_pos hrel] at h; cases h
    rw [switchType, if_neg htype, if_neg hpubrec, if_neg hpubrel, if_neg hping]

section
variable {q : Packet} (h : Buffered B s) (hs : Receiving s) (hq : Sent q) (hlt : (q.encode ++ rest).length < B)
include hs hq hlt

/-- The pass over a packet calls `dataCb` as the packet asks. -/
theorem readPacket_front_delivered : ∃ calls,
    (readPacket B s (q.encode ++ rest)).1.delivered = s.delivered ++ calls ∧
      calls.map DataCall.contents = if s.client.dataCb then deliveries q else [] := by
  have hpos : 0 < (q.encode ++ rest).length := List.length_pos_iff.mpr fun hnil =>
    q.encode_ne_nil (List.append_eq_nil_iff.mp hnil).1
  have htype := mqtt_get_type_encode q rest hq.1.fields
  by_cases hkind : q.kind = 3
  · rw [(readPacket_call hs hpos hlt (htype.trans hkind)).2]
    cases q with
    | publish dup qos retain topic id payload =>
      split
      · refine ⟨_, rfl, ?_⟩
        rw [List.map_singleton, copyAt_zero, List.append_assoc, eventData_contents hq.1 _ (by rw [List.length_append]; omega)]
        rfl
      · exact ⟨[], (List.append_nil _).symm, rfl⟩
    | _ => cases hkind
  · have hnothing : deliveries q = [] := by cases q <;> first | rfl | exact absurd rfl hkind
    refine ⟨[], ?_, ?_⟩
    · rw [readPacket_switch hs hpos hlt, List.append_nil, htype]
      exact switchType_keeps_delivered hkind _ _ _
    · rw [hnothing, ite_self, List.map_nil]

include h in
/-- The pass over a packet queues its answer, or nothing. -/
theorem readPacket_front_accepted (hB : B ≤ 65535) : ∃ queued,
    (readPacket B s (q.encode ++ rest)).1.accepted = s.accepted ++ queued ∧ queued.Sublist (answerBytes [q]) := by
  have hpos : 0 < (q.encode ++ rest).length := List.length_pos_iff.mpr fun hnil =>
    q.encode_ne_nil (List.append_eq_nil_iff.mp hnil).1
  have hlength : s.client.mqtt_state.in_buffer_length % 65536 = B := by
    rw [h.in_length]
    omega
  rw [readPacket_switch hs hpos hlt, hlength, copyAt_zero, List.append_assoc]
  obtain ⟨hnothing, hheader⟩ | ⟨hroom, a, type, qos, id, hanswer, hheader, hbody, hid, hfixed, hfound⟩ :=
    answerHeader_encode hq.1 rest (B := B) (by rw [List.length_append] at hlt; omega)
  · refine ⟨[], ?_, List.nil_sublist _⟩
    have hping : mqtt_get_type (q.encode ++ rest) ≠ MQTT_MSG_TYPE_PINGREQ := by
      rw [mqtt_get_type_encode q rest hq.1.fields]
      obtain ⟨_, hne⟩ := hq
      cases q <;> simp_all [Packet.kind, MQTT_MSG_TYPE_PINGREQ]
    rw [List.append_nil]
    exact switchType_quiet hheader hping _
  · rw [(switchType_answers hheader (loaded s (q.encode ++ rest)) _).2, hfound]
    obtain ⟨_, hbytes, hlength⟩ := idMessage_bytes h.sized hroom hbody hid hfixed
    have hshort : (idMessage s.client.mqtt_state.mqtt_connection id type qos).message.length < 65536 := by
      rw [hlength]
      decide
    have haccepted := respond_accepted (loaded s (q.encode ++ rest)) hshort
    rw [hbytes] at haccepted
    rw [(answerFrames_singleton hanswer).1]
    split at haccepted
    · exact ⟨[], by rw [List.append_nil]; exact haccepted, List.nil_sublist _⟩
    · exact ⟨[a.encode], haccepted, List.Sublist.refl _⟩

end

/-! ## A pass over a segment -/

/-- The segment READPACKET goes on with when the `dataCb` that is running has returned. -/
def pendingSegment (s : Sys) : Option (List UInt8) :=
  match s.running with
  | some (.dataCb pdata _) => nextPacket s pdata
  | _ => none

/-- The packets that are left for the passes to come. -/
def owed (s : Sys) : List Packet := (pendingSegment s).elim [] packetsOf

/-- The packet a pass deals with. -/
def dealtWith (B : ℕ) (s : Sys) (pdata : List UInt8) : List Packet :=
  if Receiving s ∧ pdata.length < B then (packetsOf pdata).take 1 else []

theorem pendingSegment_idle (h : s.running = none) : pendingSegment s = none := by
  rw [pendingSegment, h]

theorem receivePass_frame (s : Sys) (pdata : List UInt8) : ∃ posted running,
    receivePass s B pdata = { (readPacket B s pdata).1 with posted := posted, running := running } := by
  unfold receivePass callsBack
  obtain ⟨t, _ | _ | _⟩ := readPacket B s pdata
  · exact ⟨_, _, rfl⟩
  · simp only
    split <;> exact ⟨_, _, rfl⟩
  · exact ⟨_, _, rfl⟩

theorem receivePass_delivered (s : Sys) (pdata : List UInt8) :
    (receivePass s B pdata).delivered = (readPacket B s pdata).1.delivered := by
  obtain ⟨_, _, hframe⟩ := receivePass_frame (B := B) s pdata
  rw [hframe]

theorem receivePass_accepted (s : Sys) (pdata : List UInt8) :
    (receivePass s B pdata).accepted = (readPacket B s pdata).1.accepted := by
  obtain ⟨_, _, hframe⟩ := receivePass_frame (B := B) s pdata
  rw [hframe]

theorem receivePass_in_length (s : Sys) (pdata : List UInt8) :
    (receivePass s B pdata).client.mqtt_state.in_buffer_length = s.client.mqtt_state.in_buffer_length := by
  obtain ⟨_, _, hframe⟩ := receivePass_frame (B := B) s pdata
  rw [hframe]
  obtain ⟨type, qos, id, pass, _, _, _, hpass⟩ | ⟨_, _, hpass⟩ | ⟨_, hpass⟩ := readPacket_cases B s pdata
  · obtain ⟨connection, queue, accepted, delivered, hswitch⟩ := switchType_frame (loaded s pdata) type qos id
    rw [hpass, hswitch]
    rfl
  · rw [hpass]
    rfl
  · rw [hpass]
    rfl

theorem receivePass_pending (hidle : s.running = none) (pdata : List UInt8) : pendingSegment (receivePass s B pdata) =
    if (readPacket B s pdata).2 = .publish ∧ announced pdata < pdata.length then some (pdata.drop (announced pdata))
    else none := by
  have hrunning := (readPacket_running B s pdata).trans hidle
  unfold receivePass callsBack
  cases hread : readPacket B s pdata with
  | mk t pass =>
    rw [hread] at hrunning
    cases pass with
    | left => exact pendingSegment_idle hrunning
    | connected =>
      simp only
      split
      · rfl
      · exact pendingSegment_idle hrunning
    | publish =>
      obtain ⟨_, _, hlength, hlengthRead⟩ := readPacket_publish_spec hread
      simp only [true_and]
      exact nextPacket_eq pdata hlength hlengthRead

/-- A pass that is not over a packet. -/
theorem readPacket_elsewhere (h : ¬ (Receiving s ∧ 0 < pdata.length ∧ pdata.length < B)) :
    (readPacket B s pdata).1.delivered = s.delivered ∧ (readPacket B s pdata).1.accepted = s.accepted ∧
      (readPacket B s pdata).2 ≠ .publish := by
  refine ⟨?_, ?_, fun hpass => h (readPacket_publish (Prod.ext rfl hpass))⟩
  all_goals
    obtain ⟨_, _, _, _, hs, _, _, _⟩ | ⟨_, _, hpass⟩ | ⟨_, hpass⟩ := readPacket_cases B s pdata
    · rw [readPacket, if_neg fun hguard => h ⟨hs, hguard.2, hguard.1⟩]
    · rw [hpass]
      rfl
    · rw [hpass]
      rfl

/-- What a pass over a segment leads to: the packet is delivered and answered, and those behind it are
left for the passes to come. -/
structure PassesOver (B : ℕ) (s s' : Sys) (pdata : List UInt8) : Prop where
  delivered : ∃ calls, s'.delivered = s.delivered ++ calls ∧
    calls.map DataCall.contents = if s.client.dataCb then (dealtWith B s pdata).flatMap deliveries else []
  accepted : ∃ queued, s'.accepted = s.accepted ++ queued ∧ queued.Sublist (answerBytes (dealtWith B s pdata))
  pending : ∀ rest, pendingSegment s' = some rest → FromBroker rest ∧ rest.length < B
  received : (dealtWith B s pdata ++ owed s').Sublist (packetsOf pdata)
  due : dealtWith B s pdata ++ handled (owed s') =
    if Receiving s ∧ pdata.length < B then handled (packetsOf pdata) else []

/-- Nothing happens, and nothing is left. -/
theorem PassesOver.elsewhere (hidle : s.running = none) (h : ¬ (Receiving s ∧ 0 < pdata.length ∧ pdata.length < B))
    (hpassed : dealtWith B s pdata = []) (hdue : (if Receiving s ∧ pdata.length < B then handled (packetsOf pdata) else []) = []) :
    PassesOver B s (receivePass s B pdata) pdata := by
  obtain ⟨hdelivered, haccepted, hpass⟩ := readPacket_elsewhere h
  have hpending : pendingSegment (receivePass s B pdata) = none := by
    rw [receivePass_pending hidle, if_neg fun hand => hpass hand.1]
  have howed : owed (receivePass s B pdata) = [] := by
    rw [owed, hpending]
    rfl
  constructor
  · exact ⟨[], by rw [receivePass_delivered, hdelivered, List.append_nil], by simp [hpassed]⟩
  · exact ⟨[], by rw [receivePass_accepted, haccepted, List.append_nil], List.nil_sublist _⟩
  · intro rest hrest
    cases hpending.symm.trans hrest
  · rw [hpassed, howed]
    exact List.nil_sublist _
  · rw [hpassed, howed, hdue]
    rfl

/-- The pass over a packet leaves what is behind it when it is a publish. -/
theorem receivePass_front_pending {q : Packet} (hidle : s.running = none) (hs : Receiving s) (hq : Sent q)
    (hlt : (q.encode ++ rest).length < B) (hB : B ≤ 65535) :
    pendingSegment (receivePass s B (q.encode ++ rest)) = if q.kind = 3 ∧ rest ≠ [] then some rest else none := by
  have hpos : 0 < (q.encode ++ rest).length := List.length_pos_iff.mpr fun hnil =>
    q.encode_ne_nil (List.append_eq_nil_iff.mp hnil).1
  have hpass : (readPacket B s (q.encode ++ rest)).2 = .publish ↔ q.kind = 3 := by
    rw [readPacket_switch hs hpos hlt, mqtt_get_type_encode q rest hq.1.fields]
    by_cases hkind : q.kind = MQTT_MSG_TYPE_PUBLISH
    · exact iff_of_true (if_pos hkind) hkind
    · refine iff_of_false ?_ hkind
      rw [if_neg hkind]
      exact Pass.noConfusion
  have hmore : q.encode.length < (q.encode ++ rest).length ↔ rest ≠ [] := by
    rw [List.length_append, ← List.length_pos_iff]
    omega
  have hpending := receivePass_pending (B := B) hidle (q.encode ++ rest)
  rw [announced_encode hq.1 rest (by omega), List.drop_left] at hpending
  simpa only [hpass, hmore] using hpending

theorem receivePass_front_owed {q : Packet} {qs : List Packet} (hidle : s.running = none) (hs : Receiving s) (hq : Sent q)
    (hqs : ∀ p ∈ qs, Sent p) (hlt : (q.encode ++ qs.flatMap Packet.encode).length < B) (hB : B ≤ 65535) :
    owed (receivePass s B (q.encode ++ qs.flatMap Packet.encode)) = if q.kind = 3 then qs else [] := by
  rw [owed, receivePass_front_pending hidle hs hq hlt hB]
  by_cases hkind : q.kind = 3
  · by_cases hmore : qs.flatMap Packet.encode = []
    · cases qs with
      | nil => simp [hkind]
      | cons p qs => exact absurd (List.append_eq_nil_iff.mp hmore).1 p.encode_ne_nil
    · rw [if_pos ⟨hkind, hmore⟩, if_pos hkind]
      exact packetsOf_encoded hqs
  · rw [if_neg fun hand => hkind hand.1, if_neg hkind]
    rfl

theorem receivePass_passesOver (h : Buffered B s) (hB : B ≤ 65535) (hidle : s.running = none) (hpdata : FromBroker pdata) :
    PassesOver B s (receivePass s B pdata) pdata := by
  obtain ⟨qs, hqs, rfl⟩ := hpdata
  have hpackets := packetsOf_encoded hqs
  by_cases hreads : Receiving s ∧ (qs.flatMap Packet.encode).length < B
  swap
  · exact .elsewhere hidle (fun hall => hreads ⟨hall.1, hall.2.2⟩) (if_neg hreads) (if_neg hreads)
  have hpassed : dealtWith B s (qs.flatMap Packet.encode) = qs.take 1 := by
    rw [dealtWith, if_pos hreads, hpackets]
  cases qs with
  | nil => exact .elsewhere hidle (fun hall => Nat.lt_irrefl 0 hall.2.1) hpassed (by rw [if_pos hreads, hpackets]; rfl)
  | cons q qs =>
    obtain ⟨hq, hrest⟩ := List.forall_mem_cons.mp hqs
    rw [List.take_succ_cons, List.take_zero] at hpassed
    rw [List.flatMap_cons] at hpackets hreads hpassed ⊢
    have hs := hreads.1
    have hlt := hreads.2
    have howed := receivePass_front_owed hidle hs hq hrest hlt hB
    constructor
    · obtain ⟨calls, hcalls, hcontents⟩ := readPacket_front_delivered hs hq hlt
      rw [receivePass_delivered, hpassed, List.flatMap_singleton]
      exact ⟨calls, hcalls, hcontents⟩
    · rw [receivePass_accepted, hpassed]
      exact readPacket_front_accepted h hs hq hlt hB
    · intro rest hsome
      rw [receivePass_front_pending hidle hs hq hlt hB] at hsome
      split at hsome
      · obtain rfl := Option.some.inj hsome
        exact ⟨⟨qs, hrest, rfl⟩, by rw [List.length_append] at hlt; omega⟩
      · cases hsome
    · rw [hpassed, howed, hpackets, List.singleton_append]
      split
      · exact List.Sublist.refl _
      · exact List.cons_sublist_cons.mpr (List.nil_sublist _)
    · rw [hpassed, howed, if_pos hreads, hpackets, handled]
      split <;> rfl

/-! ## Steps that read nothing -/

/-- The segment a step looks at. -/
def Step.segment (s : Sys) : Step B → Option (List UInt8)
  | .recv pdata => some pdata
  | .resume => pendingSegment s
  | _ => none

theorem step_segment {a : Step B} (ha : a.segment s = some pdata) (hstep : step s a = some s') : ∃ keepAliveTick,
    s' = receivePass { s with running := none, client := { s.client with keepAliveTick := keepAliveTick } } B pdata := by
  cases a with
  | recv segment =>
    obtain rfl := Option.some.inj ha
    simp only [step] at hstep
    obtain ⟨hidle, rfl⟩ := onConnection_some hstep
    refine ⟨0, ?_⟩
    rw [receiveFirst, ← hidle]
  | resume =>
    obtain ⟨callback, hcallback, rfl⟩ := Option.map_eq_some_iff.mp hstep
    have hnext : pendingSegment s = some pdata := ha
    simp only [pendingSegment, hcallback] at hnext
    refine ⟨s.client.keepAliveTick, ?_⟩
    cases callback with
    | dataCb segment registered =>
      have hsame : nextPacket { s with running := none } segment = some pdata := hnext
      simp only [returned, hsame]
    | _ => cases hnext
  | _ => cases ha

/-- The step delivers nothing, and leaves the rest of the segment that is being read. -/
structure Unread (s s' : Sys) : Prop where
  delivered : s'.delivered = s.delivered
  in_length : s'.client.mqtt_state.in_buffer_length = s.client.mqtt_state.in_buffer_length
  pending : pendingSegment s' = pendingSegment s

/-- The handlers that read nothing deliver nothing and queue nothing. -/
structure Unheard (s s' : Sys) : Prop where
  delivered : s'.delivered = s.delivered
  in_length : s'.client.mqtt_state.in_buffer_length = s.client.mqtt_state.in_buffer_length
  accepted : s'.accepted = s.accepted
  running : pendingSegment s' = none

theorem Unheard.unread (h : Unheard s s') (hnone : pendingSegment s = none) :
    Unread s s' ∧ s'.accepted = s.accepted :=
  ⟨⟨h.delivered, h.in_length, h.running.trans hnone.symm⟩, h.accepted⟩

theorem mqtt_tcpclient_sent_cb_unheard (hidle : s.running = none) : Unheard s (mqtt_tcpclient_sent_cb s) := by
  have hnone := pendingSegment_idle hidle
  simp only [mqtt_tcpclient_sent_cb, callsBack]
  split_ifs <;> first | exact ⟨rfl, rfl, rfl, rfl⟩ | exact ⟨rfl, rfl, rfl, hnone⟩

theorem mqtt_tcpclient_discon_cb_unheard (hidle : s.running = none) : Unheard s (mqtt_tcpclient_discon_cb s) := by
  have hnone := pendingSegment_idle hidle
  simp only [mqtt_tcpclient_discon_cb, callsBack]
  split_ifs <;> first | exact ⟨rfl, rfl, rfl, rfl⟩ | exact ⟨rfl, rfl, rfl, hnone⟩

theorem mqtt_timer_unheard (hidle : s.running = none) : Unheard s (mqtt_timer s) := by
  have hnone := pendingSegment_idle hidle
  simp only [mqtt_timer, callsBack]
  split_ifs <;> first | exact ⟨rfl, rfl, rfl, rfl⟩ | exact ⟨rfl, rfl, rfl, hnone⟩

theorem MQTT_Connect_unread (s : Sys) (resolved : Option ℕ) :
    Unread s (MQTT_Connect s resolved) ∧ (MQTT_Connect s resolved).accepted = s.accepted := by
  simp only [MQTT_Connect]
  split <;> split <;> exact ⟨⟨rfl, rfl, rfl⟩, rfl⟩

theorem MQTT_Task_unheard (hidle : s.running = none) (locals : Locals B) (result : Bool) (resolved : Option ℕ) :
    Unheard s (MQTT_Task s locals result resolved) := by
  have hnone := pendingSegment_idle (MQTT_Task_running hidle locals result resolved)
  revert hnone
  simp only [MQTT_Task]
  intro hnone
  split at hnone
  · obtain ⟨hconnect, haccepted⟩ := MQTT_Connect_unread (mqtt_tcpclient_delete { s with posted := false }) resolved
    exact ⟨hconnect.delivered, hconnect.in_length, haccepted, hnone⟩
  · exact ⟨rfl, rfl, rfl, hnone⟩
  · exact ⟨rfl, rfl, rfl, hnone⟩
  · cases result <;> exact ⟨rfl, rfl, rfl, hnone⟩
  · obtain ⟨queue, hpump⟩ | ⟨queue, dataBuffer, dataLen, _, _, _, hpump⟩ := pump_cases { s with posted := false } locals
    · rw [hpump] at hnone ⊢
      exact ⟨rfl, rfl, rfl, hnone⟩
    · rw [hpump] at hnone ⊢
      exact ⟨rfl, rfl, rfl, hnone⟩
  · exact ⟨rfl, rfl, rfl, hnone⟩

theorem returned_unheard {callback : Callback} (hcallback : s.running = some callback) (hnone : pendingSegment s = none) :
    Unheard s (returned s B callback) := by
  rw [pendingSegment, hcallback] at hnone
  cases callback with
  | dataCb pdata registered =>
    have hsame : nextPacket { s with running := none } pdata = none := hnone
    simp only [returned, hsame]
    exact ⟨rfl, rfl, rfl, rfl⟩
  | _ => exact ⟨rfl, rfl, rfl, rfl⟩

theorem step_unread {a : Step B} (ha : a.segment s = none) (hstep : step s a = some s') :
    Unread s s' ∧ (a.request = none → s'.accepted = s.accepted) := by
  have hheard (hpending : pendingSegment s = none) (h : Unheard s s') : Unread s s' ∧ (a.request = none → s'.accepted = s.accepted) := by
    obtain ⟨hunread, haccepted⟩ := h.unread hpending
    exact ⟨hunread, fun _ => haccepted⟩
  cases step_taken hstep with
  | @call c _ hexec =>
    cases c with
    | request r =>
      obtain ⟨connection, id, queue, posted, accepted, _, rfl⟩ := ApiCall.request_frame hexec
      refine ⟨⟨rfl, rfl, rfl⟩, fun hrequest => ?_⟩
      cases hrequest
    | connect resolved =>
      obtain rfl := Option.some.inj hexec
      obtain ⟨hunread, haccepted⟩ := MQTT_Connect_unread s resolved
      exact ⟨hunread, fun _ => haccepted⟩
    | onConnected | onDisconnected | onData | onPublished | onTimeout | initLWT | disconnect | deleteClient =>
      obtain rfl := Option.some.inj hexec
      exact ⟨⟨rfl, rfl, rfl⟩, fun _ => rfl⟩
  | resume hcallback => exact hheard ha (returned_unheard hcallback ha)
  | recv => cases ha
  | dnsFound ipaddr hidle =>
    refine hheard (pendingSegment_idle hidle) ?_
    have hnone := pendingSegment_idle hidle
    cases ipaddr with
    | none => exact ⟨rfl, rfl, rfl, hnone⟩
    | some addr =>
      simp only [mqtt_dns_found]
      split <;> exact ⟨rfl, rfl, rfl, hnone⟩
  | timer hidle => exact hheard (pendingSegment_idle hidle) (mqtt_timer_unheard hidle)
  | task locals result resolved hidle =>
    exact hheard (pendingSegment_idle hidle) (MQTT_Task_unheard hidle locals result resolved)
  | connectCb =>
    have hnone := pendingSegment_idle (step_idle hstep trivial)
    exact hheard hnone ⟨rfl, rfl, rfl, hnone⟩
  | reconCb =>
    have hnone := pendingSegment_idle (step_idle hstep trivial)
    exact hheard hnone ⟨rfl, rfl, rfl, hnone⟩
  | disconCb =>
    have hidle := step_idle hstep trivial
    exact hheard (pendingSegment_idle hidle) (mqtt_tcpclient_discon_cb_unheard hidle)
  | sentCb =>
    have hidle := step_idle hstep trivial
    exact hheard (pendingSegment_idle hidle) (mqtt_tcpclient_sent_cb_unheard hidle)

/-! ## What a run has received -/

/-- Notes on what a run has received, and on what became of it. -/
structure Reception where
  /-- The packets of the segments. -/
  received : List Packet
  /-- Of each segment that a receiving client gets and that fits, the packets up to the first one that is
  no publish. -/
  due : List Packet
  /-- The packets of the passes, and whether `dataCb` was registered. -/
  passed : List (Packet × Bool)
  /-- What the client has queued of its own accord. -/
  answered : List (List UInt8)

def Reception.empty : Reception := ⟨[], [], [], []⟩

def Reception.observe (g : Reception) (s : Sys) (a : Step B) (s' : Sys) : Reception where
  received := g.received ++
    match a with
    | .recv pdata => packetsOf pdata
    | _ => []
  due := g.due ++
    match a with
    | .recv pdata => if Receiving s ∧ pdata.length < B then handled (packetsOf pdata) else []
    | _ => []
  passed := g.passed ++ ((a.segment s).elim [] (dealtWith B s)).map fun q => (q, s.client.dataCb)
  answered := g.answered ++ if a.request.isNone then s'.accepted.drop s.accepted.length else []

/-- A client with the notes on what it has received. -/
abbrev receptionStep (x : Sys × Reception) (a : Step B) : Option (Sys × Reception) :=
  observed step Reception.observe x a

/-- The calls of `dataCb` for a packet. -/
def told (x : Packet × Bool) : List ((List UInt8 × ℕ) × (List UInt8 × ℕ)) := if x.2 then deliveries x.1 else []

/-- The application has been called for the packets of the passes, and only for them; what the client has
queued are answers to them; each was received once, and those to come are behind them. -/
structure Receives (B : ℕ) (x : Sys × Reception) : Prop where
  sound : ∃ l, Sound B l x.1
  in_length : x.1.client.mqtt_state.in_buffer_length = B
  delivered : x.1.delivered.map DataCall.contents = x.2.passed.flatMap told
  answered : x.2.answered.Sublist (answerBytes (x.2.passed.map Prod.fst))
  pending : ∀ rest, pendingSegment x.1 = some rest → FromBroker rest ∧ rest.length < B
  received : (x.2.passed.map Prod.fst ++ owed x.1).Sublist x.2.received

theorem Starts.receives (hB : B ≤ 65535) (hs : Starts B s) : Receives B (s, .empty) := by
  have hsound := hs.sound hB
  obtain ⟨_, _, _, _, _, _, _, rfl⟩ := hs
  exact ⟨⟨_, hsound⟩, rfl, rfl, List.Sublist.refl _, (fun _ hrest => nomatch hrest), List.Sublist.refl _⟩

theorem flatMap_told (qs : List Packet) (registered : Bool) :
    (qs.map fun q => (q, registered)).flatMap told = if registered then qs.flatMap deliveries else [] := by
  rw [List.flatMap_map]
  cases registered with
  | true => rfl
  | false => exact List.flatMap_eq_nil_iff.mpr fun _ _ => rfl

section
variable {a : Step B}

theorem Reception.observe_unread (g : Reception) (ha : a.segment s = none) (haccepted : a.request = none → s'.accepted = s.accepted) :
    g.observe s a s' = g := by
  have hqueued : (if a.request.isNone then s'.accepted.drop s.accepted.length else []) = [] := by
    split
    · rename_i hnone
      rw [haccepted (Option.isNone_iff_eq_none.mp hnone), List.drop_length]
    · rfl
  unfold Reception.observe
  rw [hqueued, ha]
  cases a with
  | recv => cases ha
  | _ => simp

theorem Step.segment_request (ha : a.segment s = some pdata) : a.request = none := by
  cases a with
  | call => cases ha
  | _ => rfl

theorem Reception.observe_passed (g : Reception) (ha : a.segment s = some pdata) :
    (g.observe s a s').passed = g.passed ++ (dealtWith B s pdata).map fun q => (q, s.client.dataCb) := by
  simp only [Reception.observe, ha]
  rfl

theorem Reception.observe_answered (g : Reception) (ha : a.segment s = some pdata) {queued : List (List UInt8)}
    (haccepted : s'.accepted = s.accepted ++ queued) : (g.observe s a s').answered = g.answered ++ queued := by
  simp only [Reception.observe, Step.segment_request ha, haccepted, List.drop_left]
  rfl

/-- The packets of a segment that is looked at have been received behind those dealt with. -/
theorem Receives.before {g : Reception} (h : Receives B (s, g)) (ha : a.segment s = some pdata)
    (hstep : step s a = some s') : (g.passed.map Prod.fst ++ packetsOf pdata).Sublist (g.observe s a s').received := by
  have hreceived := h.received
  cases a with
  | recv segment =>
    obtain rfl := Option.some.inj ha
    have hnothing : owed s = [] := by
      rw [owed, pendingSegment_idle (step_idle hstep trivial)]
      rfl
    rw [hnothing, List.append_nil] at hreceived
    exact hreceived.append (List.Sublist.refl _)
  | resume =>
    have howed : owed s = packetsOf pdata := by
      rw [owed, show pendingSegment s = some pdata from ha]
      rfl
    rw [howed] at hreceived
    exact hreceived.trans (List.sublist_append_left _ _)
  | _ => cases ha

theorem map_fst_map (qs : List Packet) (registered : Bool) : (qs.map fun q => (q, registered)).map Prod.fst = qs := by
  rw [List.map_map]
  exact List.map_id qs

/-- A step that looks at a segment is a pass over it. -/
theorem Receives.passesOver {g : Reception} (h : Receives B (s, g)) (hB : B ≤ 65535)
    (hbroker : ∀ pdata, a = .recv pdata → FromBroker pdata) (ha : a.segment s = some pdata)
    (hstep : step s a = some s') : PassesOver B s s' pdata ∧
      s'.client.mqtt_state.in_buffer_length = s.client.mqtt_state.in_buffer_length := by
  obtain ⟨keepAliveTick, rfl⟩ := step_segment ha hstep
  have hwhole : FromBroker pdata := by
    cases a with
    | recv segment =>
      obtain rfl := Option.some.inj ha
      exact hbroker _ rfl
    | resume => exact (h.pending pdata ha).1
    | _ => cases ha
  obtain ⟨l, hl⟩ := h.sound
  have hpass := receivePass_passesOver (s := { s with
    running := none, client := { s.client with keepAliveTick := keepAliveTick } }) ⟨h.in_length, hl.sized⟩ hB rfl hwhole
  exact ⟨⟨hpass.delivered, hpass.accepted, hpass.pending, hpass.received, hpass.due⟩, receivePass_in_length _ _⟩

/-- **Every step keeps the account.** -/
theorem Receives.step {x x' : Sys × Reception} (h : Receives B x) (hB3 : 3 ≤ B) (hB : B ≤ 65535)
    (hbroker : ∀ pdata, a = .recv pdata → FromBroker pdata) (hstep : receptionStep x a = some x') : Receives B x' := by
  obtain ⟨hmachine, hnotes⟩ := observed_some hstep
  obtain ⟨s, g⟩ := x
  obtain ⟨s', g'⟩ := x'
  obtain rfl : g' = g.observe s a s' := hnotes
  obtain ⟨l, hl⟩ := h.sound
  obtain ⟨l', _, hl'⟩ := step_moves hl hB3 hB hmachine
  cases ha : a.segment s with
  | none =>
    obtain ⟨hunread, haccepted⟩ := step_unread ha hmachine
    rw [g.observe_unread ha haccepted]
    have howed : owed s' = owed s := by rw [owed, owed, hunread.pending]
    refine ⟨⟨l', hl'⟩, hunread.in_length.trans h.in_length, ?_, h.answered, ?_, ?_⟩
    · rw [hunread.delivered]
      exact h.delivered
    · rw [hunread.pending]
      exact h.pending
    · rw [howed]
      exact h.received
  | some pdata =>
    obtain ⟨hpass, hlength⟩ := h.passesOver hB hbroker ha hmachine
    obtain ⟨calls, hcalls, hcontents⟩ := hpass.delivered
    obtain ⟨queued, haccepted, hsub⟩ := hpass.accepted
    have hpassed : (g.observe s a s').passed = _ := g.observe_passed ha
    refine ⟨⟨l', hl'⟩, hlength.trans h.in_length, ?_, ?_, hpass.pending, ?_⟩
    · show s'.delivered.map DataCall.contents = _
      rw [hcalls, hpassed, List.map_append, List.flatMap_append, flatMap_told, hcontents]
      exact congrArg (· ++ _) h.delivered
    · rw [hpassed, g.observe_answered ha haccepted, List.map_append, map_fst_map, answerBytes_append]
      exact h.answered.append hsub
    · rw [hpassed, List.map_append, map_fst_map, List.append_assoc]
      exact (hpass.received.append_left _).trans (h.before ha hmachine)

/-! ## Applications that stay -/

/-- The call leaves the connection and `dataCb`. -/
def ApiCall.Stays : ApiCall B → Prop
  | .connect _ | .disconnect | .deleteClient => False
  | .onData dataCb => dataCb = true
  | _ => True

/-- `dataCb` is registered when a segment comes, and as long as packets of it are left the application
neither connects nor disconnects. -/
def Attentive (s : Sys) : Step B → Prop
  | .recv _ => s.client.dataCb = true
  | .call c => pendingSegment s = none ∨ c.Stays
  | _ => True

instance : (c : ApiCall B) → Decidable c.Stays
  | .connect _ | .disconnect | .deleteClient => inferInstanceAs (Decidable False)
  | .onData dataCb => inferInstanceAs (Decidable (dataCb = true))
  | .request _ | .onConnected _ | .onDisconnected _ | .onPublished _ | .onTimeout _ | .initLWT .. =>
    inferInstanceAs (Decidable True)

instance (s : Sys) : (a : Step B) → Decidable (Attentive s a)
  | .recv _ => inferInstanceAs (Decidable (s.client.dataCb = true))
  | .call c => inferInstanceAs (Decidable (pendingSegment s = none ∨ c.Stays))
  | .resume | .dnsFound _ | .connectCb | .reconCb | .disconCb | .sentCb | .timer | .task .. =>
    inferInstanceAs (Decidable True)

theorem ApiCall.Stays.keeps {c : ApiCall B} (hc : c.Stays) (hexec : c.exec s = some s') :
    s'.client.connState = s.client.connState ∧ (s.client.dataCb = true → s'.client.dataCb = true) := by
  cases c with
  | request r =>
    obtain ⟨connection, pending, queue, posted, accepted, _, rfl⟩ := ApiCall.request_frame hexec
    exact ⟨rfl, id⟩
  | onData dataCb =>
    obtain rfl := Option.some.inj hexec
    exact ⟨rfl, fun _ => hc⟩
  | connect | disconnect | deleteClient => exact hc.elim
  | onConnected | onDisconnected | onPublished | onTimeout | initLWT =>
    obtain rfl := Option.some.inj hexec
    exact ⟨rfl, id⟩

/-- A pass that leaves packets leaves a client that will deal with them. -/
theorem receivePass_ready (hidle : s.running = none) (hcb : s.client.dataCb = true)
    (hpending : pendingSegment (receivePass s B pdata) ≠ none) :
    Receiving (receivePass s B pdata) ∧ (receivePass s B pdata).client.dataCb = true := by
  rw [receivePass_pending hidle] at hpending
  obtain ⟨_, _, hframe⟩ := receivePass_frame (B := B) s pdata
  have hpass : readPacket B s pdata = ((readPacket B s pdata).1, .publish) := by
    refine Prod.ext rfl ?_
    by_contra hother
    exact hpending (if_neg fun hand => hother hand.1)
  refine ⟨(receivePass_receiving s pdata).mpr ?_, ?_⟩
  · have hs := (readPacket_publish hpass).1
    have hsame := (readPacket_publish_spec hpass).2.1
    rw [Receiving, hsame]
    exact hs
  · have hkept := readPacket_keeps_dataCb hcb hpass
    rw [hframe]
    exact hkept

/-- The packets that are due have been dealt with, with `dataCb` registered, but for those that are
left. -/
structure Attends (B : ℕ) (x : Sys × Reception) : Prop where
  receives : Receives B x
  registered : ∀ y ∈ x.2.passed, y.2 = true
  due : x.2.passed.map Prod.fst ++ handled (owed x.1) = x.2.due
  ready : pendingSegment x.1 ≠ none → Receiving x.1 ∧ x.1.client.dataCb = true

theorem Starts.attends (hB : B ≤ 65535) (hs : Starts B s) : Attends B (s, .empty) := by
  have hreceives := hs.receives hB
  obtain ⟨_, _, _, _, _, _, _, rfl⟩ := hs
  exact ⟨hreceives, by simp [Reception.empty], rfl, fun hpending => absurd rfl hpending⟩

theorem step_ready (hready : pendingSegment s ≠ none → Receiving s ∧ s.client.dataCb = true) (ha : a.segment s = none)
    (hattentive : Attentive s a) (hstep : Client.step s a = some s') (hpending : pendingSegment s' ≠ none) :
    Receiving s' ∧ s'.client.dataCb = true := by
  have hbefore : pendingSegment s ≠ none := by
    rw [← (step_unread ha hstep).1.pending]
    exact hpending
  obtain ⟨hs, hcb⟩ := hready hbefore
  cases step_taken hstep with
  | call hexec =>
    obtain ⟨hstate, hkept⟩ := (hattentive.resolve_left hbefore).keeps hexec
    refine ⟨?_, hkept hcb⟩
    rw [Receiving, hstate]
    exact hs
  | resume => exact absurd ha hbefore
  | dnsFound | connectCb | reconCb | disconCb | recv | sentCb | timer | task =>
    exact absurd (pendingSegment_idle (step_idle hstep trivial)) hbefore

/-- What is due of the segment that is looked at is due behind what has been dealt with. -/
theorem Attends.before {g : Reception} (h : Attends B (s, g)) (ha : a.segment s = some pdata)
    (hstep : Client.step s a = some s') : g.passed.map Prod.fst ++
      (if Receiving s ∧ pdata.length < B then handled (packetsOf pdata) else []) = (g.observe s a s').due := by
  have hdue := h.due
  cases a with
  | recv segment =>
    obtain rfl := Option.some.inj ha
    have hnothing : owed s = [] := by
      rw [owed, pendingSegment_idle (step_idle hstep trivial)]
      rfl
    rw [hnothing, handled, List.append_nil] at hdue
    rw [hdue]
    rfl
  | resume =>
    have hpending : pendingSegment s = some pdata := ha
    obtain ⟨hs, _⟩ := h.ready (by rw [hpending]; exact Option.some_ne_none _)
    rw [owed, hpending] at hdue
    rw [if_pos ⟨hs, (h.receives.pending pdata hpending).2⟩]
    exact hdue.trans (List.append_nil _).symm
  | _ => cases ha

theorem Attends.step {x x' : Sys × Reception} (h : Attends B x) (hB3 : 3 ≤ B) (hB : B ≤ 65535)
    (hbroker : ∀ pdata, a = .recv pdata → FromBroker pdata) (hattentive : Attentive x.1 a)
    (hstep : receptionStep x a = some x') : Attends B x' := by
  have hreceives := h.receives.step hB3 hB hbroker hstep
  obtain ⟨hmachine, hnotes⟩ := observed_some hstep
  obtain ⟨s, g⟩ := x
  obtain ⟨s', g'⟩ := x'
  obtain rfl : g' = g.observe s a s' := hnotes
  cases ha : a.segment s with
  | none =>
    obtain ⟨hunread, haccepted⟩ := step_unread ha hmachine
    refine ⟨hreceives, ?_, ?_, step_ready h.ready ha hattentive hmachine⟩
    · rw [g.observe_unread ha haccepted]
      exact h.registered
    · rw [g.observe_unread ha haccepted]
      show _ ++ handled (owed s') = _
      rw [owed, hunread.pending]
      exact h.due
  | some pdata =>
    have hresumed (hresume : a = .resume) : Receiving s ∧ s.client.dataCb = true := by
      subst hresume
      exact h.ready fun hnone => Option.some_ne_none _ (ha.symm.trans hnone)
    have hcb : s.client.dataCb = true := by
      cases a with
      | recv => exact hattentive
      | resume => exact (hresumed rfl).2
      | _ => cases ha
    obtain ⟨hpass, _⟩ := h.receives.passesOver hB hbroker ha hmachine
    have hpassed : (g.observe s a s').passed = _ := g.observe_passed ha
    refine ⟨hreceives, ?_, ?_, ?_⟩
    · rw [hpassed, hcb]
      simpa [or_imp, forall_and] using h.registered
    · rw [hpassed, List.map_append, map_fst_map, List.append_assoc, hpass.due]
      exact h.before ha hmachine
    · obtain ⟨keepAliveTick, rfl⟩ := step_segment ha hmachine
      exact receivePass_ready rfl hcb

end

/-! ## Runs -/

theorem fromBroker_meets {steps : List (Step B)} (hbroker : ∀ pdata, .recv pdata ∈ steps → FromBroker pdata)
    (s : Sys) : Meets step (fun _ a => ∀ pdata, a = .recv pdata → FromBroker pdata) s steps := by
  refine Meets.of_mem ?_ s
  rintro _ ha pdata rfl
  exact hbroker pdata ha

/-- **What a run delivers.** Whatever the application does, whatever is lost in between, and over all the
connections of a run: when the broker sends whole packets, `dataCb` is called for the publishes of the
passes, in their order and with their topics and payloads, what the client queues of its own accord are
answers to the same packets, in the same order, and each of these has been received, once, in this order. -/
theorem run_delivers (hB3 : 3 ≤ B) (hB : B ≤ 65535) (hs : Starts B s) {steps : List (Step B)}
    (hbroker : ∀ pdata, .recv pdata ∈ steps → FromBroker pdata) :
    Always receptionStep (fun x => x.1.delivered.map DataCall.contents = x.2.passed.flatMap told ∧
      x.2.answered.Sublist (answerBytes (x.2.passed.map Prod.fst)) ∧
      (x.2.passed.map Prod.fst).Sublist x.2.received) (s, .empty) steps := by
  have hmeets := (fromBroker_meets hbroker s).beside Reception.observe .empty
  refine always_of_meets (I := Receives B) (fun h hP hstep => h.step hB3 hB hP hstep) ?_ (hs.receives hB) hmeets
  intro x h
  exact ⟨h.delivered, h.answered, (List.sublist_append_left _ _).trans h.received⟩

/-- A CONNACK, and a segment of two publishes. -/
def consent : List Packet := [.connack 0]

def twoPublishes : List Packet := [.publish false 1 false [0x61] 7 [], .publish false 2 false [0x62] 8 [0x31]]

theorem consent_sent : ∀ q ∈ consent, Sent q := by
  intro q hq
  obtain rfl := List.mem_singleton.mp hq
  exact ⟨⟨by simp [Packet.Fields], by decide⟩, by decide⟩

theorem twoPublishes_sent : ∀ q ∈ twoPublishes, Sent q := by
  intro q hq
  obtain rfl | rfl := List.mem_pair.mp hq
  · exact ⟨⟨by simp [Packet.Fields], by decide⟩, by decide⟩
  · exact ⟨⟨by simp [Packet.Fields], by decide⟩, by decide⟩

/-- The application registers `dataCb`, connects, and is called for the first of two publishes. -/
def called : List (Step 64) := [.call (.onData true), .call (.connect none), .connectCb, .recv (consent.flatMap Packet.encode),
  .recv (twoPublishes.flatMap Packet.encode)]

theorem called_fromBroker {behind : List (Step 64)} (hbehind : ∀ pdata, .recv pdata ∉ behind) :
    ∀ pdata, .recv pdata ∈ called ++ behind → FromBroker pdata := by
  intro pdata hmem
  obtain hmem | hmem := List.mem_append.mp hmem
  · simp only [called, List.mem_cons, List.not_mem_nil, or_false, reduceCtorEq, false_or, Step.recv.injEq] at hmem
    obtain rfl | rfl := hmem
    · exact ⟨_, consent_sent, rfl⟩
    · exact ⟨_, twoPublishes_sent, rfl⟩
  · exact absurd hmem (hbehind pdata)

/-- The application disconnects in `dataCb`, and is not called for the second publish. -/
theorem run_delivers_disconnecting :
    Always receptionStep (fun x => x.1.delivered.map DataCall.contents = x.2.passed.flatMap told ∧
      x.2.answered.Sublist (answerBytes (x.2.passed.map Prod.fst)) ∧
      (x.2.passed.map Prod.fst).Sublist x.2.received) (newClient, .empty) (called ++ [.call .disconnect, .resume]) :=
  run_delivers (by decide) (by decide) newClient_starts (called_fromBroker (by simp))

/-- **An attentive application gets every publish once**: whenever no packets are left, `dataCb` has been
called exactly for the publishes that were due, in order, and nothing but answers to them is queued. -/
theorem run_delivers_all (hB3 : 3 ≤ B) (hB : B ≤ 65535) (hs : Starts B s) {steps : List (Step B)}
    (hbroker : ∀ pdata, .recv pdata ∈ steps → FromBroker pdata) (hattentive : Meets step Attentive s steps) :
    Always receptionStep (fun x => pendingSegment x.1 = none →
      x.1.delivered.map DataCall.contents = x.2.due.flatMap deliveries ∧ x.2.answered.Sublist (answerBytes x.2.due))
      (s, .empty) steps := by
  have hmeets := ((fromBroker_meets hbroker s).and hattentive).beside Reception.observe .empty
  refine always_of_meets (I := Attends B) (fun h hP hstep => h.step hB3 hB hP.1 hP.2 hstep) ?_ (hs.attends hB) hmeets
  intro x h hnone
  have hdue := h.due
  rw [owed, hnone, Option.elim_none, handled, List.append_nil] at hdue
  have htold : x.2.passed.flatMap told = x.2.due.flatMap deliveries := by
    rw [← hdue, List.flatMap_map]
    exact List.flatMap_congr fun y hy => if_pos (h.registered y hy)
  rw [← htold, ← hdue]
  exact ⟨h.receives.delivered, h.receives.answered⟩

/-- The application publishes in `dataCb`, twice. -/
theorem run_delivers_all_publishing :
    Always receptionStep (fun x => pendingSegment x.1 = none →
      x.1.delivered.map DataCall.contents = x.2.due.flatMap deliveries ∧ x.2.answered.Sublist (answerBytes x.2.due))
      (newClient, .empty) (called ++ [publishOne 1, .resume, publishOne 1, .resume, runTask]) :=
  run_delivers_all (by decide) (by decide) newClient_starts (called_fromBroker (by simp [publishOne, runTask]))
    (by decide +kernel)

end LightSleepMqtt.Client
