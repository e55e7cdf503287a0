import LightSleepMqtt.Client.Passes

/-! Acknowledging the publishes of a stream that TCP cuts anywhere. The handler queues the PUBACK
or PUBREC of a PUBLISH from its header, before anything asks whether the packet is complete. What
it does is right for the packets that are whole in the segment; `cutOff` is what is left of the
segment behind them. -/
namespace LightSleepMqtt.Client
open Message MqttWire Queue
set_option autoImplicit false

/-! ## Segments of a stream -/

/-- The first `k` bytes of a stream. -/
def received (qs : List Packet) (k : ℕ) : List UInt8 := (qs.flatMap Packet.encode).take k

/-- The bytes of the packet that is cut: what follows the last whole packet in the first `k` bytes. -/
def cutOff : List Packet → ℕ → List UInt8
  | [], _ => []
  | q :: qs, k => if q.encode.length ≤ k then cutOff qs (k - q.encode.length) else q.encode.take k

variable {B k : ℕ} {qs : List Packet} {app : Application} {s s' t : Sys} {rest : List UInt8}

theorem received_whole {q : Packet} (h : q.encode.length ≤ k) :
    received (q :: qs) k = q.encode ++ received qs (k - q.encode.length) := by
  rw [received, List.flatMap_cons, List.take_append, List.take_of_length_le h]
  rfl

theorem received_cut {q : Packet} (h : k < q.encode.length) : received (q :: qs) k = cutOff (q :: qs) k := by
  rw [received, List.flatMap_cons, List.take_append_of_le_length (Nat.le_of_lt h), cutOff, if_neg (by omega)]

theorem cutOff_whole {q : Packet} (h : q.encode.length ≤ k) :
    cutOff (q :: qs) k = cutOff qs (k - q.encode.length) := if_pos h

theorem cutOff_length_le (qs : List Packet) (k : ℕ) : (cutOff qs k).length ≤ (received qs k).length := by
  induction qs generalizing k with
  | nil => exact Nat.zero_le _
  | cons q qs ih =>
    by_cases h : q.encode.length ≤ k
    · rw [cutOff_whole h, received_whole h, List.length_append]
      have := ih (k - q.encode.length)
      omega
    · rw [received_cut (by omega)]

/-- A pass at the start of the packets `after`, of which the rest of the segment holds `k'` bytes. -/
structure Boundary (qs : List Packet) (k : ℕ) (rest : List UInt8) (before after : List Packet) (k' : ℕ) : Prop where
  packets : qs = before ++ after
  segment : received qs k = before.flatMap Packet.encode ++ rest
  rest_eq : rest = received after k'
  cut_eq : cutOff after k' = cutOff qs k

theorem Boundary.first (qs : List Packet) (k : ℕ) : Boundary qs k (received qs k) [] qs k :=
  ⟨rfl, rfl, rfl, rfl⟩

theorem Boundary.next {before after : List Packet} {q : Packet} {k' : ℕ}
    (h : Boundary qs k rest before (q :: after) k') (hwhole : q.encode.length ≤ k') :
    rest = q.encode ++ received after (k' - q.encode.length) ∧
      Boundary qs k (rest.drop q.encode.length) (before ++ [q]) after (k' - q.encode.length) := by
  have hrest : rest = q.encode ++ received after (k' - q.encode.length) := h.rest_eq.trans (received_whole hwhole)
  have hdrop : rest.drop q.encode.length = received after (k' - q.encode.length) := by
    rw [hrest, List.drop_left]
  refine ⟨hrest, ?_, ?_, hdrop, ?_⟩
  · rw [h.packets, List.append_assoc]
    rfl
  · rw [h.segment, hdrop, hrest, List.flatMap_append, List.flatMap_singleton, List.append_assoc]
  · rw [← h.cut_eq, cutOff_whole hwhole]

/-- A pass starts at a packet of the stream, or in the part that is cut off. -/
theorem PacketStart.boundary (hqs : ∀ q ∈ qs, q.WellFormed) (hlt : (received qs k).length < 65536)
    (h : PacketStart (received qs k) rest) :
    (∃ before after k', Boundary qs k rest before after k') ∨ rest.length ≤ (cutOff qs k).length := by
  induction h with
  | first => exact .inl ⟨_, _, _, .first qs k⟩
  | @behind rest hstart htype hmore ih =>
    obtain ⟨before, after, k', hboundary⟩ | hcut := ih
    swap
    · right
      rw [List.length_drop]
      omega
    · match after with
      | [] =>
        have hnil : rest = [] := hboundary.rest_eq.trans List.take_nil
        rw [hnil] at hmore
        exact absurd hmore (Nat.not_lt_zero _)
      | q :: after =>
        by_cases hwhole : q.encode.length ≤ k'
        · left
          obtain ⟨hrest, hnext⟩ := hboundary.next hwhole
          have hq : q.WellFormed := hqs q (by rw [hboundary.packets]; simp)
          have hlength := congrArg List.length hboundary.segment
          rw [List.length_append] at hlength
          have hannounced : announced rest = q.encode.length := by
            rw [hrest] at hlength ⊢
            exact announced_encode hq _ (by omega)
          rw [hannounced]
          exact ⟨_, _, _, hnext⟩
        · right
          have hcut : rest = cutOff qs k :=
            hboundary.rest_eq.trans ((received_cut (by omega)).trans hboundary.cut_eq)
          rw [List.length_drop, ← hcut]
          omega

/-! ## A pass that acknowledges -/

/-- The pass queues `a` for the PUBLISH at the front of its rest. -/
def Acknowledges (B : ℕ) (entry : Sys × List UInt8) (a : List UInt8) : Prop :=
  mqtt_get_type entry.2 = MQTT_MSG_TYPE_PUBLISH ∧ (readPacket B entry.1 entry.2).1.accepted = entry.1.accepted ++ [a]

/-- The buffers `MQTT_InitClient` gives a client. -/
structure Buffered (B : ℕ) (s : Sys) : Prop where
  in_length : s.client.mqtt_state.in_buffer_length = B
  sized : Sized B s.client.mqtt_state.mqtt_connection

theorem Buffered.of_client (h : Buffered B s) (hclient : s'.client = s.client) : Buffered B s' := by
  constructor
  · rw [hclient]
    exact h.in_length
  · rw [hclient]
    exact h.sized

theorem Buffered.readPacket (h : Buffered B s) (hB : 3 ≤ B) (hpass : readPacket B s rest = (s', .publish)) :
    Buffered B s' := by
  obtain ⟨hs, hpos, hlt⟩ := readPacket_publish hpass
  have htype := (readPacket_publish_spec hpass).1
  rw [readPacket_switch hs hpos hlt] at hpass
  have hloaded : Buffered B (loaded s rest) := ⟨h.in_length, h.sized⟩
  obtain ⟨rfl, _⟩ := Prod.mk.inj hpass
  cases hanswer : answerHeader rest with
  | none => exact hloaded.of_client (switchType_unanswered hanswer htype _ _).1
  | some header =>
    have hclient := (switchType_answers hanswer (loaded s rest)
      (mqtt_get_id (copyAt s.client.mqtt_state.in_buffer 0 rest) (s.client.mqtt_state.in_buffer_length % 65536))).1
    have hsized := (idMessage_emitted h.sized hB
      (mqtt_get_id (copyAt s.client.mqtt_state.in_buffer 0 rest) (s.client.mqtt_state.in_buffer_length % 65536))
      header.1 header.2).sized
    have hanswered : Buffered B (respond (loaded s rest) (idMessage s.client.mqtt_state.mqtt_connection
        (mqtt_get_id (copyAt s.client.mqtt_state.in_buffer 0 rest) (s.client.mqtt_state.in_buffer_length % 65536))
        header.1 header.2)) := ⟨h.in_length, hsized⟩
    exact hanswered.of_client hclient

theorem receiving_of_accepted (h : (readPacket B s rest).1.accepted ≠ s.accepted) :
    Receiving s ∧ 0 < rest.length ∧ rest.length < B := by
  by_cases hguard : rest.length < B ∧ rest.length > 0
  · obtain ⟨type, qos, id, pass, hs, _, _, _⟩ | ⟨buffer, _, hpass⟩ | ⟨buffer, hpass⟩ := readPacket_cases B s rest
    · exact ⟨hs, hguard.2, hguard.1⟩
    · exact absurd (by rw [hpass]; rfl) h
    · exact absurd (by rw [hpass]; rfl) h
  · exact absurd (by rw [readPacket, if_neg hguard]) h

theorem queued_ne (accepted : List (List UInt8)) (a : List UInt8) : accepted ++ [a] ≠ accepted :=
  fun heq => List.cons_ne_nil a [] (List.append_right_eq_self.mp heq)

/-- What a pass queues for a PUBLISH is a response to its QoS, under the identifier decoded from
`in_buffer`. -/
theorem acknowledges_spec (h : Buffered B s) (hB : 3 ≤ B) (hmax : B ≤ 65535) {a : List UInt8}
    (hack : Acknowledges B (s, rest) a) : Receiving s ∧ 0 < rest.length ∧ rest.length < B ∧
      ∃ type qos, answerHeader rest = some (type, qos) ∧
        a = (idMessage s.client.mqtt_state.mqtt_connection
          (mqtt_get_id (copyAt s.client.mqtt_state.in_buffer 0 rest) B) type qos).bytes := by
  obtain ⟨htype, hgrows⟩ := hack
  have hne : (readPacket B s rest).1.accepted ≠ s.accepted := by
    rw [hgrows]
    exact queued_ne _ a
  obtain ⟨hs, hpos, hlt⟩ := receiving_of_accepted hne
  refine ⟨hs, hpos, hlt, ?_⟩
  have hlength : s.client.mqtt_state.in_buffer_length % 65536 = B := by
    rw [h.in_length]
    omega
  rw [readPacket_switch hs hpos hlt, hlength] at hgrows
  cases hanswer : answerHeader rest with
  | none =>
    rw [(switchType_unanswered hanswer htype _ _).2] at hgrows
    exact absurd hgrows.symm (queued_ne _ a)
  | some header =>
    refine ⟨header.1, header.2, rfl, ?_⟩
    rw [(switchType_answers hanswer (loaded s rest) _).2] at hgrows
    have hemitted := idMessage_emitted h.sized hB
      (mqtt_get_id (copyAt s.client.mqtt_state.in_buffer 0 rest) B) header.1 header.2
    have hfits := emission_length_le B (fixedHeader header.1 0 header.2 0)
      (some (word (drawnId s.client.mqtt_state.mqtt_connection
        (mqtt_get_id (copyAt s.client.mqtt_state.in_buffer 0 rest) B))))
    rw [respond_accepted (loaded s rest) (by rw [show (loaded s rest).client.mqtt_state.mqtt_connection =
      s.client.mqtt_state.mqtt_connection from rfl, hemitted.length]; omega)] at hgrows
    split at hgrows
    · exact absurd hgrows.symm (queued_ne _ a)
    · exact (List.singleton_inj.mp (List.append_cancel_left hgrows)).symm

/-- The pass acknowledges a publish of the stream that is in the segment with all its bytes, under
its own identifier, and `dataCb` gets its topic and its payload. -/
def AcknowledgesWhole (B : ℕ) (qs : List Packet) (segment : List UInt8) (entry : Sys × List UInt8) (a : List UInt8) :
    Prop :=
  ∃ before dup qos retain topic id payload after more,
    qs = before ++ Packet.publish dup qos retain topic id payload :: after ∧
    segment = before.flatMap Packet.encode ++ entry.2 ∧
    entry.2 = (Packet.publish dup qos retain topic id payload).encode ++ more ∧
    [a] = answerBytes [.publish dup qos retain topic id payload] ∧
    (entry.1.client.dataCb = true → ∃ call, (readPacket B entry.1 entry.2).1.delivered = entry.1.delivered ++ [call] ∧
      call.contents = ((topic, topic.length), (payload, payload.length)))

theorem switchType_delivered (s : Sys) (qos id : ℕ) :
    (switchType s MQTT_MSG_TYPE_PUBLISH qos id).delivered =
      if s.client.dataCb then
        s.delivered ++ [eventData s.client.mqtt_state.in_buffer s.client.mqtt_state.message_length_read]
      else s.delivered := by
  rw [switchType, if_pos rfl]
  split
  · rfl
  · split <;> rfl

theorem acknowledges_publish (h : Buffered B s) (hB : 3 ≤ B) (hmax : B ≤ 65535) {dup retain : Bool} {qos id : ℕ}
    {topic payload more a : List UInt8} (hp : (Packet.publish dup qos retain topic id payload).WellFormed)
    (hrest : rest = (Packet.publish dup qos retain topic id payload).encode ++ more)
    (hack : Acknowledges B (s, rest) a) :
    [a] = answerBytes [.publish dup qos retain topic id payload] ∧
      (s.client.dataCb = true → ∃ call, (readPacket B s rest).1.delivered = s.delivered ++ [call] ∧
        call.contents = ((topic, topic.length), (payload, payload.length))) := by
  obtain ⟨hs, hpos, hlt, type, headerQos, hanswer, ha⟩ := acknowledges_spec h hB hmax hack
  have htype : mqtt_get_type rest = MQTT_MSG_TYPE_PUBLISH := hack.1
  have hqos : mqtt_get_qos rest = qos := by
    rw [hrest, mqtt_get_qos_encode _ more hp.fields, publish_flags hp.fields.2.2.1]
  have hbuffer : copyAt s.client.mqtt_state.in_buffer 0 rest =
      (Packet.publish dup qos retain topic id payload).encode ++
        (more ++ s.client.mqtt_state.in_buffer.drop rest.length) := by
    rw [copyAt_zero, hrest, List.append_assoc]
  have hlength : (Packet.publish dup qos retain topic id payload).encode.length + more.length = rest.length := by
    rw [hrest, List.length_append]
  constructor
  · have hbody := publish_body_length dup retain qos id topic payload
    have hencode := encode_length (.publish dup qos retain topic id payload)
    have hhead := head_length_pos (.publish dup qos retain topic id payload)
    rw [answerHeader, if_pos htype, hqos] at hanswer
    have hpositive : 0 < qos := by
      by_contra hzero
      rw [if_neg (by omega), if_neg (by omega)] at hanswer
      cases hanswer
    have hid : id ≠ 0 := hp.fields.2.2.2.2.mp (by omega)
    rw [hbuffer, mqtt_get_id_publish _ hp hpositive (by omega)] at ha
    rw [if_pos hpositive] at hbody
    by_cases hone : qos = 1
    · rw [if_pos hone] at hanswer
      obtain ⟨rfl, rfl⟩ := Prod.mk.inj (Option.some.inj hanswer)
      have hanswers : answers (.publish dup qos retain topic id payload) = [.puback id] := if_pos hone
      rw [ha, (answerFrames_singleton hanswers).1,
        (idMessage_bytes (p := .puback id) h.sized (by omega) rfl hid rfl).2.1]
    · rw [if_neg hone] at hanswer
      have htwo : qos = 2 := by
        by_contra hne
        rw [if_neg hne] at hanswer
        cases hanswer
      rw [if_pos htwo] at hanswer
      obtain ⟨rfl, rfl⟩ := Prod.mk.inj (Option.some.inj hanswer)
      have hanswers : answers (.publish dup qos retain topic id payload) = [.pubrec id] := by
        rw [answers, if_neg hone, if_pos htwo]
      rw [ha, (answerFrames_singleton hanswers).1,
        (idMessage_bytes (p := .pubrec id) h.sized (by omega) rfl hid rfl).2.1]
  · intro hcb
    refine ⟨_, ?_, eventData_contents hp (more ++ s.client.mqtt_state.in_buffer.drop rest.length)
      (Nat.le.intro hlength)⟩
    rw [readPacket_switch hs hpos hlt, htype, switchType_delivered, ← hbuffer]
    exact if_pos hcb

/-- The front is the header of a PUBLISH that asks for a PUBACK or a PUBREC. -/
def AsksForAck (rest : List UInt8) : Prop :=
  mqtt_get_type rest = MQTT_MSG_TYPE_PUBLISH ∧ (mqtt_get_qos rest = 1 ∨ mqtt_get_qos rest = 2)

theorem answerHeader_publish (htype : mqtt_get_type rest = MQTT_MSG_TYPE_PUBLISH) :
    answerHeader rest ≠ none ↔ AsksForAck rest := by
  rw [answerHeader, if_pos htype, AsksForAck]
  split_ifs <;> simp [*]

/-! ## The acknowledgements of a call -/

/-- Whatever the client and the application do, the call acknowledges whole publishes only. -/
def AcksWholeOnly (B : ℕ) (qs : List Packet) (segment : List UInt8) : Prop :=
  ∀ (app : Application) (s : Sys), (∀ s, Buffered B s → Buffered B (app.dataCb s)) → Buffered B s →
    s.client.connState = .MQTT_DATA → ∀ n entry a, passEntry B app (entered s) segment n = some entry →
      Acknowledges B entry a → AcknowledgesWhole B qs segment entry a

theorem acksWholeOnly_of (hB : 3 ≤ B) (hmax : B ≤ 65535) (hqs : ∀ q ∈ qs, q.WellFormed)
    (hcut : (received qs k).length < B → ∀ rest, PacketStart (received qs k) rest →
      rest.length ≤ (cutOff qs k).length → ¬ AsksForAck rest) : AcksWholeOnly B qs (received qs k) := by
  intro app s happ hs _ n entry a hentry hack
  obtain ⟨t, rest⟩ := entry
  have hentered : Buffered B (entered s) := ⟨hs.in_length, hs.sized⟩
  have ht : Buffered B t := passEntry_invariant (fun h hpass => h.readPacket hB hpass) happ hentered hentry
  have hstart := passEntry_start hentry
  obtain ⟨_, hpos, hlt, type, qos, hanswer, _⟩ := acknowledges_spec ht hB hmax hack
  have hasks : AsksForAck rest := (answerHeader_publish hack.1).mp (by rw [hanswer]; exact Option.some_ne_none _)
  have hfits : (received qs k).length < B := by
    obtain heq | hfits := passEntry_fits hentry
    · rw [← heq]
      exact hlt
    · exact hfits
  have hbehind : ¬ rest.length ≤ (cutOff qs k).length := fun hle => hcut hfits rest hstart hle hasks
  obtain ⟨before, after, k', hboundary⟩ | hle := hstart.boundary hqs (by omega)
  swap
  · exact absurd hle hbehind
  match after with
  | [] =>
    have hnil : rest = [] := hboundary.rest_eq.trans List.take_nil
    rw [hnil] at hpos
    exact absurd hpos (Nat.lt_irrefl 0)
  | q :: after =>
    have hwhole : q.encode.length ≤ k' := by
      by_contra hlt
      refine hbehind (Nat.le_of_eq (congrArg List.length ?_))
      exact hboundary.rest_eq.trans ((received_cut (by omega)).trans hboundary.cut_eq)
    have hrest := (hboundary.next hwhole).1
    have hq : q.WellFormed := hqs q (by rw [hboundary.packets]; simp)
    have hkind : q.kind = 3 := by
      rw [← mqtt_get_type_encode q (received after (k' - q.encode.length)) hq.fields, ← hrest]
      exact hack.1
    cases q with
    | publish dup qos' retain topic id payload =>
      obtain ⟨hbytes, hdelivered⟩ := acknowledges_publish ht hB hmax hq hrest hack
      exact ⟨before, dup, qos', retain, topic, id, payload, after, _, hboundary.packets, hboundary.segment, hrest,
        hbytes, hdelivered⟩
    | _ => cases hkind

theorem cutOff_append (before after : List Packet) (h : (before.flatMap Packet.encode).length ≤ k) :
    cutOff (before ++ after) k = cutOff after (k - (before.flatMap Packet.encode).length) := by
  induction before generalizing k with
  | nil => rfl
  | cons q before ih =>
    rw [List.flatMap_cons, List.length_append] at h ⊢
    rw [List.cons_append, cutOff_whole (by omega), ih (by omega), Nat.sub_sub]

theorem acknowledgesWhole_behind {segment : List UInt8} {entry : Sys × List UInt8} {a : List UInt8}
    (hsegment : segment = received qs k) (h : AcknowledgesWhole B qs segment entry a) :
    (cutOff qs k).length < entry.2.length := by
  obtain ⟨before, dup, qos, retain, topic, id, payload, after, more, hqs, hsplit, hrest, _, _⟩ := h
  generalize Packet.publish dup qos retain topic id payload = q at hqs hrest
  have hpos := head_length_pos q
  have hencode := encode_length q
  have hlength := congrArg List.length hsplit
  rw [hsegment, received, List.length_take, List.length_append, hrest, List.length_append] at hlength
  have hcut : cutOff qs k = cutOff after (k - (before.flatMap Packet.encode).length - q.encode.length) := by
    rw [hqs, cutOff_append before _ (by omega), cutOff_whole (by omega)]
  have hmore : received after (k - (before.flatMap Packet.encode).length - q.encode.length) = more := by
    have hwhole : received qs k = before.flatMap Packet.encode ++
        (q.encode ++ received after (k - (before.flatMap Packet.encode).length - q.encode.length)) := by
      rw [← received_whole (by omega), hqs, received, List.flatMap_append, List.take_append,
        List.take_of_length_le (by omega)]
      rfl
    rw [← hsegment, hsplit, hrest] at hwhole
    exact (List.append_cancel_left (List.append_cancel_left hwhole)).symm
  have hle := cutOff_length_le after (k - (before.flatMap Packet.encode).length - q.encode.length)
  rw [hcut, hrest, List.length_append, ← hmore]
  omega

/-- A client with room in its queue acknowledges the header of a packet that is cut off. -/
theorem not_acksWholeOnly (hB : 3 ≤ B) (hmax : B ≤ 65535) (hlt : (received qs k).length < B)
    (hstart : PacketStart (received qs k) rest) (hcut : rest.length ≤ (cutOff qs k).length) (hasks : AsksForAck rest) :
    ¬ AcksWholeOnly B qs (received qs k) := by
  intro honly
  have hrest : 0 < rest.length := by
    rw [List.length_pos_iff]
    rintro rfl
    exact absurd hasks.1 (by decide)
  have hpos : 0 < (received qs k).length := by
    have := cutOff_length_le qs k
    omega
  have hle := (hstart.length hpos).2
  obtain ⟨known, hfront⟩ := hstart.front
  obtain ⟨n, hreach⟩ := hfront.reached hB hpos hlt
  have hroomy : Roomy B (1 + n) (roomyClient B (10 * (1 + n)) []) :=
    roomyClient_roomy hmax (by omega) (Nat.le_refl _) []
  obtain ⟨t, hentry, ht, _⟩ := hreach 1 _ _ hroomy.entered (copyAt_zero _ _)
  obtain ⟨header, hanswer⟩ := Option.ne_none_iff_exists'.mp ((answerHeader_publish hasks.1).mpr hasks)
  have hqueued := (readPacket_answers ht hB hrest (by omega) hanswer).2
  have hwhole := honly .silent _ (fun _ hs => hs) ⟨hroomy.in_length, hroomy.sized⟩ rfl n (t, rest) _ hentry
    ⟨hasks.1, hqueued⟩
  have := acknowledgesWhole_behind rfl hwhole
  exact absurd hcut (Nat.not_le_of_lt this)

/-- **When only whole publishes are acknowledged**: a segment of a stream is dealt with as it
should exactly when READPACKET comes to no header of a QoS 1 or 2 PUBLISH in the part behind the
last whole packet. -/
theorem acks_whole_iff (hB : 3 ≤ B) (hmax : B ≤ 65535) (hqs : ∀ q ∈ qs, q.WellFormed) (k : ℕ) :
    AcksWholeOnly B qs (received qs k) ↔
      ((received qs k).length < B → ∀ rest, PacketStart (received qs k) rest →
        rest.length ≤ (cutOff qs k).length → ¬ AsksForAck rest) :=
  ⟨fun honly hlt _ hstart hcut hasks => not_acksWholeOnly hB hmax hlt hstart hcut hasks honly,
    acksWholeOnly_of hB hmax hqs⟩

/-- A publish of QoS 1 with the topic "a", the identifier 7 and a payload of five bytes. -/
def hello : Packet := .publish false 1 false [0x61] 7 [0x68, 0x65, 0x6C, 0x6C, 0x6F]

theorem hello_wellFormed : ∀ q ∈ [hello], q.WellFormed := by
  intro q hq
  obtain rfl := List.mem_singleton.mp hq
  exact ⟨by simp [hello, Packet.Fields], by decide⟩

theorem acks_whole_iff_hello :
    AcksWholeOnly 1024 [hello] (received [hello] 12) ↔
      ((received [hello] 12).length < 1024 → ∀ rest, PacketStart (received [hello] 12) rest →
        rest.length ≤ (cutOff [hello] 12).length → ¬ AsksForAck rest) :=
  acks_whole_iff (by decide) (by decide) hello_wellFormed 12

/-- Cut in its payload, the publish is acknowledged all the same. -/
theorem acks_cut_publish : ¬ AcksWholeOnly 1024 [hello] (received [hello] 8) :=
  not_acksWholeOnly (by decide) (by decide) (by decide) .first (by decide) ⟨by decide, .inl (by decide)⟩

end LightSleepMqtt.Client
