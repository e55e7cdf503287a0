import LightSleepMqtt.Client.Identifiers
import LightSleepMqtt.Client.Session
import LightSleepMqtt.Message.Identifier

/-! What the client notes about the packet it has sent last. `pending_msg_type` and
`pending_msg_id` describe that packet on every run in which the calls that queue a packet draw no
other identifier and every packet that goes out is one whose identifier the decoder finds. -/
namespace LightSleepMqtt.Client
open Message MqttWire Queue DropQueue Transition
set_option autoImplicit false

variable {B : ℕ} {l : Log (List UInt8)} {s s' : Sys} {x x' : Sys × Session}

/-- The pending fields describe the packet passed to `espconn_send` most recently. -/
def PendingIsLast (x : Sys × Session) : Prop :=
  ∀ p ∈ x.2.sent.getLast?, p ≠ [] ∧ x.1.client.mqtt_state.pending_msg_type = mqtt_get_type p ∧
    x.1.client.mqtt_state.pending_msg_id = packetId p

instance (x : Sys × Session) : Decidable (PendingIsLast x) :=
  inferInstanceAs (Decidable (∀ p ∈ x.2.sent.getLast?, p ≠ [] ∧ _ ∧ _))

/-- Whether the receive handler reports that the pending request is done. -/
def finishes (s : Sys) (msg_type msg_id : ℕ) : Prop :=
  (msg_type = MQTT_MSG_TYPE_SUBACK ∧ s.client.mqtt_state.pending_msg_type = MQTT_MSG_TYPE_SUBSCRIBE ∨
    msg_type = MQTT_MSG_TYPE_UNSUBACK ∧ s.client.mqtt_state.pending_msg_type = MQTT_MSG_TYPE_UNSUBSCRIBE ∨
    (msg_type = MQTT_MSG_TYPE_PUBACK ∨ msg_type = MQTT_MSG_TYPE_PUBCOMP) ∧
      s.client.mqtt_state.pending_msg_type = MQTT_MSG_TYPE_PUBLISH) ∧
    s.client.mqtt_state.pending_msg_id = msg_id

/-- An acknowledgement of the last packet is recognised, whatever else it may be compared with. -/
theorem PendingIsLast.finishes_iff (h : PendingIsLast x) {p : List UInt8} (hp : p ∈ x.2.sent.getLast?) (msg_type : ℕ) :
    finishes x.1 msg_type (packetId p) ↔
      msg_type = MQTT_MSG_TYPE_SUBACK ∧ mqtt_get_type p = MQTT_MSG_TYPE_SUBSCRIBE ∨
      msg_type = MQTT_MSG_TYPE_UNSUBACK ∧ mqtt_get_type p = MQTT_MSG_TYPE_UNSUBSCRIBE ∨
      (msg_type = MQTT_MSG_TYPE_PUBACK ∨ msg_type = MQTT_MSG_TYPE_PUBCOMP) ∧
        mqtt_get_type p = MQTT_MSG_TYPE_PUBLISH := by
  obtain ⟨_, htype, hid⟩ := h p hp
  rw [finishes, htype, hid]
  exact and_iff_left rfl

/-- `publishedCb` is called for a PUBLISH only. -/
theorem PendingIsLast.publishedCb (h : PendingIsLast x) {p : List UInt8} (hp : p ∈ x.2.sent.getLast?)
    (hidle : x.1.running = none) (hcall : (mqtt_tcpclient_sent_cb x.1).running = some .publishedCb) :
    mqtt_get_type p = MQTT_MSG_TYPE_PUBLISH := by
  simp only [mqtt_tcpclient_sent_cb] at hcall
  split at hcall
  · rename_i hpublish
    exact (h p hp).2.1.symm.trans hpublish.2
  · cases hidle.symm.trans hcall

/-! ## The identifiers that the calls write -/

/-- The value a call stores in `pending_msg_id`, if it stores one. A publish of quality of service 0
stores 0, and so does a message that has no room for its identifier. -/
def Request.writesId (s : Sys) : Request B → Option ℕ
  | .publish topic _ qos _ _ =>
    (nonEmpty topic).bind fun t =>
      if B < 5 + t.bytes.length then none
      else some (if qos > 0 ∧ 7 + t.bytes.length ≤ B then
        nextMessageId s.client.mqtt_state.mqtt_connection.message_id else 0)
  | .subscribe topic _ _ | .unSubscribe topic _ =>
    (nonEmpty topic).map fun _ =>
      if 5 ≤ B then nextMessageId s.client.mqtt_state.mqtt_connection.message_id else 0
  | .ping _ => none

theorem mqtt_msg_publish_id {connection : mqtt_connection_t} (h : Sized B connection) (hB3 : 3 ≤ B)
    (topic : Option CString) (data : List UInt8) (qos retain : ℤ) (message_id : ℕ) :
    (mqtt_msg_publish connection topic data qos retain message_id).2 =
      ((nonEmpty topic).bind fun t => if B < 5 + t.bytes.length then none
        else some (if qos > 0 ∧ 7 + t.bytes.length ≤ B then nextMessageId connection.message_id else 0)).getD
          message_id := by
  have hinit := init_message_built h hB3
  unfold mqtt_msg_publish
  cases nonEmpty topic with
  | none => rfl
  | some t =>
    simp only [Option.bind_some]
    have hstring := string_length t.bytes
    by_cases htopic : 3 + (string t.bytes).length ≤ B
    swap
    · rw [append_string_full hinit (Nat.lt_of_not_le htopic), if_pos (by omega)]
      rfl
    obtain ⟨c, happend, hc, hcid⟩ := append_string_fits hinit htopic
    rw [happend, if_neg (by omega), Option.getD_some]
    simp only
    by_cases hq : qos > 0
    · simp only [hq, true_and, if_true]
      by_cases hid : 3 + (string t.bytes).length + 2 ≤ B
      · obtain ⟨_, hdraws⟩ := append_message_id_fits hc 0 hid
        have hdrawn : drawnId c 0 = nextMessageId connection.message_id := by
          rw [drawnId, if_pos rfl, hcid]
          rfl
        rw [hdraws, hdrawn, if_neg (nextMessageId_ne_zero _), ite_pair]
        exact (if_pos (by omega)).symm
      · obtain ⟨_, hdraws⟩ := append_message_id_full hc 0 (Nat.lt_of_not_le hid)
        rw [hdraws, if_pos rfl, if_neg (by omega)]
    · simp only [hq, false_and, if_false, ite_pair]

theorem topicRequest_id {connection : mqtt_connection_t} (h : Sized B connection) (hB3 : 3 ≤ B)
    (topic : Option CString) (message_id : ℕ) :
    (topicRequest connection topic message_id).2 =
      ((nonEmpty topic).map fun _ => if 5 ≤ B then nextMessageId connection.message_id else 0).getD message_id := by
  have hinit := init_message_built h hB3
  have hdrawn : drawnId (init_message connection) 0 = nextMessageId connection.message_id := rfl
  unfold topicRequest
  cases nonEmpty topic with
  | none => rfl
  | some t =>
    simp only [Option.map_some, Option.getD_some]
    by_cases hid : 5 ≤ B
    · obtain ⟨_, hdraws⟩ := append_message_id_fits hinit 0 hid
      rw [hdraws, hdrawn, if_neg (nextMessageId_ne_zero _), if_pos hid]
    · obtain ⟨_, hdraws⟩ := append_message_id_full hinit 0 (Nat.lt_of_not_le hid)
      rw [if_pos hdraws, hdraws, if_neg hid]

theorem mqtt_msg_subscribe_id (connection : mqtt_connection_t) (topic : Option CString) (qos : ℤ) (message_id : ℕ) :
    (mqtt_msg_subscribe connection topic qos message_id).2 = (topicRequest connection topic message_id).2 := by
  rw [mqtt_msg_subscribe]
  rcases topicRequest connection topic message_id with ⟨_ | _, _⟩
  · rfl
  · simp only
    split <;> rfl

theorem mqtt_msg_unsubscribe_id (connection : mqtt_connection_t) (topic : Option CString) (message_id : ℕ) :
    (mqtt_msg_unsubscribe connection topic message_id).2 = (topicRequest connection topic message_id).2 := by
  rw [mqtt_msg_unsubscribe]
  rcases topicRequest connection topic message_id with ⟨_ | _, _⟩ <;> rfl

theorem Request.prepare_pending (h : Sized B s.client.mqtt_state.mqtt_connection) (hB3 : 3 ≤ B) (r : Request B) :
    (r.prepare s).client.mqtt_state.pending_msg_id = (r.writesId s).getD s.client.mqtt_state.pending_msg_id := by
  cases r with
  | publish topic data qos retain locals => exact mqtt_msg_publish_id h hB3 topic data qos retain _
  | subscribe topic qos locals => exact (mqtt_msg_subscribe_id _ _ _ _).trans (topicRequest_id h hB3 topic _)
  | unSubscribe topic locals => exact (mqtt_msg_unsubscribe_id _ _ _).trans (topicRequest_id h hB3 topic _)
  | ping locals => rfl

/-! ## The packets in the queue -/

/-- What the builders produce: a packet with a readable frame, or nothing. -/
def WireShaped (p : List UInt8) : Prop := p = [] ∨ ∃ header body, Shaped header body ∧ p = packetBytes header body

theorem IsAnswer.wireShaped {p : List UInt8} (h : IsAnswer p) : WireShaped p := by
  obtain rfl | ⟨q, hq, hreply, rfl⟩ := h
  · exact Or.inl rfl
  · refine Or.inr ⟨_, q.body, ⟨hq.size, ?_, ?_⟩, rfl⟩
    · intro htype
      rw [ofNat_toNat_of_lt (by have := q.kind_lt; have := q.flags_lt hq.fields; omega)] at htype
      have := q.flags_lt hq.fields
      have hkind : q.kind = 3 := by
        have : (q.kind * 16 + q.flags) / 16 = 3 := htype
        omega
      cases q <;> first | exact hreply.elim | cases hkind
    · intro _ _
      refine Or.inr (Or.inr ?_)
      cases q <;> first | exact hreply.elim | exact (by decide : 2 < 128) | exact (by decide : 0 < 128)

theorem Emitted.wireShaped {header : UInt8} {body : Option (List UInt8)} {connection : mqtt_connection_t}
    (h : Emitted B header body connection) (hsize : connection.bytes.length ≤ 16383)
    (hshape : ∀ bs, body = some bs → bs.length ≤ 16383 → Shaped header bs) : WireShaped connection.bytes := by
  rw [h.bytes] at hsize ⊢
  cases body with
  | none => exact Or.inl rfl
  | some bs =>
    by_cases hroom : 3 + bs.length ≤ B
    · have hle : bs.length ≤ 16383 := by
        simp only [emission, if_pos hroom, List.length_cons, List.length_append] at hsize
        omega
      refine Or.inr ⟨header, bs, hshape bs rfl hle, ?_⟩
      rw [emission, if_pos hroom, lengthBytes_eq hle]
      rfl
    · exact Or.inl (if_neg hroom)

theorem Request.message_wireShaped (h : Sized B s.client.mqtt_state.mqtt_connection) (hB3 : 3 ≤ B) (r : Request B)
    (hsize : (r.message s).length ≤ 16383) : WireShaped (r.message s) := by
  cases r with
  | publish topic data qos retain locals =>
    refine Emitted.wireShaped (mqtt_msg_publish_emitted h hB3 topic data qos retain _).1 hsize fun bs hbs hle => ?_
    obtain ⟨t, _, rfl⟩ := Option.map_eq_some_iff.mp hbs
    have htype := (fixedHeader_bits (show MQTT_MSG_TYPE_PUBLISH < 16 by decide) qos retain).1
    refine ⟨by omega, fun _ => ⟨t.bytes, _, ?_, List.append_assoc ..⟩, fun hge _ => ?_⟩
    · simp only [List.length_append, string_length] at hle
      omega
    · rw [htype] at hge
      exact absurd hge (by decide)
  | subscribe topic qos locals =>
    refine Emitted.wireShaped (mqtt_msg_subscribe_emitted h hB3 topic qos.toNat _).1 hsize fun bs _ hle => ?_
    have htype := (fixedHeader_bits (show MQTT_MSG_TYPE_SUBSCRIBE < 16 by decide) 1 0).1
    exact ⟨by omega, fun hpublish => absurd (htype.symm.trans hpublish) (by decide), fun _ _ => Or.inl htype⟩
  | unSubscribe topic locals =>
    refine Emitted.wireShaped (mqtt_msg_unsubscribe_emitted h hB3 topic _).1 hsize fun bs _ hle => ?_
    have htype := (fixedHeader_bits (show MQTT_MSG_TYPE_UNSUBSCRIBE < 16 by decide) 1 0).1
    exact ⟨by omega, fun hpublish => absurd (htype.symm.trans hpublish) (by decide), fun _ _ => Or.inr (Or.inl htype)⟩
  | ping locals =>
    refine Emitted.wireShaped (emptyMessage_emitted h hB3 MQTT_MSG_TYPE_PINGREQ) hsize fun bs _ hle => ?_
    have htype := (fixedHeader_bits (show MQTT_MSG_TYPE_PINGREQ < 16 by decide) 0 0).1
    refine ⟨by omega, fun hpublish => absurd (htype.symm.trans hpublish) (by decide), fun _ hlast => ?_⟩
    rw [htype] at hlast
    exact absurd hlast (by decide)

theorem step_wireShaped (h : Sound B l s) (hshaped : ∀ p ∈ l.waiting, WireShaped p) (hB3 : 3 ≤ B) (hB : B ≤ 65535)
    {a : Step B} (hstep : step s a = some s') :
    ∃ l' : Log (List UInt8), Sound B l' s' ∧ ∀ p ∈ l'.waiting, WireShaped p := by
  cases hr : a.request with
  | none =>
    obtain ⟨l', hmoves, hs'⟩ := step_answers h hB3 hB hr hstep
    exact ⟨l', hs', (hmoves.mono fun _ hp => hp.2.wireShaped).forall_waiting hshaped⟩
  | some r =>
    obtain ⟨_, ok, hexec⟩ := step_request hr hstep
    obtain ⟨l', hmoves, hs'⟩ := r.exec_moves h hB3 hB hexec
    refine ⟨l', hs', fun p hp => ?_⟩
    have hmoves : Moves (fun p => p = r.message s ∨ WireShaped p) l l' := hmoves.mono fun _ => Or.inl
    obtain rfl | hold := hmoves.forall_waiting (fun q hq => Or.inr (hshaped q hq)) p hp
    · exact r.message_wireShaped h.sized hB3 (Nat.le_trans (hs'.holds.packet_length_le hp) (by decide))
    · exact hold

/-! ## Steps -/

/-- A packet that the decoder describes rightly when it goes out. -/
def Legible (p : List UInt8) : Prop := p ≠ [] ∧ (packetId p ≠ 0 → ¬ Overlooked p)

/-- The step does not spoil the pending fields: a call draws no other identifier, the CONNECT can be
built, and the packet that the task takes from the queue is legible. -/
def KeepsPending (x : Sys × Session) : Step B → Prop
  | .call (.request r) =>
    x.2.sent ≠ [] → ∀ id ∈ r.writesId x.1, id = x.1.client.mqtt_state.pending_msg_id
  | .connectCb => ∃ body ∈ connectBytes x.1.client.connect_info, 3 + body.length ≤ B
  | .task .. => x.1.client.connState = .MQTT_DATA → x.1.client.sendTimeout = 0 →
    ∀ p ∈ (waitingPackets B x.1).head?, Legible p
  | _ => True

instance (p : List UInt8) : Decidable (Legible p) := inferInstanceAs (Decidable (_ ∧ _))

instance (x : Sys × Session) : (a : Step B) → Decidable (KeepsPending x a)
  | .call (.request r) =>
    inferInstanceAs (Decidable (_ → ∀ id ∈ r.writesId x.1, id = x.1.client.mqtt_state.pending_msg_id))
  | .connectCb =>
    inferInstanceAs (Decidable (∃ body ∈ connectBytes x.1.client.connect_info, 3 + body.length ≤ B))
  | .task .. => inferInstanceAs (Decidable (_ → _ → ∀ p ∈ (waitingPackets B x.1).head?, Legible p))
  | .call (.connect _) | .call .disconnect | .call .deleteClient | .call (.initLWT ..) | .call (.onConnected _)
  | .call (.onDisconnected _) | .call (.onData _) | .call (.onPublished _) | .call (.onTimeout _)
  | .resume | .dnsFound _ | .reconCb | .disconCb | .recv _ | .sentCb | .timer => inferInstanceAs (Decidable True)

variable {g : Session}

theorem Session.observe_sent (g : Session) (s : Sys) {a : Step B} (ha : a ≠ .connectCb) (s' : Sys) :
    (g.observe s a s').sent = g.sent ++ handedOver s s' := by
  unfold Session.observe
  split
  · exact absurd rfl ha
  · rfl
  · rfl

theorem PendingIsLast.unsent (hq : PendingIsLast (s, g)) {a : Step B} (ha : a ≠ .connectCb) (h : Unsent s s') :
    PendingIsLast (s', g.observe s a s') := by
  intro p hp
  rw [g.observe_sent s ha, handedOver_nothing h.control h.pumped, List.append_nil] at hp
  rw [h.pending_msg_type, h.pending_msg_id]
  exact hq p hp

theorem pendingIsLast_sent {p : List UInt8} {front : List (List UInt8)} (hsent : g.sent = front ++ [p]) :
    PendingIsLast (s, g) ↔ p ≠ [] ∧ s.client.mqtt_state.pending_msg_type = mqtt_get_type p ∧
      s.client.mqtt_state.pending_msg_id = packetId p := by
  simp only [PendingIsLast, hsent, List.getLast?_concat, Option.mem_def, Option.some.injEq, forall_eq']

/-- A CONNECT and a PINGREQ have no identifier. -/
theorem mqtt_get_id_absent {p : List UInt8}
    (h : mqtt_get_type p = MQTT_MSG_TYPE_CONNECT ∨ mqtt_get_type p = MQTT_MSG_TYPE_PINGREQ) (length : ℕ) :
    mqtt_get_id p length = 0 ∧ packetId p = 0 := by
  obtain h | h := h
  · simp only [mqtt_get_id, packetId, h]
    exact ⟨ite_self 0, rfl⟩
  · simp only [mqtt_get_id, packetId, h]
    exact ⟨ite_self 0, rfl⟩

theorem sendOutbound_describes (hne : s.client.mqtt_state.mqtt_connection.bytes ≠ [])
    (h : mqtt_get_type s.client.mqtt_state.mqtt_connection.bytes = MQTT_MSG_TYPE_CONNECT ∨
      mqtt_get_type s.client.mqtt_state.mqtt_connection.bytes = MQTT_MSG_TYPE_PINGREQ) :
    (sendOutbound s).client.mqtt_state.pending_msg_type = mqtt_get_type s.client.mqtt_state.mqtt_connection.bytes ∧
      (sendOutbound s).client.mqtt_state.pending_msg_id = packetId s.client.mqtt_state.mqtt_connection.bytes := by
  have hdata : outboundData s = s.client.mqtt_state.mqtt_connection.bytes ++
      (outboundData s).drop s.client.mqtt_state.mqtt_connection.message.length :=
    (List.take_append_drop _ _).symm
  have htype := mqtt_get_type_append hne
    ((outboundData s).drop s.client.mqtt_state.mqtt_connection.message.length)
  rw [← hdata] at htype
  refine ⟨htype, ?_⟩
  rw [(mqtt_get_id_absent h 0).2]
  exact (mqtt_get_id_absent (by rw [htype]; exact h) _).1

theorem sendOutbound_control (h : s.client.mqtt_state.mqtt_connection.message.length < 65536) :
    (sendOutbound s).control = s.control ++ [s.client.mqtt_state.mqtt_connection.bytes] := by
  rw [← outbound_packet h]
  rfl

theorem request_pendingIsLast (h : Sound B l s) (hB3 : 3 ≤ B) (hq : PendingIsLast (s, g)) {r : Request B} {ok : Bool}
    (hexec : r.exec s = some (s', ok)) :
    PendingIsLast (s', g.observe s (.call (.request r)) s') ↔ KeepsPending (s, g) (.call (.request r)) := by
  have hpending := r.prepare_pending h.sized hB3
  obtain ⟨connection, id, hprepare⟩ := r.prepare_frame s
  obtain ⟨queue, posted, accepted, _, rfl⟩ := r.exec_frame hexec
  rw [hprepare] at hpending ⊢
  have hid : id = (r.writesId s).getD s.client.mqtt_state.pending_msg_id := hpending
  generalize hs' : ({ setOutbound s connection id with
    client := { (setOutbound s connection id).client with msgQueue := queue }
    posted := posted, accepted := accepted } : Sys) = s'
  have hunsent : handedOver s s' = [] := by
    rw [← hs']
    exact handedOver_nothing rfl rfl
  have hsent : (g.observe s (.call (.request r) : Step B) s').sent = g.sent := by
    rw [g.observe_sent s (by simp), hunsent, List.append_nil]
  constructor
  · intro hlast hne written hwrites
    have hp := List.getLast?_eq_some_getLast hne
    have hnow := (hlast _ (by rw [hsent]; exact hp)).2.2
    rw [hwrites, Option.getD_some] at hid
    rw [(hq _ hp).2.2, ← hnow, ← hs']
    exact hid.symm
  · intro hkeeps p hp
    rw [hsent] at hp
    obtain ⟨hne, htype, hold⟩ := hq p hp
    rw [← hs']
    refine ⟨hne, htype, ?_⟩
    show id = packetId p
    rw [hid, ← hold]
    cases hwrites : r.writesId s with
    | none => rfl
    | some written => exact hkeeps (by rintro hnil; rw [hnil] at hp; cases hp) written hwrites

theorem connectCb_pendingIsLast (h : Sound B l s) (hB3 : 3 ≤ B) (hB : B ≤ 65535) :
    PendingIsLast (mqtt_tcpclient_connect_cb s, g.observe s (.connectCb : Step B) (mqtt_tcpclient_connect_cb s)) ↔
      KeepsPending (s, g) (.connectCb : Step B) := by
  have hinit : Sized B (mqtt_msg_init s.client.mqtt_state.mqtt_connection.buffer s.client.mqtt_state.out_buffer_length) := by
    rw [h.limit]
    exact ⟨Nat.mod_eq_of_lt (by omega), h.sized.block⟩
  have hemitted := mqtt_msg_connect_emitted hinit hB3 s.client.connect_info
  have hbits := (fixedHeader_bits (show MQTT_MSG_TYPE_CONNECT < 16 by decide) 0 0).1
  revert hemitted
  generalize hmessage : mqtt_msg_connect _ _ = connection
  intro hemitted
  have hlength : connection.message.length < 65536 := by
    have hle := emission_length_le B (fixedHeader MQTT_MSG_TYPE_CONNECT 0 0 0) (connectBytes s.client.connect_info)
    rw [hemitted.length]
    omega
  have hstep : mqtt_tcpclient_connect_cb s = system_os_post (setConnState
      (sendOutbound (setOutbound s connection s.client.mqtt_state.pending_msg_id)) .MQTT_CONNECT_SENDING) := by
    rw [← hmessage]
    rfl
  have hsent : (g.observe s (.connectCb : Step B) (mqtt_tcpclient_connect_cb s)).sent = [] ++ [connection.bytes] := by
    rw [hstep]
    exact handedOver_control (sendOutbound_control (s := setOutbound s connection _) hlength) rfl
  have hdescribes := sendOutbound_describes (s := setOutbound s connection s.client.mqtt_state.pending_msg_id)
  rw [pendingIsLast_sent hsent, hstep]
  have hempty := emission_eq_nil_iff B (fixedHeader MQTT_MSG_TYPE_CONNECT 0 0 0) (connectBytes s.client.connect_info)
  constructor
  · intro hlast
    by_contra hunbuilt
    refine hlast.1 (hemitted.bytes.trans (hempty.mpr fun body hbody => ?_))
    by_contra hroom
    exact hunbuilt ⟨body, hbody, Nat.le_of_not_lt hroom⟩
  · intro hbuilt
    obtain ⟨body, hbody, hroom⟩ := hbuilt
    have hbody : connectBytes s.client.connect_info = some body := hbody
    have hbytes : connection.bytes = fixedHeader MQTT_MSG_TYPE_CONNECT 0 0 0 :: (lengthBytes body.length ++ body) := by
      rw [hemitted.bytes, hbody, emission, if_pos hroom]
    have hne : connection.bytes ≠ [] := by
      rw [hbytes]
      exact List.cons_ne_nil _ _
    refine ⟨hne, hdescribes hne (Or.inl ?_)⟩
    show mqtt_get_type connection.bytes = MQTT_MSG_TYPE_CONNECT
    rw [hbytes, mqtt_get_type_eq]
    exact hbits

theorem mqtt_send_keepalive_sends (h : Sized B s.client.mqtt_state.mqtt_connection) (hB3 : 3 ≤ B) (hB : B ≤ 65535)
    (result : Bool) :
    ∃ p, handedOver s (mqtt_send_keepalive s result) = [p] ∧ p ≠ [] ∧
      (mqtt_send_keepalive s result).client.mqtt_state.pending_msg_type = mqtt_get_type p ∧
      (mqtt_send_keepalive s result).client.mqtt_state.pending_msg_id = packetId p := by
  have hemitted := emptyMessage_emitted h hB3 MQTT_MSG_TYPE_PINGREQ
  have hbytes : (emptyMessage s.client.mqtt_state.mqtt_connection MQTT_MSG_TYPE_PINGREQ).bytes = [0xC0, 0x00] :=
    hemitted.bytes.trans (if_pos hB3)
  have hlength : (emptyMessage s.client.mqtt_state.mqtt_connection MQTT_MSG_TYPE_PINGREQ).message.length < 65536 := by
    have hle := emission_length_le B (fixedHeader MQTT_MSG_TYPE_PINGREQ 0 0 0) (some [])
    rw [hemitted.length]
    omega
  revert hbytes hlength
  generalize hmessage : emptyMessage _ _ = connection
  intro hbytes hlength
  have hsend : mqtt_send_keepalive s result = system_os_post
      (if result then setConnState { sendOutbound (setOutbound s connection s.client.mqtt_state.pending_msg_id) with
        client := { (sendOutbound (setOutbound s connection s.client.mqtt_state.pending_msg_id)).client with
          keepAliveTick := 0 } } .MQTT_DATA
      else setConnState (sendOutbound (setOutbound s connection s.client.mqtt_state.pending_msg_id))
        .TCP_RECONNECT_DISCONNECTING) := by
    rw [← hmessage]
    rfl
  have hdescribes := sendOutbound_describes (s := setOutbound s connection s.client.mqtt_state.pending_msg_id)
    (by show connection.bytes ≠ []; rw [hbytes]; decide)
    (by show mqtt_get_type connection.bytes = _ ∨ mqtt_get_type connection.bytes = _; rw [hbytes]; decide)
  have hcontrol := sendOutbound_control (s := setOutbound s connection s.client.mqtt_state.pending_msg_id) hlength
  rw [hsend]
  refine ⟨connection.bytes, handedOver_control ?_ ?_, by rw [hbytes]; decide, ?_, ?_⟩
  · cases result <;> exact hcontrol
  · cases result <;> rfl
  · cases result <;> exact hdescribes.1
  · cases result <;> exact hdescribes.2

/-- `MQTT_Task` in `MQTT_DATA`: the packet that leaves the queue, if any, becomes the last one. -/
theorem dataTask_pendingIsLast (h : Sound B l s) (hshaped : ∀ p ∈ l.waiting, WireShaped p) (hB : B ≤ 65535)
    (hq : PendingIsLast (s, g)) (hstate : s.client.connState = .MQTT_DATA) (locals : Locals B) (result : Bool)
    (resolved : Option ℕ) :
    PendingIsLast (MQTT_Task s locals result resolved,
        g.observe s (.task locals result resolved) (MQTT_Task s locals result resolved)) ↔
      KeepsPending (s, g) (.task locals result resolved) := by
  have hsent := g.observe_sent s (a := .task locals result resolved) (by simp) (MQTT_Task s locals result resolved)
  have htask : MQTT_Task s locals result resolved = pump { s with posted := false } locals := by
    simp only [MQTT_Task, hstate]
  have hs : Sound B l { s with posted := false } := h.neutral ⟨rfl, rfl, rfl, rfl, fun h _ => h⟩
  unfold KeepsPending
  rw [waitingPackets_eq h.holds hB h.fits]
  obtain ⟨hidle, queue, _, hpump⟩ | ⟨hready, p, rest, hw, queue, garbage, _, hpump⟩ := pump_spec hs hB locals
  · refine iff_of_true (hq.unsent (by simp) ?_) fun _ hready p hp => ?_
    · rw [htask, hpump]
      exact ⟨rfl, rfl, rfl, rfl⟩
    · obtain hbusy | hempty := hidle
      · exact absurd hready hbusy
      · rw [hempty] at hp
        cases hp
  · have hhanded : handedOver s (pump { s with posted := false } locals) = [p] := by
      rw [hpump, handedOver, List.drop_length, List.drop_left]
      rfl
    rw [htask, hhanded] at hsent
    rw [htask, pendingIsLast_sent hsent, hpump]
    have hlegible : (s.client.connState = .MQTT_DATA → s.client.sendTimeout = 0 →
        ∀ p ∈ l.waiting.head?, Legible p) ↔ Legible p := by
      rw [hw]
      simp only [hstate, show s.client.sendTimeout = 0 from hready, forall_true_left, List.head?_cons,
        Option.mem_def, Option.some.injEq, forall_eq']
    rw [hlegible]
    refine and_congr_right fun hne => ?_
    obtain hnil | ⟨header, body, hshape, rfl⟩ := hshaped p (hw ▸ List.mem_cons_self ..)
    · exact absurd hnil hne
    · simp only [mqtt_get_type_append hne, true_and]
      exact mqtt_get_id_iff hshape garbage

theorem MQTT_Task_pendingIsLast (h : Sound B l s) (hshaped : ∀ p ∈ l.waiting, WireShaped p) (hB3 : 3 ≤ B)
    (hB : B ≤ 65535) (hq : PendingIsLast (s, g)) (locals : Locals B) (result : Bool) (resolved : Option ℕ) :
    PendingIsLast (MQTT_Task s locals result resolved,
        g.observe s (.task locals result resolved) (MQTT_Task s locals result resolved)) ↔
      KeepsPending (s, g) (.task locals result resolved) := by
  have hsent := g.observe_sent s (a := .task locals result resolved) (by simp) (MQTT_Task s locals result resolved)
  obtain ⟨hstate, hkept, _⟩ | ⟨hstate, htask⟩ | ⟨hstate, _⟩ := MQTT_Task_cases s locals result resolved
  · exact iff_of_true (hq.unsent (by simp) hkept) fun hdata => absurd hdata hstate
  · obtain ⟨p, hhanded, hp⟩ := mqtt_send_keepalive_sends (s := { s with posted := false }) h.sized hB3 hB result
    have hhanded : handedOver s (mqtt_send_keepalive { s with posted := false } result) = [p] := hhanded
    rw [htask, hhanded] at hsent
    rw [htask, pendingIsLast_sent hsent]
    exact iff_of_true hp fun hdata => by cases hstate.symm.trans hdata
  · exact dataTask_pendingIsLast h hshaped hB hq hstate locals result resolved

theorem sessionStep_pendingIsLast (h : Sound B l s) (hshaped : ∀ p ∈ l.waiting, WireShaped p) (hB3 : 3 ≤ B)
    (hB : B ≤ 65535) (hq : PendingIsLast (s, g)) {a : Step B} (hstep : step s a = some s') :
    PendingIsLast (s', g.observe s a s') ↔ KeepsPending (s, g) a := by
  have hkept (ha : a ≠ .connectCb) (hcondition : KeepsPending (s, g) a) (hunsent : Unsent s s') :
      PendingIsLast (s', g.observe s a s') ↔ KeepsPending (s, g) a :=
    iff_of_true (hq.unsent ha hunsent) hcondition
  cases step_taken hstep with
  | @call c _ hexec =>
    cases c with
    | request r =>
      obtain ⟨⟨t, ok⟩, hok, rfl⟩ := Option.map_eq_some_iff.mp hexec
      exact request_pendingIsLast h hB3 hq hok
    | connect resolved =>
      obtain rfl := Option.some.inj hexec
      exact hkept (by simp) trivial (MQTT_Connect_unsent s resolved)
    | disconnect | deleteClient | initLWT | onConnected | onDisconnected | onData | onPublished | onTimeout =>
      obtain rfl := Option.some.inj hexec
      exact hkept (by simp) trivial ⟨rfl, rfl, rfl, rfl⟩
  | resume => exact hkept (by simp) trivial (returned_unsent s _)
  | dnsFound ipaddr =>
    refine hkept (by simp) trivial ?_
    cases ipaddr with
    | none => exact ⟨rfl, rfl, rfl, rfl⟩
    | some addr =>
      simp only [mqtt_dns_found]
      split <;> exact ⟨rfl, rfl, rfl, rfl⟩
  | connectCb => exact connectCb_pendingIsLast h hB3 hB
  | reconCb => exact hkept (by simp) trivial ⟨rfl, rfl, rfl, rfl⟩
  | disconCb =>
    refine hkept (by simp) trivial ?_
    simp only [mqtt_tcpclient_discon_cb, callsBack]
    split_ifs <;> exact ⟨rfl, rfl, rfl, rfl⟩
  | recv pdata =>
    have hpass := receivePass_unsent (B := B) { s with client := { s.client with keepAliveTick := 0 } } pdata
    exact hkept (by simp) trivial ⟨hpass.control, hpass.pumped, hpass.pending_msg_type, hpass.pending_msg_id⟩
  | sentCb =>
    refine hkept (by simp) trivial ?_
    simp only [mqtt_tcpclient_sent_cb, callsBack]
    split_ifs <;> exact ⟨rfl, rfl, rfl, rfl⟩
  | timer => exact hkept (by simp) trivial (mqtt_timer_unsent s)
  | task locals result resolved => exact MQTT_Task_pendingIsLast h hshaped hB3 hB hq locals result resolved

/-- **The pending fields describe the packet sent last on every run exactly if no step of it spoils
them.** -/
theorem pending_is_last_iff (hB3 : 3 ≤ B) (hB : B ≤ 65535) (hs : Starts B s) (steps : List (Step B)) :
    Always sessionStep PendingIsLast (s, .empty) steps ↔ Meets sessionStep KeepsPending (s, .empty) steps := by
  have hstart := hs.sound hB
  refine always_iff_meets (I := fun x => ∃ l : Log (List UInt8), Sound B l x.1 ∧ ∀ p ∈ l.waiting, WireShaped p)
    ?_ ?_ ⟨_, hstart, by simp [Log.empty]⟩ (fun p hp => by cases hp)
  · intro x a x' _ hI hstep
    obtain ⟨l, hl, hshaped⟩ := hI
    exact step_wireShaped hl hshaped hB3 hB (observed_some hstep).1
  · intro x a x' _ hI hq hstep
    obtain ⟨l, hl, hshaped⟩ := hI
    obtain ⟨s, g⟩ := x
    obtain ⟨s', g'⟩ := x'
    obtain ⟨hstep, hnotes⟩ := observed_some hstep
    have hnotes : g' = g.observe s a s' := hnotes
    subst hnotes
    exact sessionStep_pendingIsLast hl hshaped hB3 hB hq hstep

/-- A publish of quality of service 1 that goes out before the next call. -/
theorem pending_is_last_iff_publish :
    Always sessionStep PendingIsLast (newClient, .empty) (publishOne 1 :: connecting ++ [.sentCb, runTask]) :=
  (pending_is_last_iff (by decide) (by decide) newClient_starts _).mpr (by decide +kernel)

/-- A second publish is queued while the first one, with the identifier 1, is on its way. -/
theorem pending_id_overwritten :
    (run sessionStep (newClient, .empty) (connecting ++ [.sentCb, publishOne 1, runTask, publishOne 1])).map
      (fun x => decide (PendingIsLast x)) = some false := by
  decide +kernel

end LightSleepMqtt.Client
