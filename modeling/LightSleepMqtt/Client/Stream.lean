import LightSleepMqtt.Client.Diagram
import LightSleepMqtt.Client.Pending
import LightSleepMqtt.Client.Requests
import LightSleepMqtt.Library.MqttStream

/-! The byte stream of a connection. Whatever the application asks for and in whatever order the
handlers run, what goes over one connection is a CONNECT made of the settings of the client and behind
it packets of requests, answers and pings, none of them before a segment that the client takes for a
CONNACK; a receiver that reads the stream gets these packets back. -/
namespace LightSleepMqtt.Client
open Message MqttWire Queue DropQueue Transition
set_option autoImplicit false

variable {B : ℕ} {l : Log (List UInt8)} {s s' : Sys} {g : Session}

/-! ## What an application does with the client -/

/-- The settings its CONNECTs are made of, and the packets its requests ask for. -/
structure Usage where
  settings : mqtt_connect_info_t → Prop
  requests : Packet → Prop

/-- The step is within the usage: a CONNECT fits the buffer and has a will that MQTT allows, and the
arguments of a request are in the ranges of MQTT. -/
def Usage.Keeps (u : Usage) (s : Sys) : Step B → Prop
  | .connectCb => u.settings s.client.connect_info ∧
    (0 ≤ s.client.connect_info.will_qos ∧ s.client.connect_info.will_qos ≤ 2) ∧
    ∃ body ∈ connectBytes s.client.connect_info, 3 + body.length ≤ B
  | .call (.request r) => r.InRange ∧ ∀ p, r.Asks p → u.requests p
  | _ => True

/-- What the client sends behind its CONNECT. -/
def Usage.Spoken (u : Usage) (p : Packet) : Prop := u.requests p ∨ IsReply p ∨ p = .pingreq

/-- A CONNECT of the settings, and pieces of the usage behind it. -/
def Usage.Opens (u : Usage) (sent : List (List UInt8)) : Prop :=
  ∃ info client_id rest, u.settings info ∧ nonEmpty info.client_id = some client_id ∧
    (Packet.connect (connectOf info client_id)).WellFormed ∧
    sent = (Packet.connect (connectOf info client_id)).encode :: rest ∧ ∀ piece ∈ rest, Transmits u.Spoken piece

/-- A segment that starts like a CONNACK has been received. -/
def Consented (g : Session) : Prop :=
  ∃ segment ∈ g.received, segment ≠ [] ∧ mqtt_get_type segment = MQTT_MSG_TYPE_CONNACK

/-- What a receiver makes of the connection. -/
def Usage.Reads (u : Usage) (x : Sys × Session) : Prop :=
  ∃ ps, decodeStream x.2.sent.flatten = some ps ∧ (1 < ps.length → Consented x.2) ∧
    (ps = [] ∨ ∃ info client_id rest, u.settings info ∧ nonEmpty info.client_id = some client_id ∧
      ps = .connect (connectOf info client_id) :: rest ∧ ∀ p ∈ rest, u.Spoken p)

/-! ## The packets -/

theorem connectBytes_some {info : mqtt_connect_info_t} (hqos : 0 ≤ info.will_qos ∧ info.will_qos ≤ 2)
    {body : List UInt8} (hbody : connectBytes info = some body) (hsize : body.length ≤ 16383) :
    ∃ client_id, nonEmpty info.client_id = some client_id ∧
      body = (Packet.connect (connectOf info client_id)).body ∧
      (Packet.connect (connectOf info client_id)).WellFormed := by
  rw [connectBytes_eq info hqos] at hbody
  obtain ⟨p, hp, rfl⟩ := Option.map_eq_some_iff.mp hbody
  obtain ⟨client_id, hid, rfl⟩ := Option.map_eq_some_iff.mp hp
  have hlength : (connectOf info client_id).body.length ≤ 16383 := hsize
  refine ⟨client_id, hid, rfl, Connect.wellFormed_of_body _ (by omega) ?_ ?_, ?_⟩
  · simp only [connectOf]
    omega
  · intro w hw
    obtain ⟨topic, _, rfl⟩ := Option.map_eq_some_iff.mp hw
    simp only
    omega
  · show (connectOf info client_id).body.length < 128 ^ 4
    omega

theorem connect_cb_handedOver (h : Sound B l s) (hB3 : 3 ≤ B) (hB : B ≤ 16386) {u : Usage}
    (hu : u.Keeps s (.connectCb : Step B)) :
    ∃ client_id, nonEmpty s.client.connect_info.client_id = some client_id ∧
      (Packet.connect (connectOf s.client.connect_info client_id)).WellFormed ∧
      handedOver s (mqtt_tcpclient_connect_cb s) =
        [(Packet.connect (connectOf s.client.connect_info client_id)).encode] := by
  obtain ⟨_, hqos, body, hbody, hroom⟩ := hu
  have hinit : Sized B (mqtt_msg_init s.client.mqtt_state.mqtt_connection.buffer s.client.mqtt_state.out_buffer_length) := by
    rw [h.limit]
    exact ⟨Nat.mod_eq_of_lt (by omega), h.sized.block⟩
  have hemitted := mqtt_msg_connect_emitted hinit hB3 s.client.connect_info
  obtain ⟨client_id, hid, rfl, hwell⟩ := connectBytes_some hqos hbody (by omega)
  rw [show connectBytes s.client.connect_info = some _ from hbody] at hemitted
  have hbytes := hemitted.bytes.trans (emission_encode (p := .connect (connectOf s.client.connect_info client_id)) rfl
    (by omega) hroom)
  have hlength : (mqtt_msg_connect (mqtt_msg_init s.client.mqtt_state.mqtt_connection.buffer
      s.client.mqtt_state.out_buffer_length) s.client.connect_info).message.length < 65536 := by
    have hle := emission_length_le B (fixedHeader MQTT_MSG_TYPE_CONNECT 0 0 0)
      (some (Packet.connect (connectOf s.client.connect_info client_id)).body)
    rw [hemitted.length]
    omega
  refine ⟨client_id, hid, hwell, ?_⟩
  rw [← hbytes]
  exact handedOver_control (sendOutbound_control (s := setOutbound s _ s.client.mqtt_state.pending_msg_id) hlength) rfl

theorem mqtt_send_keepalive_handedOver (h : Sized B s.client.mqtt_state.mqtt_connection) (hB3 : 3 ≤ B) (hB : B ≤ 65535)
    (result : Bool) : handedOver s (mqtt_send_keepalive s result) = [Packet.pingreq.encode] := by
  have hemitted := emptyMessage_emitted h hB3 MQTT_MSG_TYPE_PINGREQ
  have hbytes : (mqtt_msg_pingreq s.client.mqtt_state.mqtt_connection).bytes = Packet.pingreq.encode :=
    hemitted.bytes.trans (if_pos hB3)
  have hlength : (mqtt_msg_pingreq s.client.mqtt_state.mqtt_connection).message.length < 65536 := by
    have hle := emission_length_le B (fixedHeader MQTT_MSG_TYPE_PINGREQ 0 0 0) (some [])
    rw [mqtt_msg_pingreq, hemitted.length]
    omega
  have hcontrol := sendOutbound_control (s := setOutbound s (mqtt_msg_pingreq s.client.mqtt_state.mqtt_connection)
    s.client.mqtt_state.pending_msg_id) hlength
  rw [← hbytes]
  cases result <;> exact handedOver_control hcontrol rfl

/-- The message of a request in range is its packet, or nothing. -/
theorem Request.message_transmits (h : Sized B s.client.mqtt_state.mqtt_connection) (hB3 : 3 ≤ B) {r : Request B}
    (hr : r.InRange) (hshort : (r.message s).length ≤ 16383) : Transmits (fun p => r.Asks p) (r.message s) := by
  by_cases hbuild : r.Buildable s
  · obtain ⟨p, hasks, hp, hencode⟩ := (Request.message_asked_iff h hB3 hbuild hshort).mpr hr
    exact .inr ⟨p, hp, hasks, hencode.symm⟩
  · have hzero := of_not_not fun hne => hbuild ((r.built_iff h hB3).mp hne)
    left
    rw [Request.message, mqtt_connection_t.bytes, hzero, List.take_zero]

/-! ## The queue -/

/-- The queue holds pieces of the usage. -/
def Usage.Queued (u : Usage) (B : ℕ) (s : Sys) : Prop :=
  ∃ l : Log (List UInt8), Sound B l s ∧ ∀ piece ∈ l.waiting, Transmits u.Spoken piece

variable {u : Usage}

theorem Usage.Queued.step (h : u.Queued B s) (hB3 : 3 ≤ B) (hB : B ≤ 65535) {a : Step B} (hu : u.Keeps s a)
    (hstep : Client.step s a = some s') : u.Queued B s' := by
  obtain ⟨l, hl, hpieces⟩ := h
  cases hr : a.request with
  | none =>
    obtain ⟨l', hmoves, hs'⟩ := step_answers hl hB3 hB hr hstep
    have hanswers : Moves (Transmits u.Spoken) l l' :=
      hmoves.mono fun piece hpiece => Transmits.mono (P := IsReply) hpiece.2 fun p hp => .inr (.inl hp)
    exact ⟨l', hs', hanswers.forall_waiting hpieces⟩
  | some r =>
    obtain ⟨rfl, ok, hexec⟩ := step_request hr hstep
    obtain ⟨l', hmoves, hs'⟩ := r.exec_moves hl hB3 hB hexec
    refine ⟨l', hs', fun piece hpiece => ?_⟩
    have hmoves : Moves (fun piece => piece = r.message s ∨ Transmits u.Spoken piece) l l' := hmoves.mono fun _ => Or.inl
    obtain rfl | hold := hmoves.forall_waiting (fun q hq => Or.inr (hpieces q hq)) piece hpiece
    · have hshort := Nat.le_trans (hs'.holds.packet_length_le hpiece) (show QUEUE_BUFFER_SIZE ≤ 16383 by decide)
      exact (Request.message_transmits hl.sized hB3 hu.1 hshort).mono fun p hp => .inl (hu.2 p hp)
    · exact hold

/-- What goes out behind the CONNECT is one piece at a time. -/
theorem Usage.Queued.handedOver (h : u.Queued B s) (hB3 : 3 ≤ B) (hB : B ≤ 65535) {a : Step B} (ha : a ≠ .connectCb)
    (hstep : Client.step s a = some s') (hsends : Client.handedOver s s' ≠ []) :
    Receiving s ∧ ∃ piece, Client.handedOver s s' = [piece] ∧ Transmits u.Spoken piece := by
  obtain ⟨l, hl, hpieces⟩ := h
  obtain rfl | ⟨⟨locals, result, resolved, rfl⟩, hreceiving⟩ := step_sends hstep hsends
  · exact absurd rfl ha
  refine ⟨hreceiving, ?_⟩
  have hposted : Sound B l { s with posted := false } := hl.neutral ⟨rfl, rfl, rfl, rfl, fun h _ => h⟩
  cases step_taken hstep with
  | task =>
    obtain ⟨_, hunsent, _⟩ | ⟨_, htask⟩ | ⟨_, htask⟩ := MQTT_Task_cases s locals result resolved
    · exact absurd (handedOver_nothing hunsent.control hunsent.pumped) hsends
    · rw [htask]
      exact ⟨_, mqtt_send_keepalive_handedOver hposted.sized hB3 hB result,
        .inr ⟨.pingreq, ⟨trivial, by decide⟩, .inr (.inr rfl), rfl⟩⟩
    · rw [htask] at hsends ⊢
      obtain ⟨_, queue, _, hpump⟩ | ⟨_, p, rest, hwaiting, queue, garbage, _, hpump⟩ := pump_spec hposted hB locals
      · rw [hpump] at hsends
        exact absurd (handedOver_nothing rfl rfl) hsends
      · refine ⟨p, ?_, hpieces p (hwaiting ▸ List.mem_cons_self ..)⟩
        rw [hpump, Client.handedOver, List.drop_length, List.drop_left]
        rfl

/-! ## The connection -/

/-- The invariant of a connection. -/
structure Conversed (u : Usage) (B : ℕ) (x : Sys × Session) : Prop where
  queue : u.Queued B x.1
  steady : Steady x.1
  sent : x.2.sent = [] ∨ u.Opens x.2.sent
  waiting : x.1.client.connState = .MQTT_CONNECT_SENDING → x.2.sent ≠ []
  receiving : Receiving x.1 → x.2.sent ≠ [] ∧ Consented x.2
  later : 1 < x.2.sent.length → Consented x.2

theorem Consented.mono {g' : Session} (h : Consented g) (hreceived : g.received ⊆ g'.received) : Consented g' := by
  obtain ⟨segment, hsegment, hstarts⟩ := h
  exact ⟨segment, hreceived hsegment, hstarts⟩

theorem Starts.conversed (hB : B ≤ 65535) (hs : Starts B s) (u : Usage) : Conversed u B (s, .empty) := by
  have hsound := hs.sound hB
  obtain ⟨_, _, _, _, _, _, _, rfl⟩ := hs
  refine ⟨⟨_, hsound, by simp [Log.empty]⟩, .of_idle rfl, .inl rfl, fun h => ?_, fun h => ?_, fun h => ?_⟩
  · cases h
  · exact absurd h (not_receiving (c := .WIFI_INIT) rfl (by decide))
  · exact absurd h (Nat.not_lt_zero 1)

/-- A new connection begins, whatever has become of the one before. -/
theorem Conversed.connectCb (hqueue : u.Queued B s) (hsteady : Steady s) (hB3 : 3 ≤ B) (hB : B ≤ 16386)
    (hu : u.Keeps s (.connectCb : Step B)) (hstep : step s (.connectCb : Step B) = some s') :
    Conversed u B (s', g.observe s (.connectCb : Step B) s') := by
  have hqueue' := hqueue.step hB3 (by omega) hu hstep
  have hsteady' := step_steady hsteady hstep
  obtain ⟨l, hl, _⟩ := hqueue
  obtain ⟨client_id, hid, hwell, hsent⟩ := connect_cb_handedOver hl hB3 hB hu
  cases step_taken hstep with
  | connectCb =>
    have hnotes : g.observe s (.connectCb : Step B) (mqtt_tcpclient_connect_cb s) =
        ⟨[(Packet.connect (connectOf s.client.connect_info client_id)).encode], []⟩ :=
      congrArg (Session.mk · []) hsent
    rw [hnotes]
    refine ⟨hqueue', hsteady', .inr ⟨_, client_id, [], hu.1, hid, hwell, rfl, by simp⟩, fun _ => by simp, fun hs' => ?_,
      fun hlength => absurd hlength (by simp)⟩
    exact absurd hs' (not_receiving (c := .MQTT_CONNECT_SENDING) rfl (by decide))

theorem Usage.Opens.append {sent : List (List UInt8)} (h : u.Opens sent) {piece : List UInt8}
    (hpiece : Transmits u.Spoken piece) : u.Opens (sent ++ [piece]) := by
  obtain ⟨info, client_id, rest, hinfo, hid, hwell, rfl, hrest⟩ := h
  refine ⟨info, client_id, rest ++ [piece], hinfo, hid, hwell, rfl, fun q hq => ?_⟩
  obtain hq | hq := List.mem_append.mp hq
  · exact hrest q hq
  · exact List.mem_singleton.mp hq ▸ hpiece

/-- A client that comes to receive has received a segment like a CONNACK in this step. -/
theorem step_consents (h : Steady s) {a : Step B} (hstep : step s a = some s') (hs' : Receiving s') (hs : ¬ Receiving s) :
    s.client.connState = .MQTT_CONNECT_SENDING ∧
      ∃ pdata, a = .recv pdata ∧ pdata ≠ [] ∧ mqtt_get_type pdata = MQTT_MSG_TYPE_CONNACK := by
  obtain hedge | hsame := step_edge h hstep
  · have hreceives : s'.client.connState = .MQTT_DATA ∨ s'.client.connState = .MQTT_KEEPALIVE_SEND := hs'
    generalize s'.client.connState = c at hedge hreceives
    cases hedge with
    | accepted htaken =>
      exact ⟨htaken.waiting, _, rfl, List.ne_nil_of_length_pos htaken.nonempty, htaken.connack⟩
    | idle hdata => exact absurd (.inl hdata) hs
    | pinged hping => exact absurd (.inr hping) hs
    | closed => revert hreceives; cases s.client.connState <;> simp [closedState]
    | _ => simp at hreceives
  · refine absurd ?_ hs
    unfold Receiving at hs' ⊢
    rw [← hsame]
    exact hs'

theorem Conversed.other (h : Conversed u B (s, g)) (hB3 : 3 ≤ B) (hB : B ≤ 65535) {a : Step B} (ha : a ≠ .connectCb)
    (hu : u.Keeps s a) (hstep : step s a = some s') : Conversed u B (s', g.observe s a s') := by
  have hnotes := g.observe_sent s ha s'
  have hreceived := (g.observe_mono s ha s').2
  have hkept : g.sent ≠ [] → (g.observe s a s').sent ≠ [] := by
    intro hne hnil
    rw [hnotes] at hnil
    exact hne (List.append_eq_nil_iff.mp hnil).1
  have hsent : (g.observe s a s').sent = g.sent ∨ Receiving s ∧ ∃ piece, Transmits u.Spoken piece ∧
      (g.observe s a s').sent = g.sent ++ [piece] := by
    by_cases hsends : handedOver s s' = []
    · left
      rw [hnotes, hsends, List.append_nil]
    · obtain ⟨hreceiving, piece, hpiece, htransmits⟩ := h.queue.handedOver hB3 hB ha hstep hsends
      exact .inr ⟨hreceiving, piece, htransmits, by rw [hnotes, hpiece]⟩
  refine ⟨h.queue.step hB3 hB hu hstep, step_steady h.steady hstep, ?_, fun hwaiting => ?_, fun hs' => ?_, fun hlength => ?_⟩
  · obtain hsame | ⟨hreceiving, piece, hpiece, hmore⟩ := hsent
    · rw [show (g.observe s a s').sent = g.sent from hsame]
      exact h.sent
    · obtain hnil | hopens := h.sent
      · exact absurd hnil (h.receiving hreceiving).1
      · right
        rw [show (g.observe s a s').sent = _ from hmore]
        exact hopens.append hpiece
  · apply hkept
    obtain hedge | hsame := step_edge h.steady hstep
    · have hwaiting : s'.client.connState = .MQTT_CONNECT_SENDING := hwaiting
      generalize s'.client.connState = c at hedge hwaiting
      cases hedge with
      | connected => exact absurd rfl ha
      | closed => revert hwaiting; cases s.client.connState <;> simp [closedState]
      | _ => cases hwaiting
    · exact h.waiting (hsame.symm.trans hwaiting)
  · by_cases hs : Receiving s
    · exact ⟨hkept (h.receiving hs).1, (h.receiving hs).2.mono hreceived⟩
    · obtain ⟨hwaiting, pdata, rfl, hne, hconnack⟩ := step_consents h.steady hstep hs' hs
      refine ⟨hkept (h.waiting hwaiting), pdata, ?_, hne, hconnack⟩
      simp [Session.observe]
  · obtain hsame | ⟨hreceiving, _⟩ := hsent
    · have hlength : 1 < (g.observe s a s').sent.length := hlength
      rw [hsame] at hlength
      exact (h.later hlength).mono hreceived
    · exact (h.receiving hreceiving).2.mono hreceived

theorem Conversed.reads {x : Sys × Session} (h : Conversed u B x) : u.Reads x := by
  obtain hnil | ⟨info, client_id, rest, hinfo, hid, hwell, hsent, hrest⟩ := h.sent
  · refine ⟨[], ?_, fun hlength => absurd hlength (by decide), .inl rfl⟩
    rw [hnil]
    rfl
  · obtain ⟨ps, hps, hlength, hflat⟩ := Transmits.packets hrest
    refine ⟨.connect (connectOf info client_id) :: ps, ?_, fun hmore => ?_,
      .inr ⟨info, client_id, ps, hinfo, hid, rfl, fun p hp => (hps p hp).2⟩⟩
    · rw [hsent, List.flatten_cons, hflat, ← List.flatMap_cons]
      exact decodeStream_encoded (List.forall_mem_cons.mpr ⟨hwell, fun p hp => (hps p hp).1⟩)
    · apply h.later
      rw [hsent]
      rw [List.length_cons] at hmore ⊢
      omega

/-! ## What a broker reads -/

/-- The packets that the calls of `mqtt.h` ask for. -/
def IsRequest : Packet → Prop
  | .publish .. | .subscribe .. | .unsubscribe .. | .pingreq => True
  | _ => False

/-- The arguments are in the ranges of MQTT: those of a request when it is called, those of
`MQTT_InitLWT` when the CONNECT is made of them, which has to fit the buffer. -/
def StaysInRange (s : Sys) : Step B → Prop
  | .connectCb => (0 ≤ s.client.connect_info.will_qos ∧ s.client.connect_info.will_qos ≤ 2) ∧
    ∃ body ∈ connectBytes s.client.connect_info, 3 + body.length ≤ B
  | .call (.request r) => r.InRange
  | _ => True

/-- Note the settings of the client when a connection comes about. -/
def noteSettings (info : mqtt_connect_info_t) (s : Sys) (a : Step B) (_ : Sys) : mqtt_connect_info_t :=
  match a with
  | .connectCb => s.client.connect_info
  | _ => info

/-- A client with the notes on its connection and on the settings it began with. -/
abbrev settledStep (x : Sys × Session × mqtt_connect_info_t) (a : Step B) : Option (Sys × Session × mqtt_connect_info_t) :=
  observed step (paired Session.observe noteSettings) x a

/-- The bytes sent on a connection are packets to the last byte: the CONNECT that the settings of the
client make, and behind it, when a segment like a CONNACK has come, requests and answers. -/
def SpeaksMqtt (x : Sys × Session × mqtt_connect_info_t) : Prop :=
  ∃ ps, decodeStream x.2.1.sent.flatten = some ps ∧
    (ps = [] ∨ ∃ client_id rest, nonEmpty x.2.2.client_id = some client_id ∧
      ps = .connect (connectOf x.2.2 client_id) :: rest ∧ (∀ p ∈ rest, IsRequest p ∨ IsReply p) ∧
      (rest ≠ [] → Consented x.2.1))

theorem Request.Asks.isRequest {r : Request B} {p : Packet} (h : r.Asks p) : IsRequest p := by
  cases r with
  | publish =>
    obtain ⟨_, _, _, _, _, rfl⟩ := h
    trivial
  | subscribe =>
    obtain ⟨_, _, _, _, rfl⟩ := h
    trivial
  | unSubscribe =>
    obtain ⟨_, _, _, rfl⟩ := h
    trivial
  | ping =>
    obtain rfl := h
    trivial

theorem StaysInRange.keeps {settings : mqtt_connect_info_t → Prop} {a : Step B} (h : StaysInRange s a)
    (hsettings : a = .connectCb → settings s.client.connect_info) : Usage.Keeps ⟨settings, IsRequest⟩ s a := by
  unfold Usage.Keeps StaysInRange at *
  split
  · exact ⟨hsettings rfl, h⟩
  · exact ⟨h, fun p hp => hp.isRequest⟩
  · trivial

/-- The client converses with the settings that are noted. -/
def Settling (B : ℕ) (x : Sys × Session × mqtt_connect_info_t) : Prop :=
  Conversed ⟨fun info => info = x.2.2, IsRequest⟩ B (x.1, x.2.1)

theorem Settling.step {x x' : Sys × Session × mqtt_connect_info_t} {a : Step B} (hB3 : 3 ≤ B) (hB : B ≤ 16386)
    (hx : Settling B x) (hrange : StaysInRange x.1 a) (hobserved : settledStep x a = some x') : Settling B x' := by
  obtain ⟨hstep, hnotes⟩ := observed_some hobserved
  unfold Settling
  rw [hnotes]
  by_cases ha : a = .connectCb
  · subst ha
    exact Conversed.connectCb (g := x.2.1) hx.queue hx.steady hB3 hB (hrange.keeps fun _ => rfl) hstep
  · have hsame : noteSettings x.2.2 x.1 a x'.1 = x.2.2 := by
      unfold noteSettings
      split
      · exact absurd rfl ha
      · rfl
    simp only [paired, hsame]
    exact hx.other hB3 (by omega) ha (hrange.keeps fun h => absurd h ha) hstep

theorem Settling.speaksMqtt {x : Sys × Session × mqtt_connect_info_t} (h : Settling B x) : SpeaksMqtt x := by
  obtain ⟨ps, hps, hlater, hopens⟩ := Conversed.reads h
  refine ⟨ps, hps, hopens.imp_right ?_⟩
  rintro ⟨info, client_id, rest, rfl, hid, rfl, hrest⟩
  refine ⟨client_id, rest, hid, rfl, fun p hp => ?_, fun hne => hlater ?_⟩
  · obtain hrequest | hreply | rfl := hrest p hp
    · exact .inl hrequest
    · exact .inr hreply
    · exact .inl trivial
  · have hpos := List.length_pos_iff.mpr hne
    rw [List.length_cons]
    omega

/-- **On every connection of every run the client speaks MQTT**, when its application keeps to the
ranges that no call checks. -/
theorem run_speaks_mqtt (hB3 : 3 ≤ B) (hB : B ≤ 16386) (hs : Starts B s) {steps : List (Step B)}
    (h : Meets settledStep (fun x a => StaysInRange x.1 a) (s, .empty, s.client.connect_info) steps) :
    Always settledStep SpeaksMqtt (s, .empty, s.client.connect_info) steps :=
  always_of_meets (I := Settling B) (fun hx hrange hstep => hx.step hB3 hB hrange hstep) Settling.speaksMqtt
    (hs.conversed (by omega) _) h

instance (s : Sys) : (a : Step B) → Decidable (StaysInRange s a)
  | .connectCb => inferInstanceAs (Decidable ((_ ∧ _) ∧ ∃ body ∈ connectBytes s.client.connect_info, 3 + body.length ≤ B))
  | .call (.request (.publish ..)) => inferInstanceAs (Decidable (_ ∧ _))
  | .call (.request (.subscribe _ qos _)) => inferInstanceAs (Decidable (qos.toNat ≤ 2))
  | .call (.request (.unSubscribe ..)) | .call (.request (.ping _)) => inferInstanceAs (Decidable True)
  | .call (.connect _) | .call .disconnect | .call .deleteClient | .call (.initLWT ..) | .call (.onConnected _)
  | .call (.onDisconnected _) | .call (.onData _) | .call (.onPublished _) | .call (.onTimeout _)
  | .resume | .dnsFound _ | .reconCb | .disconCb | .recv _ | .sentCb | .timer | .task .. =>
    inferInstanceAs (Decidable True)

/-- A connection over which a publish goes out behind the CONNECT. -/
theorem run_speaks_mqtt_publish :
    Always settledStep SpeaksMqtt (newClient, .empty, newClient.client.connect_info)
      (publishOne 1 :: connecting ++ [.sentCb, runTask]) :=
  run_speaks_mqtt (by decide) (by decide) newClient_starts (by decide +kernel)

example : (run settledStep (newClient, .empty, newClient.client.connect_info)
    (publishOne 1 :: connecting ++ [.sentCb, runTask])).map (fun x => decodeStream x.2.1.sent.flatten) =
      some (some [.connect ⟨[0x63], true, 60, none, none, none⟩, .publish false 1 false [0x61] 1 [0x31]]) := by
  decide +kernel

end LightSleepMqtt.Client
