import LightSleepMqtt.Library.Transition
import LightSleepMqtt.Library.DropQueue
import LightSleepMqtt.Client.Eviction
import LightSleepMqtt.Client.Handlers
import LightSleepMqtt.Client.Packets

/-! One client as a machine: the application's calls and the events of the surroundings, in
any order. A handler runs without interruption except for the application's calls while one
of its callbacks is running; the network calls back only for an `espconn` that is not
deleted, and the task runs when its event is pending. -/
namespace LightSleepMqtt.Client
open Message MqttWire Queue DropQueue Transition
set_option autoImplicit false

inductive Step (MQTT_BUF_SIZE : ℕ) where
  | call (c : ApiCall MQTT_BUF_SIZE)
  /-- The running callback returns. -/
  | resume
  | dnsFound (ipaddr : Option ℕ)
  | connectCb
  | reconCb
  | disconCb
  | recv (pdata : List UInt8)
  | sentCb
  | timer
  | task (locals : Locals MQTT_BUF_SIZE) (result : Bool) (resolved : Option ℕ)

def applicationRuns (s : Sys) : Bool :=
  match s.running with
  | some (.dataCb _ registered) => registered
  | _ => true

variable {MQTT_BUF_SIZE : ℕ}

/-- An event of the network for the client. -/
def onConnection (s : Sys) (handler : Sys → Sys) : Option Sys :=
  if s.running = none ∧ s.client.pCon.isSome then some (handler s) else none

def step (s : Sys) : Step MQTT_BUF_SIZE → Option Sys
  | .call c => if applicationRuns s ∧ s.released = false then c.exec s else none
  | .resume => s.running.map fun callback => returned s MQTT_BUF_SIZE callback
  | .dnsFound ipaddr => onConnection s fun s => mqtt_dns_found s ipaddr
  | .connectCb => onConnection s mqtt_tcpclient_connect_cb
  | .reconCb => onConnection s mqtt_tcpclient_recon_cb
  | .disconCb => onConnection s mqtt_tcpclient_discon_cb
  | .recv pdata => onConnection s fun s => receiveFirst s MQTT_BUF_SIZE pdata
  | .sentCb => onConnection s mqtt_tcpclient_sent_cb
  | .timer => if s.running = none then some (mqtt_timer s) else none
  | .task locals result resolved =>
    if s.running = none ∧ s.posted then some (MQTT_Task s locals result resolved) else none

/-- What the steps do when they are taken. -/
inductive Taken (s : Sys) : Step MQTT_BUF_SIZE → Sys → Prop where
  | call {c : ApiCall MQTT_BUF_SIZE} {s' : Sys} (hexec : c.exec s = some s') : Taken s (.call c) s'
  | resume {callback : Callback} (hcallback : s.running = some callback) :
    Taken s .resume (returned s MQTT_BUF_SIZE callback)
  | dnsFound (ipaddr : Option ℕ) (hidle : s.running = none) : Taken s (.dnsFound ipaddr) (mqtt_dns_found s ipaddr)
  | connectCb : Taken s .connectCb (mqtt_tcpclient_connect_cb s)
  | reconCb : Taken s .reconCb (mqtt_tcpclient_recon_cb s)
  | disconCb : Taken s .disconCb (mqtt_tcpclient_discon_cb s)
  | recv (pdata : List UInt8) : Taken s (.recv pdata) (receiveFirst s MQTT_BUF_SIZE pdata)
  | sentCb : Taken s .sentCb (mqtt_tcpclient_sent_cb s)
  | timer (hidle : s.running = none) : Taken s .timer (mqtt_timer s)
  | task (locals : Locals MQTT_BUF_SIZE) (result : Bool) (resolved : Option ℕ) (hidle : s.running = none) :
    Taken s (.task locals result resolved) (MQTT_Task s locals result resolved)

theorem onConnection_some {handler : Sys → Sys} {s s' : Sys} (h : onConnection s handler = some s') :
    s.running = none ∧ handler s = s' := by
  unfold onConnection at h
  split at h
  · rename_i hand
    exact ⟨hand.1, Option.some.inj h⟩
  · cases h

theorem step_taken {s s' : Sys} {a : Step MQTT_BUF_SIZE} (h : step s a = some s') : Taken s a s' := by
  cases a with
  | call c =>
    simp only [step] at h
    split at h
    · exact .call h
    · cases h
  | resume =>
    obtain ⟨callback, hcallback, rfl⟩ := Option.map_eq_some_iff.mp h
    exact .resume hcallback
  | dnsFound ipaddr =>
    simp only [step] at h
    obtain ⟨hidle, rfl⟩ := onConnection_some h
    exact .dnsFound ipaddr hidle
  | connectCb =>
    obtain ⟨_, rfl⟩ := onConnection_some h
    exact .connectCb
  | reconCb =>
    obtain ⟨_, rfl⟩ := onConnection_some h
    exact .reconCb
  | disconCb =>
    obtain ⟨_, rfl⟩ := onConnection_some h
    exact .disconCb
  | recv pdata =>
    simp only [step] at h
    obtain ⟨_, rfl⟩ := onConnection_some h
    exact .recv pdata
  | sentCb =>
    obtain ⟨_, rfl⟩ := onConnection_some h
    exact .sentCb
  | timer =>
    simp only [step] at h
    split at h
    · obtain rfl := Option.some.inj h
      exact .timer (by assumption)
    · cases h
  | task locals result resolved =>
    simp only [step] at h
    split at h
    · rename_i hand
      obtain rfl := Option.some.inj h
      exact .task locals result resolved hand.1
    · cases h

/-- The state `MQTT_InitClient` leaves. -/
def Starts (MQTT_BUF_SIZE : ℕ) (s : Sys) : Prop :=
  ∃ host security client_id client_user client_pass keepAliveTime cleanSession,
    s = MQTT_InitClient MQTT_BUF_SIZE (MQTT_InitConnection host security) client_id client_user client_pass
      keepAliveTime cleanSession

/-! ## The queue and its history -/

/-- The ring holds what is waiting in the history, and the builders work in their buffer. -/
structure Sound (B : ℕ) (l : Log (List UInt8)) (s : Sys) : Prop where
  sized : Sized B s.client.mqtt_state.mqtt_connection
  limit : s.client.mqtt_state.out_buffer_length = B
  holds : s.client.msgQueue.Holds QUEUE_BUFFER_SIZE l.waiting
  accepted : s.accepted = l.accepted
  pumped : s.pumped = l.taken
  fits : ∀ p ∈ l.waiting, p.length ≤ B

/-- The handler leaves the queue and its history alone. -/
structure Neutral (B : ℕ) (s s' : Sys) : Prop where
  queue : s'.client.msgQueue = s.client.msgQueue
  accepted : s'.accepted = s.accepted
  pumped : s'.pumped = s.pumped
  limit : s'.client.mqtt_state.out_buffer_length = s.client.mqtt_state.out_buffer_length
  sized : Sized B s.client.mqtt_state.mqtt_connection → s.client.mqtt_state.out_buffer_length = B →
    Sized B s'.client.mqtt_state.mqtt_connection

variable {B : ℕ} {l : Log (List UInt8)} {s s' s'' : Sys}

theorem Sound.neutral (h : Sound B l s) (hn : Neutral B s s') : Sound B l s' where
  sized := hn.sized h.sized h.limit
  limit := hn.limit.trans h.limit
  holds := hn.queue ▸ h.holds
  accepted := hn.accepted.trans h.accepted
  pumped := hn.pumped.trans h.pumped
  fits := h.fits

theorem Neutral.refl (s : Sys) : Neutral B s s := ⟨rfl, rfl, rfl, rfl, fun h _ => h⟩

theorem Neutral.trans (h : Neutral B s s') (h' : Neutral B s' s'') : Neutral B s s'' where
  queue := h'.queue.trans h.queue
  accepted := h'.accepted.trans h.accepted
  pumped := h'.pumped.trans h.pumped
  limit := h'.limit.trans h.limit
  sized := fun hs hl => h'.sized (h.sized hs hl) (h.limit.trans hl)

theorem Starts.sound (hB : B ≤ 65535) (hs : Starts B s) : Sound B Log.empty s := by
  obtain ⟨host, security, client_id, client_user, client_pass, keepAliveTime, cleanSession, rfl⟩ := hs
  exact {
    sized := ⟨Nat.mod_eq_of_lt (by omega), List.length_replicate⟩
    limit := rfl
    holds := (QUEUE_Init_holds ⟨⟨[], 0, 0, 0, 0⟩⟩ (by decide)).1
    accepted := rfl
    pumped := rfl
    fits := fun p hp => absurd hp List.not_mem_nil }

/-! ## The steps that leave the queue alone -/

theorem callsBack_neutral {registered : Bool} {callback : Callback} {rest : Sys → Sys}
    (h : Neutral B s (rest s)) : Neutral B s (callsBack s registered callback rest) := by
  unfold callsBack
  split
  · exact ⟨rfl, rfl, rfl, rfl, fun h _ => h⟩
  · exact h

theorem post_neutral (s : Sys) : Neutral B s (system_os_post s) := ⟨rfl, rfl, rfl, rfl, fun h _ => h⟩

theorem setConnState_neutral (s : Sys) (connState : tConnState) : Neutral B s (setConnState s connState) :=
  ⟨rfl, rfl, rfl, rfl, fun h _ => h⟩

theorem countSendTimeout_neutral (s : Sys) : Neutral B s (countSendTimeout s) :=
  ⟨rfl, rfl, rfl, rfl, fun h _ => h⟩

theorem mqtt_dns_found_neutral (s : Sys) (ipaddr : Option ℕ) : Neutral B s (mqtt_dns_found s ipaddr) := by
  cases ipaddr with
  | none => exact setConnState_neutral s _
  | some addr =>
    simp only [mqtt_dns_found]
    split <;> exact ⟨rfl, rfl, rfl, rfl, fun h _ => h⟩

theorem mqtt_tcpclient_connect_cb_neutral (hB3 : 3 ≤ B) (hB : B ≤ 65535) (s : Sys) :
    Neutral B s (mqtt_tcpclient_connect_cb s) := by
  refine ⟨rfl, rfl, rfl, rfl, fun hsized hlimit => ?_⟩
  have hinit : Sized B (mqtt_msg_init s.client.mqtt_state.mqtt_connection.buffer
      s.client.mqtt_state.out_buffer_length) := by
    rw [hlimit]
    exact ⟨Nat.mod_eq_of_lt (by omega), hsized.block⟩
  exact (mqtt_msg_connect_emitted hinit hB3 s.client.connect_info).sized

theorem mqtt_tcpclient_recon_cb_neutral (s : Sys) : Neutral B s (mqtt_tcpclient_recon_cb s) :=
  ⟨rfl, rfl, rfl, rfl, fun h _ => h⟩

theorem mqtt_tcpclient_discon_cb_neutral (s : Sys) : Neutral B s (mqtt_tcpclient_discon_cb s) :=
  (setConnState_neutral s _).trans (callsBack_neutral (post_neutral _))

theorem mqtt_tcpclient_sent_cb_neutral (s : Sys) : Neutral B s (mqtt_tcpclient_sent_cb s) := by
  simp only [mqtt_tcpclient_sent_cb, callsBack]
  split_ifs <;> exact ⟨rfl, rfl, rfl, rfl, fun h _ => h⟩

theorem mqtt_timer_neutral (s : Sys) : Neutral B s (mqtt_timer s) := by
  simp only [mqtt_timer, callsBack]
  split_ifs <;> exact ⟨rfl, rfl, rfl, rfl, fun h _ => h⟩

theorem mqtt_tcpclient_delete_neutral (s : Sys) : Neutral B s (mqtt_tcpclient_delete s) :=
  ⟨rfl, rfl, rfl, rfl, fun h _ => h⟩

theorem MQTT_Connect_neutral (s : Sys) (resolved : Option ℕ) : Neutral B s (MQTT_Connect s resolved) := by
  simp only [MQTT_Connect]
  split <;> split <;> exact ⟨rfl, rfl, rfl, rfl, fun h _ => h⟩

theorem mqtt_send_keepalive_neutral (hB3 : 3 ≤ B) (s : Sys) (result : Bool) :
    Neutral B s (mqtt_send_keepalive s result) := by
  have hping (h : Sized B s.client.mqtt_state.mqtt_connection) :=
    (emptyMessage_emitted h hB3 MQTT_MSG_TYPE_PINGREQ).sized
  cases result <;> exact ⟨rfl, rfl, rfl, rfl, fun h _ => hping h⟩

/-! ## Answers -/

def IsReply : Packet → Prop
  | .puback _ | .pubrec _ | .pubrel .. | .pubcomp _ | .pingresp => True
  | _ => False

/-- A packet the client answers with; nothing, when the buffer does not take it. -/
def IsAnswer (packet : List UInt8) : Prop :=
  packet = [] ∨ ∃ q : Packet, q.WellFormed ∧ IsReply q ∧ packet = q.encode

/-- What the queue accepts while the client receives. -/
def Answer (B : ℕ) (packet : List UInt8) : Prop := packet.length ≤ B ∧ IsAnswer packet

theorem Emitted.answer {header : UInt8} {q : Packet} {connection : mqtt_connection_t}
    (h : Emitted B header (some q.body) connection) (hheader : header = UInt8.ofNat (q.kind * 16 + q.flags))
    (hreply : IsReply q) (hfields : q.Fields) (hbody : q.body.length ≤ 2) :
    Answer B connection.bytes := by
  rw [h.bytes]
  refine ⟨emission_length_le _ _ _, ?_⟩
  obtain hlt | hge := Nat.lt_or_ge B (3 + q.body.length)
  · exact Or.inl ((emission_eq_nil_iff B header (some q.body)).mpr (by rintro bs ⟨rfl⟩; exact hlt))
  · exact Or.inr ⟨q, ⟨hfields, by omega⟩, hreply, emission_encode hheader (by omega) hge⟩

theorem drawnId_lt {connection : mqtt_connection_t} {message_id : ℕ} (h : message_id < 65536) :
    drawnId connection message_id < 65536 := by
  unfold drawnId
  split
  · exact nextMessageId_lt _
  · exact h

theorem idMessage_answer {connection : mqtt_connection_t} (h : Sized B connection) (hB3 : 3 ≤ B) {message_id type : ℕ}
    {qos : ℤ} (hid : message_id < 65536) (q : ℕ → Packet) (hbody : ∀ n, (q n).body = word n)
    (hheader : ∀ n, fixedHeader type 0 qos 0 = UInt8.ofNat ((q n).kind * 16 + (q n).flags))
    (hreply : ∀ n, IsReply (q n))
    (hfields : ∀ n, n ≠ 0 ∧ n < 65536 → (q n).Fields) :
    Answer B (idMessage connection message_id type qos).bytes := by
  have hemitted := idMessage_emitted h hB3 message_id type qos
  rw [← hbody] at hemitted
  apply Emitted.answer hemitted (hheader _) (hreply _) (hfields _ ⟨drawnId_ne_zero _ _, drawnId_lt hid⟩)
  rw [hbody, word_length]

theorem mqtt_get_id_lt (buffer : List UInt8) (length : ℕ) : mqtt_get_id buffer length < 65536 := by
  have hword := wordAt_lt buffer
  simp only [mqtt_get_id]
  split_ifs <;> first | exact hword _ | exact Nat.zero_lt_succ _

/-! ## The receive handler -/

theorem respond_lossless (h : Sound B l s) (hB : B ≤ 65535) {header : UInt8} {body : Option (List UInt8)}
    {connection : mqtt_connection_t} (he : Emitted B header body connection) (ha : Answer B connection.bytes) :
    ∃ l', Drops (Answer B) l [] l' ∧ Sound B l' (respond s connection) := by
  have hlength : connection.message.length < 65536 := by
    have hle := emission_length_le B header body
    rw [he.length]
    omega
  rcases Nat.lt_or_ge QUEUE_BUFFER_SIZE (s.client.msgQueue.rb.bytes.length + (stuff connection.bytes).length)
    with hlt | hge
  · obtain ⟨hholds, haccepted⟩ := respond_cut h.holds hlength hlt
    exact ⟨l, .kept, he.sized, h.limit, hholds, haccepted.trans h.accepted, h.pumped, h.fits⟩
  · obtain ⟨hholds, _, haccepted⟩ := respond_fits h.holds hlength (Nat.lt_of_le_of_lt (Nat.le_of_add_left_le hge) (by decide)) hge
    have hdrops : Drops (Answer B) l [] ⟨l.accepted ++ [connection.bytes], l.waiting.drop 0 ++ [connection.bytes], l.taken⟩ :=
      .accept 0 _ ha
    refine ⟨_, hdrops, he.sized, h.limit, hholds, ?_, h.pumped, ?_⟩
    · rw [haccepted, h.accepted]
    · exact (hdrops.mono fun _ hp => hp.1).moves.forall_waiting h.fits

theorem switchType_lossless (h : Sound B l s) (hB3 : 3 ≤ B) (hB : B ≤ 65535) (msg_type msg_qos : ℕ) {msg_id : ℕ}
    (hid : msg_id < 65536) :
    ∃ l', Drops (Answer B) l [] l' ∧ Sound B l' (switchType s msg_type msg_qos msg_id) := by
  have hrespond (type : ℕ) (qos : ℤ) (q : ℕ → Packet) (hbody : ∀ n, (q n).body = word n)
      (hheader : ∀ n, fixedHeader type 0 qos 0 = UInt8.ofNat ((q n).kind * 16 + (q n).flags))
      (hreply : ∀ n, IsReply (q n)) (hfields : ∀ n, n ≠ 0 ∧ n < 65536 → (q n).Fields) :
      ∃ l', Drops (Answer B) l [] l' ∧ Sound B l' (respond s (idMessage s.client.mqtt_state.mqtt_connection msg_id type qos)) :=
    respond_lossless h hB (idMessage_emitted h.sized hB3 msg_id type qos)
      (idMessage_answer h.sized hB3 hid q hbody hheader hreply hfields)
  have hdeliver {s' : Sys} (hs' : ∃ l', Drops (Answer B) l [] l' ∧ Sound B l' s') (message : List UInt8) (length : ℕ) :
      ∃ l', Drops (Answer B) l [] l' ∧ Sound B l' (deliver_publish s' message length) := by
    obtain ⟨l', hdrops, hsound⟩ := hs'
    exact ⟨l', hdrops, hsound.neutral ⟨rfl, rfl, rfl, rfl, fun h _ => h⟩⟩
  simp only [switchType]
  split
  · split
    · exact hdeliver (hrespond MQTT_MSG_TYPE_PUBACK 0 .puback (fun _ => rfl) (fun _ => rfl) (fun _ => trivial)
        fun _ hn => hn) _ _
    · split
      · exact hdeliver (hrespond MQTT_MSG_TYPE_PUBREC 0 .pubrec (fun _ => rfl) (fun _ => rfl) (fun _ => trivial)
          fun _ hn => hn) _ _
      · exact hdeliver ⟨l, .kept, h⟩ _ _
  split
  · exact hrespond MQTT_MSG_TYPE_PUBREL 1 (.pubrel false) (fun _ => rfl) (fun _ => rfl) (fun _ => trivial)
      fun _ hn => hn
  split
  · exact hrespond MQTT_MSG_TYPE_PUBCOMP 0 .pubcomp (fun _ => rfl) (fun _ => rfl) (fun _ => trivial)
      fun _ hn => hn
  split
  · have hemitted := emptyMessage_emitted h.sized hB3 MQTT_MSG_TYPE_PINGRESP
    exact respond_lossless h hB hemitted
      (Emitted.answer (q := .pingresp) hemitted rfl trivial trivial (Nat.zero_le _))
  · exact ⟨l, .kept, h⟩

def setInBuffer (s : Sys) (in_buffer : List UInt8) : Sys :=
  { s with client := { s.client with mqtt_state := { s.client.mqtt_state with in_buffer := in_buffer } } }

/-- What a pass can do: switch on a packet, accept a CONNACK, or leave. -/
theorem readPacket_cases (B : ℕ) (s : Sys) (pdata : List UInt8) :
    (∃ msg_type msg_qos msg_id pass, Receiving s ∧ msg_id < 65536 ∧ pass ≠ .connected ∧
        readPacket B s pdata = (switchType (loaded s pdata) msg_type msg_qos msg_id, pass)) ∨
      (∃ in_buffer, s.client.connState = .MQTT_CONNECT_SENDING ∧
        readPacket B s pdata = (setConnState (setInBuffer s in_buffer) .MQTT_DATA, .connected)) ∨
      ∃ in_buffer, readPacket B s pdata = (setInBuffer s in_buffer, .left) := by
  by_cases hguard : pdata.length < B ∧ pdata.length > 0
  swap
  · exact Or.inr (Or.inr ⟨s.client.mqtt_state.in_buffer, if_neg hguard⟩)
  by_cases hs : Receiving s
  · refine Or.inl ⟨_, _, _, _, hs, mqtt_get_id_lt _ _, ?_, readPacket_receiving hs hguard.2 hguard.1⟩
    split <;> decide
  · apply Or.inr
    simp only [Receiving, not_or] at hs
    simp only [readPacket, if_pos hguard]
    split
    · split
      · exact Or.inl ⟨_, by assumption, rfl⟩
      · exact Or.inr ⟨_, rfl⟩
    · exact absurd (by assumption) hs.1
    · exact absurd (by assumption) hs.2
    · exact Or.inr ⟨_, rfl⟩

theorem readPacket_lossless (h : Sound B l s) (hB3 : 3 ≤ B) (hB : B ≤ 65535) (pdata : List UInt8) :
    ∃ l', Drops (Answer B) l [] l' ∧ Sound B l' (readPacket B s pdata).1 := by
  obtain ⟨type, qos, id, pass, _, hid, _, hpass⟩ | ⟨buffer, _, hpass⟩ | ⟨buffer, hpass⟩ := readPacket_cases B s pdata
  · rw [hpass]
    exact switchType_lossless (s := loaded s pdata) (h.neutral ⟨rfl, rfl, rfl, rfl, fun h _ => h⟩) hB3 hB type qos hid
  · rw [hpass]
    exact ⟨l, .kept, h.neutral ⟨rfl, rfl, rfl, rfl, fun h _ => h⟩⟩
  · rw [hpass]
    exact ⟨l, .kept, h.neutral ⟨rfl, rfl, rfl, rfl, fun h _ => h⟩⟩

theorem receivePass_lossless (h : Sound B l s) (hB3 : 3 ≤ B) (hB : B ≤ 65535) (pdata : List UInt8) :
    ∃ l', Drops (Answer B) l [] l' ∧ Sound B l' (receivePass s B pdata) := by
  obtain ⟨l', hdrops, hs'⟩ := readPacket_lossless h hB3 hB pdata
  refine ⟨l', hdrops, hs'.neutral ?_⟩
  unfold receivePass
  obtain ⟨s', _ | _ | _⟩ := readPacket B s pdata
  · exact post_neutral s'
  · exact callsBack_neutral (post_neutral s')
  · exact ⟨rfl, rfl, rfl, rfl, fun h _ => h⟩

theorem returned_lossless (h : Sound B l s) (hB3 : 3 ≤ B) (hB : B ≤ 65535) (callback : Callback) :
    ∃ l', Drops (Answer B) l [] l' ∧ Sound B l' (returned s B callback) := by
  have hrun : Sound B l { s with running := none } := h.neutral ⟨rfl, rfl, rfl, rfl, fun h _ => h⟩
  cases callback with
  | dataCb pdata registered =>
    simp only [returned]
    cases nextPacket _ pdata with
    | none => exact ⟨l, .kept, hrun.neutral (post_neutral _)⟩
    | some pdata => exact receivePass_lossless hrun hB3 hB pdata
  | timeoutCb => exact ⟨l, .kept, hrun.neutral (countSendTimeout_neutral _)⟩
  | connectedCb | disconnectedCb | publishedCb => exact ⟨l, .kept, hrun.neutral (post_neutral _)⟩

/-! ## The task -/

/-- The task takes the oldest packet and sends it whole, because `MQTT_BUF_SIZE` bytes hold every
packet of the queue, or leaves all but the ring alone. -/
theorem pump_spec (h : Sound B l s) (hB : B ≤ 65535) (locals : Locals B) :
    ((s.client.sendTimeout ≠ 0 ∨ l.waiting = []) ∧ ∃ queue : QUEUE, queue.Holds QUEUE_BUFFER_SIZE l.waiting ∧
        pump s locals = { s with client := { s.client with msgQueue := queue } }) ∨
      s.client.sendTimeout = 0 ∧ ∃ p rest, l.waiting = p :: rest ∧ ∃ (queue : QUEUE) (garbage : List UInt8),
        queue.Holds QUEUE_BUFFER_SIZE rest ∧
        pump s locals = { s with
          client := { s.client with
            msgQueue := queue
            sendTimeout := MQTT_SEND_TIMOUT
            mqtt_state := { s.client.mqtt_state with
              pending_msg_type := mqtt_get_type (p ++ garbage)
              pending_msg_id := mqtt_get_id (p ++ garbage) p.length } }
          pumped := s.pumped ++ [p] } := by
  have hmax : (UInt16.ofNat B).toNat = B :=
    UInt16.toNat_ofNat_of_lt' (show B < UInt16.size from Nat.lt_succ_of_le hB)
  have hbuf : (UInt16.ofNat B).toNat ≤ locals.dataBuffer.length := by rw [hmax, locals.sized]
  have hcount := h.holds.carries.length_le
  unfold pump
  split
  · rename_i hidle
    refine Or.inl ⟨?_, s.client.msgQueue, h.holds, rfl⟩
    obtain hempty | hbusy := hidle
    · rw [h.holds.isEmpty_iff.mp hempty, List.length_nil] at hcount
      exact Or.inr (List.eq_nil_of_length_eq_zero (by omega))
    · exact Or.inl hbusy
  · rename_i hready
    rw [not_or, not_not] at hready
    cases hw : l.waiting with
    | nil =>
      obtain ⟨queue', hgets, hholds, _⟩ := QUEUE_Gets_nil (hw ▸ h.holds) locals.dataBuffer _ (locals.isBegin 0) hbuf
      rw [hgets]
      exact Or.inl ⟨Or.inr rfl, queue', hholds, rfl⟩
    | cons p rest =>
      obtain ⟨queue', buf, hgets, hholds, _, hdata, _⟩ :=
        QUEUE_Gets_cons (hw ▸ h.holds) locals.dataBuffer _ (locals.isBegin 0) hbuf
      have hp : p.length ≤ B := h.fits p (hw ▸ List.mem_cons_self ..)
      rw [hmax, List.take_of_length_le hp, Nat.min_eq_left hp] at hdata
      rw [hmax, Nat.min_eq_left hp] at hgets
      have hsplit : buf = p ++ buf.drop p.length := by
        conv_lhs => rw [← List.take_append_drop p.length buf, hdata]
      rw [hgets]
      refine Or.inr ⟨hready.2, p, rest, rfl, queue', buf.drop p.length, hholds, ?_⟩
      rw [← hsplit]
      simp only [hdata]

theorem pump_lossless (h : Sound B l s) (hB : B ≤ 65535) (locals : Locals B) :
    ∃ l', Drops (Answer B) l [] l' ∧ Sound B l' (pump s locals) := by
  obtain ⟨_, queue, hholds, hpump⟩ | ⟨_, p, rest, hw, queue, garbage, hholds, hpump⟩ := pump_spec h hB locals
  · rw [hpump]
    exact ⟨l, .kept, h.sized, h.limit, hholds, h.accepted, h.pumped, h.fits⟩
  · have hdrops : Drops (Answer B) l [] ⟨l.accepted, rest, l.taken ++ [p]⟩ := .take p rest hw
    rw [hpump]
    refine ⟨_, hdrops, h.sized, h.limit, hholds, h.accepted, ?_, ?_⟩
    · simp only [h.pumped]
    · exact (hdrops.mono fun _ ha => ha.1).moves.forall_waiting h.fits

theorem MQTT_Task_lossless (h : Sound B l s) (hB3 : 3 ≤ B) (hB : B ≤ 65535) (locals : Locals B) (result : Bool)
    (resolved : Option ℕ) :
    ∃ l', Drops (Answer B) l [] l' ∧ Sound B l' (MQTT_Task s locals result resolved) := by
  have hs : Sound B l { s with posted := false } := h.neutral ⟨rfl, rfl, rfl, rfl, fun h _ => h⟩
  have hkept {s' : Sys} (hn : Neutral B { s with posted := false } s') :
      ∃ l', Drops (Answer B) l [] l' ∧ Sound B l' s' := ⟨l, .kept, hs.neutral hn⟩
  simp only [MQTT_Task]
  split
  · exact hkept ((mqtt_tcpclient_delete_neutral _).trans
      ((MQTT_Connect_neutral _ resolved).trans (setConnState_neutral _ _)))
  · exact hkept (mqtt_tcpclient_delete_neutral _)
  · exact hkept ⟨rfl, rfl, rfl, rfl, fun h _ => h⟩
  · exact hkept (mqtt_send_keepalive_neutral hB3 _ result)
  · exact pump_lossless hs hB locals
  · exact hkept (Neutral.refl _)

/-! ## The calls -/

theorem Request.prepare_neutral (hB3 : 3 ≤ B) (s : Sys) (r : Request B) : Neutral B s (r.prepare s) := by
  have hsized (h : Sized B s.client.mqtt_state.mqtt_connection) :
      Sized B (r.prepare s).client.mqtt_state.mqtt_connection := by
    obtain ⟨header, body, he⟩ := r.prepare_emitted h hB3
    exact he.sized
  cases r <;> exact ⟨rfl, rfl, rfl, rfl, fun h _ => hsized h⟩

theorem Request.message_length_le (h : Sound B l s) (hB3 : 3 ≤ B) (r : Request B) : (r.message s).length ≤ B := by
  obtain ⟨header, body, he⟩ := r.prepare_emitted h.sized hB3
  rw [Request.message, he.bytes]
  exact emission_length_le _ _ _

/-- What the retry loop of a request fetches, when there is one. -/
theorem Request.evicted_eq (h : Sound B l s) (hB3 : 3 ≤ B) (hB : B ≤ 65535) (r : Request B) :
    r.evicted s = if r.checksLength ∧ (r.prepare s).client.mqtt_state.mqtt_connection.message.length = 0 then []
      else (evictions QUEUE_BUFFER_SIZE (stuff (r.message s)).length s.client.msgQueue.rb.bytes).elim l.waiting
        fun a => l.waiting.take a := by
  have hkept := r.prepare_neutral hB3 s
  have hs := h.neutral hkept
  obtain ⟨header, body, he⟩ := r.prepare_emitted h.sized hB3
  have hlength : (r.prepare s).client.mqtt_state.mqtt_connection.message.length < 65536 := by
    have hle := emission_length_le B header body
    rw [he.length]
    omega
  have hloop := evicted_waiting r.locals hB (by decide) (outboundData (r.prepare s)) (outboundLength (r.prepare s)) _
    (Nat.lt_succ_of_le hs.holds.length_le_size) hs.holds hs.fits r.locals.dataBuffer
    (by rw [r.locals.sized]; exact Nat.mod_le _ _)
  rw [outbound_packet hlength] at hloop
  rw [Request.evicted, hloop, hkept.queue]
  rfl

theorem Request.exec_cases (h : Sound B l s) (hB3 : 3 ≤ B) (hB : B ≤ 65535) (r : Request B) :
    (r.message s = [] ∧ r.exec s = some (r.prepare s, false) ∧ r.evicted s = []) ∨
      ∃ out, r.exec s = some (queued (r.prepare s) (r.message s) out, out.2) ∧
        Evicts QUEUE_BUFFER_SIZE l.waiting (r.message s)
          (evictions QUEUE_BUFFER_SIZE (stuff (r.message s)).length s.client.msgQueue.rb.bytes) out ∧
        r.evicted s = (evictions QUEUE_BUFFER_SIZE (stuff (r.message s)).length s.client.msgQueue.rb.bytes).elim l.waiting
          fun a => l.waiting.take a := by
  have hkept := r.prepare_neutral hB3 s
  have hs := h.neutral hkept
  obtain ⟨header, body, he⟩ := r.prepare_emitted h.sized hB3
  rw [r.exec_eq, r.evicted_eq h hB3 hB]
  split
  · rename_i hempty
    refine Or.inl ⟨List.eq_nil_of_length_eq_zero ?_, rfl, rfl⟩
    rw [Request.message, he.bytes, ← he.length, hempty.2]
  · obtain ⟨out, hout, hevicts⟩ := queueOutbound_evicts (by decide) hB hs.holds he r.locals
    rw [hkept.queue] at hevicts
    exact Or.inr ⟨out, hout, hevicts, rfl⟩

/-- A request drops the packets it evicts, and nothing else. -/
theorem Request.exec_drops (h : Sound B l s) (hB3 : 3 ≤ B) (hB : B ≤ 65535) (r : Request B) {ok : Bool}
    (hexec : r.exec s = some (s', ok)) :
    ∃ l', Drops (fun p => p = r.message s) l (r.evicted s) l' ∧ Sound B l' s' := by
  have hs := h.neutral (r.prepare_neutral hB3 s)
  obtain ⟨_, ht, hnothing⟩ | ⟨out, hout, hevicts, hevicted⟩ := r.exec_cases h hB3 hB
  · obtain ⟨rfl, rfl⟩ := Prod.mk.inj (Option.some.inj (ht.symm.trans hexec))
    rw [hnothing]
    exact ⟨l, .kept, hs⟩
  · obtain ⟨rfl, rfl⟩ := Prod.mk.inj (Option.some.inj (hout.symm.trans hexec))
    rw [hevicted]
    cases hev : evictions QUEUE_BUFFER_SIZE (stuff (r.message s)).length s.client.msgQueue.rb.bytes with
    | none =>
      rw [hev] at hevicts
      obtain ⟨hok, hholds, _⟩ := hevicts
      have hall : Drops (fun p => p = r.message s) l (l.waiting.take l.waiting.length) _ := .drop l.waiting.length
      rw [List.take_length, List.drop_length] at hall
      refine ⟨_, hall, hs.sized, hs.limit, hholds, ?_, hs.pumped, by simp⟩
      simp [queued, hok, hs.accepted]
    | some a =>
      rw [hev] at hevicts
      obtain ⟨hok, _, hholds⟩ := hevicts
      have hdrops : Drops (fun p => p = r.message s) l (l.waiting.take a) ⟨_, _, _⟩ := .accept a _ rfl
      have hfits : Moves (fun p => p.length ≤ B) l ⟨_, _, _⟩ :=
        hdrops.moves.mono fun p hp => hp ▸ r.message_length_le h hB3
      refine ⟨_, hdrops, hs.sized, hs.limit, hholds, ?_, hs.pumped, hfits.forall_waiting h.fits⟩
      simp only [queued, hok, if_true, hs.accepted]

theorem Request.exec_moves (h : Sound B l s) (hB3 : 3 ≤ B) (hB : B ≤ 65535) (r : Request B) {ok : Bool}
    (hexec : r.exec s = some (s', ok)) :
    ∃ l', Moves (fun p => p = r.message s) l l' ∧ Sound B l' s' := by
  obtain ⟨l', hdrops, hs'⟩ := r.exec_drops h hB3 hB hexec
  exact ⟨l', hdrops.moves, hs'⟩

/-! ## Every step is a move of the history -/

def Step.request : Step B → Option (Request B)
  | .call (.request r) => some r
  | _ => none

/-- The callbacks that report on the connection. -/
def Step.OfConnection : Step B → Prop
  | .dnsFound _ | .connectCb | .reconCb | .disconCb | .sentCb => True
  | _ => False

theorem step_ofConnection_neutral (hB3 : 3 ≤ B) (hB : B ≤ 65535) {a : Step B} (ha : a.OfConnection)
    (hstep : step s a = some s') : Neutral B s s' := by
  cases step_taken hstep with
  | dnsFound ipaddr => exact mqtt_dns_found_neutral s ipaddr
  | connectCb => exact mqtt_tcpclient_connect_cb_neutral hB3 hB s
  | reconCb => exact mqtt_tcpclient_recon_cb_neutral s
  | disconCb => exact mqtt_tcpclient_discon_cb_neutral s
  | sentCb => exact mqtt_tcpclient_sent_cb_neutral s
  | call | resume | recv | timer | task => exact ha.elim

/-- Apart from the application's requests, only answers are queued, and nothing is dropped. -/
theorem step_lossless (h : Sound B l s) (hB3 : 3 ≤ B) (hB : B ≤ 65535) {a : Step B} (ha : a.request = none)
    (hstep : step s a = some s') : ∃ l', Drops (Answer B) l [] l' ∧ Sound B l' s' := by
  have hkept (hn : Neutral B s s') : ∃ l', Drops (Answer B) l [] l' ∧ Sound B l' s' := ⟨l, .kept, h.neutral hn⟩
  cases step_taken hstep with
  | @call c _ hexec =>
    cases c with
    | request r => cases ha
    | connect resolved =>
      obtain rfl := Option.some.inj hexec
      exact hkept (MQTT_Connect_neutral s resolved)
    | onConnected | onDisconnected | onData | onPublished | onTimeout | initLWT | disconnect | deleteClient =>
      obtain rfl := Option.some.inj hexec
      exact hkept ⟨rfl, rfl, rfl, rfl, fun h _ => h⟩
  | resume => exact returned_lossless h hB3 hB _
  | dnsFound | connectCb | reconCb | disconCb | sentCb =>
    refine hkept (step_ofConnection_neutral hB3 hB ?_ hstep)
    trivial
  | recv pdata =>
    have hreset : Sound B l { s with client := { s.client with keepAliveTick := 0 } } :=
      h.neutral ⟨rfl, rfl, rfl, rfl, fun h _ => h⟩
    exact receivePass_lossless hreset hB3 hB pdata
  | timer => exact hkept (mqtt_timer_neutral s)
  | task locals result resolved => exact MQTT_Task_lossless h hB3 hB locals result resolved

theorem step_answers (h : Sound B l s) (hB3 : 3 ≤ B) (hB : B ≤ 65535) {a : Step B} (ha : a.request = none)
    (hstep : step s a = some s') : ∃ l', Moves (Answer B) l l' ∧ Sound B l' s' := by
  obtain ⟨l', hdrops, hs'⟩ := step_lossless h hB3 hB ha hstep
  exact ⟨l', hdrops.moves, hs'⟩

theorem step_request {a : Step B} {r : Request B} (ha : a.request = some r) (hstep : step s a = some s') :
    a = .call (.request r) ∧ ∃ ok, r.exec s = some (s', ok) := by
  unfold Step.request at ha
  split at ha
  · obtain rfl := Option.some.inj ha
    cases step_taken hstep with
    | call hexec =>
      obtain ⟨⟨t, ok⟩, hr, rfl⟩ := Option.map_eq_some_iff.mp hexec
      exact ⟨rfl, ok, hr⟩
  · cases ha

/-- The packets a step evicts. -/
def Step.evicts (s : Sys) : Step B → List (List UInt8)
  | .call (.request r) => r.evicted s
  | _ => []

theorem Step.evicts_nothing {a : Step B} (ha : a.request = none) : a.evicts s = [] := by
  unfold Step.request at ha
  split at ha
  · cases ha
  · rename_i hother
    unfold Step.evicts
    split
    · exact absurd rfl (hother _)
    · rfl

/-- Every packet that a step drops is one it evicts. -/
theorem step_drops (h : Sound B l s) (hB3 : 3 ≤ B) (hB : B ≤ 65535) {a : Step B} (hstep : step s a = some s') :
    ∃ l', Drops (fun p => p.length ≤ B) l (a.evicts s) l' ∧ Sound B l' s' := by
  cases hr : a.request with
  | none =>
    obtain ⟨l', hdrops, hs'⟩ := step_lossless h hB3 hB hr hstep
    rw [Step.evicts_nothing hr]
    exact ⟨l', hdrops.mono fun _ hp => hp.1, hs'⟩
  | some r =>
    obtain ⟨rfl, ok, hexec⟩ := step_request hr hstep
    obtain ⟨l', hdrops, hs'⟩ := r.exec_drops h hB3 hB hexec
    exact ⟨l', hdrops.mono fun p hp => hp ▸ r.message_length_le h hB3, hs'⟩

/-- **The machine refines the history of its queue.** -/
theorem step_moves (h : Sound B l s) (hB3 : 3 ≤ B) (hB : B ≤ 65535) {a : Step B} (hstep : step s a = some s') :
    ∃ l', Moves (fun p => p.length ≤ B) l l' ∧ Sound B l' s' := by
  obtain ⟨l', hdrops, hs'⟩ := step_drops h hB3 hB hstep
  exact ⟨l', hdrops.moves, hs'⟩

/-! ## The receive handler in one piece -/

theorem switchType_running (s : Sys) (msg_type msg_qos msg_id : ℕ) :
    (switchType s msg_type msg_qos msg_id).running = s.running := by
  simp only [switchType, deliver_publish]
  split_ifs <;> rfl

theorem readPacket_running (B : ℕ) (s : Sys) (pdata : List UInt8) : (readPacket B s pdata).1.running = s.running := by
  obtain ⟨type, qos, id, pass, _, _, _, hpass⟩ | ⟨buffer, _, hpass⟩ | ⟨buffer, hpass⟩ := readPacket_cases B s pdata
  · rw [hpass]
    exact switchType_running (loaded s pdata) type qos id
  · rw [hpass]
    rfl
  · rw [hpass]
    rfl

theorem idle_eq (h : s.running = none) : { s with running := none } = s := by
  cases s
  cases h
  rfl

theorem receivePass_readLoop (fuel : ℕ) (hs : s.running = none) {pdata : List UInt8}
    (h : readLoop B .silent fuel s pdata = some s') :
    ∃ n, run step (receivePass s B pdata) (List.replicate n (.resume : Step B)) = some s' := by
  induction fuel generalizing s pdata with
  | zero => cases h
  | succ fuel ih =>
    have hrunning := readPacket_running B s pdata
    rw [readLoop] at h
    rw [receivePass]
    rcases hread : readPacket B s pdata with ⟨t, _ | _ | _⟩
    · rw [hread] at h
      exact ⟨0, h⟩
    · rw [hread] at h hrunning
      simp only [show (if t.client.connectedCb then Application.silent.connectedCb t else t) = t from ite_self t] at h
      simp only [callsBack]
      split
      · refine ⟨1, ?_⟩
        show some (system_os_post { t with running := none }) = some s'
        rw [idle_eq (hrunning.trans hs)]
        exact h
      · exact ⟨0, h⟩
    · rw [hread] at h hrunning
      simp only [show (if t.client.dataCb then Application.silent.dataCb t else t) = t from ite_self t] at h
      have hresume : step { t with running := some (.dataCb pdata t.client.dataCb) } (.resume : Step B) =
          some (returned { t with running := some (.dataCb pdata t.client.dataCb) } B (.dataCb pdata t.client.dataCb)) :=
        rfl
      simp only [returned, idle_eq (hrunning.trans hs)] at hresume
      cases hnext : nextPacket t pdata with
      | none =>
        rw [hnext] at h hresume
        refine ⟨1, ?_⟩
        rw [List.replicate_one, run, hresume]
        exact h
      | some rest =>
        rw [hnext] at h hresume
        obtain ⟨n, hn⟩ := ih (hrunning.trans hs) h
        refine ⟨n + 1, ?_⟩
        rw [List.replicate_succ, run, hresume]
        exact hn

/-- A `recv` step whose callbacks return at once is `mqtt_tcpclient_recv` with callbacks that leave
the client alone. -/
theorem step_recv_silent {fuel : ℕ} (hs : s.running = none) (hcon : s.client.pCon.isSome) {pdata : List UInt8}
    (h : mqtt_tcpclient_recv B .silent fuel s pdata = some s') :
    ∃ n, run step s (.recv pdata :: List.replicate n (.resume : Step B)) = some s' := by
  obtain ⟨n, hn⟩ := receivePass_readLoop fuel (s := { s with client := { s.client with keepAliveTick := 0 } }) hs h
  refine ⟨n, ?_⟩
  simp only [run, step, onConnection, hs, hcon, and_self, if_true, Option.bind_some]
  exact hn

end LightSleepMqtt.Client
