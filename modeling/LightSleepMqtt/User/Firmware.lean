import LightSleepMqtt.Client.Stream
import LightSleepMqtt.Http.Resubmit
import LightSleepMqtt.User.Main

/-! What the firmware as a whole does on the network. The settings of the client stay those that
`user_init` has taken from the configuration, but for the will that `mqttConnectedCb` adds; so every
CONNECT can be told in advance, and what follows it on a connection is reports, answers and pings. -/
namespace LightSleepMqtt.User
open Message MqttWire Client Http Sleep Transition
open Config hiding Device
set_option autoImplicit false

variable {B : ℕ}

/-! ## The settings of the client -/

/-- The connection is set up of these. -/
structure SameSettings (s s' : Sys) : Prop where
  host : s'.client.host = s.client.host
  connect_info : s'.client.connect_info = s.client.connect_info

theorem returned_settings (s : Sys) (callback : Callback) : SameSettings s (returned s B callback) := by
  obtain ⟨_, hend⟩ | ⟨_, hend | ⟨_, _, rest, _, hend⟩⟩ := returned_cases (B := B) s callback
  · rw [hend]
    exact ⟨rfl, rfl⟩
  · rw [hend]
    exact ⟨rfl, rfl⟩
  · rw [hend]
    have hpass := receivePass_passes (B := B) { s with running := none } rest
    exact ⟨hpass.host, hpass.connect_info⟩

theorem MQTT_Connect_settings (s : Sys) (resolved : Option ℕ) : SameSettings s (MQTT_Connect s resolved) := by
  simp only [MQTT_Connect]
  split <;> split <;> exact ⟨rfl, rfl⟩

theorem mqtt_dns_found_settings (s : Sys) (ipaddr : Option ℕ) : SameSettings s (mqtt_dns_found s ipaddr) := by
  cases ipaddr with
  | none => exact ⟨rfl, rfl⟩
  | some addr =>
    simp only [mqtt_dns_found]
    split <;> exact ⟨rfl, rfl⟩

theorem MQTT_Task_settings {s : Sys} (hstate : s.client.connState ≠ .MQTT_DELETED) (locals : Locals B) (result : Bool)
    (resolved : Option ℕ) : SameSettings s (MQTT_Task s locals result resolved) := by
  simp only [MQTT_Task]
  split
  · have hconnect := MQTT_Connect_settings (mqtt_tcpclient_delete { s with posted := false }) resolved
    exact ⟨hconnect.host, hconnect.connect_info⟩
  · exact ⟨rfl, rfl⟩
  · exact absurd (by assumption) hstate
  · cases result <;> exact ⟨rfl, rfl⟩
  · obtain ⟨_, hpump⟩ | ⟨_, _, _, _, _, _, hpump⟩ := pump_cases { s with posted := false } locals
    · rw [hpump]
      exact ⟨rfl, rfl⟩
    · rw [hpump]
      exact ⟨rfl, rfl⟩
  · exact ⟨rfl, rfl⟩

/-- Only `MQTT_InitLWT` and the end of the client change the settings. -/
theorem step_settings {s s' : Sys} {a : Step B} (hstate : s.client.connState ≠ .MQTT_DELETED)
    (ha : ∀ will_topic will_msg will_qos will_retain, a ≠ .call (.initLWT will_topic will_msg will_qos will_retain))
    (hstep : Client.step s a = some s') : SameSettings s s' := by
  cases step_taken hstep with
  | @call c _ hexec =>
    cases c with
    | request r =>
      obtain ⟨connection, id, queue, posted, accepted, _, rfl⟩ := ApiCall.request_frame hexec
      exact ⟨rfl, rfl⟩
    | connect resolved =>
      obtain rfl := Option.some.inj hexec
      exact MQTT_Connect_settings s resolved
    | initLWT => exact absurd rfl (ha _ _ _ _)
    | disconnect | deleteClient | onConnected | onDisconnected | onData | onPublished | onTimeout =>
      obtain rfl := Option.some.inj hexec
      exact ⟨rfl, rfl⟩
  | resume => exact returned_settings s _
  | dnsFound ipaddr => exact mqtt_dns_found_settings s ipaddr
  | connectCb | reconCb => exact ⟨rfl, rfl⟩
  | disconCb =>
    simp only [mqtt_tcpclient_discon_cb, callsBack]
    split_ifs <;> exact ⟨rfl, rfl⟩
  | recv pdata =>
    have hpass := receivePass_passes (B := B) { s with client := { s.client with keepAliveTick := 0 } } pdata
    exact ⟨hpass.host, hpass.connect_info⟩
  | sentCb =>
    simp only [mqtt_tcpclient_sent_cb, callsBack]
    split_ifs <;> exact ⟨rfl, rfl⟩
  | timer =>
    simp only [mqtt_timer, callsBack]
    split_ifs <;> exact ⟨rfl, rfl⟩
  | task locals result resolved => exact MQTT_Task_settings hstate locals result resolved

/-! ## The configuration -/

section
variable (sysCfg : SYSCFG)

/-- What a CONNECT is made of, before and after `MQTT_InitLWT`. -/
def firmwareInfo (willed : Bool) : mqtt_connect_info_t :=
  { client_id := some (member sysCfg .device_id)
    username := some (member sysCfg .mqtt_user)
    password := some (member sysCfg .mqtt_pass)
    will_topic := if willed then some (literal "/sensor/test/online") else none
    will_message := if willed then literal "0" else noInfo.will_message
    keepalive := toInt32 (sysCfg.word .mqtt_keepalive)
    will_qos := if willed then 1 else 0
    will_retain := if willed then 1 else 0
    clean_session := 1 }

/-- The CONNECT of the firmware. -/
def firmwareConnect (willed : Bool) : Connect where
  clientId := (member sysCfg .device_id).bytes
  cleanSession := true
  keepAlive := sysCfg.word .mqtt_keepalive % 65536
  will := if willed then some ⟨ascii "/sensor/test/online", ascii "0", 1, true⟩ else none
  userName := (nonEmpty (some (member sysCfg .mqtt_user))).map fun s => s.bytes
  password := (nonEmpty (some (member sysCfg .mqtt_pass))).map fun s => s.bytes

theorem toInt32_word (n : ℕ) : (toInt32 n % 65536).toNat = n % 65536 := by
  have hsum : toInt32 n + 4294967296 * Int.bdiv n 4294967296 = n := Int.bmod_add_bdiv n 4294967296
  generalize toInt32 n = k at hsum
  generalize Int.bdiv n 4294967296 = q at hsum
  omega

theorem connectOf_firmwareInfo (willed : Bool) :
    connectOf (firmwareInfo sysCfg willed) (member sysCfg .device_id) = firmwareConnect sysCfg willed := by
  have hkeepalive := toInt32_word (sysCfg.word .mqtt_keepalive)
  cases willed with
  | false => simp [connectOf, firmwareInfo, firmwareConnect, hkeepalive, nonEmpty]
  | true =>
    have hwill : nonEmpty (some (literal "/sensor/test/online")) = some (literal "/sensor/test/online") := rfl
    simp only [connectOf, firmwareInfo, firmwareConnect, hkeepalive, if_true, hwill, Option.map_some]
    rfl

/-- The settings of the client are those of the firmware, and nothing has been done to end it. -/
structure Configured (willed : Bool) (s : Sys) : Prop where
  steady : Steady s
  host : s.client.host = some (member sysCfg .mqtt_host)
  connect_info : s.client.connect_info = firmwareInfo sysCfg willed
  alive : s.client.connState ≠ .MQTT_DELETING ∧ s.client.connState ≠ .MQTT_DELETED

theorem user_init_configured : Configured sysCfg false (user_init B sysCfg) :=
  ⟨.of_idle rfl, rfl, rfl, by simp [user_init, MQTT_OnData, MQTT_OnPublished, MQTT_OnDisconnected, MQTT_OnConnected,
    MQTT_InitClient, MQTT_InitConnection]⟩

end

variable {fp : FloatingPoint} {conversions : Conversions fp} {sysCfg : SYSCFG} {willed : Bool} {s s' : Sys}

/-- The event is the call of `MQTT_InitLWT`. -/
def isInitLWT : Event B → Bool
  | .client (.call (.initLWT ..)) _ => true
  | _ => false

theorem alive_step {a : Step B} (h : Configured sysCfg willed s) (ha : a ≠ .call .deleteClient)
    (hstep : Client.step s a = some s') : s'.client.connState ≠ .MQTT_DELETING ∧ s'.client.connState ≠ .MQTT_DELETED := by
  obtain hedge | hsame := step_edge h.steady hstep
  · have halive := h.alive
    generalize s'.client.connState = c at hedge
    cases hedge with
    | deleteClient => exact absurd rfl ha
    | closed =>
      revert halive
      cases s.client.connState <;> simp [closedState]
    | _ => simp
  · rw [hsame]
    exact h.alive

theorem Configured.event {w w' : World} {event : Event B} (h : Configured sysCfg willed w.sys)
    (huses : FirmwareUses fp conversions sysCfg event) (hstep : w.step event = some w') :
    Configured sysCfg (willed || isInitLWT event) w'.sys := by
  cases event with
  | client a outcome =>
    obtain ⟨_, sys, hsys, rfl⟩ := World.step_client hstep
    rw [w.follow_sys]
    have halive : sys.client.connState ≠ .MQTT_DELETING ∧ sys.client.connState ≠ .MQTT_DELETED := by
      refine alive_step h ?_ hsys
      rintro rfl
      exact huses
    cases hwill : isInitLWT (.client a outcome) with
    | true =>
      cases a with
      | call c =>
        cases c with
        | initLWT will_topic will_msg will_qos will_retain =>
          obtain ⟨rfl, rfl, rfl, rfl⟩ := huses
          cases step_taken hsys with
          | call hexec =>
            obtain rfl := Option.some.inj hexec
            refine ⟨h.steady, h.host, ?_, h.alive⟩
            simp [MQTT_InitLWT, h.connect_info, firmwareInfo]
        | _ => cases hwill
      | _ => cases hwill
    | false =>
      rw [Bool.or_false]
      have hsame := step_settings h.alive.2 (fun _ _ _ _ ha => by rw [ha] at hwill; cases hwill) hsys
      exact ⟨step_steady h.steady hsys, hsame.host.trans h.host, hsame.connect_info.trans h.connect_info, halive⟩
  | answer query ipaddr accepted =>
    rw [show isInitLWT (.answer query ipaddr accepted : Event B) = false from rfl, Bool.or_false]
    simp only [World.step, World.answer] at hstep
    split at hstep
    · rename_i hand
      obtain rfl := Option.some.inj hstep
      have hsame := mqtt_dns_found_settings w.sys ipaddr
      refine ⟨.of_idle ?_, hsame.host.trans h.host, hsame.connect_info.trans h.connect_info, ?_⟩
      · cases ipaddr with
        | none => exact hand.1
        | some addr =>
          simp only [mqtt_dns_found]
          split <;> exact hand.1
      · cases ipaddr with
        | none => simp [mqtt_dns_found, setConnState]
        | some addr =>
          simp only [mqtt_dns_found]
          split
          · simp [setConnState, system_os_post]
          · exact h.alive
    · cases hstep
  | goToSleep =>
    rw [show isInitLWT (.goToSleep : Event B) = false from rfl, Bool.or_false]
    simp only [World.step] at hstep
    split at hstep
    · rw [← Option.some.inj hstep]
      exact h
    · cases hstep

/-! ## The CONNECT -/

/-- The configuration names the device, and the strings of a CONNECT end within their members. -/
structure Provisioned (sysCfg : SYSCFG) : Prop where
  named : (member sysCfg .device_id).bytes ≠ []
  terminated : ∀ f ∈ [Field.device_id, .mqtt_user, .mqtt_pass], 0 ∈ sysCfg.get f

theorem member_length {f : Field} (h : 0 ∈ sysCfg.get f) : (member sysCfg f).bytes.length < f.size := by
  have hfront : (member sysCfg f).bytes <+: stringMember sysCfg f := List.takeWhile_prefix _
  rw [stringMember_eq h] at hfront
  exact Nat.lt_of_le_of_lt hfront.length_le (length_cstring_lt h)

theorem optionalBytes_length_le (s : CString) : (optionalBytes (some s)).length ≤ 2 + s.bytes.length := by
  rw [optionalBytes, nonEmpty]
  split
  · exact Nat.zero_le _
  · exact Nat.le_of_eq (string_length s.bytes)

theorem connectBytes_fits (h : Provisioned sysCfg) (hB : 138 ≤ B) (willed : Bool) :
    ∃ body ∈ connectBytes (firmwareInfo sysCfg willed), 3 + body.length ≤ B := by
  have hid : nonEmpty (firmwareInfo sysCfg willed).client_id = some (member sysCfg .device_id) := if_neg h.named
  refine ⟨_, congrArg (Option.map _) hid, ?_⟩
  have hdevice : (member sysCfg .device_id).bytes.length < 32 := member_length (h.terminated _ (by simp))
  have huser : (member sysCfg .mqtt_user).bytes.length < 32 := member_length (h.terminated _ (by simp))
  have hpass : (member sysCfg .mqtt_pass).bytes.length < 32 := member_length (h.terminated _ (by simp))
  have huserBytes : (optionalBytes (firmwareInfo sysCfg willed).username).length ≤ 2 + _ := optionalBytes_length_le _
  have hpassBytes : (optionalBytes (firmwareInfo sysCfg willed).password).length ≤ 2 + _ := optionalBytes_length_le _
  have hwillBytes : (willBytes (firmwareInfo sysCfg willed)).length ≤ 24 := by
    cases willed with
    | false => exact Nat.zero_le _
    | true =>
      show (MqttWire.string (literal "/sensor/test/online").bytes ++ MqttWire.string (literal "0").bytes).length ≤ 24
      decide
  simp only [List.length_append, connectPrefix, string_length, List.length_cons, List.length_nil, word_length]
  omega

/-- **The CONNECT can be told from the configuration**, and from whether `MQTT_InitLWT` has been called. -/
theorem connect_handedOver (h : Provisioned sysCfg) (hB3 : 138 ≤ B) (hB : B ≤ 16386) (hconfigured : Configured sysCfg willed s)
    {l : DropQueue.Log (List UInt8)} (hsound : Sound B l s) :
    handedOver s (mqtt_tcpclient_connect_cb s) = [(Packet.connect (firmwareConnect sysCfg willed)).encode] := by
  have hfits := connectBytes_fits h hB3 willed
  have hqos : 0 ≤ (firmwareInfo sysCfg willed).will_qos ∧ (firmwareInfo sysCfg willed).will_qos ≤ 2 := by
    cases willed <;> simp [firmwareInfo]
  rw [← hconfigured.connect_info] at hfits hqos
  obtain ⟨client_id, hid, _, hsent⟩ := connect_cb_handedOver (u := ⟨fun _ => True, fun _ => True⟩) hsound (by omega) hB
    ⟨trivial, hqos, hfits⟩
  have hmember : nonEmpty (firmwareInfo sysCfg willed).client_id = some (member sysCfg .device_id) := if_neg h.named
  rw [hconfigured.connect_info, hmember] at hid
  obtain rfl := Option.some.inj hid
  rw [hsent, hconfigured.connect_info, connectOf_firmwareInfo]

/-! ## Conversations -/

/-- The notes on a connection, event by event. -/
def observeEvent (g : Session) (w : World) (event : Event B) (w' : World) : Session :=
  match event with
  | .client a _ => g.observe w.sys a w'.sys
  | _ => g

section
variable (fp : FloatingPoint) (conversions : Conversions fp) (sysCfg : SYSCFG)

/-- The settings and the requests of the firmware. -/
def firmwareUsage : Usage where
  settings info := ∃ willed, info = firmwareInfo sysCfg willed
  requests p := ∃ t id data, IsReport fp conversions sysCfg t data ∧ p = .publish false 1 true t.bytes id data

/-- A client of the firmware with the notes on its connection. -/
structure Talks (B : ℕ) (x : World × Session) : Prop where
  conversed : Conversed (firmwareUsage fp conversions sysCfg) B (x.1.sys, x.2)
  configured : ∃ willed, Configured sysCfg willed x.1.sys

end

theorem conversed_neutral {u : Usage} {g : Session} (h : Conversed u B (s, g)) (hneutral : Neutral B s s')
    (hsteady : Steady s') (hstate : s'.client.connState = s.client.connState ∨
      s'.client.connState ≠ .MQTT_CONNECT_SENDING ∧ ¬ Receiving s') : Conversed u B (s', g) := by
  obtain ⟨l, hl, hpieces⟩ := h.queue
  refine ⟨⟨l, hl.neutral hneutral, hpieces⟩, hsteady, h.sent, fun hwaiting => ?_, fun hreceiving => ?_, h.later⟩
  · obtain hsame | ⟨hother, _⟩ := hstate
    · exact h.waiting (hsame.symm.trans hwaiting)
    · exact absurd hwaiting hother
  · obtain hsame | ⟨_, hother⟩ := hstate
    · unfold Receiving at hreceiving
      rw [hsame] at hreceiving
      exact h.receiving hreceiving
    · exact absurd hreceiving hother

theorem user_init_talks (hB : B ≤ 65535) : Talks fp conversions sysCfg B (.start (user_init B sysCfg), .empty) := by
  have hstarts : Starts B (MQTT_InitClient B (MQTT_InitConnection (member sysCfg .mqtt_host) false)
      (member sysCfg .device_id) (some (member sysCfg .mqtt_user)) (some (member sysCfg .mqtt_pass))
      (sysCfg.word .mqtt_keepalive) 1) := ⟨_, _, _, _, _, _, _, rfl⟩
  have hconversed : Conversed (firmwareUsage fp conversions sysCfg) B (user_init B sysCfg, .empty) :=
    conversed_neutral (hstarts.conversed hB _) ⟨rfl, rfl, rfl, rfl, fun h _ => h⟩ (.of_idle rfl) (.inl rfl)
  exact ⟨hconversed, false, user_init_configured sysCfg⟩

theorem mqtt_dns_found_state (s : Sys) (ipaddr : Option ℕ) :
    (mqtt_dns_found s ipaddr).client.connState = s.client.connState ∨
      (mqtt_dns_found s ipaddr).client.connState ≠ .MQTT_CONNECT_SENDING ∧ ¬ Receiving (mqtt_dns_found s ipaddr) := by
  cases ipaddr with
  | none => exact .inr ⟨by simp [mqtt_dns_found, setConnState], not_receiving (c := .TCP_RECONNECT_REQ) rfl (by decide)⟩
  | some addr =>
    simp only [mqtt_dns_found]
    split
    · exact .inr ⟨by simp [setConnState, system_os_post], not_receiving (c := .TCP_CONNECTING) rfl (by decide)⟩
    · exact .inl rfl

theorem FirmwareUses.keeps (h : Provisioned sysCfg) (hB : 138 ≤ B) (hconfigured : Configured sysCfg willed s) {a : Step B}
    {outcome : Outcome} (huses : FirmwareUses fp conversions sysCfg (.client a outcome)) :
    (firmwareUsage fp conversions sysCfg).Keeps s a := by
  cases a with
  | connectCb =>
    refine ⟨⟨willed, hconfigured.connect_info⟩, ?_, ?_⟩
    · rw [hconfigured.connect_info]
      cases willed <;> simp [firmwareInfo]
    · rw [hconfigured.connect_info]
      exact connectBytes_fits h hB willed
  | call c =>
    cases c with
    | request r =>
      cases r with
      | publish topic data qos retain locals =>
        obtain ⟨rfl, rfl, t, rfl, hreport⟩ := huses
        refine ⟨⟨by decide, by decide⟩, ?_⟩
        rintro p ⟨t', id, q, htopic, hq, rfl⟩
        obtain rfl := Option.some.inj htopic
        obtain rfl : q = 1 := by exact_mod_cast hq
        exact ⟨t, id, data, hreport, rfl⟩
      | _ => exact huses.elim
    | _ => trivial
  | _ => trivial

theorem Talks.event (h : Provisioned sysCfg) (hB3 : 138 ≤ B) (hB : B ≤ 16386) {x x' : World × Session} {event : Event B}
    (hx : Talks fp conversions sysCfg B x) (huses : FirmwareUses fp conversions sysCfg event)
    (hobserved : observed World.step observeEvent x event = some x') : Talks fp conversions sysCfg B x' := by
  obtain ⟨hstep, hnotes⟩ := observed_some hobserved
  obtain ⟨willed, hconfigured⟩ := hx.configured
  refine ⟨?_, _, hconfigured.event huses hstep⟩
  rw [hnotes]
  cases event with
  | client a outcome =>
    have hkeeps := huses.keeps h hB3 hconfigured
    obtain ⟨_, sys, hsys, hfollow⟩ := World.step_client hstep
    have hworld : x'.1.sys = sys := by rw [hfollow, World.follow_sys]
    simp only [observeEvent, hworld]
    by_cases ha : a = .connectCb
    · subst ha
      exact Conversed.connectCb hx.conversed.queue hx.conversed.steady (by omega) hB hkeeps hsys
    · exact hx.conversed.other (by omega) (by omega) ha hkeeps hsys
  | answer query ipaddr accepted =>
    simp only [World.step, World.answer] at hstep
    split at hstep
    · rename_i hand
      rw [← Option.some.inj hstep]
      refine conversed_neutral hx.conversed (mqtt_dns_found_neutral _ ipaddr) (.of_idle ?_) (mqtt_dns_found_state _ ipaddr)
      cases ipaddr with
      | none => exact hand.1
      | some addr =>
        simp only [mqtt_dns_found]
        split <;> exact hand.1
    · cases hstep
  | goToSleep =>
    simp only [World.step] at hstep
    split at hstep
    · rw [← Option.some.inj hstep]
      exact hx.conversed
    · cases hstep

section
variable (fp : FloatingPoint) (conversions : Conversions fp) (sysCfg : SYSCFG)

/-- The firmware with notes on the events of the client and its surroundings. -/
abbrev firmwareStep {γ : Type} (observe : γ → World → Event B → World → γ) (x : Firmware × γ) (e : FirmwareEvent B) :
    Option (Firmware × γ) :=
  observed (Firmware.step fp conversions sysCfg)
    (batched World.step Firmware.world (fun f e => e.events fp conversions sysCfg f) observe) x e

/-- What a broker reads: the CONNECT that the configuration tells, and behind the answer to it reports,
retained and with quality of service 1, answers and pings. -/
def FirmwareSpeaks (x : Firmware × Session) : Prop :=
  ∃ ps, decodeStream x.2.sent.flatten = some ps ∧ (1 < ps.length → Consented x.2) ∧
    (ps = [] ∨ ∃ willed rest, ps = .connect (firmwareConnect sysCfg willed) :: rest ∧ ∀ p ∈ rest,
      (∃ t id data, IsReport fp conversions sysCfg t data ∧ p = .publish false 1 true t.bytes id data) ∨ IsReply p ∨
        p = .pingreq)

end

/-- What every event of the client and its surroundings keeps, the firmware keeps. -/
theorem firmwareStep_invariant {γ : Type} {observe : γ → World → Event B → World → γ} {I : World × γ → Prop}
    (hevent : ∀ {y event y'}, I y → FirmwareUses fp conversions sysCfg event →
      observed World.step observe y event = some y' → I y')
    {x x' : Firmware × γ} {e : FirmwareEvent B} (hI : I (x.1.world, x.2))
    (h : firmwareStep fp conversions sysCfg observe x e = some x') : I (x'.1.world, x'.2) :=
  batched_invariant (fun _ hstep => step_world hstep) (fun _ hstep => step_uses hstep) hevent hI h

theorem Talks.speaks {f : Firmware} {g : Session} (hx : Talks fp conversions sysCfg B (f.world, g)) (h : Provisioned sysCfg) :
    FirmwareSpeaks fp conversions sysCfg (f, g) := by
  obtain ⟨ps, hps, hlater, hopens⟩ := hx.conversed.reads
  refine ⟨ps, hps, hlater, hopens.imp_right ?_⟩
  rintro ⟨_, client_id, rest, ⟨willed, rfl⟩, hid, rfl, hrest⟩
  have hmember : nonEmpty (firmwareInfo sysCfg willed).client_id = some (member sysCfg .device_id) := if_neg h.named
  rw [hmember] at hid
  obtain rfl := Option.some.inj hid
  exact ⟨willed, rest, by rw [connectOf_firmwareInfo], hrest⟩

/-- **The firmware speaks MQTT, and says nothing but what it should**, on every connection, in every order
of what the network, the timers, the interrupts and the callbacks do, when its configuration names the
device and the CONNECT made of it fits the buffer. -/
theorem run_firmware_speaks (h : Provisioned sysCfg) (hB3 : 138 ≤ B) (hB : B ≤ 16386) (events : List (FirmwareEvent B)) :
    Always (firmwareStep fp conversions sysCfg observeEvent) (FirmwareSpeaks fp conversions sysCfg)
      (.start B sysCfg, .empty) events := by
  exact always_of_invariant (I := fun x : Firmware × Session => Talks fp conversions sysCfg B (x.1.world, x.2))
    (fun hx hstep => firmwareStep_invariant (fun hy huses hevent => hy.event h hB3 hB huses hevent) hx hstep)
    (fun hx => hx.speaks h) (user_init_talks (by omega))

/-- A device with a name and the host 1.2.3.4, and nothing else. -/
def homeSysCfg : SYSCFG where
  bytes := List.replicate 4 0 ++ 0x63 :: List.replicate 163 0 ++ [0x31, 0x2E, 0x32, 0x2E, 0x33, 0x2E, 0x34] ++
    List.replicate 369 0
  size_eq := by simp only [List.length_append, List.length_cons, List.length_replicate, List.length_nil]

theorem homeSysCfg_provisioned : Provisioned homeSysCfg := ⟨by decide +kernel, by decide +kernel⟩

abbrev homeStep {γ : Type} (observe : γ → World → Event 160 → World → γ) :=
  firmwareStep binary64.floatingPoint (exactConversions binary64 lowWord) homeSysCfg observe

/-- The broker accepts, `mqttConnectedCb` makes its calls, and the task passes the first report on. -/
def firstReport : List (FirmwareEvent 160) :=
  [.device (.wifi STATION_GOT_IP none reached), .device (.client .connectCb reached),
    .device (.client (.recv [0x20, 0x02, 0x00, 0x00]) reached)] ++
    List.replicate 5 (.proceed (zeroLocals 160) reached) ++
    [.device (.client .sentCb reached), .device (.client (.task (zeroLocals 160) true none) reached)]

theorem run_firmware_speaks_home :
    Always (homeStep observeEvent) (FirmwareSpeaks binary64.floatingPoint (exactConversions binary64 lowWord) homeSysCfg)
      (.start 160 homeSysCfg, .empty) firstReport :=
  run_firmware_speaks homeSysCfg_provisioned (by decide) (by decide) firstReport

example : (run (homeStep observeEvent) (.start 160 homeSysCfg, .empty) firstReport).map
    (fun x => decodeStream x.2.sent.flatten) =
      some (some [.connect (firmwareConnect homeSysCfg false),
        .publish false 1 true (ascii "/sensor/test/online") 1 (ascii "1")]) := by
  decide +kernel

/-! ## The will -/

/-- `MQTT_InitLWT` has been called. -/
def noteWill (willed : Bool) (_ : World) (event : Event B) (_ : World) : Bool := willed || isInitLWT event

/-- A client of the firmware with the settings that the notes tell. -/
structure Settled (fp : FloatingPoint) (conversions : Conversions fp) (sysCfg : SYSCFG) (B : ℕ) (x : World × Bool) :
    Prop where
  configured : Configured sysCfg x.2 x.1.sys
  queue : (firmwareUsage fp conversions sysCfg).Queued B x.1.sys

theorem Settled.event (h : Provisioned sysCfg) (hB3 : 138 ≤ B) (hB : B ≤ 16386) {x x' : World × Bool} {event : Event B}
    (hx : Settled fp conversions sysCfg B x) (huses : FirmwareUses fp conversions sysCfg event)
    (hobserved : observed World.step noteWill x event = some x') : Settled fp conversions sysCfg B x' := by
  obtain ⟨hstep, hnotes⟩ := observed_some hobserved
  refine ⟨hnotes ▸ hx.configured.event huses hstep, ?_⟩
  cases event with
  | client a outcome =>
    obtain ⟨_, sys, hsys, hfollow⟩ := World.step_client hstep
    rw [hfollow, World.follow_sys]
    exact hx.queue.step (by omega) (by omega) (huses.keeps h hB3 hx.configured) hsys
  | answer query ipaddr accepted =>
    obtain ⟨_, hanswer⟩ := World.answer_some hstep
    obtain ⟨l, hl, hpieces⟩ := hx.queue
    rw [hanswer]
    exact ⟨l, hl.neutral (mqtt_dns_found_neutral _ ipaddr), hpieces⟩
  | goToSleep =>
    simp only [World.step] at hstep
    split at hstep
    · rw [← Option.some.inj hstep]
      exact hx.queue
    · cases hstep

/-- **Every connection opens with the CONNECT of the configuration**, when this names the device; it
carries the will if, and only if, `MQTT_InitLWT` has been called before it, so the first one never does. -/
theorem run_opens_with_connect (h : Provisioned sysCfg) (hB3 : 138 ≤ B) (hB : B ≤ 16386) {events : List (FirmwareEvent B)}
    {x : Firmware × Bool} {f : Firmware} {outcome : Outcome}
    (hrun : run (firmwareStep fp conversions sysCfg noteWill) (.start B sysCfg, false) events = some x)
    (hstep : x.1.step fp conversions sysCfg (.device (.client .connectCb outcome : DeviceEvent B)) = some f) :
    handedOver x.1.sys f.sys = [(Packet.connect (firmwareConnect sysCfg x.2)).encode] := by
  have htalks : Talks fp conversions sysCfg B (.start (user_init B sysCfg), .empty) := user_init_talks (by omega)
  have hx : Settled fp conversions sysCfg B (x.1.world, x.2) :=
    run_invariant (I := fun x : Firmware × Bool => Settled fp conversions sysCfg B (x.1.world, x.2))
      (fun hx hstep => firmwareStep_invariant (fun hy huses hevent => hy.event h hB3 hB huses hevent) hx hstep)
      ⟨user_init_configured sysCfg, htalks.conversed.queue⟩ hrun
  obtain ⟨l, hl, _⟩ := hx.queue
  obtain ⟨w, hworld, hnil⟩ := run_cons (step_world hstep)
  obtain ⟨_, sys, hsys, hfollow⟩ := World.step_client hworld
  have hsame : f.sys = sys := by
    rw [show f.sys = w.sys from congrArg World.sys (Option.some.inj hnil).symm, hfollow, World.follow_sys]
  cases step_taken hsys with
  | connectCb => exact hsame ▸ connect_handedOver h hB3 hB hx.configured hl

/-- The second connection carries the will. -/
theorem run_opens_with_connect_second :
    ∃ x f, run (homeStep noteWill) (.start 160 homeSysCfg, false)
        (firstReport ++ [.device (.client .disconCb reached), .proceed (zeroLocals 160) reached,
          .device (.wifi STATION_IDLE none reached), .device (.wifi STATION_GOT_IP none reached)]) = some x ∧
      x.1.step binary64.floatingPoint (exactConversions binary64 lowWord) homeSysCfg
        (.device (.client .connectCb reached : DeviceEvent 160)) = some f ∧ x.2 = true ∧
        handedOver x.1.sys f.sys = [(Packet.connect (firmwareConnect homeSysCfg x.2)).encode] := by
  have hsome : ((run (homeStep noteWill) (.start 160 homeSysCfg, false)
      (firstReport ++ [.device (.client .disconCb reached), .proceed (zeroLocals 160) reached,
        .device (.wifi STATION_IDLE none reached), .device (.wifi STATION_GOT_IP none reached)])).bind fun x =>
      (x.1.step binary64.floatingPoint (exactConversions binary64 lowWord) homeSysCfg
        (.device (.client .connectCb reached : DeviceEvent 160))).map fun _ => x.2) = some true := by decide +kernel
  obtain ⟨x, hrun, hrest⟩ := Option.bind_eq_some_iff.mp hsome
  obtain ⟨f, hstep, hwilled⟩ := Option.map_eq_some_iff.mp hrest
  exact ⟨x, f, hrun, hstep, hwilled, run_opens_with_connect homeSysCfg_provisioned (by decide) (by decide) hrun hstep⟩

end LightSleepMqtt.User
