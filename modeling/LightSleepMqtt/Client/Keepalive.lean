import LightSleepMqtt.Client.Frames

/-! The keepalive of a connected client. The tick counter never passes the keepalive time while
the client is in `MQTT_DATA`, because every handler that enters that state does so with the
counter at zero, and a client that has a keepalive to send has its task event pending. -/
namespace LightSleepMqtt.Client
open Message Queue Transition
set_option autoImplicit false

/-- The keepalive time as the timer compares it, which is as a `uint32_t`. -/
def keepaliveTime (s : Sys) : ℤ := s.client.connect_info.keepalive % 4294967296

/-- The counter is in bounds and a due keepalive is scheduled. -/
def KeepsAlive (s : Sys) : Prop :=
  (s.client.connState = .MQTT_DATA → (s.client.keepAliveTick : ℤ) ≤ keepaliveTime s) ∧
    (s.client.connState = .MQTT_KEEPALIVE_SEND → s.posted = true)

/-- While `dataCb` runs the counter is still where the receive handler has set it, so that the
next pass may enter `MQTT_DATA`. -/
def ReceivedNow (s : Sys) : Prop :=
  ∀ pdata registered, s.running = some (.dataCb pdata registered) → s.client.keepAliveTick = 0

variable {B : ℕ} {s s' : Sys}

theorem keepaliveTime_nonneg (s : Sys) : 0 ≤ keepaliveTime s := Int.emod_nonneg _ (by decide)

theorem KeepsAlive.of_connState {c : tConnState} (h : s.client.connState = c)
    (hc : c ≠ .MQTT_DATA ∧ c ≠ .MQTT_KEEPALIVE_SEND) : KeepsAlive s :=
  ⟨fun hstate => absurd (h.symm.trans hstate) hc.1, fun hstate => absurd (h.symm.trans hstate) hc.2⟩

/-- The counter is at zero, and what was due before is still scheduled. -/
theorem KeepsAlive.of_zero (h : s.client.keepAliveTick = 0)
    (h' : s.client.connState = .MQTT_KEEPALIVE_SEND → s.posted = true) : KeepsAlive s := by
  refine ⟨fun _ => ?_, h'⟩
  rw [h]
  exact keepaliveTime_nonneg s

theorem ReceivedNow.of_callback {callback : Callback} (h : s.running = some callback)
    (hne : ∀ pdata registered, callback ≠ .dataCb pdata registered) : ReceivedNow s := by
  intro pdata registered hrun
  exact absurd (Option.some.inj (h.symm.trans hrun)) (hne pdata registered)

theorem ReceivedNow.of_idle (h : s.running = none) : ReceivedNow s := by
  intro pdata registered hrun
  cases h.symm.trans hrun

theorem callsBack_receivedNow {registered : Bool} {callback : Callback} {rest : Sys → Sys}
    (hne : ∀ pdata registered, callback ≠ .dataCb pdata registered) (hrest : ReceivedNow (rest s)) :
    ReceivedNow (callsBack s registered callback rest) := by
  unfold callsBack
  split
  · exact .of_callback rfl hne
  · exact hrest

/-! ## The handlers -/

theorem receivePass_keepsAlive (htick : s.client.keepAliveTick = 0)
    (hdue : s.client.connState = .MQTT_KEEPALIVE_SEND → s.posted = true) (pdata : List UInt8) :
    KeepsAlive (receivePass s B pdata) ∧ ReceivedNow (receivePass s B pdata) := by
  have hpass := receivePass_passes (B := B) s pdata
  refine ⟨.of_zero (hpass.keepAliveTick.trans htick) ?_, fun _ _ _ => hpass.keepAliveTick.trans htick⟩
  intro hstate
  obtain hsame | ⟨_, hdata⟩ := hpass.connState
  · exact hpass.posted (hdue (hsame.symm.trans hstate))
  · cases hdata.symm.trans hstate

theorem returned_keepsAlive (h : KeepsAlive s) (hr : ReceivedNow s) {callback : Callback}
    (hcallback : s.running = some callback) :
    KeepsAlive (returned s B callback) ∧ ReceivedNow (returned s B callback) := by
  obtain ⟨_, hend⟩ | ⟨_, hend | ⟨pdata, registered, rest, rfl, hend⟩⟩ := returned_cases (B := B) s callback
  · rw [hend]
    exact ⟨h, .of_idle rfl⟩
  · rw [hend]
    exact ⟨⟨h.1, fun _ => rfl⟩, .of_idle rfl⟩
  · rw [hend]
    exact receivePass_keepsAlive (s := { s with running := none }) (hr pdata registered hcallback) h.2 rest

theorem mqtt_timer_keepsAlive (h : KeepsAlive s) (hs : s.running = none) :
    KeepsAlive (mqtt_timer s) ∧ ReceivedNow (mqtt_timer s) := by
  simp only [mqtt_timer]
  split
  · rename_i hdata
    split
    · exact ⟨⟨fun hstate => (by cases hstate), fun _ => rfl⟩, .of_idle hs⟩
    · rename_i hle
      refine ⟨⟨fun _ => Int.not_lt.mp hle, fun hstate => ?_⟩, .of_idle hs⟩
      cases hdata.symm.trans hstate
  · split
    · rename_i hreconnect
      split
      · refine ⟨.of_connState (c := .TCP_RECONNECT) ?_ (by decide), callsBack_receivedNow (by simp) (.of_idle hs)⟩
        unfold callsBack
        split <;> rfl
      · exact ⟨.of_connState hreconnect (by decide), .of_idle hs⟩
    · exact ⟨h, .of_idle hs⟩

theorem mqtt_send_keepalive_keepsAlive (s : Sys) (result : Bool) : KeepsAlive (mqtt_send_keepalive s result) := by
  cases result with
  | true => exact .of_zero rfl fun hstate => (by cases hstate)
  | false => exact .of_connState (c := .TCP_RECONNECT_DISCONNECTING) rfl (by decide)

theorem MQTT_Task_keepsAlive (h : KeepsAlive s) (hs : s.running = none) (locals : Locals B) (result : Bool)
    (resolved : Option ℕ) :
    KeepsAlive (MQTT_Task s locals result resolved) ∧ ReceivedNow (MQTT_Task s locals result resolved) := by
  simp only [MQTT_Task]
  split
  · exact ⟨.of_connState (c := .TCP_CONNECTING) rfl (by decide), .of_idle ((MQTT_Connect_running _ resolved).trans hs)⟩
  · exact ⟨.of_connState (by assumption) (by decide), .of_idle hs⟩
  · exact ⟨.of_connState (by assumption) (by decide), .of_idle hs⟩
  · refine ⟨mqtt_send_keepalive_keepsAlive _ result, .of_idle ?_⟩
    cases result <;> exact hs
  · rename_i hdata
    have hbound : KeepsAlive { s with posted := false } :=
      ⟨h.1, fun hstate => by cases hdata.symm.trans hstate⟩
    obtain ⟨queue, hpump⟩ | ⟨queue, dataBuffer, dataLen, _, _, _, hpump⟩ := pump_cases { s with posted := false } locals
    · rw [hpump]
      exact ⟨hbound, .of_idle hs⟩
    · rw [hpump]
      exact ⟨hbound, .of_idle hs⟩
  · rename_i hkeepalive _
    exact ⟨⟨h.1, fun hstate => absurd hstate hkeepalive⟩, .of_idle hs⟩

theorem mqtt_tcpclient_sent_cb_keepsAlive (h : KeepsAlive s) (hs : s.running = none) :
    KeepsAlive (mqtt_tcpclient_sent_cb s) ∧ ReceivedNow (mqtt_tcpclient_sent_cb s) := by
  simp only [mqtt_tcpclient_sent_cb, callsBack]
  split_ifs
  · exact ⟨.of_zero rfl h.2, .of_callback rfl (by simp)⟩
  · exact ⟨.of_zero rfl fun _ => rfl, .of_idle hs⟩
  · exact ⟨.of_zero rfl fun _ => rfl, .of_idle hs⟩

theorem mqtt_tcpclient_discon_cb_keepsAlive (hs : s.running = none) :
    KeepsAlive (mqtt_tcpclient_discon_cb s) ∧ ReceivedNow (mqtt_tcpclient_discon_cb s) := by
  simp only [mqtt_tcpclient_discon_cb]
  refine ⟨?_, callsBack_receivedNow (by simp) (.of_idle hs)⟩
  unfold callsBack
  split_ifs <;> first
    | exact .of_connState (c := .TCP_DISCONNECTED) rfl (by decide)
    | exact .of_connState (c := .MQTT_DELETED) rfl (by decide)
    | exact .of_connState (c := .TCP_RECONNECT_REQ) rfl (by decide)

/-! ## Steps and runs -/

theorem ApiCall.exec_keepsAlive (h : KeepsAlive s) (hr : ReceivedNow s) {c : ApiCall B} (hexec : c.exec s = some s') :
    KeepsAlive s' ∧ ReceivedNow s' := by
  cases c with
  | request r =>
    obtain ⟨connection, id, queue, posted, accepted, hposted, rfl⟩ := ApiCall.request_frame hexec
    exact ⟨⟨h.1, fun hstate => hposted (h.2 hstate)⟩, hr⟩
  | connect resolved =>
    obtain rfl := Option.some.inj hexec
    refine ⟨.of_connState (c := .TCP_CONNECTING) rfl (by decide), fun _ _ _ => ?_⟩
    simp only [MQTT_Connect]
    split <;> split <;> rfl
  | disconnect =>
    obtain rfl := Option.some.inj hexec
    exact ⟨.of_connState (c := .TCP_DISCONNECTING) rfl (by decide), hr⟩
  | deleteClient =>
    obtain rfl := Option.some.inj hexec
    exact ⟨.of_connState (c := .MQTT_DELETING) rfl (by decide), hr⟩
  | onConnected | onDisconnected | onData | onPublished | onTimeout | initLWT =>
    obtain rfl := Option.some.inj hexec
    exact ⟨h, hr⟩

theorem step_keepsAlive (h : KeepsAlive s) (hr : ReceivedNow s) {a : Step B} (hstep : step s a = some s') :
    KeepsAlive s' ∧ ReceivedNow s' := by
  have hidle := step_idle hstep
  cases step_taken hstep with
  | call hexec => exact ApiCall.exec_keepsAlive h hr hexec
  | resume hcallback => exact returned_keepsAlive h hr hcallback
  | dnsFound ipaddr hs =>
    cases ipaddr with
    | none => exact ⟨.of_connState (c := .TCP_RECONNECT_REQ) rfl (by decide), .of_idle hs⟩
    | some addr =>
      simp only [mqtt_dns_found]
      split
      · exact ⟨.of_connState (c := .TCP_CONNECTING) rfl (by decide), .of_idle hs⟩
      · exact ⟨⟨h.1, fun _ => rfl⟩, .of_idle hs⟩
  | connectCb => exact ⟨.of_connState (c := .MQTT_CONNECT_SENDING) rfl (by decide), .of_idle (hidle trivial)⟩
  | reconCb => exact ⟨.of_connState (c := .TCP_RECONNECT_REQ) rfl (by decide), .of_idle (hidle trivial)⟩
  | disconCb => exact mqtt_tcpclient_discon_cb_keepsAlive (hidle trivial)
  | recv pdata =>
    exact receivePass_keepsAlive (s := { s with client := { s.client with keepAliveTick := 0 } }) rfl h.2 pdata
  | sentCb => exact mqtt_tcpclient_sent_cb_keepsAlive h (hidle trivial)
  | timer hs => exact mqtt_timer_keepsAlive h hs
  | task locals result resolved hs => exact MQTT_Task_keepsAlive h hs locals result resolved

/-- **The keepalive counter stays in bounds and a due keepalive is scheduled**, in every state of
every run of one client. -/
theorem keepalive_scheduled (hs : Starts B s) (steps : List (Step B)) (hrun : run step s steps = some s') :
    (s'.client.connState = .MQTT_DATA → (s'.client.keepAliveTick : ℤ) ≤ keepaliveTime s') ∧
      (s'.client.connState = .MQTT_KEEPALIVE_SEND → s'.posted = true) := by
  obtain ⟨_, _, _, _, _, _, _, rfl⟩ := hs
  refine (run_invariant (I := fun s => KeepsAlive s ∧ ReceivedNow s) ?_ ⟨?_, ?_⟩ hrun).1
  · intro s a s' hI hstep
    exact step_keepsAlive hI.1 hI.2 hstep
  · exact .of_connState (c := .WIFI_INIT) rfl (by decide)
  · exact .of_idle rfl

/-- One keepalive of a client with a keepalive time of 60 seconds. -/
theorem keepalive_scheduled_due :
    ∃ s', run step newClient (connecting ++ List.replicate 61 .timer) = some s' ∧
      (s'.client.connState = .MQTT_DATA → (s'.client.keepAliveTick : ℤ) ≤ keepaliveTime s') ∧
        (s'.client.connState = .MQTT_KEEPALIVE_SEND → s'.posted = true) := by
  have hsome : (run step newClient (connecting ++ List.replicate 61 .timer)).isSome := by
    decide +kernel
  obtain ⟨s', hrun⟩ := Option.isSome_iff_exists.mp hsome
  exact ⟨s', hrun, keepalive_scheduled newClient_starts _ hrun⟩

end LightSleepMqtt.Client
