import LightSleepMqtt.Client.Frames

/-! What has gone over the current connection, and when the client may count as connected. A
`Session` notes the packets passed to the network and the segments received since the
connection came up. The client takes the first segment that starts like a CONNACK for the
broker's consent, whatever its return code says and however much of it has arrived; it is
connected rightly on every run in which that segment is a complete CONNACK that accepts. -/
namespace LightSleepMqtt.Client
open Message Queue Transition
set_option autoImplicit false

/-! ## The notes on a connection -/

/-- The packets passed to `espconn_send` and the segments received since the last
`mqtt_tcpclient_connect_cb`, in order. -/
structure Session where
  sent : List (List UInt8)
  received : List (List UInt8)

def Session.empty : Session := ⟨[], []⟩

/-- The packets a step passes to `espconn_send`. -/
def handedOver (s s' : Sys) : List (List UInt8) :=
  s'.control.drop s.control.length ++ s'.pumped.drop s.pumped.length

variable {B : ℕ} {s s' : Sys}

def Session.observe (g : Session) (s : Sys) (a : Step B) (s' : Sys) : Session :=
  match a with
  | .connectCb => ⟨handedOver s s', []⟩
  | .recv pdata => ⟨g.sent ++ handedOver s s', g.received ++ [pdata]⟩
  | _ => ⟨g.sent ++ handedOver s s', g.received⟩

/-- A client with the notes on its connection. -/
abbrev sessionStep (x : Sys × Session) (a : Step B) : Option (Sys × Session) :=
  observed step Session.observe x a

theorem Session.observe_mono (g : Session) (s : Sys) {a : Step B} (ha : a ≠ .connectCb) (s' : Sys) :
    g.sent ⊆ (g.observe s a s').sent ∧ g.received ⊆ (g.observe s a s').received := by
  unfold Session.observe
  split
  · exact absurd rfl ha
  · exact ⟨List.subset_append_left .., List.subset_append_left ..⟩
  · exact ⟨List.subset_append_left .., List.Subset.refl _⟩

/-! ## Steps that send nothing -/

/-- The step sends nothing and leaves the pending fields alone. -/
structure Unsent (s s' : Sys) : Prop where
  control : s'.control = s.control
  pumped : s'.pumped = s.pumped
  pending_msg_type : s'.client.mqtt_state.pending_msg_type = s.client.mqtt_state.pending_msg_type
  pending_msg_id : s'.client.mqtt_state.pending_msg_id = s.client.mqtt_state.pending_msg_id

theorem handedOver_nothing (hcontrol : s'.control = s.control) (hpumped : s'.pumped = s.pumped) :
    handedOver s s' = [] := by
  rw [handedOver, hcontrol, hpumped, List.drop_length, List.drop_length]
  rfl

theorem handedOver_control {p : List UInt8} (hcontrol : s'.control = s.control ++ [p])
    (hpumped : s'.pumped = s.pumped) : handedOver s s' = [p] := by
  rw [handedOver, hcontrol, hpumped, List.drop_left, List.drop_length, List.append_nil]

theorem receivePass_unsent (s : Sys) (pdata : List UInt8) : Unsent s (receivePass s B pdata) :=
  have h := receivePass_passes (B := B) s pdata
  ⟨h.control, h.pumped, h.pending_msg_type, h.pending_msg_id⟩

theorem returned_unsent (s : Sys) (callback : Callback) : Unsent s (returned s B callback) := by
  obtain ⟨_, hend⟩ | ⟨_, hend | ⟨_, _, rest, _, hend⟩⟩ := returned_cases (B := B) s callback
  · rw [hend]
    exact ⟨rfl, rfl, rfl, rfl⟩
  · rw [hend]
    exact ⟨rfl, rfl, rfl, rfl⟩
  · rw [hend]
    have h := receivePass_unsent (B := B) { s with running := none } rest
    exact ⟨h.control, h.pumped, h.pending_msg_type, h.pending_msg_id⟩

theorem MQTT_Connect_unsent (s : Sys) (resolved : Option ℕ) : Unsent s (MQTT_Connect s resolved) := by
  simp only [MQTT_Connect]
  split <;> split <;> exact ⟨rfl, rfl, rfl, rfl⟩

theorem MQTT_Connect_sendTimeout (s : Sys) (resolved : Option ℕ) :
    (MQTT_Connect s resolved).client.sendTimeout = s.client.sendTimeout := by
  simp only [MQTT_Connect]
  split <;> split <;> rfl

theorem mqtt_timer_unsent (s : Sys) : Unsent s (mqtt_timer s) := by
  simp only [mqtt_timer, callsBack]
  split_ifs <;> exact ⟨rfl, rfl, rfl, rfl⟩

/-- The task sends a keepalive, or it may send a packet of the queue, or it sends nothing. -/
theorem MQTT_Task_cases (s : Sys) (locals : Locals B) (result : Bool) (resolved : Option ℕ) :
    (s.client.connState ≠ .MQTT_DATA ∧ Unsent s (MQTT_Task s locals result resolved) ∧
        (MQTT_Task s locals result resolved).client.sendTimeout = s.client.sendTimeout) ∨
      (s.client.connState = .MQTT_KEEPALIVE_SEND ∧
        MQTT_Task s locals result resolved = mqtt_send_keepalive { s with posted := false } result) ∨
      (s.client.connState = .MQTT_DATA ∧ MQTT_Task s locals result resolved = pump { s with posted := false } locals) := by
  simp only [MQTT_Task]
  split
  · rename_i hstate
    have hconnect := MQTT_Connect_unsent (mqtt_tcpclient_delete { s with posted := false }) resolved
    have htimeout := MQTT_Connect_sendTimeout (mqtt_tcpclient_delete { s with posted := false }) resolved
    exact Or.inl ⟨by rw [hstate]; decide,
      ⟨hconnect.control, hconnect.pumped, hconnect.pending_msg_type, hconnect.pending_msg_id⟩, htimeout⟩
  · rename_i hstate
    exact Or.inl ⟨by rw [hstate]; decide, ⟨rfl, rfl, rfl, rfl⟩, rfl⟩
  · rename_i hstate
    exact Or.inl ⟨by rw [hstate]; decide, ⟨rfl, rfl, rfl, rfl⟩, rfl⟩
  · exact Or.inr (Or.inl ⟨by assumption, rfl⟩)
  · exact Or.inr (Or.inr ⟨by assumption, rfl⟩)
  · rename_i hother
    exact Or.inl ⟨hother, ⟨rfl, rfl, rfl, rfl⟩, rfl⟩

/-! ## Entering the connected states -/

/-- No callback that is running will be followed by another look at a CONNACK. -/
def Steady (s : Sys) : Prop :=
  ∀ pdata registered, s.running = some (.dataCb pdata registered) → s.client.connState ≠ .MQTT_CONNECT_SENDING

theorem readPacket_waiting (hs : s.client.connState = .MQTT_CONNECT_SENDING) (pdata : List UInt8) :
    Receiving (readPacket B s pdata).1 ↔
      s.client.mqtt_state.pending_msg_type = MQTT_MSG_TYPE_CONNECT ∧ 0 < pdata.length ∧ pdata.length < B ∧
        mqtt_get_type pdata = MQTT_MSG_TYPE_CONNACK := by
  have hnot {t : Sys} (ht : t.client.connState = .MQTT_CONNECT_SENDING) : ¬ Receiving t := by
    rintro (h | h) <;> cases ht.symm.trans h
  by_cases hguard : pdata.length < B ∧ pdata.length > 0
  · simp only [readPacket, if_pos hguard, hs, mqtt_get_type_copyAt _ hguard.2]
    split
    · rename_i haccept
      exact iff_of_true (Or.inl rfl) ⟨haccept.2, hguard.2, hguard.1, haccept.1⟩
    · rename_i hleft
      exact iff_of_false (hnot rfl) fun h => hleft ⟨h.2.2.2, h.1⟩
  · rw [readPacket, if_neg hguard]
    exact iff_of_false (hnot hs) fun h => hguard ⟨h.2.2.1, h.2.1⟩

theorem receivePass_receiving (s : Sys) (pdata : List UInt8) :
    Receiving (receivePass s B pdata) ↔ Receiving (readPacket B s pdata).1 := by
  unfold receivePass callsBack
  generalize readPacket B s pdata = out
  obtain ⟨t, _ | _ | _⟩ := out
  · exact Iff.rfl
  · simp only
    split <;> exact Iff.rfl
  · exact Iff.rfl

theorem receivePass_steady (hs : s.running = none) (pdata : List UInt8) : Steady (receivePass s B pdata) := by
  have hrunning := readPacket_running B s pdata
  have hkept := (readPacket_passes (B := B) s pdata).connState
  intro segment registered hrun hwaiting
  unfold receivePass callsBack at hrun hwaiting
  cases hread : readPacket B s pdata with
  | mk t pass =>
    rw [hread] at hrun hwaiting hrunning hkept
    cases pass with
    | left => cases (hrunning.trans hs).symm.trans hrun
    | connected =>
      simp only at hrun
      split at hrun
      · cases hrun
      · cases (hrunning.trans hs).symm.trans hrun
    | publish =>
      have hstate : t.client.connState = .MQTT_CONNECT_SENDING := hwaiting
      obtain hsame | ⟨_, hdata⟩ := hkept
      · obtain hreceiving | hreceiving := (readPacket_publish hread).1
        · cases (hsame.symm.trans hstate).symm.trans hreceiving
        · cases (hsame.symm.trans hstate).symm.trans hreceiving
      · cases hdata.symm.trans hstate

theorem Steady.of_idle (h : s.running = none) : Steady s := by
  intro pdata registered hrun
  cases h.symm.trans hrun

theorem Steady.of_callback {callback : Callback} (h : s.running = some callback)
    (hne : ∀ pdata registered, callback ≠ .dataCb pdata registered) : Steady s := by
  intro pdata registered hrun
  exact absurd (Option.some.inj (h.symm.trans hrun)) (hne pdata registered)

theorem Steady.callsBack {registered : Bool} {callback : Callback} {rest : Sys → Sys}
    (hne : ∀ pdata registered, callback ≠ .dataCb pdata registered) (hrest : Steady (rest s)) :
    Steady (Client.callsBack s registered callback rest) := by
  unfold Client.callsBack
  split
  · exact .of_callback rfl hne
  · exact hrest

theorem returned_steady (s : Sys) (callback : Callback) : Steady (returned s B callback) := by
  obtain ⟨_, hend⟩ | ⟨_, hend | ⟨_, _, rest, _, hend⟩⟩ := returned_cases (B := B) s callback
  · rw [hend]
    exact .of_idle rfl
  · rw [hend]
    exact .of_idle rfl
  · rw [hend]
    exact receivePass_steady rfl rest

theorem step_steady (h : Steady s) {a : Step B} (hstep : step s a = some s') : Steady s' := by
  have hidle := step_idle hstep
  cases step_taken hstep with
  | @call c _ hexec =>
    cases c with
    | request r =>
      obtain ⟨connection, id, queue, posted, accepted, _, rfl⟩ := ApiCall.request_frame hexec
      exact h
    | connect | disconnect | deleteClient =>
      obtain rfl := Option.some.inj hexec
      intro _ _ _ hstate
      cases hstate
    | onConnected | onDisconnected | onData | onPublished | onTimeout | initLWT =>
      obtain rfl := Option.some.inj hexec
      exact h
  | resume hcallback => exact returned_steady s _
  | dnsFound ipaddr hs =>
    apply Steady.of_idle
    cases ipaddr with
    | none => exact hs
    | some addr =>
      simp only [mqtt_dns_found]
      split <;> exact hs
  | connectCb | reconCb => exact .of_idle (hidle trivial)
  | disconCb => exact .callsBack (by simp) (.of_idle (hidle trivial))
  | recv pdata =>
    exact receivePass_steady (s := { s with client := { s.client with keepAliveTick := 0 } }) (hidle trivial) pdata
  | sentCb =>
    simp only [mqtt_tcpclient_sent_cb]
    split
    · exact .callsBack (by simp) (.of_idle (hidle trivial))
    · exact .of_idle (hidle trivial)
  | timer hs =>
    simp only [mqtt_timer]
    split
    · split <;> exact .of_idle hs
    · split
      · split
        · exact .callsBack (by simp) (.of_idle hs)
        · exact .of_idle hs
      · exact .of_idle hs
  | task locals result resolved hs => exact .of_idle (MQTT_Task_running hs locals result resolved)

theorem not_receiving {c : tConnState} (h : s.client.connState = c) (hc : c ≠ .MQTT_DATA ∧ c ≠ .MQTT_KEEPALIVE_SEND) :
    ¬ Receiving s := by
  rintro (hstate | hstate)
  · exact hc.1 (h.symm.trans hstate)
  · exact hc.2 (h.symm.trans hstate)

theorem returned_receiving (h : Steady s) {callback : Callback} (hcallback : s.running = some callback)
    (hs' : Receiving (returned s B callback)) : Receiving s := by
  obtain ⟨_, hend⟩ | ⟨_, hend | ⟨pdata, registered, rest, rfl, hend⟩⟩ := returned_cases (B := B) s callback
  · rw [hend] at hs'
    exact hs'
  · rw [hend] at hs'
    exact hs'
  · rw [hend] at hs'
    obtain hsame | ⟨hwaiting, _⟩ := (receivePass_passes (B := B) { s with running := none } rest).connState
    · unfold Receiving at hs'
      rw [hsame] at hs'
      exact hs'
    · exact absurd hwaiting (h pdata registered hcallback)

/-- The connected states are entered by the receive handler alone. -/
theorem step_receiving (h : Steady s) {a : Step B} (ha : ∀ pdata, a ≠ .recv pdata) (hstep : step s a = some s')
    (hs' : Receiving s') : Receiving s := by
  cases step_taken hstep with
  | @call c _ hexec =>
    cases c with
    | request r =>
      obtain ⟨connection, id, queue, posted, accepted, _, rfl⟩ := ApiCall.request_frame hexec
      exact hs'
    | connect =>
      obtain rfl := Option.some.inj hexec
      exact absurd hs' (not_receiving (c := .TCP_CONNECTING) rfl (by decide))
    | disconnect =>
      obtain rfl := Option.some.inj hexec
      exact absurd hs' (not_receiving (c := .TCP_DISCONNECTING) rfl (by decide))
    | deleteClient =>
      obtain rfl := Option.some.inj hexec
      exact absurd hs' (not_receiving (c := .MQTT_DELETING) rfl (by decide))
    | onConnected | onDisconnected | onData | onPublished | onTimeout | initLWT =>
      obtain rfl := Option.some.inj hexec
      exact hs'
  | resume hcallback => exact returned_receiving h hcallback hs'
  | dnsFound ipaddr hs =>
    cases ipaddr with
    | none => exact absurd hs' (not_receiving (c := .TCP_RECONNECT_REQ) rfl (by decide))
    | some addr =>
      simp only [mqtt_dns_found] at hs'
      split at hs'
      · exact absurd hs' (not_receiving (c := .TCP_CONNECTING) rfl (by decide))
      · exact hs'
  | connectCb => exact absurd hs' (not_receiving (c := .MQTT_CONNECT_SENDING) rfl (by decide))
  | reconCb => exact absurd hs' (not_receiving (c := .TCP_RECONNECT_REQ) rfl (by decide))
  | disconCb =>
    simp only [mqtt_tcpclient_discon_cb, callsBack] at hs'
    split_ifs at hs' <;> rcases hs' with hs' | hs' <;> cases hs'
  | recv pdata => exact absurd rfl (ha pdata)
  | sentCb =>
    simp only [mqtt_tcpclient_sent_cb, callsBack] at hs'
    split_ifs at hs' <;> exact hs'
  | timer hs =>
    simp only [mqtt_timer, callsBack] at hs'
    split_ifs at hs' with hdata _ _ _ _
    · exact Or.inl hdata
    · exact Or.inl hdata
    all_goals first | exact hs' | (rcases hs' with hs' | hs' <;> cases hs')
  | task locals result resolved hs =>
    simp only [MQTT_Task] at hs'
    split at hs'
    · exact absurd hs' (not_receiving (c := .TCP_CONNECTING) rfl (by decide))
    · exact hs'
    · exact hs'
    · exact Or.inr (by assumption)
    · exact Or.inl (by assumption)
    · exact hs'

/-! ## The broker's consent -/

/-- The segment starts with a complete CONNACK whose return code is 0. -/
def AcceptsConnect (segment : List UInt8) : Prop :=
  4 ≤ segment.length ∧ segment.take 2 = [0x20, 0x02] ∧ byteAt segment 3 = 0

/-- A CONNECT has been passed to the network, and not an empty packet in its place. -/
def SentConnect (g : Session) : Prop := ∃ p ∈ g.sent, p ≠ [] ∧ mqtt_get_type p = MQTT_MSG_TYPE_CONNECT

/-- A client that counts as connected has sent a CONNECT on this connection, and the broker has
accepted it. -/
def ConnectedRightly (x : Sys × Session) : Prop :=
  Receiving x.1 → SentConnect x.2 ∧ ∃ segment ∈ x.2.received, AcceptsConnect segment

/-- A segment that the client takes for the broker's consent comes in answer to a CONNECT, and it or
one before it is a complete CONNACK that accepts. -/
def ConsentsRightly (x : Sys × Session) : Step B → Prop
  | .recv pdata => x.1.client.connState = .MQTT_CONNECT_SENDING →
    x.1.client.mqtt_state.pending_msg_type = MQTT_MSG_TYPE_CONNECT → 0 < pdata.length → pdata.length < B →
    mqtt_get_type pdata = MQTT_MSG_TYPE_CONNACK →
    SentConnect x.2 ∧ ∃ segment ∈ x.2.received ++ [pdata], AcceptsConnect segment
  | _ => True

instance (segment : List UInt8) : Decidable (AcceptsConnect segment) := inferInstanceAs (Decidable (_ ∧ _ ∧ _))

instance (g : Session) : Decidable (SentConnect g) :=
  inferInstanceAs (Decidable (∃ p ∈ g.sent, p ≠ [] ∧ mqtt_get_type p = MQTT_MSG_TYPE_CONNECT))

instance (x : Sys × Session) : Decidable (ConnectedRightly x) := inferInstanceAs (Decidable (_ → _ ∧ _))

instance (x : Sys × Session) : (a : Step B) → Decidable (ConsentsRightly x a)
  | .recv _ => inferInstanceAs (Decidable (_ → _ → _ → _ → _ → _))
  | .call _ | .resume | .dnsFound _ | .connectCb | .reconCb | .disconCb | .sentCb | .timer | .task .. =>
    inferInstanceAs (Decidable True)

theorem receiveFirst_handedOver (s : Sys) (pdata : List UInt8) : handedOver s (receiveFirst s B pdata) = [] := by
  have hpass := receivePass_passes (B := B) { s with client := { s.client with keepAliveTick := 0 } } pdata
  exact handedOver_nothing hpass.control hpass.pumped

variable {x x' : Sys × Session} {g : Session}

theorem ConnectedRightly.mono (h : ConnectedRightly x) (hreceiving : Receiving x'.1 → Receiving x.1)
    (hsent : x.2.sent ⊆ x'.2.sent) (hreceived : x.2.received ⊆ x'.2.received) : ConnectedRightly x' := by
  intro hs'
  obtain ⟨⟨p, hp, hpacket⟩, segment, hsegment, haccepts⟩ := h (hreceiving hs')
  exact ⟨⟨p, hsent hp, hpacket⟩, segment, hreceived hsegment, haccepts⟩

theorem receiveFirst_connectedRightly (hq : ConnectedRightly (s, g)) (pdata : List UInt8) :
    ConnectedRightly (receiveFirst s B pdata, g.observe s (.recv pdata : Step B) (receiveFirst s B pdata)) ↔
      ConsentsRightly (s, g) (.recv pdata : Step B) := by
  have hmono := g.observe_mono s (a := (.recv pdata : Step B)) (by simp) (receiveFirst s B pdata)
  have hnotes : g.observe s (.recv pdata : Step B) (receiveFirst s B pdata) = ⟨g.sent, g.received ++ [pdata]⟩ := by
    simp only [Session.observe, receiveFirst_handedOver, List.append_nil]
  have hpass := (receivePass_passes (B := B) { s with client := { s.client with keepAliveTick := 0 } } pdata).connState
  have hreceiving := receivePass_receiving (B := B) { s with client := { s.client with keepAliveTick := 0 } } pdata
  by_cases hwaiting : s.client.connState = .MQTT_CONNECT_SENDING
  · have hread := readPacket_waiting (B := B) (s := { s with client := { s.client with keepAliveTick := 0 } })
      hwaiting pdata
    rw [← hreceiving] at hread
    rw [hnotes]
    constructor
    · intro hright _ htype hpos hlt hconnack
      exact hright (hread.mpr ⟨htype, hpos, hlt, hconnack⟩)
    · intro hconsents hs'
      obtain ⟨htype, hpos, hlt, hconnack⟩ := hread.mp hs'
      exact hconsents hwaiting htype hpos hlt hconnack
  · refine iff_of_true (hq.mono (fun hs' => ?_) hmono.1 hmono.2) fun hstate => absurd hstate hwaiting
    obtain hsame | ⟨hstate, _⟩ := hpass
    · show s.client.connState = _ ∨ s.client.connState = _
      rw [← show _ = s.client.connState from hsame]
      exact hs'
    · exact absurd hstate hwaiting

/-- Only a segment that is taken for the broker's consent can connect the client wrongly. -/
theorem sessionStep_connectedRightly (hsteady : Steady s) (hq : ConnectedRightly (s, g)) {a : Step B}
    (hstep : step s a = some s') : ConnectedRightly (s', g.observe s a s') ↔ ConsentsRightly (s, g) a := by
  by_cases hrecv : ∃ pdata, a = .recv pdata
  · obtain ⟨pdata, rfl⟩ := hrecv
    cases step_taken hstep with
    | recv => exact receiveFirst_connectedRightly hq pdata
  · have ha : ∀ pdata, a ≠ .recv pdata := fun pdata h => hrecv ⟨pdata, h⟩
    have hcondition : ConsentsRightly (s, g) a := by
      unfold ConsentsRightly
      split
      · exact absurd rfl (ha _)
      · trivial
    refine iff_of_true ?_ hcondition
    by_cases hconnect : a = .connectCb
    · subst hconnect
      cases step_taken hstep with
      | connectCb => exact fun hs' => absurd hs' (not_receiving (c := .MQTT_CONNECT_SENDING) rfl (by decide))
    · have hmono := g.observe_mono s hconnect s'
      exact hq.mono (step_receiving hsteady ha hstep) hmono.1 hmono.2

/-- **The client counts as connected only after the broker has accepted it, on a run exactly if no
segment is taken for the broker's consent that is not a complete CONNACK with return code 0 in
answer to a CONNECT.** -/
theorem connected_rightly_iff (hs : Starts B s) (steps : List (Step B)) :
    Always sessionStep ConnectedRightly (s, .empty) steps ↔ Meets sessionStep ConsentsRightly (s, .empty) steps := by
  obtain ⟨_, _, _, _, _, _, _, rfl⟩ := hs
  refine always_iff_meets (I := fun x => Steady x.1) ?_ ?_ ?_ ?_
  · intro x a x' _ hI hstep
    exact step_steady hI (observed_some hstep).1
  · intro x a x' _ hI hq hstep
    obtain ⟨s, g⟩ := x
    obtain ⟨s', g'⟩ := x'
    obtain ⟨hstep, hnotes⟩ := observed_some hstep
    have hnotes : g' = g.observe s a s' := hnotes
    subst hnotes
    exact sessionStep_connectedRightly hI hq hstep
  · exact .of_idle rfl
  · exact fun h => absurd h (not_receiving (c := .WIFI_INIT) rfl (by decide))

/-- A connection that the broker accepts. -/
theorem connected_rightly_iff_accepted : Always sessionStep ConnectedRightly (newClient, .empty) connecting :=
  (connected_rightly_iff newClient_starts _).mpr (by decide +kernel)

/-- The broker refuses the client with return code 5, and the client counts as connected. -/
theorem connected_after_refusal :
    (run sessionStep (newClient, .empty)
      ([.call (.connect none), .connectCb, .recv [0x20, 0x02, 0x00, 0x05]] : List (Step 64))).map
        (fun x => decide (ConnectedRightly x)) = some false := by
  decide +kernel

end LightSleepMqtt.Client
