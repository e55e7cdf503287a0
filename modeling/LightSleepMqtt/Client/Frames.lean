import LightSleepMqtt.Client.Order

/-! What the steps with a loop or a buffer inside leave alone. A call that queues a packet, a
pass of the receive handler and the branch of the task that sends are described by the fields
they may write; everything a later module asks about the other fields is read off these
descriptions. -/
namespace LightSleepMqtt.Client
open Message MqttWire Queue DropQueue Transition
set_option autoImplicit false

variable {B : ℕ} {s s' : Sys}

/-! ## The calls that queue a packet -/

theorem Request.prepare_frame (s : Sys) (r : Request B) :
    ∃ connection pending_msg_id, r.prepare s = setOutbound s connection pending_msg_id := by
  cases r <;> exact ⟨_, _, rfl⟩

theorem Request.exec_frame (r : Request B) {ok : Bool} (hexec : r.exec s = some (s', ok)) :
    ∃ queue posted accepted, (s.posted = true → posted = true) ∧
      s' = { r.prepare s with
        client := { (r.prepare s).client with msgQueue := queue }, posted := posted, accepted := accepted } := by
  obtain ⟨connection, pending, hprepare⟩ := r.prepare_frame s
  rw [r.exec_eq] at hexec
  rw [hprepare] at hexec ⊢
  split at hexec
  · obtain ⟨rfl, rfl⟩ := Prod.mk.inj (Option.some.inj hexec)
    exact ⟨_, _, _, fun hposted => hposted, rfl⟩
  · unfold queueOutbound at hexec
    split at hexec
    · cases hexec
    · obtain ⟨rfl, rfl⟩ := Prod.mk.inj (Option.some.inj hexec)
      exact ⟨_, _, _, fun hposted => hposted, rfl⟩
    · obtain ⟨rfl, rfl⟩ := Prod.mk.inj (Option.some.inj hexec)
      exact ⟨_, _, _, fun _ => rfl, rfl⟩

/-- A call that queues a packet writes its message, the identifier it waits for and the queue. -/
theorem ApiCall.request_frame {r : Request B} (hexec : (ApiCall.request r).exec s = some s') :
    ∃ connection pending_msg_id queue posted accepted, (s.posted = true → posted = true) ∧
      s' = { setOutbound s connection pending_msg_id with
        client := { (setOutbound s connection pending_msg_id).client with msgQueue := queue }
        posted := posted, accepted := accepted } := by
  obtain ⟨⟨t, ok⟩, hok, rfl⟩ := Option.map_eq_some_iff.mp hexec
  obtain ⟨connection, pending, hprepare⟩ := r.prepare_frame s
  obtain ⟨queue, posted, accepted, hposted, rfl⟩ := r.exec_frame hok
  rw [hprepare]
  exact ⟨_, _, _, _, _, hposted, rfl⟩

/-! ## The receive handler -/

/-- What the switch writes: the outgoing message, the queue, and the two records. -/
theorem switchType_frame (s : Sys) (msg_type msg_qos msg_id : ℕ) :
    ∃ connection queue accepted delivered, switchType s msg_type msg_qos msg_id =
      { s with
        client := { s.client with
          msgQueue := queue, mqtt_state := { s.client.mqtt_state with mqtt_connection := connection } }
        accepted := accepted, delivered := delivered } := by
  simp only [switchType, deliver_publish]
  split_ifs <;> exact ⟨_, _, _, _, rfl⟩

/-- What a pass does to the fields that steer the client: it may connect a client that waits for
its CONNACK, and leaves them alone otherwise. -/
structure Passes (s s' : Sys) : Prop where
  pCon : s'.client.pCon = s.client.pCon
  host : s'.client.host = s.client.host
  ip : s'.client.ip = s.client.ip
  connect_info : s'.client.connect_info = s.client.connect_info
  keepAliveTick : s'.client.keepAliveTick = s.client.keepAliveTick
  sendTimeout : s'.client.sendTimeout = s.client.sendTimeout
  pending_msg_type : s'.client.mqtt_state.pending_msg_type = s.client.mqtt_state.pending_msg_type
  pending_msg_id : s'.client.mqtt_state.pending_msg_id = s.client.mqtt_state.pending_msg_id
  posted : s.posted = true → s'.posted = true
  pumped : s'.pumped = s.pumped
  control : s'.control = s.control
  connState : s'.client.connState = s.client.connState ∨
    s.client.connState = .MQTT_CONNECT_SENDING ∧ s'.client.connState = .MQTT_DATA

theorem readPacket_passes (s : Sys) (pdata : List UInt8) : Passes s (readPacket B s pdata).1 := by
  obtain ⟨type, qos, id, pass, _, _, _, hpass⟩ | ⟨buffer, hstate, hpass⟩ | ⟨buffer, hpass⟩ :=
    readPacket_cases B s pdata
  · obtain ⟨connection, queue, accepted, delivered, hswitch⟩ := switchType_frame (loaded s pdata) type qos id
    rw [hpass, hswitch]
    exact ⟨rfl, rfl, rfl, rfl, rfl, rfl, rfl, rfl, fun h => h, rfl, rfl, Or.inl rfl⟩
  · rw [hpass]
    exact ⟨rfl, rfl, rfl, rfl, rfl, rfl, rfl, rfl, fun h => h, rfl, rfl, Or.inr ⟨hstate, rfl⟩⟩
  · rw [hpass]
    exact ⟨rfl, rfl, rfl, rfl, rfl, rfl, rfl, rfl, fun h => h, rfl, rfl, Or.inl rfl⟩

theorem receivePass_passes (s : Sys) (pdata : List UInt8) : Passes s (receivePass s B pdata) := by
  have hread := readPacket_passes (B := B) s pdata
  unfold receivePass callsBack
  generalize readPacket B s pdata = out at hread ⊢
  obtain ⟨t, _ | _ | _⟩ := out
  · exact { hread with posted := fun _ => rfl }
  · simp only
    split
    · exact { hread with }
    · exact { hread with posted := fun _ => rfl }
  · exact { hread with }

/-! ## Steps between handlers -/

/-- The steps that are neither calls of the application nor returns of its callbacks. -/
def Step.OfSurroundings : Step B → Prop
  | .call _ | .resume => False
  | _ => True

theorem step_idle {a : Step B} (hstep : step s a = some s') (ha : a.OfSurroundings) : s.running = none := by
  cases a with
  | call | resume => exact ha.elim
  | timer =>
    by_contra hrunning
    rw [step, if_neg hrunning] at hstep
    cases hstep
  | task =>
    by_contra hrunning
    rw [step, if_neg fun hand => hrunning hand.1] at hstep
    cases hstep
  | dnsFound | recv =>
    simp only [step] at hstep
    exact (onConnection_some hstep).1
  | connectCb | reconCb | disconCb | sentCb => exact (onConnection_some hstep).1

/-! ## The end of a handler -/

/-- What is left of a handler: the countdown of `sendTimeout` behind `timeoutCb`, another pass
behind `dataCb`, a post otherwise. -/
theorem returned_cases (s : Sys) (callback : Callback) :
    callback = .timeoutCb ∧ returned s B callback = countSendTimeout { s with running := none } ∨
      callback ≠ .timeoutCb ∧ (returned s B callback = system_os_post { s with running := none } ∨
        ∃ pdata registered rest, callback = .dataCb pdata registered ∧
          returned s B callback = receivePass { s with running := none } B rest) := by
  cases callback with
  | timeoutCb => exact Or.inl ⟨rfl, rfl⟩
  | connectedCb | disconnectedCb | publishedCb => exact Or.inr ⟨by simp, Or.inl rfl⟩
  | dataCb pdata registered =>
    refine Or.inr ⟨by simp, ?_⟩
    simp only [returned]
    cases nextPacket _ pdata with
    | none => exact Or.inl rfl
    | some rest => exact Or.inr ⟨_, _, _, rfl, rfl⟩

/-! ## The task -/

/-- The task sends a packet of the queue, or writes nothing but the queue. -/
theorem pump_cases (s : Sys) (locals : Locals B) :
    (∃ queue, pump s locals = { s with client := { s.client with msgQueue := queue } }) ∨
      ∃ queue dataBuffer dataLen, QUEUE_IsEmpty s.client.msgQueue = false ∧ s.client.sendTimeout = 0 ∧
        QUEUE_Gets s.client.msgQueue locals.dataBuffer (UInt16.ofNat B) (locals.isBegin 0) =
          (queue, some (dataBuffer, dataLen)) ∧
        pump s locals = { s with
          client := { s.client with
            msgQueue := queue
            sendTimeout := MQTT_SEND_TIMOUT
            mqtt_state := { s.client.mqtt_state with
              pending_msg_type := mqtt_get_type dataBuffer
              pending_msg_id := mqtt_get_id dataBuffer dataLen } }
          pumped := s.pumped ++ [dataBuffer.take dataLen] } := by
  unfold pump
  split
  · exact Or.inl ⟨s.client.msgQueue, rfl⟩
  · rename_i hready
    rw [not_or, not_not] at hready
    split
    · exact Or.inl ⟨_, rfl⟩
    · rename_i queue dataBuffer dataLen hgets
      exact Or.inr ⟨queue, dataBuffer, dataLen, Bool.eq_false_iff.mpr hready.1, hready.2, hgets, rfl⟩

theorem MQTT_Connect_running (s : Sys) (resolved : Option ℕ) : (MQTT_Connect s resolved).running = s.running := by
  simp only [MQTT_Connect]
  split <;> split <;> rfl

theorem MQTT_Task_running (hs : s.running = none) (locals : Locals B) (result : Bool) (resolved : Option ℕ) :
    (MQTT_Task s locals result resolved).running = none := by
  simp only [MQTT_Task]
  split
  · exact (MQTT_Connect_running _ resolved).trans hs
  · exact hs
  · exact hs
  · cases result <;> exact hs
  · obtain ⟨queue, hpump⟩ | ⟨queue, dataBuffer, dataLen, _, _, _, hpump⟩ := pump_cases { s with posted := false } locals
    · rw [hpump]
      exact hs
    · rw [hpump]
      exact hs
  · exact hs

end LightSleepMqtt.Client
