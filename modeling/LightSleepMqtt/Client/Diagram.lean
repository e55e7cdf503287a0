import LightSleepMqtt.Client.Session
import LightSleepMqtt.Client.Network
import LightSleepMqtt.Library.History

/-! The connection diagram of `mqtt.c`: which handler takes `connState` where, and under what
condition. `step_edge` is the only look at the handlers that is needed for it; a run is a walk in the
diagram, which has twelve of the states on it. Whoever sends does so in a state that only a client
with an `espconn` can be in, also when an answer comes for one that has been freed. -/
namespace LightSleepMqtt.Client
open Message Queue Transition
set_option autoImplicit false

variable {B : ℕ} {s s' : Sys}

/-! ## The edges -/

/-- Where a disconnect callback leads. -/
def closedState : tConnState → tConnState
  | .TCP_DISCONNECTING => .TCP_DISCONNECTED
  | .MQTT_DELETING => .MQTT_DELETED
  | _ => .TCP_RECONNECT_REQ

/-- The segment is taken for the broker's consent. -/
structure TakenForConnack (B : ℕ) (s : Sys) (pdata : List UInt8) : Prop where
  waiting : s.client.connState = .MQTT_CONNECT_SENDING
  pending : s.client.mqtt_state.pending_msg_type = MQTT_MSG_TYPE_CONNECT
  nonempty : 0 < pdata.length
  fits : pdata.length < B
  connack : mqtt_get_type pdata = MQTT_MSG_TYPE_CONNACK

/-- The steps that set `connState`, with the state they set it to. -/
inductive Edge (s : Sys) : Step B → tConnState → Prop where
  | connect (resolved : Option ℕ) : Edge s (.call (.connect resolved)) .TCP_CONNECTING
  | disconnect : Edge s (.call .disconnect) .TCP_DISCONNECTING
  | deleteClient : Edge s (.call .deleteClient) .MQTT_DELETING
  | notFound : Edge s (.dnsFound none) .TCP_RECONNECT_REQ
  | found (addr : ℕ) (hip : s.client.ip = 0) (haddr : addr ≠ 0) : Edge s (.dnsFound (some addr)) .TCP_CONNECTING
  | connected : Edge s .connectCb .MQTT_CONNECT_SENDING
  | failed : Edge s .reconCb .TCP_RECONNECT_REQ
  | closed : Edge s .disconCb (closedState s.client.connState)
  | accepted {pdata : List UInt8} (htaken : TakenForConnack B s pdata) : Edge s (.recv pdata) .MQTT_DATA
  | idle (hdata : s.client.connState = .MQTT_DATA)
    (hdue : s.client.connect_info.keepalive % 4294967296 < tick s.client.keepAliveTick) :
    Edge s .timer .MQTT_KEEPALIVE_SEND
  | due (hwaits : s.client.connState = .TCP_RECONNECT_REQ)
    (hdue : MQTT_RECONNECT_TIMEOUT < tick s.client.reconnectTick) : Edge s .timer .TCP_RECONNECT
  | reconnect (hdue : s.client.connState = .TCP_RECONNECT) (locals : Locals B) (result : Bool) (resolved : Option ℕ) :
    Edge s (.task locals result resolved) .TCP_CONNECTING
  | pinged (hping : s.client.connState = .MQTT_KEEPALIVE_SEND) (locals : Locals B) (resolved : Option ℕ) :
    Edge s (.task locals true resolved) .MQTT_DATA
  | unsent (hping : s.client.connState = .MQTT_KEEPALIVE_SEND) (locals : Locals B) (resolved : Option ℕ) :
    Edge s (.task locals false resolved) .TCP_RECONNECT_DISCONNECTING

/-- A step follows an edge, or it leaves `connState` alone. -/
def Follows (s : Sys) (a : Step B) (connState : tConnState) : Prop :=
  Edge s a connState ∨ connState = s.client.connState

/-! ## The handlers -/

theorem callsBack_connState (registered : Bool) (callback : Callback) {rest : Sys → Sys}
    (hrest : (rest s).client.connState = s.client.connState) :
    (callsBack s registered callback rest).client.connState = s.client.connState := by
  unfold callsBack
  split
  · rfl
  · exact hrest

theorem mqtt_tcpclient_discon_cb_connState (s : Sys) :
    (mqtt_tcpclient_discon_cb s).client.connState = closedState s.client.connState := by
  refine (callsBack_connState s.client.disconnectedCb .disconnectedCb rfl).trans ?_
  show (if s.client.connState = .TCP_DISCONNECTING then _ else if s.client.connState = .MQTT_DELETING then _ else _) = _
  cases s.client.connState <;> rfl

theorem mqtt_tcpclient_sent_cb_connState (s : Sys) :
    (mqtt_tcpclient_sent_cb s).client.connState = s.client.connState := by
  simp only [mqtt_tcpclient_sent_cb]
  split
  · exact callsBack_connState _ _ rfl
  · rfl

theorem receiveFirst_edge (s : Sys) (pdata : List UInt8) :
    Follows s (.recv pdata : Step B) (receiveFirst s B pdata).client.connState := by
  obtain hsame | ⟨hwaiting, hdata⟩ :=
    (receivePass_passes (B := B) { s with client := { s.client with keepAliveTick := 0 } } pdata).connState
  · exact .inr hsame
  · left
    have hread := (receivePass_receiving (B := B) { s with client := { s.client with keepAliveTick := 0 } } pdata).mp
      (.inl hdata)
    obtain ⟨hpending, hpos, hlt, hconnack⟩ := (readPacket_waiting (B := B) hwaiting pdata).mp hread
    rw [receiveFirst, hdata]
    exact .accepted ⟨hwaiting, hpending, hpos, hlt, hconnack⟩

theorem returned_connState (h : Steady s) {callback : Callback} (hcallback : s.running = some callback) :
    (returned s B callback).client.connState = s.client.connState := by
  obtain ⟨_, hend⟩ | ⟨_, hend | ⟨pdata, registered, rest, rfl, hend⟩⟩ := returned_cases (B := B) s callback
  · rw [hend]
    rfl
  · rw [hend]
    rfl
  · rw [hend]
    obtain hsame | ⟨hwaiting, _⟩ := (receivePass_passes (B := B) { s with running := none } rest).connState
    · exact hsame
    · exact absurd hwaiting (h pdata registered hcallback)

theorem mqtt_timer_edge (s : Sys) : Follows s (.timer : Step B) (mqtt_timer s).client.connState := by
  simp only [mqtt_timer]
  split
  · rename_i hdata
    split
    · rename_i hdue
      exact .inl (.idle hdata hdue)
    · exact .inr rfl
  · split
    · rename_i hwaits
      split
      · rename_i hdue
        rw [callsBack_connState _ _ rfl]
        exact .inl (.due hwaits hdue)
      · exact .inr rfl
    · exact .inr rfl

theorem MQTT_Task_edge (s : Sys) (locals : Locals B) (result : Bool) (resolved : Option ℕ) :
    Follows s (.task locals result resolved) (MQTT_Task s locals result resolved).client.connState := by
  simp only [MQTT_Task]
  split
  · rename_i hdue
    exact .inl (.reconnect hdue locals result resolved)
  · exact .inr rfl
  · exact .inr rfl
  · rename_i hping
    cases result with
    | true => exact .inl (.pinged hping locals resolved)
    | false => exact .inl (.unsent hping locals resolved)
  · obtain ⟨_, hpump⟩ | ⟨_, _, _, _, _, _, hpump⟩ := pump_cases { s with posted := false } locals
    · rw [hpump]
      exact .inr rfl
    · rw [hpump]
      exact .inr rfl
  · exact .inr rfl

/-- **Every step stays within the diagram.** -/
theorem step_edge (h : Steady s) {a : Step B} (hstep : step s a = some s') : Follows s a s'.client.connState := by
  cases step_taken hstep with
  | @call c _ hexec =>
    cases c with
    | request r =>
      obtain ⟨connection, id, queue, posted, accepted, _, rfl⟩ := ApiCall.request_frame hexec
      exact .inr rfl
    | connect resolved =>
      obtain rfl := Option.some.inj hexec
      exact .inl (.connect resolved)
    | disconnect =>
      obtain rfl := Option.some.inj hexec
      exact .inl .disconnect
    | deleteClient =>
      obtain rfl := Option.some.inj hexec
      exact .inl .deleteClient
    | onConnected | onDisconnected | onData | onPublished | onTimeout | initLWT =>
      obtain rfl := Option.some.inj hexec
      exact .inr rfl
  | resume hcallback => exact .inr (returned_connState h hcallback)
  | dnsFound ipaddr =>
    cases ipaddr with
    | none => exact .inl .notFound
    | some addr =>
      simp only [mqtt_dns_found]
      split
      · rename_i hconnects
        exact .inl (.found addr hconnects.1 hconnects.2)
      · exact .inr rfl
  | connectCb => exact .inl .connected
  | reconCb => exact .inl .failed
  | disconCb =>
    rw [mqtt_tcpclient_discon_cb_connState]
    exact .inl .closed
  | recv pdata => exact receiveFirst_edge s pdata
  | sentCb => exact .inr (mqtt_tcpclient_sent_cb_connState s)
  | timer => exact mqtt_timer_edge s
  | task locals result resolved => exact MQTT_Task_edge s locals result resolved

/-! ## Runs -/

/-- Where the calls of the application lead. -/
def calledStates : List tConnState := [.TCP_CONNECTING, .TCP_DISCONNECTING, .MQTT_DELETING]

/-- Where the callbacks of the network lead, but for a CONNACK. -/
def calledBackStates (c : tConnState) : List tConnState :=
  [.TCP_CONNECTING, .TCP_RECONNECT_REQ, .MQTT_CONNECT_SENDING, closedState c]

/-- **The diagram.** Nothing is called back before the first `MQTT_Connect`. -/
def successors (c : tConnState) : List tConnState :=
  calledStates ++
    match c with
    | .WIFI_INIT => []
    | .MQTT_CONNECT_SENDING => .MQTT_DATA :: calledBackStates c
    | .MQTT_DATA => .MQTT_KEEPALIVE_SEND :: calledBackStates c
    | .MQTT_KEEPALIVE_SEND => .MQTT_DATA :: .TCP_RECONNECT_DISCONNECTING :: calledBackStates c
    | .TCP_RECONNECT_REQ => .TCP_RECONNECT :: calledBackStates c
    | c => calledBackStates c

/-- The states of the diagram; the others of `tConnState` are not used. -/
def Entered : tConnState → Prop
  | .WIFI_INIT | .TCP_CONNECTING | .MQTT_CONNECT_SENDING | .MQTT_DATA | .MQTT_KEEPALIVE_SEND | .TCP_RECONNECT_REQ
  | .TCP_RECONNECT | .TCP_RECONNECT_DISCONNECTING | .TCP_DISCONNECTING | .TCP_DISCONNECTED | .MQTT_DELETING
  | .MQTT_DELETED => True
  | _ => False

/-- Callbacks come for an `espconn`. -/
def Step.OfNetwork : Step B → Prop
  | .dnsFound _ | .connectCb | .reconCb | .disconCb | .recv _ | .sentCb => True
  | _ => False

theorem step_network {a : Step B} (ha : a.OfNetwork) (hstep : step s a = some s') : s.client.pCon.isSome = true := by
  have hand {handler : Sys → Sys} (h : onConnection s handler = some s') : s.client.pCon.isSome = true := by
    unfold onConnection at h
    split at h
    · rename_i hready
      exact hready.2
    · cases h
  cases a with
  | dnsFound | recv =>
    simp only [step] at hstep
    exact hand hstep
  | connectCb | reconCb | disconCb | sentCb => exact hand hstep
  | call | resume | timer | task => exact ha.elim

/-- The invariant of a walk: a client that has not been connected yet has no `espconn`. -/
structure Placed (s : Sys) : Prop where
  steady : Steady s
  fresh : s.client.connState = .WIFI_INIT → s.client.pCon.isSome = false

theorem Starts.placed (hs : Starts B s) : Placed s := by
  obtain ⟨_, _, _, _, _, _, _, rfl⟩ := hs
  exact ⟨.of_idle rfl, fun _ => rfl⟩

theorem Edge.ne_fresh {a : Step B} {c : tConnState} (h : Edge s a c) : c ≠ .WIFI_INIT := by
  cases h with
  | closed => cases s.client.connState <;> simp [closedState]
  | _ => simp

theorem Placed.step {a : Step B} (h : Placed s) (hstep : Client.step s a = some s') : Placed s' := by
  refine ⟨step_steady h.steady hstep, fun hfresh => ?_⟩
  obtain hedge | hsame := step_edge h.steady hstep
  · exact absurd hfresh hedge.ne_fresh
  · cases hconnect : runsConnect s a with
    | some resolved =>
      rw [(runsConnect_some hconnect hstep).2] at hfresh
      cases hfresh
    | none => rw [step_pCon hconnect hstep, h.fresh (hsame ▸ hfresh), Bool.false_and]

theorem mem_successors {c c' : tConnState} (hfresh : c ≠ .WIFI_INIT) (h : c' ∈ calledBackStates c) :
    c' ∈ successors c := by
  refine List.mem_append_right _ ?_
  cases c with
  | WIFI_INIT => exact absurd rfl hfresh
  | MQTT_CONNECT_SENDING | MQTT_DATA | TCP_RECONNECT_REQ => exact List.mem_cons_of_mem _ h
  | MQTT_KEEPALIVE_SEND => exact List.mem_cons_of_mem _ (List.mem_cons_of_mem _ h)
  | _ => exact h

theorem Edge.successor {a : Step B} {c : tConnState} (h : Edge s a c) (hs : Placed s) (hstep : Client.step s a = some s') :
    c ∈ successors s.client.connState := by
  have hcalled {c : tConnState} (hc : c ∈ calledStates) : c ∈ successors s.client.connState :=
    List.mem_append_left _ hc
  have hback {c : tConnState} (ha : a.OfNetwork) (hc : c ∈ calledBackStates s.client.connState) :
      c ∈ successors s.client.connState := by
    refine mem_successors (fun hfresh => ?_) hc
    cases (step_network ha hstep).symm.trans (hs.fresh hfresh)
  cases h with
  | connect | disconnect | deleteClient | reconnect => exact hcalled (by simp [calledStates])
  | notFound | found | connected | failed | closed => exact hback trivial (by simp [calledBackStates])
  | accepted htaken => rw [htaken.waiting]; simp [successors]
  | idle hdata => rw [hdata]; simp [successors]
  | due hwaits => rw [hwaits]; simp [successors]
  | pinged hping => rw [hping]; simp [successors]
  | unsent hping => rw [hping]; simp [successors]

theorem entered_successor {c c' : tConnState} (h : c' ∈ successors c) : Entered c' := by
  have hcalled : ∀ c' ∈ calledStates, Entered c' := by simp [calledStates, Entered]
  have hback (c : tConnState) : ∀ c' ∈ calledBackStates c, Entered c' := by
    cases c <;> simp [calledBackStates, closedState, Entered]
  obtain hin | hin := List.mem_append.mp h
  · exact hcalled c' hin
  · cases c with
    | WIFI_INIT => cases hin
    | MQTT_CONNECT_SENDING | MQTT_DATA | TCP_RECONNECT_REQ =>
      obtain rfl | hin := List.mem_cons.mp hin
      · trivial
      · exact hback _ c' hin
    | MQTT_KEEPALIVE_SEND =>
      obtain rfl | hin := List.mem_cons.mp hin
      · trivial
      · obtain rfl | hin := List.mem_cons.mp hin
        · trivial
        · exact hback _ c' hin
    | _ => exact hback _ c' hin

/-- The states a run passes. -/
abbrev walkStep (x : Sys × List tConnState) (a : Step B) : Option (Sys × List tConnState) :=
  observed step (walk fun s => s.client.connState) x a

/-- The states passed lead from `WIFI_INIT` to the one of the client along the diagram. -/
def WalksDiagram (x : Sys × List tConnState) : Prop :=
  Walked (fun s : Sys => s.client.connState) (fun c c' => c' ∈ successors c) .WIFI_INIT x ∧ ∀ c ∈ x.2, Entered c

/-- **Every run is a walk in the diagram.** -/
theorem run_walks_diagram (hs : Starts B s) (steps : List (Step B)) :
    Always walkStep WalksDiagram (s, [.WIFI_INIT]) steps := by
  have hfirst : s.client.connState = .WIFI_INIT := by
    obtain ⟨_, _, _, _, _, _, _, rfl⟩ := hs
    rfl
  have hwalks : Always walkStep (Walked (fun s : Sys => s.client.connState) (fun c c' => c' ∈ successors c)
      s.client.connState) (s, [s.client.connState]) steps :=
    always_walked Placed (fun h hstep => h.step hstep)
      (fun h hstep => (step_edge h.steady hstep).symm.imp_right fun hedge => hedge.successor h hstep) hs.placed steps
  rw [hfirst] at hwalks
  exact hwalks.mono fun h => ⟨h, h.forall trivial fun hR _ => entered_successor hR⟩

theorem run_walks_diagram_connecting :
    Always walkStep WalksDiagram (newClient, [.WIFI_INIT]) (connecting ++ [.disconCb, .timer]) :=
  run_walks_diagram newClient_starts _

/-! ## Sending -/

/-- A client that may send has an `espconn`. -/
structure Sendable (s : Sys) : Prop where
  steady : Steady s
  connected : Receiving s ∨ s.client.connState = .MQTT_CONNECT_SENDING → s.client.pCon.isSome = true

theorem World.follow_sys (w : World) (a : Step B) (outcome : Outcome) (sys : Sys) :
    (w.follow a outcome sys).sys = sys := by
  rw [World.follow]
  split <;> rfl

theorem mqtt_dns_found_handedOver (s : Sys) (ipaddr : Option ℕ) : handedOver s (mqtt_dns_found s ipaddr) = [] := by
  refine handedOver_nothing ?_ (mqtt_dns_found_neutral (B := 0) s ipaddr).pumped
  cases ipaddr with
  | none => rfl
  | some addr =>
    simp only [mqtt_dns_found]
    split <;> rfl

/-- Only a CONNECT and what a receiving client hands over goes to the network. -/
theorem step_sends {a : Step B} (hstep : step s a = some s') (hsends : handedOver s s' ≠ []) :
    a = .connectCb ∨ (∃ locals result resolved, a = .task locals result resolved) ∧ Receiving s := by
  have hunsent (h : Unsent s s') : False := hsends (handedOver_nothing h.control h.pumped)
  cases step_taken hstep with
  | @call c _ hexec =>
    cases c with
    | request r =>
      obtain ⟨connection, id, queue, posted, accepted, _, rfl⟩ := ApiCall.request_frame hexec
      exact absurd (handedOver_nothing rfl rfl) hsends
    | connect resolved =>
      obtain rfl := Option.some.inj hexec
      exact (hunsent (MQTT_Connect_unsent s resolved)).elim
    | disconnect | deleteClient | onConnected | onDisconnected | onData | onPublished | onTimeout | initLWT =>
      obtain rfl := Option.some.inj hexec
      exact absurd (handedOver_nothing rfl rfl) hsends
  | resume => exact (hunsent (returned_unsent s _)).elim
  | dnsFound ipaddr => exact absurd (mqtt_dns_found_handedOver s ipaddr) hsends
  | connectCb => exact .inl rfl
  | reconCb => exact absurd (handedOver_nothing rfl rfl) hsends
  | disconCb =>
    refine absurd (handedOver_nothing ?_ (mqtt_tcpclient_discon_cb_neutral (B := B) s).pumped) hsends
    simp only [mqtt_tcpclient_discon_cb, callsBack]
    split_ifs <;> rfl
  | recv pdata => exact absurd (receiveFirst_handedOver s pdata) hsends
  | sentCb =>
    refine absurd (handedOver_nothing ?_ (mqtt_tcpclient_sent_cb_neutral (B := B) s).pumped) hsends
    simp only [mqtt_tcpclient_sent_cb, callsBack]
    split_ifs <;> rfl
  | timer => exact (hunsent (mqtt_timer_unsent s)).elim
  | task locals result resolved =>
    obtain ⟨_, h, _⟩ | ⟨hping, _⟩ | ⟨hdata, _⟩ := MQTT_Task_cases s locals result resolved
    · exact (hunsent h).elim
    · exact .inr ⟨⟨locals, result, resolved, rfl⟩, .inr hping⟩
    · exact .inr ⟨⟨locals, result, resolved, rfl⟩, .inl hdata⟩

theorem Sendable.step {a : Step B} (h : Sendable s) (hstep : Client.step s a = some s') : Sendable s' := by
  refine ⟨step_steady h.steady hstep, fun hstate => ?_⟩
  cases hconnect : runsConnect s a with
  | some resolved => exact (runsConnect_some hconnect hstep).1
  | none =>
    -- the task frees the `espconn` in states that do not send
    have hkept (hbefore : s.client.pCon.isSome = true) (hdeletes : deletes s a = false) :
        s'.client.pCon.isSome = true := by
      rw [step_pCon hconnect hstep, hbefore, hdeletes]
      rfl
    have hnever {c : tConnState} (hc : s'.client.connState = c)
        (hne : c ≠ .MQTT_DATA ∧ c ≠ .MQTT_KEEPALIVE_SEND ∧ c ≠ .MQTT_CONNECT_SENDING) : False := by
      rcases hstate with (hdata | hping) | hwaiting
      · exact hne.1 (hc.symm.trans hdata)
      · exact hne.2.1 (hc.symm.trans hping)
      · exact hne.2.2 (hc.symm.trans hwaiting)
    obtain hedge | hsame := step_edge h.steady hstep
    · revert hnever
      generalize hafter : s'.client.connState = c at hedge
      intro hnever
      cases hedge with
      | connected | accepted =>
        have hbefore := step_network (by trivial) hstep
        exact hkept hbefore rfl
      | idle hdata => exact hkept (h.connected (.inl (.inl hdata))) rfl
      | pinged hping locals resolved =>
        refine hkept (h.connected (.inl (.inr hping))) ?_
        simp [deletes, hping]
      | closed => exact (hnever rfl (by cases s.client.connState <;> simp [closedState])).elim
      | _ => exact (hnever rfl (by simp)).elim
    · unfold Receiving at hstate
      rw [hsame] at hstate
      refine hkept (h.connected hstate) ?_
      cases a with
      | task locals result resolved =>
        rw [deletes, decide_eq_false_iff_not]
        rintro (hclosed | hdeleted)
        · rw [hclosed] at hstate
          simp at hstate
        · rw [hdeleted] at hstate
          simp at hstate
      | _ => rfl

theorem Sendable.event {w w' : World} {e : Event B} (h : Sendable w.sys) (hstep : w.step e = some w') :
    Sendable w'.sys := by
  cases e with
  | client a outcome =>
    obtain ⟨_, sys, hsys, rfl⟩ := World.step_client hstep
    rw [w.follow_sys]
    exact h.step hsys
  | answer query ipaddr accepted =>
    simp only [World.step, World.answer] at hstep
    split at hstep
    · rename_i hand
      obtain rfl := Option.some.inj hstep
      refine ⟨.of_idle ?_, fun hstate => ?_⟩
      · cases ipaddr with
        | none => exact hand.1
        | some addr =>
          simp only [mqtt_dns_found]
          split <;> exact hand.1
      · simp only [mqtt_dns_found_pCon]
        apply h.connected
        cases ipaddr with
        | none => simp [mqtt_dns_found, setConnState, Receiving] at hstate
        | some addr =>
          simp only [mqtt_dns_found] at hstate
          split at hstate
          · simp [setConnState, system_os_post, Receiving] at hstate
          · exact hstate
    · cases hstep
  | goToSleep =>
    simp only [World.step] at hstep
    split at hstep
    · rw [← Option.some.inj hstep]
      exact h
    · cases hstep

/-- **Whatever is passed to `espconn_send` goes to an `espconn` that has not been freed**, in every order
of calls, callbacks, ticks, tasks and answers, also of answers to queries of a freed one. -/
theorem run_sends_connected (hs : Starts B s) {events : List (Event B)} {w w' : World} {e : Event B}
    (hrun : run World.step (.start s) events = some w) (hstep : w.step e = some w')
    (hsends : handedOver w.sys w'.sys ≠ []) : w.sys.client.pCon.isSome = true := by
  have hstart : Sendable s := by
    obtain ⟨_, _, _, _, _, _, _, rfl⟩ := hs
    refine ⟨.of_idle rfl, fun hstate => ?_⟩
    simp [Receiving, MQTT_InitClient, MQTT_InitConnection] at hstate
  have hw : Sendable w.sys :=
    run_invariant (I := fun w : World => Sendable w.sys) (fun h hstep => h.event hstep) hstart hrun
  cases e with
  | client a outcome =>
    obtain ⟨_, sys, hsys, rfl⟩ := World.step_client hstep
    rw [w.follow_sys] at hsends
    obtain rfl | ⟨_, hreceiving⟩ := step_sends hsys hsends
    · exact step_network (by trivial) hsys
    · exact hw.connected (.inl hreceiving)
  | answer query ipaddr accepted =>
    obtain ⟨_, rfl⟩ := World.answer_some hstep
    exact absurd (mqtt_dns_found_handedOver w.sys ipaddr) hsends
  | goToSleep =>
    simp only [World.step] at hstep
    split at hstep
    · rw [← Option.some.inj hstep] at hsends
      exact absurd (handedOver_nothing rfl rfl) hsends
    · cases hstep

/-- The CONNECT behind the first connection. -/
theorem run_sends_connected_connect :
    ∃ w w', run World.step (.start newClient) [.client (.call (.connect none) : Step 64) ⟨true, false⟩] = some w ∧
      w.step (.client (.connectCb : Step 64) ⟨true, false⟩) = some w' ∧ handedOver w.sys w'.sys ≠ [] ∧
        w.sys.client.pCon.isSome = true := by
  have hsome : ∃ w, run World.step (.start newClient) [.client (.call (.connect none) : Step 64) ⟨true, false⟩] = some w ∧
      ∃ w', w.step (.client (.connectCb : Step 64) ⟨true, false⟩) = some w' ∧ handedOver w.sys w'.sys ≠ [] := by
    refine ⟨_, rfl, _, rfl, ?_⟩
    decide +kernel
  obtain ⟨w, hrun, w', hstep, hsends⟩ := hsome
  exact ⟨w, w', hrun, hstep, hsends, run_sends_connected newClient_starts hrun hstep hsends⟩

end LightSleepMqtt.Client
