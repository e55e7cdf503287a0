import LightSleepMqtt.Client.Diagram
import LightSleepMqtt.Client.Keepalive

/-! The pace of the client. `mqtt_timer` counts the ticks without a connection and those without
traffic: the task cannot reconnect more often than every sixth tick, nor call `mqtt_send_keepalive` more
often than the keepalive time allows, in whatever order everything else happens. A connection that stays
lost is dialled again on the sixth tick that `reconnectTick` counts, neither earlier nor later. -/
namespace LightSleepMqtt.Client
open Message Queue Transition
set_option autoImplicit false

variable {B : ℕ} {s s' : Sys}

/-! ## The counters between the ticks -/

/-- What a step that is not a tick does to the counters. -/
structure Clocks (s : Sys) (a : Step B) (s' : Sys) : Prop where
  reconnectTick : s'.client.reconnectTick = if (runsConnect s a).isSome then 0 else s.client.reconnectTick
  keepAliveTick : s'.client.keepAliveTick = s.client.keepAliveTick ∨ s'.client.keepAliveTick = 0
  keepalive : s'.client.connect_info.keepalive = s.client.connect_info.keepalive

theorem receivePass_reconnectTick (s : Sys) (pdata : List UInt8) :
    (receivePass s B pdata).client.reconnectTick = s.client.reconnectTick := by
  have hread : (readPacket B s pdata).1.client.reconnectTick = s.client.reconnectTick := by
    obtain ⟨type, qos, id, pass, _, _, _, hpass⟩ | ⟨buffer, _, hpass⟩ | ⟨buffer, hpass⟩ := readPacket_cases B s pdata
    · obtain ⟨connection, queue, accepted, delivered, hswitch⟩ := switchType_frame (loaded s pdata) type qos id
      rw [hpass, hswitch]
      rfl
    · rw [hpass]
      rfl
    · rw [hpass]
      rfl
  unfold receivePass callsBack
  generalize readPacket B s pdata = out at hread ⊢
  obtain ⟨t, _ | _ | _⟩ := out
  · exact hread
  · simp only
    split <;> exact hread
  · exact hread

theorem returned_clocks {callback : Callback} : Clocks s (.resume : Step B) (returned s B callback) := by
  obtain ⟨_, hend⟩ | ⟨_, hend | ⟨_, _, rest, _, hend⟩⟩ := returned_cases (B := B) s callback
  · rw [hend]
    exact ⟨rfl, .inl rfl, rfl⟩
  · rw [hend]
    exact ⟨rfl, .inl rfl, rfl⟩
  · rw [hend]
    have hpass := receivePass_passes (B := B) { s with running := none } rest
    exact ⟨receivePass_reconnectTick _ rest, .inl hpass.keepAliveTick, congrArg _ hpass.connect_info⟩

theorem MQTT_Connect_clocks (s : Sys) (resolved : Option ℕ) :
    (MQTT_Connect s resolved).client.reconnectTick = 0 ∧ (MQTT_Connect s resolved).client.keepAliveTick = 0 ∧
      (MQTT_Connect s resolved).client.connect_info = s.client.connect_info := by
  simp only [MQTT_Connect]
  split <;> split <;> exact ⟨rfl, rfl, rfl⟩

theorem MQTT_Task_clocks (s : Sys) (locals : Locals B) (result : Bool) (resolved : Option ℕ) :
    Clocks s (.task locals result resolved) (MQTT_Task s locals result resolved) := by
  have hidle (hstate : s.client.connState ≠ .TCP_RECONNECT) {s' : Sys}
      (htick : s'.client.reconnectTick = s.client.reconnectTick) :
      s'.client.reconnectTick =
        if (runsConnect s (.task locals result resolved)).isSome then 0 else s.client.reconnectTick := by
    rw [htick, runsConnect, if_neg hstate]
    rfl
  simp only [MQTT_Task]
  split
  · rename_i hstate
    obtain ⟨hreconnect, hkeep, hinfo⟩ := MQTT_Connect_clocks (mqtt_tcpclient_delete { s with posted := false }) resolved
    refine ⟨?_, .inr hkeep, congrArg _ hinfo⟩
    rw [runsConnect, if_pos hstate]
    exact hreconnect
  · rename_i hstate
    exact ⟨hidle (by rw [hstate]; decide) rfl, .inl rfl, rfl⟩
  · rename_i hstate
    exact ⟨hidle (by rw [hstate]; decide) rfl, .inl rfl, rfl⟩
  · rename_i hstate
    cases result with
    | true => exact ⟨hidle (by rw [hstate]; decide) rfl, .inr rfl, rfl⟩
    | false => exact ⟨hidle (by rw [hstate]; decide) rfl, .inl rfl, rfl⟩
  · rename_i hstate
    obtain ⟨_, hpump⟩ | ⟨_, _, _, _, _, _, hpump⟩ := pump_cases { s with posted := false } locals
    · rw [hpump]
      exact ⟨hidle (by rw [hstate]; decide) rfl, .inl rfl, rfl⟩
    · rw [hpump]
      exact ⟨hidle (by rw [hstate]; decide) rfl, .inl rfl, rfl⟩
  · rename_i hother _ _ _ _
    exact ⟨hidle hother rfl, .inl rfl, rfl⟩

theorem step_clocks {a : Step B} (ha : a ≠ .timer) (hstep : step s a = some s') : Clocks s a s' := by
  cases step_taken hstep with
  | @call c _ hexec =>
    cases c with
    | request r =>
      obtain ⟨connection, id, queue, posted, accepted, _, rfl⟩ := ApiCall.request_frame hexec
      exact ⟨rfl, .inl rfl, rfl⟩
    | connect resolved =>
      obtain rfl := Option.some.inj hexec
      obtain ⟨hreconnect, hkeep, hinfo⟩ := MQTT_Connect_clocks s resolved
      exact ⟨hreconnect, .inr hkeep, congrArg _ hinfo⟩
    | disconnect | deleteClient | onConnected | onDisconnected | onData | onPublished | onTimeout | initLWT =>
      obtain rfl := Option.some.inj hexec
      exact ⟨rfl, .inl rfl, rfl⟩
  | resume => exact returned_clocks
  | dnsFound ipaddr =>
    cases ipaddr with
    | none => exact ⟨rfl, .inl rfl, rfl⟩
    | some addr =>
      simp only [mqtt_dns_found]
      split <;> exact ⟨rfl, .inl rfl, rfl⟩
  | connectCb | reconCb => exact ⟨rfl, .inl rfl, rfl⟩
  | disconCb =>
    simp only [mqtt_tcpclient_discon_cb, callsBack]
    split_ifs <;> exact ⟨rfl, .inl rfl, rfl⟩
  | recv pdata =>
    have hpass := receivePass_passes (B := B) { s with client := { s.client with keepAliveTick := 0 } } pdata
    exact ⟨receivePass_reconnectTick _ pdata, .inr hpass.keepAliveTick, congrArg _ hpass.connect_info⟩
  | sentCb =>
    simp only [mqtt_tcpclient_sent_cb, callsBack]
    split_ifs <;> exact ⟨rfl, .inr rfl, rfl⟩
  | timer => exact absurd rfl ha
  | task locals result resolved => exact MQTT_Task_clocks s locals result resolved

/-! ## Ticks -/

theorem tick_le (n : ℕ) : tick n ≤ n + 1 := Nat.mod_le _ _

/-- What a tick does: it counts on in one of the two states, or it sets the client going. -/
inductive Ticked (s s' : Sys) : Prop where
  | quiet (hstate : s'.client.connState = s.client.connState) (hdata : s.client.connState ≠ .MQTT_DATA)
    (hlost : s.client.connState ≠ .TCP_RECONNECT_REQ) (hreconnect : s'.client.reconnectTick = s.client.reconnectTick)
    (hkeep : s'.client.keepAliveTick = s.client.keepAliveTick)
  | counted (hstate : s'.client.connState = s.client.connState) (hdata : s.client.connState = .MQTT_DATA)
    (hreconnect : s'.client.reconnectTick = s.client.reconnectTick)
    (hkeep : s'.client.keepAliveTick = tick s.client.keepAliveTick)
  | idle (hstate : s'.client.connState = .MQTT_KEEPALIVE_SEND) (hdata : s.client.connState = .MQTT_DATA)
    (hdue : keepaliveTime s < tick s.client.keepAliveTick) (hreconnect : s'.client.reconnectTick = s.client.reconnectTick)
  | waited (hstate : s'.client.connState = s.client.connState) (hlost : s.client.connState = .TCP_RECONNECT_REQ)
    (hearly : tick s.client.reconnectTick ≤ MQTT_RECONNECT_TIMEOUT)
    (hreconnect : s'.client.reconnectTick = tick s.client.reconnectTick)
  | due (hstate : s'.client.connState = .TCP_RECONNECT) (hlost : s.client.connState = .TCP_RECONNECT_REQ)
    (hdue : MQTT_RECONNECT_TIMEOUT < tick s.client.reconnectTick) (hreconnect : s'.client.reconnectTick = 0)
    (hposted : s'.posted = true)

theorem mqtt_timer_ticked (s : Sys) :
    Ticked s (mqtt_timer s) ∧ (mqtt_timer s).client.connect_info = s.client.connect_info := by
  simp only [mqtt_timer]
  split
  · rename_i hdata
    split
    · rename_i hdue
      exact ⟨.idle rfl hdata hdue rfl, rfl⟩
    · exact ⟨.counted rfl hdata rfl rfl, rfl⟩
  · rename_i hdata
    split
    · rename_i hlost
      split
      · rename_i hdue
        unfold callsBack
        split <;> exact ⟨.due rfl hlost hdue rfl rfl, rfl⟩
      · rename_i hearly
        exact ⟨.waited rfl hlost (Nat.le_of_not_lt hearly) rfl, rfl⟩
    · rename_i hlost
      exact ⟨.quiet rfl hdata hlost rfl rfl, rfl⟩

theorem step_keepaliveTime {a : Step B} (hstep : step s a = some s') : keepaliveTime s' = keepaliveTime s := by
  rw [keepaliveTime, keepaliveTime]
  by_cases ha : a = .timer
  · subst ha
    cases step_taken hstep with
    | timer => rw [(mqtt_timer_ticked s).2]
  · rw [(step_clocks ha hstep).keepalive]

/-! ## What the ticks pay for -/

/-- The task calls `MQTT_Connect`. -/
def reconnects (s : Sys) : Step B → Bool
  | .task .. => decide (s.client.connState = .TCP_RECONNECT)
  | _ => false

/-- The task sends a PINGREQ. -/
def pings (s : Sys) : Step B → Bool
  | .task .. => decide (s.client.connState = .MQTT_KEEPALIVE_SEND)
  | _ => false

def ticks (_ : Sys) : Step B → Bool
  | .timer => true
  | _ => false

/-- The ticks without a connection that no reconnect has used up. -/
def reconnectPotential (s : Sys) : ℕ :=
  s.client.reconnectTick + if s.client.connState = .TCP_RECONNECT then MQTT_RECONNECT_TIMEOUT + 1 else 0

/-- The ticks without traffic that no ping has used up. -/
def pingPotential (s : Sys) : ℕ :=
  if s.client.connState = .MQTT_KEEPALIVE_SEND then (keepaliveTime s).toNat + 1
  else if s.client.connState = .MQTT_DATA then s.client.keepAliveTick else 0

theorem reconnectPotential_le (htick : s'.client.reconnectTick ≤ s.client.reconnectTick)
    (hstate : s'.client.connState = .TCP_RECONNECT → s.client.connState = .TCP_RECONNECT) :
    reconnectPotential s' ≤ reconnectPotential s := by
  unfold reconnectPotential
  by_cases hdue : s'.client.connState = .TCP_RECONNECT
  · rw [if_pos hdue, if_pos (hstate hdue)]
    omega
  · rw [if_neg hdue]
    omega

theorem pingPotential_of_state {c : tConnState} (h : s.client.connState = c)
    (hc : c ≠ .MQTT_KEEPALIVE_SEND ∧ c ≠ .MQTT_DATA) : pingPotential s = 0 := by
  rw [pingPotential, h, if_neg hc.1, if_neg hc.2]

theorem pingPotential_data (h : s.client.connState = .MQTT_DATA) : pingPotential s = s.client.keepAliveTick := by
  rw [pingPotential, h, if_neg (by decide), if_pos rfl]

theorem pingPotential_due (h : s.client.connState = .MQTT_KEEPALIVE_SEND) :
    pingPotential s = (keepaliveTime s).toNat + 1 := if_pos h

theorem step_reconnectPotential (h : Steady s) {a : Step B} (hstep : step s a = some s') :
    reconnectPotential s' + (MQTT_RECONNECT_TIMEOUT + 1) * (reconnects s a).toNat ≤
      reconnectPotential s + (ticks s a).toNat := by
  by_cases ha : a = .timer
  · subst ha
    cases step_taken hstep with
    | timer =>
      have hle := tick_le s.client.reconnectTick
      show reconnectPotential (mqtt_timer s) ≤ reconnectPotential s + 1
      cases (mqtt_timer_ticked s).1 with
      | quiet hstate _ _ hreconnect _ | counted hstate _ hreconnect _ =>
        exact Nat.le_succ_of_le (reconnectPotential_le (Nat.le_of_eq hreconnect) (hstate ▸ id))
      | idle hstate _ _ hreconnect =>
        refine Nat.le_succ_of_le (reconnectPotential_le (Nat.le_of_eq hreconnect) fun hdue => ?_)
        cases hstate.symm.trans hdue
      | waited hstate hlost _ hreconnect =>
        rw [reconnectPotential, reconnectPotential, hstate, hlost, hreconnect]
        simp only [reduceCtorEq, if_false]
        omega
      | due hstate hlost hdue hreconnect _ =>
        rw [reconnectPotential, reconnectPotential, hstate, hlost, hreconnect]
        simp only [reduceCtorEq, if_true, if_false]
        omega
  · have hclocks := step_clocks ha hstep
    have hticks : ticks s a = false := by
      cases a with
      | timer => exact absurd rfl ha
      | _ => rfl
    rw [hticks]
    cases hreconnects : reconnects s a with
    | true =>
      cases a with
      | task locals result resolved =>
        have hdue : s.client.connState = .TCP_RECONNECT := of_decide_eq_true hreconnects
        have hconnect : runsConnect s (.task locals result resolved) = some resolved := if_pos hdue
        have hzero := hclocks.reconnectTick
        rw [hconnect, Option.isSome_some, if_pos rfl] at hzero
        rw [reconnectPotential, reconnectPotential, hzero, (runsConnect_some hconnect hstep).2, hdue]
        simp only [reduceCtorEq, if_true, if_false, Bool.toNat_true, Bool.toNat_false]
        omega
      | _ => cases hreconnects
    | false =>
      rw [Bool.toNat_false, Nat.mul_zero]
      refine reconnectPotential_le ?_ fun hdue => ?_
      · rw [hclocks.reconnectTick]
        split
        · exact Nat.zero_le _
        · exact Nat.le_refl _
      · obtain hedge | hsame := step_edge h hstep
        · generalize s'.client.connState = c at hedge hdue
          cases hedge with
          | due => exact absurd rfl ha
          | closed => revert hdue; cases s.client.connState <;> simp [closedState]
          | _ => cases hdue
        · exact hsame.symm.trans hdue

theorem step_pingPotential (h : Steady s) {a : Step B} (hstep : step s a = some s') :
    pingPotential s' + ((keepaliveTime s).toNat + 1) * (pings s a).toNat ≤ pingPotential s + (ticks s a).toNat := by
  by_cases ha : a = .timer
  · subst ha
    cases step_taken hstep with
    | timer =>
      obtain ⟨hticked, hinfo⟩ := mqtt_timer_ticked s
      show pingPotential (mqtt_timer s) ≤ pingPotential s + 1
      cases hticked with
      | quiet hstate hdata _ _ _ =>
        rw [pingPotential, pingPotential, hstate, if_neg hdata, if_neg hdata, keepaliveTime, hinfo]
        exact Nat.le_succ _
      | counted hstate hdata _ hkeep =>
        rw [pingPotential_data (hstate.trans hdata), pingPotential_data hdata, hkeep]
        exact tick_le _
      | idle hstate hdata hdue _ =>
        have hle := tick_le s.client.keepAliveTick
        rw [pingPotential_due hstate, pingPotential_data hdata, keepaliveTime, hinfo]
        unfold keepaliveTime at hdue
        omega
      | waited hstate hlost _ _ =>
        rw [pingPotential_of_state (hstate.trans hlost) (by decide)]
        exact Nat.zero_le _
      | due hstate _ _ _ _ =>
        rw [pingPotential_of_state hstate (by decide)]
        exact Nat.zero_le _
  · have hclocks := step_clocks ha hstep
    have htime := step_keepaliveTime hstep
    have hkept : s'.client.keepAliveTick ≤ s.client.keepAliveTick := by
      obtain hsame | hzero := hclocks.keepAliveTick <;> omega
    have hticks : ticks s a = false := by
      cases a with
      | timer => exact absurd rfl ha
      | _ => rfl
    rw [hticks]
    cases hpings : pings s a with
    | true =>
      cases a with
      | task locals result resolved =>
        have hping : s.client.connState = .MQTT_KEEPALIVE_SEND := of_decide_eq_true hpings
        cases step_taken hstep with
        | task =>
          have hafter : pingPotential (MQTT_Task s locals result resolved) = 0 := by
            simp only [MQTT_Task, hping]
            cases result <;> rfl
          rw [hafter, pingPotential_due hping]
          simp only [Bool.toNat_true, Bool.toNat_false]
          omega
      | _ => cases hpings
    | false =>
      rw [Bool.toNat_false, Nat.mul_zero]
      obtain hedge | hsame := step_edge h hstep
      · revert hpings
        generalize hafter : s'.client.connState = c at hedge
        intro hpings
        have hnone (hc : c ≠ .MQTT_KEEPALIVE_SEND ∧ c ≠ .MQTT_DATA) : pingPotential s' + 0 ≤ pingPotential s + 0 := by
          rw [pingPotential_of_state hafter hc]
          exact Nat.zero_le _
        cases hedge with
        | idle => exact absurd rfl ha
        | @accepted pdata _ =>
          -- the handler has put the counter at zero before it looks at the segment
          cases step_taken hstep with
          | recv =>
            have hzero := (receivePass_passes (B := B) { s with client := { s.client with keepAliveTick := 0 } }
              pdata).keepAliveTick
            rw [pingPotential_data hafter, show (receiveFirst s B pdata).client.keepAliveTick = 0 from hzero]
            exact Nat.zero_le _
        | pinged hping locals resolved =>
          simp [pings, hping] at hpings
        | closed => exact hnone (by cases s.client.connState <;> simp [closedState])
        | _ => exact hnone (by simp)
      · rw [pingPotential, pingPotential, hsame, htime]
        split
        · exact Nat.le_refl _
        · split
          · exact hkept
          · exact Nat.le_refl _

/-! ## Runs -/

/-- **The task reconnects on every sixth tick at most, and calls `mqtt_send_keepalive` on every tick behind
the keepalive time at most**: on every run, in every order of steps. A PINGREQ of `MQTT_Ping` is the
application's and not counted. -/
theorem run_paced (hs : Starts B s) (steps : List (Step B)) :
    Always (observed step (tally reconnects ticks))
        (fun x => (MQTT_RECONNECT_TIMEOUT + 1) * x.2.counted ≤ x.2.paying) (s, .zero) steps ∧
      Always (observed step (tally pings ticks))
        (fun x => ((keepaliveTime s).toNat + 1) * x.2.counted ≤ x.2.paying) (s, .zero) steps := by
  have hsteady : Steady s := by
    obtain ⟨_, _, _, _, _, _, _, rfl⟩ := hs
    exact .of_idle rfl
  have hnothing : reconnectPotential s = 0 ∧ pingPotential s = 0 := by
    obtain ⟨_, _, _, _, _, _, _, rfl⟩ := hs
    exact ⟨rfl, rfl⟩
  constructor
  · have hpaid : Always (observed (fun (s : Sys) (a : Step B) => step s a) (tally reconnects ticks))
        (fun x => (MQTT_RECONNECT_TIMEOUT + 1) * x.2.counted + reconnectPotential x.1 ≤ x.2.paying)
        (s, .zero) steps := always_tally Steady reconnectPotential (MQTT_RECONNECT_TIMEOUT + 1)
      (fun ht hstep => step_steady ht hstep) (fun ht hstep => step_reconnectPotential ht hstep) hsteady hnothing.1 steps
    exact hpaid.mono fun hx => Nat.le_trans (Nat.le_add_right _ _) hx
  · have hpaid : Always (observed (fun (s : Sys) (a : Step B) => step s a) (tally pings ticks))
        (fun x => ((keepaliveTime s).toNat + 1) * x.2.counted + pingPotential x.1 ≤ x.2.paying)
        (s, .zero) steps := always_tally (fun t => Steady t ∧ keepaliveTime t = keepaliveTime s) pingPotential
      ((keepaliveTime s).toNat + 1) (fun ht hstep => ⟨step_steady ht.1 hstep, (step_keepaliveTime hstep).trans ht.2⟩)
      (fun ht hstep => ht.2 ▸ step_pingPotential ht.1 hstep) ⟨hsteady, rfl⟩ hnothing.2 steps
    exact hpaid.mono fun hx => Nat.le_trans (Nat.le_add_right _ _) hx

/-- One reconnect and, later on, one ping. -/
def redialled : List (Step 64) :=
  .call (.connect none) :: .reconCb :: List.replicate 6 .timer ++ [runTask, .connectCb, .recv [0x20, 0x02, 0x00, 0x00]] ++
    List.replicate 61 .timer ++ [runTask]

theorem run_paced_redialled :
    Always (observed step (tally reconnects ticks))
        (fun x => (MQTT_RECONNECT_TIMEOUT + 1) * x.2.counted ≤ x.2.paying) (newClient, .zero) redialled ∧
      Always (observed step (tally pings ticks))
        (fun x => ((keepaliveTime newClient).toNat + 1) * x.2.counted ≤ x.2.paying) (newClient, .zero) redialled :=
  run_paced newClient_starts redialled

/-! ## A connection that stays lost -/

/-- Steps that neither end the wait for the next attempt nor begin it anew. -/
def Step.Waits : Step B → Prop
  | .call (.connect _) | .call .disconnect | .call .deleteClient | .dnsFound _ | .connectCb | .reconCb | .disconCb => False
  | _ => True

/-- How far the next attempt is behind the given number of ticks. -/
inductive Redialling (n : ℕ) (s : Sys) : Prop where
  | waiting (hlost : s.client.connState = .TCP_RECONNECT_REQ) (hcount : s.client.reconnectTick = n)
    (hearly : n ≤ MQTT_RECONNECT_TIMEOUT)
  | due (hdue : s.client.connState = .TCP_RECONNECT) (hposted : s.posted = true) (hlate : MQTT_RECONNECT_TIMEOUT < n)
  | dialled (hdialled : s.client.connState = .TCP_CONNECTING) (hlate : MQTT_RECONNECT_TIMEOUT < n)

/-- Only the task takes what has been posted. -/
theorem step_posted {a : Step B} (ha : a.Waits) (htask : ∀ locals result resolved, a ≠ .task locals result resolved)
    (hposted : s.posted = true) (hstep : step s a = some s') : s'.posted = true := by
  cases step_taken hstep with
  | @call c _ hexec =>
    cases c with
    | request r =>
      obtain ⟨connection, id, queue, posted, accepted, hkept, rfl⟩ := ApiCall.request_frame hexec
      exact hkept hposted
    | connect | disconnect | deleteClient => exact ha.elim
    | onConnected | onDisconnected | onData | onPublished | onTimeout | initLWT =>
      obtain rfl := Option.some.inj hexec
      exact hposted
  | resume =>
    obtain ⟨_, hend⟩ | ⟨_, hend | ⟨_, _, rest, _, hend⟩⟩ := returned_cases (B := B) s ‹_›
    · rw [hend]
      exact hposted
    · rw [hend]
      rfl
    · rw [hend]
      exact (receivePass_passes (B := B) { s with running := none } rest).posted hposted
  | dnsFound | connectCb | reconCb | disconCb => exact ha.elim
  | recv pdata =>
    exact (receivePass_passes (B := B) { s with client := { s.client with keepAliveTick := 0 } } pdata).posted hposted
  | sentCb =>
    simp only [mqtt_tcpclient_sent_cb, callsBack]
    split_ifs
    · exact hposted
    · rfl
    · rfl
  | timer =>
    simp only [mqtt_timer, callsBack]
    split_ifs <;> first | exact hposted | rfl
  | task locals result resolved => exact absurd rfl (htask locals result resolved)

theorem tick_of_le {n : ℕ} (h : n ≤ MQTT_RECONNECT_TIMEOUT) : tick n = n + 1 := by
  unfold tick MQTT_RECONNECT_TIMEOUT at *
  omega

theorem Redialling.timer {n : ℕ} (h : Redialling n s) : Redialling (n + 1) (mqtt_timer s) := by
  have hposted (hp : s.posted = true) : (mqtt_timer s).posted = true := by
    simp only [mqtt_timer, callsBack]
    split_ifs <;> first | exact hp | rfl
  cases (mqtt_timer_ticked s).1 with
  | quiet hstate _ hother _ _ =>
    cases h with
    | waiting hlost _ _ => exact absurd hlost hother
    | due hdue hp hlate => exact .due (hstate.trans hdue) (hposted hp) (Nat.lt_succ_of_lt hlate)
    | dialled hdialled hlate => exact .dialled (hstate.trans hdialled) (Nat.lt_succ_of_lt hlate)
  | counted _ hdata _ _ | idle _ hdata _ _ =>
    cases h with
    | waiting hstate | due hstate | dialled hstate => cases hdata.symm.trans hstate
  | waited hstate hlost hearly hcounted =>
    cases h with
    | waiting _ hcount hn =>
      rw [hcount, tick_of_le hn] at hearly hcounted
      exact .waiting (hstate.trans hlost) hcounted hearly
    | due hother | dialled hother => cases hlost.symm.trans hother
  | due hstate hlost hdue _ hp =>
    cases h with
    | waiting _ hcount hn =>
      rw [hcount, tick_of_le hn] at hdue
      exact .due hstate hp hdue
    | due hother | dialled hother => cases hlost.symm.trans hother

theorem Redialling.step {n : ℕ} (h : Redialling n s) (hsteady : Steady s) {a : Step B} (ha : a.Waits)
    (hstep : Client.step s a = some s') : Redialling (n + (ticks s a).toNat) s' := by
  by_cases htimer : a = .timer
  · subst htimer
    cases step_taken hstep with
    | timer => exact h.timer
  have hticks : ticks s a = false := by
    cases a with
    | timer => exact absurd rfl htimer
    | _ => rfl
  rw [hticks]
  show Redialling n s'
  have hclocks := step_clocks htimer hstep
  obtain hedge | hsame := step_edge hsteady hstep
  · -- of the edges that are left only the task's starts in one of the three states
    generalize hafter : s'.client.connState = c at hedge
    cases hedge with
    | reconnect hdue locals result resolved =>
      cases h with
      | waiting hother | dialled hother => cases hdue.symm.trans hother
      | due _ _ hlate => exact .dialled hafter hlate
    | accepted htaken =>
      cases h with
      | waiting hstate | due hstate | dialled hstate => cases htaken.waiting.symm.trans hstate
    | pinged hping | unsent hping =>
      cases h with
      | waiting hstate | due hstate | dialled hstate => cases hping.symm.trans hstate
    | idle | due => exact absurd rfl htimer
    | connect | disconnect | deleteClient | notFound | found | connected | failed | closed => exact ha.elim
  · have hno (hdue : s.client.connState = .TCP_RECONNECT) : ∀ locals result resolved, a ≠ .task locals result resolved := by
      rintro locals result resolved rfl
      have hconnect : runsConnect s (.task locals result resolved) = some resolved := if_pos hdue
      have hdialled := (runsConnect_some hconnect hstep).2
      rw [hsame, hdue] at hdialled
      cases hdialled
    cases h with
    | waiting hlost hcount hearly =>
      refine .waiting (hsame.trans hlost) ?_ hearly
      have hnone : runsConnect s a = none := by
        cases a with
        | call c =>
          cases c with
          | connect => exact ha.elim
          | _ => rfl
        | task => rw [runsConnect, if_neg (by rw [hlost]; decide)]
        | _ => rfl
      rw [hclocks.reconnectTick, hnone]
      exact hcount
    | due hdue hposted hlate => exact .due (hsame.trans hdue) (step_posted ha (hno hdue) hposted hstep) hlate
    | dialled hdialled hlate => exact .dialled (hsame.trans hdialled) hlate

theorem step_reconnectTick_le {a : Step B} (h : s.client.reconnectTick ≤ MQTT_RECONNECT_TIMEOUT)
    (hstep : step s a = some s') : s'.client.reconnectTick ≤ MQTT_RECONNECT_TIMEOUT := by
  by_cases ha : a = .timer
  · subst ha
    cases step_taken hstep with
    | timer =>
      cases (mqtt_timer_ticked s).1 with
      | quiet _ _ _ hsame _ | counted _ _ hsame _ | idle _ _ _ hsame => exact hsame ▸ h
      | waited _ _ hearly hcounted => exact hcounted ▸ hearly
      | due _ _ _ hzero _ => exact hzero ▸ Nat.zero_le _
  · rw [(step_clocks ha hstep).reconnectTick]
    split
    · exact Nat.zero_le _
    · exact h

/-- **A lost connection is dialled again on the sixth tick, neither earlier nor later**, whatever else
goes on meanwhile: the task is scheduled for it then, and does nothing else before it has dialled. The
ticks count from `reconnectTick`, which losing a connection does not reset. -/
theorem run_redials (hs : Starts B s) {before waiting : List (Step B)} {lost : Sys}
    (hrun : run step s before = some lost) (hlost : lost.client.connState = .TCP_RECONNECT_REQ)
    (hwaits : ∀ a ∈ waiting, a.Waits) (hwaiting : run step lost waiting = some s') :
    Redialling (lost.client.reconnectTick + waiting.countP (ticks lost)) s' := by
  obtain ⟨hsteady, hcount⟩ : Steady lost ∧ lost.client.reconnectTick ≤ MQTT_RECONNECT_TIMEOUT := by
    obtain ⟨_, _, _, _, _, _, _, rfl⟩ := hs
    exact run_invariant (I := fun s => Steady s ∧ s.client.reconnectTick ≤ MQTT_RECONNECT_TIMEOUT)
      (fun h hstep => ⟨step_steady h.1 hstep, step_reconnectTick_le h.2 hstep⟩) ⟨.of_idle rfl, Nat.zero_le _⟩ hrun
  have hinit : Redialling lost.client.reconnectTick lost := .waiting hlost rfl hcount
  generalize lost.client.reconnectTick = n at hinit ⊢
  have hcounts (t : Sys) : (ticks t : Step B → Bool) = ticks lost := by
    funext a
    cases a <;> rfl
  generalize hticks : (ticks lost : Step B → Bool) = isTick at hcounts ⊢
  clear hticks hcount hlost hrun
  induction waiting generalizing lost n with
  | nil =>
    obtain rfl := Option.some.inj hwaiting
    exact hinit
  | cons a as ih =>
    obtain ⟨t, hstep, hrest⟩ := run_cons hwaiting
    obtain ⟨ha, has⟩ := List.forall_mem_cons.mp hwaits
    have hnext := hinit.step hsteady ha hstep
    have hend := ih has hrest (step_steady hsteady hstep) _ hnext
    rw [hcounts, Nat.add_assoc] at hend
    rw [List.countP_cons]
    cases htick : isTick a with
    | true => simpa [htick, Nat.add_comm] using hend
    | false => simpa [htick] using hend

/-- Six ticks behind a failed attempt, with a publish among them. -/
theorem run_redials_sixTicks :
    ∃ lost s', run step newClient ([.call (.connect none), .reconCb] : List (Step 64)) = some lost ∧
      lost.client.connState = .TCP_RECONNECT_REQ ∧
      run step lost (.timer :: publishOne 1 :: List.replicate 5 .timer) = some s' ∧
      Redialling (lost.client.reconnectTick +
        ((.timer :: publishOne 1 :: List.replicate 5 .timer : List (Step 64)).countP (ticks lost))) s' := by
  have hsome : ∃ lost, run step newClient ([.call (.connect none), .reconCb] : List (Step 64)) = some lost ∧
      lost.client.connState = .TCP_RECONNECT_REQ ∧
      (run step lost (.timer :: publishOne 1 :: List.replicate 5 .timer)).isSome := by
    refine ⟨_, rfl, by decide +kernel, by decide +kernel⟩
  obtain ⟨lost, hrun, hlost, hwaiting⟩ := hsome
  obtain ⟨s', hwaiting⟩ := Option.isSome_iff_exists.mp hwaiting
  refine ⟨lost, s', hrun, hlost, hwaiting, run_redials newClient_starts hrun hlost ?_ hwaiting⟩
  simp [publishOne, Step.Waits]

end LightSleepMqtt.Client
