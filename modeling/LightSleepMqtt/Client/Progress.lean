import LightSleepMqtt.Client.Network

/-! What a client that is connecting waits for. In `TCP_CONNECTING` that is an attempt of its
`espconn` or an answer to a query of it, in `TCP_RECONNECT_REQ` a tick of `mqttTimer`. The
client is left waiting for nothing when a call of the network fails at once, or stores the
address at once, and when it asks for a reconnection with the timer off. -/
namespace LightSleepMqtt.Client
open Message Queue Transition
set_option autoImplicit false

variable {B : ℕ} {s s' : Sys} {w w' : World}

/-- Something that will take the client out of `TCP_CONNECTING` is still to come. -/
def UnderWay (w : World) : Prop := w.attempt = true ∨ w.sys.client.pCon.isSome = true ∧ w.con ∈ w.queries

/-- A task event that would change the state of the client is pending. -/
def TaskLeaves (B : ℕ) (s : Sys) : Prop :=
  s.posted = true ∧ ∃ (locals : Locals B) (result : Bool) (resolved : Option ℕ),
    (MQTT_Task s locals result resolved).client.connState ≠ s.client.connState

/-- The client is not stuck on its way to a connection. -/
def Unwedged (B : ℕ) (w : World) : Prop :=
  (w.sys.client.connState = .TCP_CONNECTING → UnderWay w) ∧
    (w.sys.client.connState = .TCP_RECONNECT_REQ → w.armed = true ∨ TaskLeaves B w.sys)

instance (w : World) : Decidable (UnderWay w) := inferInstanceAs (Decidable (_ ∨ _ ∧ _))

/-- The task does nothing in `TCP_RECONNECT_REQ`. -/
theorem unwedged_iff (B : ℕ) (w : World) :
    Unwedged B w ↔ (w.sys.client.connState = .TCP_CONNECTING → UnderWay w) ∧
      (w.sys.client.connState = .TCP_RECONNECT_REQ → w.armed = true) := by
  refine and_congr_right fun _ => imp_congr_right fun hstate => or_iff_left ?_
  intro hleaves
  obtain ⟨_, locals, result, resolved, hchanges⟩ := hleaves
  refine hchanges ?_
  simp only [MQTT_Task, hstate]

instance (B : ℕ) (w : World) : Decidable (Unwedged B w) := decidable_of_iff' _ (unwedged_iff B w)

/-- The callback asks for a reconnection. -/
def asksReconnect (s : Sys) : Step B → Bool
  | .reconCb => true
  | .disconCb => decide (s.client.connState ≠ .TCP_DISCONNECTING ∧ s.client.connState ≠ .MQTT_DELETING)
  | _ => false

/-- The event leaves the client something to wait for: a connection that is started is accepted, or a
query for it is under way; a connection that is lost or not found is asked for with the timer
armed; an answer connects, or does not matter; the timer is not disarmed while it is needed. -/
def LeavesHope (w : World) : Event B → Prop
  | .client a outcome =>
    (∀ resolved ∈ runsConnect w.sys a,
      if hostIsIp w.sys then outcome.accepted = true else resolved = none ∧ outcome.queried = true) ∧
    (asksReconnect w.sys a = true → w.armed = true)
  | .answer _ none _ => w.armed = true
  | .answer query (some addr) accepted =>
    w.sys.client.ip = 0 ∧ addr ≠ 0 ∨ w.sys.client.connState = .TCP_CONNECTING →
      w.sys.client.ip = 0 ∧ addr ≠ 0 ∧ accepted = true ∨ w.attempt = true ∨
        w.sys.client.pCon.isSome = true ∧ w.con ∈ w.queries.erase query
  | .goToSleep => w.sys.client.connState = .TCP_RECONNECT_REQ → w.sys.client.msgQueue.rb.fill_cnt > 0

instance (w : World) : (e : Event B) → Decidable (LeavesHope w e)
  | .client _ _ => inferInstanceAs (Decidable (_ ∧ (_ → _)))
  | .answer _ none _ => inferInstanceAs (Decidable (w.armed = true))
  | .answer _ (some _) _ => inferInstanceAs (Decidable (_ ∧ _ ∨ _ → _ ∧ _ ∧ _ ∨ _ ∨ _ ∧ _))
  | .goToSleep => inferInstanceAs (Decidable (_ → _))

/-! ## Events -/

theorem mqtt_tcpclient_discon_cb_state (s : Sys) :
    (mqtt_tcpclient_discon_cb s).client.connState =
      if s.client.connState = .TCP_DISCONNECTING then .TCP_DISCONNECTED
      else if s.client.connState = .MQTT_DELETING then .MQTT_DELETED else .TCP_RECONNECT_REQ := by
  have hkept (c : tConnState) (registered : Bool) :
      (callsBack (setConnState s c) registered .disconnectedCb system_os_post).client.connState = c := by
    unfold callsBack
    split <;> rfl
  exact hkept _ _

/-- Neither of the two states is entered. -/
theorem Unwedged.of_state {c : tConnState} (h : w.sys.client.connState = c)
    (hc : c ≠ .TCP_CONNECTING ∧ c ≠ .TCP_RECONNECT_REQ) : Unwedged B w :=
  ⟨fun hstate => absurd (h.symm.trans hstate) hc.1, fun hstate => absurd (h.symm.trans hstate) hc.2⟩

theorem unwedged_reconnecting (h : w.sys.client.connState = .TCP_RECONNECT_REQ) : Unwedged B w ↔ w.armed = true := by
  simp only [unwedged_iff, h, reduceCtorEq, forall_true_left, false_implies, true_and]

theorem unwedged_connecting (h : w.sys.client.connState = .TCP_CONNECTING) : Unwedged B w ↔ UnderWay w := by
  simp only [unwedged_iff, h, reduceCtorEq, forall_true_left, false_implies, and_true]

/-- A step that disarms the timer ends the connection. -/
theorem disarms_state {a : Step B} (ha : a.disarms = true) (hstep : step s a = some s') :
    s'.client.connState = .TCP_DISCONNECTING ∨ s'.client.connState = .MQTT_DELETING := by
  cases step_taken hstep with
  | @call c _ hexec =>
    cases c with
    | disconnect =>
      obtain rfl := Option.some.inj hexec
      exact Or.inl rfl
    | deleteClient =>
      obtain rfl := Option.some.inj hexec
      exact Or.inr rfl
    | request | connect | initLWT | onConnected | onDisconnected | onData | onPublished | onTimeout => cases ha
  | resume | dnsFound | connectCb | reconCb | disconCb | recv | sentCb | timer | task => cases ha

/-- A connection that is under way stays so in a step that does not report on it. -/
theorem UnderWay.follow (h : UnderWay w) (hc : Consistent w) (hstate : w.sys.client.connState = .TCP_CONNECTING)
    {a : Step B} {sys : Sys} (hreports : a.reports = false)
    (hpCon : sys.client.pCon.isSome = (w.sys.client.pCon.isSome && !deletes w.sys a)) :
    UnderWay { w with
      sys := sys
      attempt := w.attempt && sys.client.pCon.isSome && !a.reports
      armed := w.armed && !a.disarms } := by
  have hkept : deletes w.sys a = false := by
    cases a <;> first | rfl | simp [deletes, hstate]
  rw [hkept, Bool.not_false, Bool.and_true] at hpCon
  obtain hattempt | ⟨hconnection, hquery⟩ := h
  · left
    rw [hpCon, hc.attempt hattempt, hattempt, hreports]
    rfl
  · exact Or.inr ⟨hpCon.trans hconnection, hquery⟩

theorem connect_unwedged (hc : Consistent w) {a : Step B} {outcome : Outcome} {sys : Sys} {resolved : Option ℕ}
    (hconnect : runsConnect w.sys a = some resolved) (hstep : step w.sys a = some sys) :
    Unwedged B (w.follow a outcome sys) ↔ LeavesHope w (.client a outcome) := by
  obtain ⟨hpCon, hstate⟩ := runsConnect_some hconnect hstep
  have hasks : asksReconnect w.sys a = false := by
    cases a <;> first | rfl | cases hconnect
  have hnew : w.con + 1 ∉ w.queries := fun hin => Nat.not_succ_le_self _ (hc.queries _ hin)
  simp only [World.follow, LeavesHope, hconnect, hasks, Option.mem_def, Option.some.injEq, forall_eq']
  rw [unwedged_connecting (by exact hstate), UnderWay]
  simp only [hpCon, true_and, Bool.false_eq_true, false_implies, and_true, Bool.and_eq_true]
  cases hip : hostIsIp w.sys with
  | true => simp [hnew]
  | false =>
    by_cases hasked : resolved = none ∧ outcome.queried = true
    · simp [hasked]
    · simp [hasked, hnew]

/-- The connection is lost: the client asks for another one, or ends as it was told to. -/
theorem follow_unwedged_lost {a : Step B} {outcome : Outcome} {sys : Sys} (hlost : a = .reconCb ∨ a = .disconCb)
    (hstep : step w.sys a = some sys) :
    Unwedged B (w.follow a outcome sys) ↔ LeavesHope w (.client a outcome) := by
  have hconnect : runsConnect w.sys a = none := by
    obtain rfl | rfl := hlost <;> rfl
  simp only [World.follow, LeavesHope, hconnect, Option.mem_def, reduceCtorEq, false_implies, implies_true, true_and]
  obtain rfl | rfl := hlost
  · cases step_taken hstep with
    | reconCb =>
      rw [unwedged_reconnecting rfl]
      simp [asksReconnect, Step.disarms]
  · cases step_taken hstep with
    | disconCb =>
      have hstate := mqtt_tcpclient_discon_cb_state w.sys
      by_cases hended : w.sys.client.connState = .TCP_DISCONNECTING ∨ w.sys.client.connState = .MQTT_DELETING
      · have hasks : asksReconnect w.sys (.disconCb : Step B) = false := by
          rw [asksReconnect, decide_eq_false_iff_not, ← not_or, not_not]
          exact hended
        rw [hasks]
        refine iff_of_true ?_ fun hfalse => by cases hfalse
        obtain hended | hended := hended
        · exact .of_state (c := .TCP_DISCONNECTED) (hstate.trans (by simp [hended])) (by decide)
        · exact .of_state (c := .MQTT_DELETED) (hstate.trans (by simp [hended])) (by decide)
      · have hasks : asksReconnect w.sys (.disconCb : Step B) = true := by
          rw [asksReconnect, decide_eq_true_iff, ← not_or]
          exact hended
        rw [not_or] at hended
        rw [if_neg hended.1, if_neg hended.2] at hstate
        rw [hasks, unwedged_reconnecting hstate]
        simp [Step.disarms]

theorem follow_unwedged_kept (hc : Consistent w) (h : Unwedged B w) {a : Step B} {outcome : Outcome} {sys : Sys}
    (hcomes : a.comes w.armed = true) (hconnect : runsConnect w.sys a = none) (hrecon : a ≠ .reconCb)
    (hdiscon : a ≠ .disconCb) (hstep : step w.sys a = some sys) :
    Unwedged B (w.follow a outcome sys) ↔ LeavesHope w (.client a outcome) := by
  have hpCon := step_pCon hconnect hstep
  simp only [World.follow, LeavesHope, hconnect, Option.mem_def, reduceCtorEq, false_implies, implies_true, true_and]
  have hasks : asksReconnect w.sys a = false := by
    cases a <;> first | rfl | exact absurd rfl hrecon | exact absurd rfl hdiscon
  have hquiet : Quiet w.sys sys := by
    refine step_quiet hconnect hstep (fun ipaddr hdns => ?_) fun hreports => ?_
    · rw [hdns] at hcomes
      cases hcomes
    · cases a <;> first | rfl | exact absurd rfl hrecon | exact absurd rfl hdiscon | cases hreports
  rw [hasks]
  refine iff_of_true ?_ fun hfalse => by cases hfalse
  by_cases hconnected : a = .connectCb
  · subst hconnected
    cases step_taken hstep with
    | connectCb => exact .of_state (c := .MQTT_CONNECT_SENDING) rfl (by decide)
  · have hreports : a.reports = false := by
      cases a <;> first
        | rfl
        | exact absurd rfl hconnected
        | exact absurd rfl hrecon
        | exact absurd rfl hdiscon
    rw [unwedged_iff] at h ⊢
    refine ⟨fun hstate => ?_, fun hstate => ?_⟩
    · have hbefore := hquiet.connecting hstate
      exact (h.1 hbefore).follow hc hbefore hreports hpCon
    · have harmed := h.2 (hquiet.reconnecting hstate)
      have hkept : a.disarms = false := by
        by_contra hdisarms
        rw [Bool.not_eq_false] at hdisarms
        obtain hends | hends := disarms_state hdisarms hstep
        · cases hends.symm.trans hstate
        · cases hends.symm.trans hstate
      simp only [harmed, hkept]
      rfl

theorem follow_unwedged (hc : Consistent w) (h : Unwedged B w) {a : Step B} {outcome : Outcome} {sys : Sys}
    (hcomes : a.comes w.armed = true) (hconnect : runsConnect w.sys a = none) (hstep : step w.sys a = some sys) :
    Unwedged B (w.follow a outcome sys) ↔ LeavesHope w (.client a outcome) := by
  by_cases hlost : a = .reconCb ∨ a = .disconCb
  · exact follow_unwedged_lost hlost hstep
  · rw [not_or] at hlost
    exact follow_unwedged_kept hc h hcomes hconnect hlost.1 hlost.2 hstep

theorem answer_unwedged (h : Unwedged B w) {query : ℕ} {ipaddr : Option ℕ} {accepted : Bool}
    (hstep : w.answer query ipaddr accepted = some w') :
    Unwedged B w' ↔ LeavesHope w (.answer query ipaddr accepted : Event B) := by
  obtain ⟨_, rfl⟩ := World.answer_some hstep
  cases ipaddr with
  | none => exact unwedged_reconnecting rfl
  | some addr =>
    have hconnects : foundConnects w.sys (some addr) ↔ w.sys.client.ip = 0 ∧ addr ≠ 0 := by
      simp only [foundConnects, Option.mem_def, Option.some.injEq, exists_eq_left']
    have hpCon := mqtt_dns_found_pCon w.sys (some addr)
    simp only [LeavesHope]
    by_cases hused : w.sys.client.ip = 0 ∧ addr ≠ 0
    · have hstate : (mqtt_dns_found w.sys (some addr)).client.connState = .TCP_CONNECTING := by
        simp only [mqtt_dns_found, if_pos hused]
        rfl
      rw [unwedged_connecting hstate, UnderWay]
      simp only [hpCon, decide_eq_true (hconnects.mpr hused), hused, Bool.true_and, Bool.or_eq_true, true_and, true_or,
        forall_true_left, ne_eq, not_false_eq_true]
      rw [or_assoc, or_left_comm]
    · have hstate : (mqtt_dns_found w.sys (some addr)).client.connState = w.sys.client.connState := by
        simp only [mqtt_dns_found, if_neg hused]
        rfl
      rw [unwedged_iff] at h ⊢
      simp only [hstate, UnderWay, hpCon, decide_eq_false (mt hconnects.mp hused), Bool.false_and, Bool.or_false]
      refine Iff.trans (and_iff_left h.2) (imp_congr (or_iff_right hused).symm (or_iff_right fun hand => ?_).symm)
      exact hused ⟨hand.1, hand.2.1⟩

theorem step_unwedged (hc : Consistent w) (h : Unwedged B w) {e : Event B} (hstep : w.step e = some w') :
    Unwedged B w' ↔ LeavesHope w e := by
  cases e with
  | client a outcome =>
    obtain ⟨hcomes, sys, hsys, rfl⟩ := World.step_client hstep
    cases hconnect : runsConnect w.sys a with
    | some resolved => exact connect_unwedged hc hconnect hsys
    | none => exact follow_unwedged hc h hcomes hconnect hsys
  | answer query ipaddr accepted => exact answer_unwedged h hstep
  | goToSleep =>
    obtain rfl := World.step_goToSleep hstep
    rw [unwedged_iff] at h ⊢
    refine Iff.trans (and_iff_right h.1) (imp_congr_right fun _ => ?_)
    exact decide_eq_true_iff

/-- **A client on its way to a connection has something to wait for, throughout a run exactly if every
event of it leaves it something.** -/
theorem unwedged_iff_hope (hs : Starts B s) (events : List (Event B)) :
    Always World.step (Unwedged B) (.start s) events ↔ Meets World.step LeavesHope (.start s) events := by
  obtain ⟨_, _, _, _, _, _, _, rfl⟩ := hs
  refine always_iff_meets (I := Consistent) (fun _ hI hstep => hI.step hstep)
    (fun _ hI hq hstep => step_unwedged hI hq hstep) (World.start_consistent _) ?_
  exact .of_state (c := .WIFI_INIT) rfl (by decide)

/-- The broker is given by its address, and the connection comes up. -/
theorem unwedged_iff_hope_address :
    Always World.step (Unwedged 64) (.start newClient)
      (connecting.map fun a => .client a ⟨true, true⟩) :=
  (unwedged_iff_hope newClient_starts _).mpr (by decide +kernel)

/-- The name is known at once: its address is stored, and nothing is connected or asked for. -/
theorem wedged_by_known_name :
    (run World.step (.start namedClient) ([.client (.call (.connect (some 0x04030201))) ⟨true, true⟩] : List (Event 64))).map
      (fun w => decide (Unwedged 64 w)) = some false := by
  decide +kernel

end LightSleepMqtt.Client
