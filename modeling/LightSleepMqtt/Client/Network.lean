import LightSleepMqtt.Client.Disconnect
import LightSleepMqtt.Client.Frames

/-! The client with what the network and the timers owe it: the unanswered DNS queries, the
attempt of an `espconn_connect`, and whether `mqttTimer` is armed. Each `espconn` has a number,
so that an answer for one that `MQTT_Connect` has replaced can be told from one for the current
connection. -/
namespace LightSleepMqtt.Client
open Message Queue Transition
set_option autoImplicit false

structure World where
  sys : Sys
  /-- The number of the client's `espconn`. -/
  con : ℕ
  /-- The unanswered queries, each by the number of the `espconn` it is to report to. -/
  queries : List ℕ
  /-- An `espconn_connect` was accepted for the client's `espconn` and has not been reported on. -/
  attempt : Bool
  armed : Bool

/-- What the two calls of the network return in a step: whether `espconn_connect` is accepted, and
whether `espconn_gethostbyname`, where it stores no address at once, returns ESPCONN_INPROGRESS. -/
structure Outcome where
  accepted : Bool
  queried : Bool

inductive Event (MQTT_BUF_SIZE : ℕ) where
  | client (a : Step MQTT_BUF_SIZE) (outcome : Outcome)
  | answer (query : ℕ) (ipaddr : Option ℕ) (accepted : Bool)
  | goToSleep

variable {B : ℕ} {s s' : Sys} {w w' : World}

/-! ## The steps that touch the connection -/

/-- The step runs `MQTT_Connect`, with this result of `espconn_gethostbyname`. -/
def runsConnect (s : Sys) : Step B → Option (Option ℕ)
  | .call (.connect resolved) => some resolved
  | .task _ _ resolved => if s.client.connState = .TCP_RECONNECT then some resolved else none
  | _ => none

/-- The step frees the `espconn` without allocating another one. -/
def deletes (s : Sys) : Step B → Bool
  | .task .. => decide (s.client.connState = .TCP_DISCONNECTED ∨ s.client.connState = .MQTT_DELETED)
  | _ => false

/-- The step reports on an attempt to connect. -/
def Step.reports : Step B → Bool
  | .connectCb | .reconCb | .disconCb => true
  | _ => false

/-- The step disarms `mqttTimer` without connecting. -/
def Step.disarms : Step B → Bool
  | .call .disconnect | .call .deleteClient => true
  | _ => false

/-- Answers are events of their own, and a timer ticks when it is armed. -/
def Step.comes (armed : Bool) : Step B → Bool
  | .dnsFound _ => false
  | .timer => armed
  | _ => true

def hostIsIp (s : Sys) : Bool := ((s.client.host.map UTILS_StrToIP).getD (0, false)).2

/-- `mqtt_dns_found` calls `espconn_connect`. -/
def foundConnects (s : Sys) (ipaddr : Option ℕ) : Prop := s.client.ip = 0 ∧ ∃ addr ∈ ipaddr, addr ≠ 0

instance (s : Sys) (ipaddr : Option ℕ) : Decidable (foundConnects s ipaddr) := inferInstanceAs (Decidable (_ ∧ _))

/-! ## The machine -/

/-- The surroundings behind a step that leaves the client in `sys`. -/
def World.follow (w : World) (a : Step B) (outcome : Outcome) (sys : Sys) : World :=
  match runsConnect w.sys a with
  | some resolved =>
    { sys := sys, con := w.con + 1
      queries :=
        if hostIsIp w.sys = false ∧ resolved = none ∧ outcome.queried then w.queries ++ [w.con + 1] else w.queries
      attempt := hostIsIp w.sys && outcome.accepted
      armed := false }
  | none =>
    { w with
      sys := sys
      attempt := w.attempt && sys.client.pCon.isSome && !a.reports
      armed := w.armed && !a.disarms }

/-- An answer finds the client through the `espconn` of its query, also when that has been freed
since; it cannot go on when it uses `client->pCon` and that is NULL. -/
def World.answer (w : World) (query : ℕ) (ipaddr : Option ℕ) (accepted : Bool) : Option World :=
  if w.sys.running = none ∧ query ∈ w.queries ∧ (foundConnects w.sys ipaddr → w.sys.client.pCon.isSome) then
    some { w with
      sys := mqtt_dns_found w.sys ipaddr
      queries := w.queries.erase query
      attempt := w.attempt || (decide (foundConnects w.sys ipaddr) && accepted) }
  else none

/-- What `goToSleep` does with `mqttTimer`. -/
def World.goToSleep (w : World) : World := { w with armed := decide (w.sys.client.msgQueue.rb.fill_cnt > 0) }

def World.step (w : World) : Event B → Option World
  | .client a outcome => if a.comes w.armed then (Client.step w.sys a).map (w.follow a outcome) else none
  | .answer query ipaddr accepted => w.answer query ipaddr accepted
  | .goToSleep => if w.sys.running = none then some w.goToSleep else none

def World.start (s : Sys) : World := ⟨s, 0, [], false, false⟩

/-! ## What the steps do to the connection -/

theorem MQTT_Connect_pCon (s : Sys) (resolved : Option ℕ) : (MQTT_Connect s resolved).client.pCon.isSome = true := by
  simp only [MQTT_Connect]
  split <;> split <;> rfl

theorem runsConnect_some {a : Step B} {resolved : Option ℕ} (h : runsConnect s a = some resolved)
    (hstep : step s a = some s') :
    s'.client.pCon.isSome = true ∧ s'.client.connState = .TCP_CONNECTING := by
  cases step_taken hstep with
  | @call c _ hexec =>
    cases c with
    | connect resolved =>
      obtain rfl := Option.some.inj hexec
      exact ⟨MQTT_Connect_pCon s resolved, rfl⟩
    | request | disconnect | deleteClient | initLWT | onConnected | onDisconnected | onData | onPublished | onTimeout =>
      cases h
  | task locals result resolved =>
    simp only [runsConnect] at h
    split at h
    · rename_i hstate
      simp only [MQTT_Task, hstate]
      exact ⟨MQTT_Connect_pCon (mqtt_tcpclient_delete { s with posted := false }) resolved, rfl⟩
    · cases h
  | resume | dnsFound | connectCb | reconCb | disconCb | recv | sentCb | timer => cases h

/-- The step neither starts a connection nor asks for one. -/
structure Quiet (s s' : Sys) : Prop where
  connecting : s'.client.connState = .TCP_CONNECTING → s.client.connState = .TCP_CONNECTING
  reconnecting : s'.client.connState = .TCP_RECONNECT_REQ → s.client.connState = .TCP_RECONNECT_REQ

theorem Quiet.same (h : s'.client.connState = s.client.connState) : Quiet s s' :=
  ⟨fun hstate => h.symm.trans hstate, fun hstate => h.symm.trans hstate⟩

theorem Quiet.of_state {c : tConnState} (h : s'.client.connState = c)
    (hc : c ≠ .TCP_CONNECTING ∧ c ≠ .TCP_RECONNECT_REQ) : Quiet s s' :=
  ⟨fun hstate => absurd (h.symm.trans hstate) hc.1, fun hstate => absurd (h.symm.trans hstate) hc.2⟩

theorem Quiet.passes (h : Passes s s') : Quiet s s' := by
  obtain hsame | ⟨_, hdata⟩ := h.connState
  · exact .same hsame
  · exact .of_state hdata (by decide)

theorem returned_quiet (s : Sys) (callback : Callback) : Quiet s (returned s B callback) := by
  obtain ⟨_, hend⟩ | ⟨_, hend | ⟨_, _, rest, _, hend⟩⟩ := returned_cases (B := B) s callback
  · rw [hend]
    exact .same rfl
  · rw [hend]
    exact .same rfl
  · rw [hend]
    have hpass := Quiet.passes (receivePass_passes (B := B) { s with running := none } rest)
    exact ⟨hpass.connecting, hpass.reconnecting⟩

theorem mqtt_timer_quiet (s : Sys) : Quiet s (mqtt_timer s) := by
  simp only [mqtt_timer]
  split
  · split
    · exact .of_state (c := .MQTT_KEEPALIVE_SEND) rfl (by decide)
    · exact .same rfl
  · split
    · split
      · refine .of_state (c := .TCP_RECONNECT) ?_ (by decide)
        unfold callsBack
        split <;> rfl
      · exact .same rfl
    · exact .same rfl

theorem MQTT_Task_quiet (hs : s.client.connState ≠ .TCP_RECONNECT) (locals : Locals B) (result : Bool)
    (resolved : Option ℕ) : Quiet s (MQTT_Task s locals result resolved) := by
  simp only [MQTT_Task]
  split
  · exact absurd (by assumption) hs
  · exact .same rfl
  · exact .same rfl
  · cases result with
    | true => exact .of_state (c := .MQTT_DATA) rfl (by decide)
    | false => exact .of_state (c := .TCP_RECONNECT_DISCONNECTING) rfl (by decide)
  · obtain ⟨_, hpump⟩ | ⟨_, _, _, _, _, _, hpump⟩ := pump_cases { s with posted := false } locals
    · rw [hpump]
      exact .same rfl
    · rw [hpump]
      exact .same rfl
  · exact .same rfl

theorem step_quiet {a : Step B} (hconnect : runsConnect s a = none) (hstep : step s a = some s')
    (hdns : ∀ ipaddr, a ≠ .dnsFound ipaddr) (hreports : a.reports = true → a = .connectCb) : Quiet s s' := by
  cases step_taken hstep with
  | @call c _ hexec =>
    cases c with
    | request r =>
      obtain ⟨⟨t, ok⟩, hok, rfl⟩ := Option.map_eq_some_iff.mp hexec
      exact .same (r.exec_calm hok).connState
    | connect => cases hconnect
    | disconnect =>
      obtain rfl := Option.some.inj hexec
      exact .of_state (c := .TCP_DISCONNECTING) rfl (by decide)
    | deleteClient =>
      obtain rfl := Option.some.inj hexec
      exact .of_state (c := .MQTT_DELETING) rfl (by decide)
    | initLWT | onConnected | onDisconnected | onData | onPublished | onTimeout =>
      obtain rfl := Option.some.inj hexec
      exact .same rfl
  | resume => exact returned_quiet s _
  | dnsFound ipaddr => exact absurd rfl (hdns ipaddr)
  | connectCb => exact .of_state (c := .MQTT_CONNECT_SENDING) rfl (by decide)
  | reconCb | disconCb => cases hreports rfl
  | recv pdata =>
    have hpass := Quiet.passes (receivePass_passes (B := B) { s with client := { s.client with keepAliveTick := 0 } } pdata)
    exact ⟨hpass.connecting, hpass.reconnecting⟩
  | sentCb => exact .same (mqtt_tcpclient_sent_cb_calm s).connState
  | timer => exact mqtt_timer_quiet s
  | task locals result resolved =>
    refine MQTT_Task_quiet (fun hstate => ?_) locals result resolved
    rw [runsConnect, if_pos hstate] at hconnect
    cases hconnect

theorem mqtt_dns_found_pCon (s : Sys) (ipaddr : Option ℕ) :
    (mqtt_dns_found s ipaddr).client.pCon.isSome = s.client.pCon.isSome := by
  cases ipaddr with
  | none => rfl
  | some addr =>
    simp only [mqtt_dns_found]
    split
    · exact Option.isSome_map
    · rfl

theorem MQTT_Task_pCon (hs : s.client.connState ≠ .TCP_RECONNECT) (locals : Locals B) (result : Bool)
    (resolved : Option ℕ) :
    (MQTT_Task s locals result resolved).client.pCon.isSome =
      (s.client.pCon.isSome && !deletes s (.task locals result resolved)) := by
  have hkept (hstate : ¬ (s.client.connState = .TCP_DISCONNECTED ∨ s.client.connState = .MQTT_DELETED)) :
      s.client.pCon.isSome = (s.client.pCon.isSome && !deletes s (.task locals result resolved)) := by
    rw [deletes, decide_eq_false hstate, Bool.not_false, Bool.and_true]
  have hfreed (hstate : s.client.connState = .TCP_DISCONNECTED ∨ s.client.connState = .MQTT_DELETED) :
      false = (s.client.pCon.isSome && !deletes s (.task locals result resolved)) := by
    rw [deletes, decide_eq_true hstate, Bool.not_true, Bool.and_false]
  simp only [MQTT_Task]
  split
  · exact absurd (by assumption) hs
  · exact hfreed (Or.inl (by assumption))
  · exact hfreed (Or.inr (by assumption))
  · rename_i hstate
    refine Eq.trans ?_ (hkept (by rw [hstate]; decide))
    cases result <;> rfl
  · rename_i hstate
    refine Eq.trans ?_ (hkept (by rw [hstate]; decide))
    obtain ⟨_, hpump⟩ | ⟨_, _, _, _, _, _, hpump⟩ := pump_cases { s with posted := false } locals
    · rw [hpump]
    · rw [hpump]
  · rename_i hdisconnected hdeleted _ _
    exact hkept (not_or.mpr ⟨hdisconnected, hdeleted⟩)

/-- Only the task frees the `espconn` without allocating another one. -/
theorem step_pCon {a : Step B} (hconnect : runsConnect s a = none) (hstep : step s a = some s') :
    s'.client.pCon.isSome = (s.client.pCon.isSome && !deletes s a) := by
  have hkept {a : Step B} (ha : deletes s a = false) (hpCon : s'.client.pCon.isSome = s.client.pCon.isSome) :
      s'.client.pCon.isSome = (s.client.pCon.isSome && !deletes s a) := by
    rw [hpCon, ha, Bool.not_false, Bool.and_true]
  cases step_taken hstep with
  | @call c _ hexec =>
    cases c with
    | request r =>
      obtain ⟨connection, id, queue, posted, accepted, _, rfl⟩ := ApiCall.request_frame hexec
      exact hkept rfl rfl
    | connect => cases hconnect
    | disconnect | deleteClient | initLWT | onConnected | onDisconnected | onData | onPublished | onTimeout =>
      obtain rfl := Option.some.inj hexec
      exact hkept rfl rfl
  | @resume callback =>
    refine hkept rfl ?_
    obtain ⟨_, hend⟩ | ⟨_, hend | ⟨_, _, rest, _, hend⟩⟩ := returned_cases (B := B) s callback
    · rw [hend]
      rfl
    · rw [hend]
      rfl
    · rw [hend, (receivePass_passes (B := B) { s with running := none } rest).pCon]
  | dnsFound ipaddr => exact hkept rfl (mqtt_dns_found_pCon s ipaddr)
  | connectCb | reconCb => exact hkept rfl rfl
  | disconCb =>
    refine hkept rfl ?_
    simp only [mqtt_tcpclient_discon_cb, callsBack]
    split_ifs <;> rfl
  | recv pdata =>
    refine hkept rfl ?_
    exact congrArg Option.isSome
      (receivePass_passes (B := B) { s with client := { s.client with keepAliveTick := 0 } } pdata).pCon
  | sentCb =>
    refine hkept rfl ?_
    simp only [mqtt_tcpclient_sent_cb, callsBack]
    split_ifs <;> rfl
  | timer =>
    refine hkept rfl ?_
    simp only [mqtt_timer, callsBack]
    split_ifs <;> rfl
  | task locals result resolved =>
    have hstate : s.client.connState ≠ .TCP_RECONNECT := by
      intro hstate
      rw [runsConnect, if_pos hstate] at hconnect
      cases hconnect
    exact MQTT_Task_pCon hstate locals result resolved

/-! ## What an event leads to -/

theorem World.step_client {a : Step B} {outcome : Outcome} (h : w.step (.client a outcome) = some w') :
    a.comes w.armed = true ∧ ∃ sys, Client.step w.sys a = some sys ∧ w' = w.follow a outcome sys := by
  simp only [World.step] at h
  split at h
  · rename_i hcomes
    obtain ⟨sys, hstep, rfl⟩ := Option.map_eq_some_iff.mp h
    exact ⟨hcomes, sys, hstep, rfl⟩
  · cases h

theorem World.answer_some {query : ℕ} {ipaddr : Option ℕ} {accepted : Bool} (h : w.answer query ipaddr accepted = some w') :
    (foundConnects w.sys ipaddr → w.sys.client.pCon.isSome = true) ∧ w' = { w with
      sys := mqtt_dns_found w.sys ipaddr
      queries := w.queries.erase query
      attempt := w.attempt || (decide (foundConnects w.sys ipaddr) && accepted) } := by
  unfold World.answer at h
  split at h
  · rename_i hand
    exact ⟨hand.2.2, (Option.some.inj h).symm⟩
  · cases h

theorem World.step_goToSleep (h : w.step (.goToSleep : Event B) = some w') : w' = w.goToSleep := by
  simp only [World.step] at h
  split at h
  · exact (Option.some.inj h).symm
  · cases h

/-- No query is made with an `espconn` that does not exist yet, and an attempt has its `espconn`. -/
structure Consistent (w : World) : Prop where
  queries : ∀ q ∈ w.queries, q ≤ w.con
  attempt : w.attempt = true → w.sys.client.pCon.isSome = true

theorem Consistent.step (h : Consistent w) {e : Event B} (hstep : w.step e = some w') : Consistent w' := by
  cases e with
  | client a outcome =>
    obtain ⟨_, sys, hsys, rfl⟩ := World.step_client hstep
    unfold World.follow
    cases hconnect : runsConnect w.sys a with
    | some resolved =>
      refine ⟨fun q hq => ?_, fun _ => (runsConnect_some hconnect hsys).1⟩
      simp only at hq ⊢
      split at hq
      · obtain hold | hnew := List.mem_append.mp hq
        · exact Nat.le_succ_of_le (h.queries q hold)
        · exact Nat.le_of_eq (List.mem_singleton.mp hnew)
      · exact Nat.le_succ_of_le (h.queries q hq)
    | none =>
      refine ⟨h.queries, fun hattempt => ?_⟩
      simp only [Bool.and_eq_true] at hattempt
      exact hattempt.1.2
  | answer query ipaddr accepted =>
    obtain ⟨huses, rfl⟩ := World.answer_some hstep
    refine ⟨fun q hq => h.queries q (List.mem_of_mem_erase hq), fun hattempt => ?_⟩
    rw [mqtt_dns_found_pCon]
    simp only [Bool.or_eq_true, Bool.and_eq_true, decide_eq_true_eq] at hattempt
    obtain hattempt | hnew := hattempt
    · exact h.attempt hattempt
    · exact huses hnew.1
  | goToSleep =>
    obtain rfl := World.step_goToSleep hstep
    exact ⟨h.queries, h.attempt⟩

/-! ## The answers find their connection -/

/-- Every answer that is still to come is for the client's `espconn`, which has not been freed. -/
def QueriesCurrent (w : World) : Prop := ∀ q ∈ w.queries, w.sys.client.pCon.isSome = true ∧ q = w.con

/-- The event frees the `espconn` only when no query is unanswered. -/
def FreesAnswered (w : World) : Event B → Prop
  | .client a _ => w.sys.client.pCon.isSome = true →
    (runsConnect w.sys a).isSome = true ∨ deletes w.sys a = true → w.queries = []
  | _ => True

instance (w : World) : Decidable (QueriesCurrent w) := inferInstanceAs (Decidable (∀ q ∈ w.queries, _ ∧ _))

instance (w : World) : (e : Event B) → Decidable (FreesAnswered w e)
  | .client _ _ => inferInstanceAs (Decidable (_ → _ ∨ _ → _))
  | .answer .. | .goToSleep => inferInstanceAs (Decidable True)

theorem QueriesCurrent.pCon (h : QueriesCurrent w) (hne : w.queries ≠ []) : w.sys.client.pCon.isSome = true := by
  obtain ⟨q, hq⟩ := List.exists_mem_of_ne_nil _ hne
  exact (h q hq).1

theorem follow_queriesCurrent (hc : Consistent w) (h : QueriesCurrent w) {a : Step B} {outcome : Outcome} {sys : Sys}
    (hstep : step w.sys a = some sys) :
    QueriesCurrent (w.follow a outcome sys) ↔ FreesAnswered w (.client a outcome) := by
  simp only [World.follow, FreesAnswered]
  cases hconnect : runsConnect w.sys a with
  | some resolved =>
    simp only [Option.isSome_some, true_or, forall_true_left]
    constructor
    · intro hcurrent _
      by_contra hne
      obtain ⟨q, hq⟩ := List.exists_mem_of_ne_nil _ hne
      have hle := hc.queries q hq
      have hnew : q = w.con + 1 := by
        refine (hcurrent q ?_).2
        simp only
        split
        · exact List.mem_append_left _ hq
        · exact hq
      omega
    · intro hanswered q hq
      have hnone : w.queries = [] := by
        by_contra hne
        exact hne (hanswered (h.pCon hne))
      refine ⟨(runsConnect_some hconnect hstep).1, ?_⟩
      simp only [hnone, List.nil_append] at hq ⊢
      split at hq
      · exact List.mem_singleton.mp hq
      · cases hq
  | none =>
    have hpCon := step_pCon hconnect hstep
    simp only [Option.isSome_none, Bool.false_eq_true, false_or]
    constructor
    · intro hcurrent _ hdeletes
      by_contra hne
      have hkept := QueriesCurrent.pCon hcurrent hne
      rw [show sys.client.pCon.isSome = false by rw [hpCon, hdeletes, Bool.not_true, Bool.and_false]] at hkept
      cases hkept
    · intro hanswered q hq
      obtain ⟨hold, hcon⟩ := h q hq
      refine ⟨?_, hcon⟩
      have hkept : deletes w.sys a = false := by
        cases hdeletes : deletes w.sys a with
        | false => rfl
        | true =>
          rw [hanswered hold hdeletes] at hq
          cases hq
      rw [hpCon, hold, hkept]
      rfl

theorem step_queriesCurrent (hc : Consistent w) (h : QueriesCurrent w) {e : Event B} (hstep : w.step e = some w') :
    QueriesCurrent w' ↔ FreesAnswered w e := by
  cases e with
  | client a outcome =>
    obtain ⟨_, sys, hsys, rfl⟩ := World.step_client hstep
    exact follow_queriesCurrent hc h hsys
  | answer query ipaddr accepted =>
    obtain ⟨_, rfl⟩ := World.answer_some hstep
    refine iff_of_true (fun q hq => ?_) trivial
    obtain ⟨hpCon, hcon⟩ := h q (List.mem_of_mem_erase hq)
    exact ⟨(mqtt_dns_found_pCon _ _).trans hpCon, hcon⟩
  | goToSleep =>
    obtain rfl := World.step_goToSleep hstep
    exact iff_of_true h trivial

theorem World.start_consistent (s : Sys) : Consistent (.start s) := by
  refine ⟨fun q hq => absurd hq List.not_mem_nil, fun hattempt => ?_⟩
  cases hattempt

/-- **Every DNS answer finds the connection it is for, throughout a run exactly if no step of it frees
the `espconn` while a query is unanswered.** -/
theorem queries_current_iff (s : Sys) (events : List (Event B)) :
    Always World.step QueriesCurrent (.start s) events ↔ Meets World.step FreesAnswered (.start s) events :=
  always_iff_meets (I := Consistent) (fun _ hI hstep => hI.step hstep)
    (fun _ hI hq hstep => step_queriesCurrent hI hq hstep) (World.start_consistent s)
    fun _ hq => absurd hq List.not_mem_nil

/-- The station loses its address while the broker's name is looked up, and gets it back: the answer
of the first query is still to come, for an `espconn` that has been freed. -/
theorem query_outlives_connection :
    (run World.step (.start namedClient)
      ([.client (.call (.connect none)) ⟨true, true⟩, .client (.call .disconnect) ⟨true, true⟩,
        .client (.call (.connect none)) ⟨true, true⟩] : List (Event 64))).map
          (fun w => decide (QueriesCurrent w)) = some false := by
  decide +kernel

end LightSleepMqtt.Client
