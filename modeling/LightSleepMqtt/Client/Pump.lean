import LightSleepMqtt.Client.Order

/-! Whether something is scheduled that drains the queue. Between two events a client that could
send has its task event pending, on every run in which the timer never counts `sendTimeout`
down to zero over a waiting packet; that tick is the one step that leaves the queue idle. -/
namespace LightSleepMqtt.Client
open Message Queue DropQueue Transition
set_option autoImplicit false

/-- When no handler is running, a client that could send has its task event pending. -/
def PumpScheduled (s : Sys) : Prop :=
  s.running = none → s.client.connState = .MQTT_DATA → QUEUE_IsEmpty s.client.msgQueue = false →
    s.client.sendTimeout = 0 → s.posted = true

/-- The next tick ends the wait for the sent callback, without a keepalive and over a waiting
packet, while no event is pending. -/
def ExpiresUnnoticed (s : Sys) : Prop :=
  s.client.connState = .MQTT_DATA ∧ s.client.sendTimeout = 1 ∧
    (tick s.client.keepAliveTick : ℤ) ≤ s.client.connect_info.keepalive % 4294967296 ∧
    QUEUE_IsEmpty s.client.msgQueue = false ∧ s.posted = false

def Noticed {B : ℕ} (s : Sys) : Step B → Prop
  | .timer => ¬ ExpiresUnnoticed s
  | _ => True

instance (s : Sys) : Decidable (PumpScheduled s) :=
  inferInstanceAs (Decidable (_ → _ → _ → _ → _))

instance (s : Sys) : Decidable (ExpiresUnnoticed s) :=
  inferInstanceAs (Decidable (_ ∧ _ ∧ _ ∧ _ ∧ _))

instance {B : ℕ} (s : Sys) : (a : Step B) → Decidable (Noticed s a)
  | .timer => inferInstanceAs (Decidable (¬ ExpiresUnnoticed s))
  | .call _ | .resume | .dnsFound _ | .connectCb | .reconCb | .disconCb | .recv _ | .sentCb | .task .. =>
    inferInstanceAs (Decidable True)

/-- The one callback whose handler does not post afterwards has been called after the post. -/
def TimeoutPosted (s : Sys) : Prop := s.running = some .timeoutCb → s.posted = true

variable {B : ℕ} {l : Log (List UInt8)} {s s' : Sys}

theorem PumpScheduled.of_posted (h : s.posted = true) : PumpScheduled s := fun _ _ _ _ => h

theorem PumpScheduled.of_connState (h : s.client.connState ≠ .MQTT_DATA) : PumpScheduled s :=
  fun _ hstate => absurd hstate h

theorem PumpScheduled.of_running (h : s.running ≠ none) : PumpScheduled s := fun hnone => absurd hnone h

theorem PumpScheduled.of_empty (h : QUEUE_IsEmpty s.client.msgQueue = true) : PumpScheduled s :=
  fun _ _ hfull => absurd (h.symm.trans hfull) (by decide)

theorem TimeoutPosted.of_idle (h : s.running = none) : TimeoutPosted s :=
  fun hrun => absurd (h.symm.trans hrun) (by simp)

theorem callsBack_scheduled {registered : Bool} {callback : Callback} {rest : Sys → Sys}
    (hrest : (rest s).posted = true) : PumpScheduled (callsBack s registered callback rest) := by
  unfold callsBack
  split
  · exact .of_running (by simp)
  · exact .of_posted hrest

theorem callsBack_timeoutPosted {registered : Bool} {callback : Callback} (hcallback : callback ≠ .timeoutCb) :
    TimeoutPosted (callsBack s registered callback system_os_post) := by
  unfold callsBack
  split
  · exact fun h => absurd (Option.some.inj h) hcallback
  · exact fun _ => rfl

/-! ## The receive handler -/

theorem receivePass_scheduled (s : Sys) (pdata : List UInt8) : PumpScheduled (receivePass s B pdata) := by
  unfold receivePass
  obtain ⟨s', _ | _ | _⟩ := readPacket B s pdata
  · exact .of_posted rfl
  · exact callsBack_scheduled rfl
  · exact .of_running (by simp)

theorem receivePass_timeoutPosted (s : Sys) (pdata : List UInt8) : TimeoutPosted (receivePass s B pdata) := by
  unfold receivePass
  obtain ⟨s', _ | _ | _⟩ := readPacket B s pdata
  · exact fun _ => rfl
  · exact callsBack_timeoutPosted (by simp)
  · exact fun h => by simp at h

theorem returned_scheduled (hs : TimeoutPosted s) {callback : Callback} (hcallback : s.running = some callback) :
    PumpScheduled (returned s B callback) := by
  cases callback with
  | dataCb pdata registered =>
    simp only [returned]
    cases nextPacket _ pdata with
    | none => exact .of_posted rfl
    | some pdata => exact receivePass_scheduled _ pdata
  | timeoutCb => exact .of_posted (hs hcallback)
  | connectedCb | disconnectedCb | publishedCb => exact .of_posted rfl

theorem returned_timeoutPosted (s : Sys) (callback : Callback) : TimeoutPosted (returned s B callback) := by
  cases callback with
  | dataCb pdata registered =>
    simp only [returned]
    cases nextPacket _ pdata with
    | none => exact fun _ => rfl
    | some pdata => exact receivePass_timeoutPosted _ pdata
  | timeoutCb | connectedCb | disconnectedCb | publishedCb => exact fun h => by cases h

/-! ## The calls -/

theorem Request.prepare_steers (s : Sys) (r : Request B) :
    (r.prepare s).running = s.running ∧ (r.prepare s).client.connState = s.client.connState ∧
      (r.prepare s).client.msgQueue = s.client.msgQueue ∧
      (r.prepare s).client.sendTimeout = s.client.sendTimeout ∧ (r.prepare s).posted = s.posted := by
  cases r <;> exact ⟨rfl, rfl, rfl, rfl, rfl⟩

theorem Request.exec_scheduled (h : Sound B l s) (hB3 : 3 ≤ B) (hB : B ≤ 65535) (hq : PumpScheduled s)
    (r : Request B) {ok : Bool} (hexec : r.exec s = some (s', ok)) : PumpScheduled s' := by
  obtain ⟨hrunning, hstate, hqueue, hsend, hposted⟩ := r.prepare_steers s
  obtain ⟨_, ht, _⟩ | ⟨out, hout, hevicts, _⟩ := r.exec_cases h hB3 hB
  · obtain ⟨rfl, rfl⟩ := Prod.mk.inj (Option.some.inj (ht.symm.trans hexec))
    unfold PumpScheduled
    rw [hrunning, hstate, hqueue, hsend, hposted]
    exact hq
  · obtain ⟨rfl, rfl⟩ := Prod.mk.inj (Option.some.inj (hout.symm.trans hexec))
    cases hev : evictions QUEUE_BUFFER_SIZE (stuff (r.message s)).length s.client.msgQueue.rb.bytes with
    | none =>
      rw [hev] at hevicts
      exact .of_empty (hevicts.2.1.isEmpty_iff.mpr hevicts.2.2)
    | some a =>
      rw [hev] at hevicts
      exact .of_posted (by simp [queued, hevicts.1])

theorem Request.exec_timeoutPosted (h : Sound B l s) (hB3 : 3 ≤ B) (hB : B ≤ 65535) (hs : TimeoutPosted s)
    (r : Request B) {ok : Bool} (hexec : r.exec s = some (s', ok)) : TimeoutPosted s' := by
  obtain ⟨hrunning, _, _, _, hposted⟩ := r.prepare_steers s
  have hprepare : TimeoutPosted (r.prepare s) := by
    unfold TimeoutPosted
    rw [hrunning, hposted]
    exact hs
  obtain ⟨_, ht, _⟩ | ⟨out, hout, _⟩ := r.exec_cases h hB3 hB
  · obtain ⟨rfl, rfl⟩ := Prod.mk.inj (Option.some.inj (ht.symm.trans hexec))
    exact hprepare
  · obtain ⟨rfl, rfl⟩ := Prod.mk.inj (Option.some.inj (hout.symm.trans hexec))
    intro hrun
    simp [queued, hprepare hrun]

/-! ## The timer and the task -/

theorem countSendTimeout_scheduled (hs : PumpScheduled s) (hrunning : s.running = none) :
    PumpScheduled (countSendTimeout s) ↔ ¬ (s.client.connState = .MQTT_DATA ∧ s.client.sendTimeout = 1 ∧
      QUEUE_IsEmpty s.client.msgQueue = false ∧ s.posted = false) := by
  show (s.running = none → s.client.connState = .MQTT_DATA → QUEUE_IsEmpty s.client.msgQueue = false →
    s.client.sendTimeout - 1 = 0 → s.posted = true) ↔ _
  constructor
  · intro h hstuck
    obtain ⟨hstate, hsend, hfull, hposted⟩ := hstuck
    have := h hrunning hstate hfull (by omega)
    rw [hposted] at this
    cases this
  · intro h _ hstate hfull hsend
    obtain hlt | hge := Nat.lt_or_ge s.client.sendTimeout 1
    · exact hs hrunning hstate hfull (by omega)
    · by_contra hposted
      exact h ⟨hstate, by omega, hfull, Bool.eq_false_iff.mpr hposted⟩

/-- The timer loses the wake-up exactly on the tick that `ExpiresUnnoticed` describes. -/
theorem mqtt_timer_scheduled (hs : PumpScheduled s) (hrunning : s.running = none) :
    PumpScheduled (mqtt_timer s) ↔ ¬ ExpiresUnnoticed s := by
  by_cases hdata : s.client.connState = .MQTT_DATA
  · have hunfold : mqtt_timer s = countSendTimeout
        (if (tick s.client.keepAliveTick : ℤ) > s.client.connect_info.keepalive % 4294967296 then
          system_os_post (setConnState
            { s with client := { s.client with keepAliveTick := tick s.client.keepAliveTick } } .MQTT_KEEPALIVE_SEND)
        else { s with client := { s.client with keepAliveTick := tick s.client.keepAliveTick } }) := if_pos hdata
    rw [hunfold]
    split
    · refine iff_of_true (.of_posted rfl) ?_
      intro hexpires
      obtain ⟨_, _, hle, _⟩ := hexpires
      omega
    · have hcount := countSendTimeout_scheduled
        (s := { s with client := { s.client with keepAliveTick := tick s.client.keepAliveTick } }) hs hrunning
      rw [hcount]
      refine not_congr ⟨?_, ?_⟩
      · intro hstuck
        obtain ⟨hstate, hsend, hfull, hposted⟩ := hstuck
        exact ⟨hstate, hsend, by omega, hfull, hposted⟩
      · intro hexpires
        obtain ⟨hstate, hsend, _, hfull, hposted⟩ := hexpires
        exact ⟨hstate, hsend, hfull, hposted⟩
  · refine iff_of_true (.of_connState ?_) fun h => hdata h.1
    simp only [mqtt_timer, callsBack, if_neg hdata]
    split_ifs <;> first | exact hdata | exact fun h => by cases h

theorem mqtt_timer_timeoutPosted (hrunning : s.running = none) : TimeoutPosted (mqtt_timer s) := by
  simp only [mqtt_timer, callsBack]
  split_ifs <;> first | exact .of_idle hrunning | exact fun _ => rfl

theorem pump_scheduled (h : Sound B l s) (locals : Locals B) : PumpScheduled (pump s locals) := by
  have hbuf : (UInt16.ofNat B).toNat ≤ locals.dataBuffer.length := by
    rw [locals.sized]
    exact Nat.mod_le _ _
  unfold pump
  split
  · rename_i hidle
    intro _ _ hfull hsend
    obtain hempty | hwaits := hidle
    · exact absurd (hempty.symm.trans hfull) (by decide)
    · exact absurd hsend hwaits
  · cases hw : l.waiting with
    | nil =>
      obtain ⟨queue', hgets, hholds, hbytes⟩ :=
        QUEUE_Gets_nil (hw ▸ h.holds) locals.dataBuffer _ (locals.isBegin 0) hbuf
      rw [hgets]
      exact .of_empty (hholds.isEmpty_iff.mpr hbytes)
    | cons p rest =>
      obtain ⟨queue', buf, hgets, _⟩ := QUEUE_Gets_cons (hw ▸ h.holds) locals.dataBuffer _ (locals.isBegin 0) hbuf
      rw [hgets]
      exact fun _ _ _ hsend => by cases hsend

theorem MQTT_Task_scheduled (h : Sound B l s) (locals : Locals B) (result : Bool) (resolved : Option ℕ) :
    PumpScheduled (MQTT_Task s locals result resolved) := by
  have hs : Sound B l { s with posted := false } := h.neutral ⟨rfl, rfl, rfl, rfl, fun h _ => h⟩
  have hother {t : Sys} {c : tConnState} (hstate : t.client.connState = c) (hc : c ≠ .MQTT_DATA) :
      PumpScheduled t := .of_connState (hstate ▸ hc)
  simp only [MQTT_Task]
  split
  · exact .of_connState fun h => by cases h
  · exact hother (by assumption) (by simp)
  · exact hother (by assumption) (by simp)
  · exact .of_posted rfl
  · exact pump_scheduled hs locals
  · exact .of_connState (by assumption)

theorem MQTT_Task_timeoutPosted (hrunning : s.running = none) (locals : Locals B) (result : Bool)
    (resolved : Option ℕ) : TimeoutPosted (MQTT_Task s locals result resolved) := by
  simp only [MQTT_Task, MQTT_Connect, mqtt_send_keepalive, pump]
  split
  · split <;> split <;> exact .of_idle hrunning
  · exact .of_idle hrunning
  · exact .of_idle hrunning
  · exact fun _ => rfl
  · split
    · exact .of_idle hrunning
    · split <;> exact .of_idle hrunning
  · exact .of_idle hrunning

/-! ## Steps and runs -/

theorem mqtt_dns_found_scheduled (s : Sys) (ipaddr : Option ℕ) : PumpScheduled (mqtt_dns_found s ipaddr) := by
  cases ipaddr with
  | none => exact .of_connState fun h => by cases h
  | some addr => exact .of_posted rfl

theorem mqtt_tcpclient_sent_cb_scheduled (s : Sys) : PumpScheduled (mqtt_tcpclient_sent_cb s) := by
  unfold mqtt_tcpclient_sent_cb
  simp only
  split
  · exact callsBack_scheduled rfl
  · exact .of_posted rfl

/-- No other step than a tick of the timer leaves the queue idle. -/
theorem step_scheduled (h : Sound B l s) (hB3 : 3 ≤ B) (hB : B ≤ 65535) (ht : TimeoutPosted s)
    (hq : PumpScheduled s) {a : Step B} (hstep : step s a = some s') : PumpScheduled s' ↔ Noticed s a := by
  cases step_taken hstep with
  | timer hidle => exact mqtt_timer_scheduled hq hidle
  | @call c _ hexec =>
    refine iff_of_true ?_ trivial
    cases c with
    | request r =>
      obtain ⟨⟨t, ok⟩, hr, rfl⟩ := Option.map_eq_some_iff.mp hexec
      exact r.exec_scheduled h hB3 hB hq hr
    | connect resolved =>
      obtain rfl := Option.some.inj hexec
      exact .of_connState fun h => by cases h
    | disconnect | deleteClient =>
      obtain rfl := Option.some.inj hexec
      exact .of_posted rfl
    | onConnected | onDisconnected | onData | onPublished | onTimeout | initLWT =>
      obtain rfl := Option.some.inj hexec
      exact hq
  | resume hcallback => exact iff_of_true (returned_scheduled ht hcallback) trivial
  | dnsFound ipaddr => exact iff_of_true (mqtt_dns_found_scheduled s ipaddr) trivial
  | connectCb | reconCb => exact iff_of_true (.of_posted rfl) trivial
  | disconCb => exact iff_of_true (callsBack_scheduled rfl) trivial
  | recv pdata => exact iff_of_true (receivePass_scheduled _ pdata) trivial
  | sentCb => exact iff_of_true (mqtt_tcpclient_sent_cb_scheduled s) trivial
  | task locals result resolved => exact iff_of_true (MQTT_Task_scheduled h locals result resolved) trivial

theorem step_timeoutPosted (h : Sound B l s) (hB3 : 3 ≤ B) (hB : B ≤ 65535) (ht : TimeoutPosted s) {a : Step B}
    (hstep : step s a = some s') : TimeoutPosted s' := by
  cases step_taken hstep with
  | timer hidle => exact mqtt_timer_timeoutPosted hidle
  | @call c _ hexec =>
    cases c with
    | request r =>
      obtain ⟨⟨t, ok⟩, hr, rfl⟩ := Option.map_eq_some_iff.mp hexec
      exact r.exec_timeoutPosted h hB3 hB ht hr
    | connect resolved =>
      obtain rfl := Option.some.inj hexec
      simp only [MQTT_Connect]
      split <;> split <;> exact ht
    | disconnect | deleteClient =>
      obtain rfl := Option.some.inj hexec
      exact fun _ => rfl
    | onConnected | onDisconnected | onData | onPublished | onTimeout | initLWT =>
      obtain rfl := Option.some.inj hexec
      exact ht
  | resume => exact returned_timeoutPosted s _
  | dnsFound ipaddr hidle =>
    cases ipaddr with
    | none => exact .of_idle hidle
    | some addr => exact fun _ => rfl
  | connectCb | reconCb => exact fun _ => rfl
  | disconCb => exact callsBack_timeoutPosted (by simp)
  | recv pdata => exact receivePass_timeoutPosted _ pdata
  | sentCb =>
    simp only [mqtt_tcpclient_sent_cb]
    split
    · exact callsBack_timeoutPosted (by simp)
    · exact fun _ => rfl
  | task locals result resolved hidle => exact MQTT_Task_timeoutPosted hidle locals result resolved

/-- **The send pump is woken on a run exactly if no tick of the timer ends the wait for the sent
callback over a waiting packet with nothing pending.** -/
theorem pump_scheduled_iff (hB3 : 3 ≤ B) (hB : B ≤ 65535) (hs : Starts B s) (steps : List (Step B)) :
    Always step PumpScheduled s steps ↔ Meets step Noticed s steps := by
  have hinit : s.running = none ∧ s.posted = true := by
    obtain ⟨_, _, _, _, _, _, _, rfl⟩ := hs
    exact ⟨rfl, rfl⟩
  refine always_iff_meets (I := fun s => (∃ l : Log (List UInt8), Sound B l s) ∧ TimeoutPosted s) ?_ ?_
    ⟨⟨_, hs.sound hB⟩, fun _ => hinit.2⟩ (.of_posted hinit.2)
  · intro s a s' _ hI hstep
    obtain ⟨⟨l, hl⟩, ht⟩ := hI
    obtain ⟨l', _, hl'⟩ := step_moves hl hB3 hB hstep
    exact ⟨⟨l', hl'⟩, step_timeoutPosted hl hB3 hB ht hstep⟩
  · intro s a s' _ hI hq hstep
    obtain ⟨⟨l, hl⟩, ht⟩ := hI
    exact step_scheduled hl hB3 hB ht hq hstep

/-- The first of two publishes is sent; the sent callback of CONNECT has been called before. -/
def sendFirst : List (Step 64) := connecting ++ [.sentCb, publishOne 0, publishOne 0, runTask]

/-- With the sent callback of the first publish, the second is sent on the next event. -/
theorem pump_scheduled_iff_sent : Always step PumpScheduled newClient (sendFirst ++ [.timer, .sentCb, runTask]) :=
  (pump_scheduled_iff (by decide) (by decide) newClient_starts _).mpr (by decide +kernel)

/-- Without it, because `espconn_send` has failed, the fifth tick of the timer leaves the second
publish where it is, with nothing pending. -/
theorem pump_idle_after_timeout :
    (run step newClient (sendFirst ++ [.timer, .timer, .timer, .timer, .timer])).map
      (fun s => decide (PumpScheduled s)) = some false := by decide +kernel

end LightSleepMqtt.Client
