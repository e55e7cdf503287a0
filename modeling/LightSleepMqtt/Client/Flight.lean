import LightSleepMqtt.Client.Session

/-! The packets on their way over a connection. A `Flight` notes each packet that the network has
taken and not yet reported as sent, with what is left of the time the client waits for the
report. The task takes no packet from the queue while one is on its way; a keepalive goes out
without that test, and a late report for one packet ends the wait for the next. -/
namespace LightSleepMqtt.Client
open Message Queue Transition
set_option autoImplicit false

variable {B : ℕ} {s s' : Sys}

/-! ## The notes on the packets -/

structure Flight where
  /-- What is left of `sendTimeout` for each packet without its sent callback, oldest first. -/
  waits : List ℕ
  /-- A packet was passed to `espconn_send` while another one was waiting. -/
  overlapped : Bool

def Flight.empty : Flight := ⟨[], false⟩

def Flight.countDown (f : Flight) : Flight := { f with waits := f.waits.map fun n => n - 1 }

/-- A packet is passed to `espconn_send`, which takes it if `result`. -/
def Flight.send (f : Flight) (result : Bool) : Flight :=
  { waits := f.waits ++ if result then [MQTT_SEND_TIMOUT] else []
    overlapped := f.overlapped || f.waits.any fun n => decide (0 < n) }

/-- Each step comes with the result of `espconn_send` in `mqtt_tcpclient_connect_cb`; that of a task
is in the step. The packets of an earlier connection are forgotten. -/
def Flight.observe (f : Flight) (s : Sys) (a : Step B × Bool) (s' : Sys) : Flight :=
  match a.1 with
  | .connectCb => { (Flight.empty.send a.2) with overlapped := f.overlapped }
  | .task _ result _ => if handedOver s s' = [] then f else f.send result
  | .sentCb => { f with waits := f.waits.tail }
  | .timer => if s'.running = some .timeoutCb then f else f.countDown
  | .resume => if s.running = some .timeoutCb then f.countDown else f
  | _ => f

/-- A client with the notes on its packets. -/
abbrev flightStep (x : Sys × Flight) (a : Step B × Bool) : Option (Sys × Flight) :=
  observed (fun s (a : Step B × Bool) => step s a.1) Flight.observe x a

/-- No `espconn_send` was called while the packet of another one was waiting. -/
def OneOutstanding (x : Sys × Flight) : Prop := x.2.overlapped = false

/-- A keepalive goes out when no packet is waiting, and a sent callback comes when at most its own
packet is. -/
def InTurn (x : Sys × Flight) (a : Step B × Bool) : Prop :=
  match a.1 with
  | .task .. => x.1.client.connState = .MQTT_KEEPALIVE_SEND → ∀ n ∈ x.2.waits, n = 0
  | .sentCb => ∀ n ∈ x.2.waits.tail, n = 0
  | _ => True

instance (x : Sys × Flight) (a : Step B × Bool) : Decidable (InTurn x a) :=
  match a with
  | (.task .., _) => inferInstanceAs (Decidable (_ → ∀ n ∈ x.2.waits, n = 0))
  | (.sentCb, _) => inferInstanceAs (Decidable (∀ n ∈ x.2.waits.tail, n = 0))
  | (.call _, _) | (.resume, _) | (.dnsFound _, _) | (.connectCb, _) | (.reconCb, _) | (.disconCb, _)
  | (.recv _, _) | (.timer, _) => inferInstanceAs (Decidable True)

/-! ## The invariant -/

/-- `sendTimeout` covers every packet that is waiting. -/
structure Covered (s : Sys) (f : Flight) : Prop where
  waits : ∀ n ∈ f.waits, n ≤ s.client.sendTimeout
  apart : f.overlapped = false

variable {f : Flight}

theorem Covered.same (h : Covered s f) (hkept : s'.client.sendTimeout = s.client.sendTimeout) : Covered s' f :=
  ⟨fun n hn => hkept ▸ h.waits n hn, h.apart⟩

theorem Covered.countDown (h : Covered s f) (hcount : s'.client.sendTimeout = s.client.sendTimeout - 1) :
    Covered s' f.countDown := by
  refine ⟨fun n hn => ?_, h.apart⟩
  obtain ⟨m, hm, rfl⟩ := List.mem_map.mp hn
  have hle := h.waits m hm
  omega

theorem Covered.send (h : f.overlapped = false) (hfree : ∀ n ∈ f.waits, n = 0)
    (hset : s'.client.sendTimeout = MQTT_SEND_TIMOUT) (result : Bool) : Covered s' (f.send result) := by
  constructor
  · intro n hn
    obtain hold | hnew := List.mem_append.mp hn
    · rw [hfree n hold]
      exact Nat.zero_le _
    · cases result with
      | true => rw [hset, List.mem_singleton.mp hnew]
      | false => cases hnew
  · have hnone : (f.waits.any fun n => decide (0 < n)) = false := by
      rw [List.any_eq_false]
      intro n hn
      simp [hfree n hn]
    rw [Flight.send, h, hnone]
    rfl

theorem Covered.free (h : Covered s f) (hzero : s.client.sendTimeout = 0) : ∀ n ∈ f.waits, n = 0 := by
  intro n hn
  have hle := h.waits n hn
  omega

/-! ## Steps -/

theorem mqtt_dns_found_sendTimeout (s : Sys) (ipaddr : Option ℕ) :
    (mqtt_dns_found s ipaddr).client.sendTimeout = s.client.sendTimeout := by
  cases ipaddr with
  | none => rfl
  | some addr =>
    simp only [mqtt_dns_found]
    split <;> rfl

theorem returned_covered (h : Covered s f) {callback : Callback} (hcallback : s.running = some callback) (result : Bool) :
    Covered (returned s B callback) (f.observe s ((.resume : Step B), result) (returned s B callback)) := by
  simp only [Flight.observe, hcallback, Option.some.injEq]
  obtain ⟨rfl, hend⟩ | ⟨hother, hend | ⟨_, _, rest, _, hend⟩⟩ := returned_cases (B := B) s callback
  · rw [hend, if_pos rfl]
    exact h.countDown rfl
  · rw [hend, if_neg hother]
    exact h.same rfl
  · rw [hend, if_neg hother]
    exact h.same (receivePass_passes (B := B) { s with running := none } rest).sendTimeout

/-- A tick counts `sendTimeout` down, or leaves that to the return of `timeoutCb`. -/
theorem mqtt_timer_cases (hs : s.running = none) :
    ((mqtt_timer s).running = none ∧ (mqtt_timer s).client.sendTimeout = s.client.sendTimeout - 1) ∨
      ((mqtt_timer s).running = some .timeoutCb ∧ (mqtt_timer s).client.sendTimeout = s.client.sendTimeout) := by
  simp only [mqtt_timer, callsBack]
  split_ifs
  · exact Or.inl ⟨hs, rfl⟩
  · exact Or.inl ⟨hs, rfl⟩
  · exact Or.inr ⟨rfl, rfl⟩
  · exact Or.inl ⟨hs, rfl⟩
  · exact Or.inl ⟨hs, rfl⟩
  · exact Or.inl ⟨hs, rfl⟩

theorem mqtt_timer_covered (h : Covered s f) (hs : s.running = none) (result : Bool) :
    Covered (mqtt_timer s) (f.observe s ((.timer : Step B), result) (mqtt_timer s)) := by
  simp only [Flight.observe]
  obtain ⟨hrun, hcount⟩ | ⟨hrun, hkept⟩ := mqtt_timer_cases hs
  · rw [hrun, if_neg (by simp)]
    exact h.countDown hcount
  · rw [hrun, if_pos rfl]
    exact h.same hkept

theorem MQTT_Task_covered (h : Covered s f) (locals : Locals B) (result : Bool) (resolved : Option ℕ) (connectResult : Bool)
    (hturn : InTurn (s, f) (.task locals result resolved, connectResult)) :
    Covered (MQTT_Task s locals result resolved)
      (f.observe s (.task locals result resolved, connectResult) (MQTT_Task s locals result resolved)) := by
  simp only [Flight.observe]
  have hidle (hsilent : handedOver s (MQTT_Task s locals result resolved) = [])
      (hkept : (MQTT_Task s locals result resolved).client.sendTimeout = s.client.sendTimeout) :
      Covered (MQTT_Task s locals result resolved)
        (if handedOver s (MQTT_Task s locals result resolved) = [] then f else f.send result) := by
    rw [if_pos hsilent]
    exact h.same hkept
  have hsends (hfree : ∀ n ∈ f.waits, n = 0)
      (hset : (MQTT_Task s locals result resolved).client.sendTimeout = MQTT_SEND_TIMOUT) :
      Covered (MQTT_Task s locals result resolved)
        (if handedOver s (MQTT_Task s locals result resolved) = [] then f else f.send result) := by
    split
    · exact ⟨fun n hn => by rw [hfree n hn]; exact Nat.zero_le _, h.apart⟩
    · exact .send h.apart hfree hset result
  obtain ⟨_, hunsent, hkept⟩ | ⟨hstate, htask⟩ | ⟨_, htask⟩ := MQTT_Task_cases s locals result resolved
  · exact hidle (handedOver_nothing hunsent.control hunsent.pumped) hkept
  · rw [htask] at hsends ⊢
    exact hsends (hturn hstate) (by cases result <;> rfl)
  · rw [htask] at hidle hsends ⊢
    obtain ⟨queue, hpump⟩ | ⟨queue, dataBuffer, dataLen, _, hready, _, hpump⟩ := pump_cases { s with posted := false } locals
    · rw [hpump] at hidle ⊢
      exact hidle (handedOver_nothing rfl rfl) rfl
    · rw [hpump] at hsends ⊢
      exact hsends (h.free hready) rfl

theorem flightStep_covered (h : Covered s f) {a : Step B × Bool} (hturn : InTurn (s, f) a)
    (hstep : step s a.1 = some s') : Covered s' (f.observe s a s') := by
  obtain ⟨a, result⟩ := a
  have hidle := step_idle hstep
  cases step_taken hstep with
  | @call c _ hexec =>
    cases c with
    | request r =>
      obtain ⟨connection, id, queue, posted, accepted, _, rfl⟩ := ApiCall.request_frame hexec
      exact h.same rfl
    | connect resolved =>
      obtain rfl := Option.some.inj hexec
      exact h.same (MQTT_Connect_sendTimeout s resolved)
    | disconnect | deleteClient | initLWT | onConnected | onDisconnected | onData | onPublished | onTimeout =>
      obtain rfl := Option.some.inj hexec
      exact h.same rfl
  | resume hcallback => exact returned_covered h hcallback result
  | dnsFound ipaddr => exact h.same (mqtt_dns_found_sendTimeout s ipaddr)
  | connectCb =>
    have hnew : Covered (mqtt_tcpclient_connect_cb s) (Flight.empty.send result) :=
      .send rfl (fun n hn => absurd hn List.not_mem_nil) rfl result
    exact ⟨hnew.waits, h.apart⟩
  | reconCb => exact h.same rfl
  | disconCb =>
    refine h.same ?_
    simp only [mqtt_tcpclient_discon_cb, callsBack]
    split_ifs <;> rfl
  | recv pdata =>
    exact h.same (receivePass_passes (B := B) { s with client := { s.client with keepAliveTick := 0 } } pdata).sendTimeout
  | sentCb =>
    refine ⟨fun n hn => ?_, h.apart⟩
    rw [hturn n hn]
    exact Nat.zero_le _
  | timer hs => exact mqtt_timer_covered h hs result
  | task locals ok resolved => exact MQTT_Task_covered h locals ok resolved result hturn

/-- **At most one packet is on its way**: on every run in which no keepalive goes out while a packet
is waiting and no sent callback comes so late that the next packet is waiting already. -/
theorem one_outstanding (s : Sys) (steps : List (Step B × Bool))
    (hturn : Meets flightStep InTurn (s, .empty) steps) : Always flightStep OneOutstanding (s, .empty) steps := by
  refine always_of_meets (I := fun x => Covered x.1 x.2) ?_ (fun h => h.apart) ⟨by simp [Flight.empty], rfl⟩ hturn
  intro x a x' hI hturn hstep
  obtain ⟨s, f⟩ := x
  obtain ⟨s', f'⟩ := x'
  obtain ⟨hstep, hnotes⟩ := observed_some hstep
  have hnotes : f' = f.observe s a s' := hnotes
  subst hnotes
  exact flightStep_covered hI hturn hstep

def taken (steps : List (Step 64)) : List (Step 64 × Bool) := steps.map fun a => (a, true)

/-- The packet of the publish is reported before the next one goes out. -/
theorem one_outstanding_publishes :
    Always flightStep OneOutstanding (newClient, .empty)
      (taken (connecting ++ [.sentCb, publishOne 1, runTask, .sentCb, publishOne 1, runTask])) :=
  one_outstanding newClient _ (by decide +kernel)

/-- The keepalive falls due while a publish is on its way. -/
theorem keepalive_overlaps :
    (run flightStep (newClient, .empty) (taken (connecting ++ [.sentCb] ++ List.replicate 57 .timer ++
      [publishOne 1, runTask] ++ List.replicate 4 .timer ++ [runTask]))).map
        (fun x => x.2.overlapped) = some true := by
  decide +kernel

end LightSleepMqtt.Client
