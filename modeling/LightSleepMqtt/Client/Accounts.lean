import LightSleepMqtt.Client.Flight

/-! What has become of the packets that the queue has accepted. `Notes` lists the packets that the
retry loops evict and those that the task passes to `espconn_send`, these with what has come before
the next one: a sent callback, or ticks of `mqttTimer`. Nothing else takes a packet from the queue,
and the next one is passed on after a sent callback or when the ticks have used up `sendTimeout`. -/
namespace LightSleepMqtt.Client
open Message Queue DropQueue Transition
set_option autoImplicit false

variable {B : ℕ} {l : Log (List UInt8)} {s s' : Sys}

/-! ## The notes on the packets -/

/-- A packet passed on, and what has come since, until the next one. -/
structure Passed where
  packet : List UInt8
  reported : Bool
  ticks : ℕ
  deriving DecidableEq

def Passed.report (p : Passed) : Passed := { p with reported := true }

def Passed.tick (p : Passed) : Passed := { p with ticks := p.ticks + 1 }

/-- A sent callback has come, or the time for it has run out. -/
def Passed.Settled (p : Passed) : Prop := p.reported = true ∨ MQTT_SEND_TIMOUT ≤ p.ticks

structure Notes where
  evicted : List (List UInt8)
  /-- The packets passed on, the last one first. -/
  passed : List Passed

def Notes.empty : Notes := ⟨[], []⟩

def Notes.onLast (n : Notes) (f : Passed → Passed) : Notes := { n with passed := n.passed.modifyHead f }

/-- A tick is over when the `timeoutCb` that it calls has returned. -/
def Notes.observe (n : Notes) (s : Sys) (a : Step B) (s' : Sys) : Notes :=
  match a with
  | .call (.request r) => { n with evicted := n.evicted ++ r.evicted s }
  | .task .. => { n with passed := ((s'.pumped.drop s.pumped.length).map (⟨·, false, 0⟩)).reverse ++ n.passed }
  | .sentCb => n.onLast .report
  | .timer => if s'.running = some .timeoutCb then n else n.onLast .tick
  | .resume => if s.running = some .timeoutCb then n.onLast .tick else n
  | _ => n

/-- A client with the notes on its packets. -/
abbrev notedStep (x : Sys × Notes) (a : Step B) : Option (Sys × Notes) := observed step Notes.observe x a

variable {n : Notes}

theorem Notes.observe_evicted (n : Notes) (s : Sys) (a : Step B) (s' : Sys) :
    (n.observe s a s').evicted = n.evicted ++ a.evicts s := by
  unfold Notes.observe
  split
  · rfl
  · exact (List.append_nil _).symm
  · exact (List.append_nil _).symm
  · split <;> exact (List.append_nil _).symm
  · split <;> exact (List.append_nil _).symm
  · rename_i hrequest _ _ _ _
    unfold Step.evicts
    split
    · exact absurd rfl (hrequest _)
    · exact (List.append_nil _).symm

/-! ## What comes between two packets -/

/-- The packets passed on are those of `pumped`, and `sendTimeout` is what is left of the time for the
last one. -/
structure Spaced (s : Sys) (passed : List Passed) : Prop where
  packets : passed.reverse.map Passed.packet = s.pumped
  last : ∀ p ∈ passed.head?, p.reported = true ∨ MQTT_SEND_TIMOUT ≤ s.client.sendTimeout + p.ticks
  earlier : ∀ p ∈ passed.tail, p.Settled

variable {passed : List Passed}

theorem Spaced.kept (h : Spaced s passed) (hpumped : s'.pumped = s.pumped)
    (hleft : s.client.sendTimeout ≤ s'.client.sendTimeout ∨ MQTT_SEND_TIMOUT ≤ s'.client.sendTimeout) :
    Spaced s' passed where
  packets := h.packets.trans hpumped.symm
  last p hp := by
    obtain hreported | hticks := h.last p hp
    · exact Or.inl hreported
    · exact Or.inr (by omega)
  earlier := h.earlier

theorem Spaced.same (h : Spaced s passed) (hpumped : s'.pumped = s.pumped)
    (hkept : s'.client.sendTimeout = s.client.sendTimeout) : Spaced s' passed :=
  h.kept hpumped (.inl hkept.ge)

theorem Spaced.onLast (h : Spaced s passed) (hpumped : s'.pumped = s.pumped) (f : Passed → Passed)
    (hpacket : ∀ p, (f p).packet = p.packet)
    (hlast : ∀ p ∈ passed.head?, (f p).reported = true ∨ MQTT_SEND_TIMOUT ≤ s'.client.sendTimeout + (f p).ticks) :
    Spaced s' (passed.modifyHead f) := by
  cases passed with
  | nil => exact ⟨h.packets.trans hpumped.symm, fun p hp => absurd hp (by simp), h.earlier⟩
  | cons p ps =>
    refine ⟨?_, ?_, h.earlier⟩
    · rw [hpumped, ← h.packets]
      simp [hpacket]
    · intro q hq
      obtain rfl := Option.some.inj hq
      exact hlast p rfl

theorem Spaced.report (h : Spaced s passed) (hpumped : s'.pumped = s.pumped) :
    Spaced s' (passed.modifyHead .report) :=
  h.onLast hpumped _ (fun _ => rfl) fun _ _ => Or.inl rfl

theorem Spaced.tick (h : Spaced s passed) (hpumped : s'.pumped = s.pumped)
    (hcount : s'.client.sendTimeout = s.client.sendTimeout - 1) : Spaced s' (passed.modifyHead .tick) := by
  refine h.onLast hpumped _ (fun _ => rfl) fun p hp => ?_
  obtain hreported | hticks := h.last p hp
  · exact Or.inl hreported
  · refine Or.inr ?_
    show MQTT_SEND_TIMOUT ≤ s'.client.sendTimeout + (p.ticks + 1)
    omega

/-- The next packet settles the last one: `sendTimeout` is used up. -/
theorem Spaced.passOn (h : Spaced s passed) (hready : s.client.sendTimeout = 0) {p : List UInt8}
    (hpumped : s'.pumped = s.pumped ++ [p]) (hset : s'.client.sendTimeout = MQTT_SEND_TIMOUT) :
    Spaced s' (⟨p, false, 0⟩ :: passed) := by
  refine ⟨?_, ?_, ?_⟩
  · rw [hpumped, ← h.packets]
    simp
  · intro q hq
    obtain rfl := Option.some.inj hq
    exact Or.inr hset.ge
  · intro q hq
    cases passed with
    | nil => cases hq
    | cons first rest =>
      obtain rfl | hin := List.mem_cons.mp hq
      · have hlast := h.last q rfl
        rw [hready, Nat.zero_add] at hlast
        exact hlast
      · exact h.earlier q hin

/-! ## Steps -/

theorem returned_spaced (h : Spaced s n.passed) {callback : Callback} (hcallback : s.running = some callback) :
    Spaced (returned s B callback) (n.observe s (.resume : Step B) (returned s B callback)).passed := by
  simp only [Notes.observe, hcallback, Option.some.injEq]
  obtain ⟨rfl, hend⟩ | ⟨hother, hend | ⟨_, _, rest, _, hend⟩⟩ := returned_cases (B := B) s callback
  · rw [hend, if_pos rfl]
    exact h.tick rfl rfl
  · rw [hend, if_neg hother]
    exact h.same rfl rfl
  · have hpass := receivePass_passes (B := B) { s with running := none } rest
    rw [hend, if_neg hother]
    exact h.same hpass.pumped hpass.sendTimeout

theorem mqtt_timer_spaced (h : Spaced s n.passed) (hs : s.running = none) :
    Spaced (mqtt_timer s) (n.observe s (.timer : Step B) (mqtt_timer s)).passed := by
  have hpumped := (mqtt_timer_unsent s).pumped
  simp only [Notes.observe]
  obtain ⟨hrun, hcount⟩ | ⟨hrun, hkept⟩ := mqtt_timer_cases hs
  · rw [hrun, if_neg (by simp)]
    exact h.tick hpumped hcount
  · rw [hrun, if_pos rfl]
    exact h.same hpumped hkept

theorem MQTT_Task_spaced (h : Spaced s n.passed) (locals : Locals B) (result : Bool) (resolved : Option ℕ) :
    Spaced (MQTT_Task s locals result resolved)
      (n.observe s (.task locals result resolved) (MQTT_Task s locals result resolved)).passed := by
  have hkept {s' : Sys} (hpumped : s'.pumped = s.pumped)
      (hleft : s.client.sendTimeout ≤ s'.client.sendTimeout ∨ MQTT_SEND_TIMOUT ≤ s'.client.sendTimeout) :
      Spaced s' (n.observe s (.task locals result resolved) s').passed := by
    simp only [Notes.observe, hpumped, List.drop_length, List.map_nil, List.reverse_nil, List.nil_append]
    exact h.kept hpumped hleft
  obtain ⟨_, hunsent, hsame⟩ | ⟨_, htask⟩ | ⟨_, htask⟩ := MQTT_Task_cases s locals result resolved
  · exact hkept hunsent.pumped (.inl hsame.ge)
  · rw [htask]
    cases result <;> exact hkept rfl (.inr (Nat.le_refl _))
  · rw [htask]
    obtain ⟨queue, hpump⟩ | ⟨queue, dataBuffer, dataLen, _, hready, _, hpump⟩ := pump_cases { s with posted := false } locals
    · rw [hpump]
      exact hkept rfl (.inl (Nat.le_refl _))
    · rw [hpump]
      simp only [Notes.observe, List.drop_left, List.map_cons, List.map_nil, List.reverse_singleton, List.singleton_append]
      exact h.passOn hready rfl rfl

theorem step_spaced (h : Spaced s n.passed) {a : Step B} (hstep : step s a = some s') :
    Spaced s' (n.observe s a s').passed := by
  cases step_taken hstep with
  | @call c _ hexec =>
    cases c with
    | request r =>
      obtain ⟨connection, id, queue, posted, accepted, _, rfl⟩ := ApiCall.request_frame hexec
      exact h.same rfl rfl
    | connect resolved =>
      obtain rfl := Option.some.inj hexec
      exact h.same (MQTT_Connect_unsent s resolved).pumped (MQTT_Connect_sendTimeout s resolved)
    | disconnect | deleteClient | initLWT | onConnected | onDisconnected | onData | onPublished | onTimeout =>
      obtain rfl := Option.some.inj hexec
      exact h.same rfl rfl
  | resume hcallback => exact returned_spaced h hcallback
  | dnsFound ipaddr => exact h.same (mqtt_dns_found_neutral (B := B) s ipaddr).pumped (mqtt_dns_found_sendTimeout s ipaddr)
  | connectCb => exact h.kept rfl (.inr (Nat.le_refl _))
  | reconCb => exact h.same rfl rfl
  | disconCb =>
    refine h.same (mqtt_tcpclient_discon_cb_neutral (B := B) s).pumped ?_
    simp only [mqtt_tcpclient_discon_cb, callsBack]
    split_ifs <;> rfl
  | recv pdata =>
    have hpass := receivePass_passes (B := B) { s with client := { s.client with keepAliveTick := 0 } } pdata
    exact h.same hpass.pumped hpass.sendTimeout
  | sentCb => exact h.report (mqtt_tcpclient_sent_cb_neutral (B := B) s).pumped
  | timer hs => exact mqtt_timer_spaced h hs
  | task locals result resolved => exact MQTT_Task_spaced h locals result resolved

/-! ## Runs -/

/-- The history of the queue bears out the notes. -/
structure Accounted (B : ℕ) (x : Sys × Notes) : Prop where
  history : ∃ l : Log (List UInt8), Sound B l x.1 ∧ l.Balanced x.2.evicted
  spaced : Spaced x.1 x.2.passed

theorem Starts.accounted (hB : B ≤ 65535) (hs : Starts B s) : Accounted B (s, .empty) := by
  have hsound := hs.sound hB
  refine ⟨⟨Log.empty, hsound, Log.empty_balanced⟩, hsound.pumped.symm, ?_, ?_⟩
  · exact fun p hp => absurd hp (by simp [Notes.empty])
  · exact fun p hp => absurd hp List.not_mem_nil

theorem Accounted.same (h : Accounted B (s, n)) (hneutral : Neutral B s s')
    (hkept : s'.client.sendTimeout = s.client.sendTimeout) : Accounted B (s', n) := by
  obtain ⟨⟨l, hsound, hbalanced⟩, hspaced⟩ := h
  exact ⟨⟨l, hsound.neutral hneutral, hbalanced⟩, hspaced.same hneutral.pumped hkept⟩

/-- Nothing but eviction and the task takes a packet from the queue. -/
theorem notedStep_accounted (hB3 : 3 ≤ B) (hB : B ≤ 65535) {x x' : Sys × Notes} {a : Step B} (h : Accounted B x)
    (hstep : notedStep x a = some x') : Accounted B x' := by
  obtain ⟨hstep, hnotes⟩ := observed_some hstep
  obtain ⟨⟨l, hsound, hbalanced⟩, hspaced⟩ := h
  obtain ⟨l', hdrops, hsound'⟩ := step_drops hsound hB3 hB hstep
  refine ⟨⟨l', hsound', ?_⟩, ?_⟩
  · rw [hnotes, Notes.observe_evicted]
    exact hdrops.balanced hbalanced
  · rw [hnotes]
    exact step_spaced hspaced hstep

/-- **No packet is lost without a note**, on any run of a client. -/
theorem run_accounted (hB3 : 3 ≤ B) (hB : B ≤ 65535) (hs : Starts B s) {steps : List (Step B)} {x : Sys × Notes}
    (hrun : run notedStep (s, .empty) steps = some x) : Accounted B x :=
  run_invariant (notedStep_accounted hB3 hB) (hs.accounted hB) hrun

/-- An empty ring has nothing waiting: every packet accepted was evicted or passed on. -/
theorem Accounted.accepted_perm {x : Sys × Notes} (h : Accounted B x) (hempty : ¬ x.1.client.msgQueue.rb.fill_cnt > 0) :
    x.1.accepted.Perm (x.2.evicted ++ x.1.pumped) := by
  obtain ⟨l, hsound, hbalanced⟩ := h.history
  have hwaiting : l.waiting = [] := by
    have hbytes := hsound.holds.isEmpty_iff.mp (decide_eq_true (Int.not_lt.mp hempty))
    have hcount := hsound.holds.carries.length_le
    rw [hbytes, List.length_nil] at hcount
    exact List.eq_nil_of_length_eq_zero (by omega)
  rw [hsound.accepted, hsound.pumped]
  unfold Log.Balanced at hbalanced
  rw [hwaiting, List.append_nil] at hbalanced
  exact hbalanced

end LightSleepMqtt.Client
