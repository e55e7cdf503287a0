import LightSleepMqtt.Client.Accounts
import LightSleepMqtt.Client.Network
import LightSleepMqtt.Sleep.Adc

/-! The device around the client: every third interrupt of `sleep.c` keeps it awake and arms two timers,
one for `sendADCData` and one for `goToSleep`, which lets it sleep when the ring is empty. An event of
the device is a list of events for the client and its surroundings, so that the notes on the packets
carry over. Handlers run to their end one at a time, and so does the one of the interrupt, which in the
firmware may come in the midst of another. -/
namespace LightSleepMqtt.Sleep
open Client Config Http Transition
set_option autoImplicit false

inductive sleep_type where
  | NONE_SLEEP_T
  | LIGHT_SLEEP_T
  | MODEM_SLEEP_T
  deriving DecidableEq

abbrev STATION_IDLE : UInt8 := 0

abbrev STATION_GOT_IP : UInt8 := 5

structure Device where
  world : World
  counter : UInt32
  wakeCount : UInt32
  lastWakeTime : UInt32
  lastWifiStatus : UInt8
  /-- What `wifi_set_sleep_type` was called with last. -/
  sleepType : Option sleep_type
  /-- The milliseconds the timer is armed with. -/
  readADC_timer : Option ℕ
  goToSleep_timer : Option ℕ

/-- The device when `sleepInit` has returned. -/
def Device.start (s : Sys) : Device where
  world := .start s
  counter := 0
  wakeCount := 0
  lastWakeTime := 0
  lastWifiStatus := STATION_IDLE
  sleepType := none
  readADC_timer := none
  goToSleep_timer := none

inductive DeviceEvent (MQTT_BUF_SIZE : ℕ) where
  | client (a : Step MQTT_BUF_SIZE) (outcome : Outcome)
  | answer (query : ℕ) (ipaddr : Option ℕ) (accepted : Bool)
  | wifi (wifiStatus : UInt8) (resolved : Option ℕ) (outcome : Outcome)
  /-- The clock is read twice. -/
  | interrupt (thisWakeTime lastWakeTime : UInt32) (wifiStatus : UInt8) (resolved : Option ℕ) (outcome : Outcome)
  /-- `mqttValue` is the string that `os_malloc` leaves in its block. -/
  | readADC (samples : Samples) (mqttValue : List UInt8) (locals : ℕ → Locals MQTT_BUF_SIZE) (outcome : Outcome)
  | goToSleep

variable {B : ℕ}

/-! ## The handlers -/

def wifiConnectCb (status : UInt8) (resolved : Option ℕ) : Step B :=
  if status = STATION_GOT_IP then .call (.connect resolved) else .call .disconnect

/-- What `wifi_check_ip` calls back. -/
def wifiChanges (d : Device) (wifiStatus : UInt8) (resolved : Option ℕ) (outcome : Outcome) : List (Event B) :=
  if wifiStatus = d.lastWifiStatus then [] else [.client (wifiConnectCb wifiStatus resolved) outcome]

def wifi_check_ip (B : ℕ) (d : Device) (wifiStatus : UInt8) (resolved : Option ℕ) (outcome : Outcome) : Option Device :=
  (run World.step d.world (wifiChanges d wifiStatus resolved outcome : List (Event B))).map fun world =>
    { d with world := world, lastWifiStatus := wifiStatus }

/-- The interrupt bounces when the last one was less than 10000 clock ticks ago. -/
def bounces (d : Device) (thisWakeTime : UInt32) : Bool := decide (thisWakeTime - d.lastWakeTime < 10000)

def sleepWakeOnInterruptHandeler (B : ℕ) (d : Device) (thisWakeTime lastWakeTime : UInt32) (wifiStatus : UInt8)
    (resolved : Option ℕ) (outcome : Outcome) : Option Device :=
  if bounces d thisWakeTime then some d
  else
    (wifi_check_ip B { d with lastWakeTime := lastWakeTime } wifiStatus resolved outcome).map fun d =>
      let d := { d with wakeCount := d.wakeCount + 1 }
      if d.wakeCount ≥ 3 then
        { d with
          sleepType := some .NONE_SLEEP_T
          wakeCount := 0
          readADC_timer := some 10
          goToSleep_timer := some 100 }
      else d

/-- The calls of `MQTT_Publish`. -/
def publishCalls (publications : List Publication) (locals : ℕ → Locals B) (outcome : Outcome) : List (Event B) :=
  publications.mapIdx fun i publication =>
    .client (.call (.request (.publish (some (.ofBytes publication.topic)) publication.value 1 1 (locals i)))) outcome

/-- When the ring is not empty, the timer is armed again and `mqttTimer` too. -/
def goToSleep (d : Device) : Device :=
  let d := { d with goToSleep_timer := none, world := d.world.goToSleep }
  if d.world.sys.client.msgQueue.rb.fill_cnt > 0 then { d with goToSleep_timer := some 500 }
  else { d with sleepType := some .LIGHT_SLEEP_T }

theorem goToSleep_world (d : Device) : (goToSleep d).world = d.world.goToSleep := by
  unfold goToSleep
  simp only
  split <;> rfl

section
variable (fp : FloatingPoint) (conversions : Conversions fp) (cfg : SYSCFG)

/-- What the expiry of `readADC_timer` publishes, up to a write that leaves its block. -/
def adcCalls (d : Device) (samples : Samples) (mqttValue : List UInt8) (locals : ℕ → Locals B) (outcome : Outcome) :
    List (Event B) :=
  publishCalls (sendADCData fp conversions cfg samples d.counter mqttValue).1 locals outcome

def Device.step (d : Device) : DeviceEvent B → Option Device
  | .client a outcome => (d.world.step (.client a outcome)).map fun world => { d with world := world }
  | .answer query ipaddr accepted =>
    (d.world.step (.answer query ipaddr accepted : Event B)).map fun world => { d with world := world }
  | .wifi wifiStatus resolved outcome => wifi_check_ip B d wifiStatus resolved outcome
  | .interrupt thisWakeTime lastWakeTime wifiStatus resolved outcome =>
    sleepWakeOnInterruptHandeler B d thisWakeTime lastWakeTime wifiStatus resolved outcome
  | .readADC samples mqttValue locals outcome =>
    if d.readADC_timer.isSome ∧ d.world.sys.running = none then
      (run World.step d.world (adcCalls fp conversions cfg d samples mqttValue locals outcome)).map fun world =>
        { d with
          world := world
          counter := (sendADCData fp conversions cfg samples d.counter mqttValue).2
          readADC_timer := none }
    else none
  | .goToSleep => if d.goToSleep_timer.isSome ∧ d.world.sys.running = none then some (goToSleep d) else none

/-- The events of the client and its surroundings in an event of the device. -/
def DeviceEvent.events (d : Device) : DeviceEvent B → List (Event B)
  | .client a outcome => [.client a outcome]
  | .answer query ipaddr accepted => [.answer query ipaddr accepted]
  | .wifi wifiStatus resolved outcome => wifiChanges d wifiStatus resolved outcome
  | .interrupt thisWakeTime _ wifiStatus resolved outcome =>
    if bounces d thisWakeTime then [] else wifiChanges d wifiStatus resolved outcome
  | .readADC samples mqttValue locals outcome => adcCalls fp conversions cfg d samples mqttValue locals outcome
  | .goToSleep => [.goToSleep]

/-- What the device does to the client is what these events do. -/
theorem step_events {d d' : Device} {e : DeviceEvent B} (h : d.step fp conversions cfg e = some d') :
    run World.step d.world (e.events fp conversions cfg d) = some d'.world := by
  cases e with
  | client a outcome =>
    obtain ⟨world, hworld, rfl⟩ := Option.map_eq_some_iff.mp h
    rw [DeviceEvent.events, run, hworld]
    rfl
  | answer query ipaddr accepted =>
    obtain ⟨world, hworld, rfl⟩ := Option.map_eq_some_iff.mp h
    rw [DeviceEvent.events, run, hworld]
    rfl
  | wifi wifiStatus resolved outcome =>
    obtain ⟨world, hworld, rfl⟩ := Option.map_eq_some_iff.mp h
    exact hworld
  | interrupt thisWakeTime lastWakeTime wifiStatus resolved outcome =>
    simp only [Device.step, sleepWakeOnInterruptHandeler] at h
    rw [DeviceEvent.events]
    split at h
    · rename_i hbounces
      rw [if_pos hbounces, ← Option.some.inj h]
      rfl
    · rename_i hbounces
      obtain ⟨checked, hchecked, rfl⟩ := Option.map_eq_some_iff.mp h
      obtain ⟨world, hworld, rfl⟩ := Option.map_eq_some_iff.mp hchecked
      rw [if_neg hbounces]
      split <;> exact hworld
  | readADC samples mqttValue locals outcome =>
    simp only [Device.step] at h
    split at h
    · obtain ⟨world, hworld, rfl⟩ := Option.map_eq_some_iff.mp h
      exact hworld
    · cases h
  | goToSleep =>
    simp only [Device.step] at h
    split at h
    · rename_i hexpires
      rw [← Option.some.inj h, DeviceEvent.events, run, World.step, if_pos hexpires.2, goToSleep_world]
      rfl
    · cases h

end

/-! ## The notes on the packets -/

/-- An answer of the network and `goToSleep` leave the queue alone. -/
def noteEvent (n : Notes) (w : World) (e : Event B) (w' : World) : Notes :=
  match e with
  | .client a _ => n.observe w.sys a w'.sys
  | _ => n

/-- The client and its surroundings with the notes. -/
abbrev notedEvent (x : World × Notes) (e : Event B) : Option (World × Notes) := observed World.step noteEvent x e

section
variable (fp : FloatingPoint) (conversions : Conversions fp) (cfg : SYSCFG)

/-- The notes on an event of the device are those on its events for the client. -/
def note (n : Notes) (d : Device) (e : DeviceEvent B) (_ : Device) : Notes :=
  ((run notedEvent (d.world, n) (e.events fp conversions cfg d)).map Prod.snd).getD n

/-- A device with the notes on its client. -/
abbrev notedDevice (x : Device × Notes) (e : DeviceEvent B) : Option (Device × Notes) :=
  observed (Device.step fp conversions cfg) (note fp conversions cfg) x e

/-- `goToSleep` has disarmed `mqttTimer` and selected LIGHT_SLEEP_T. -/
def Device.Sleeps (d : Device) : Prop := d.world.armed = false ∧ d.sleepType = some .LIGHT_SLEEP_T

/-- Every packet accepted and not evicted has been passed to `espconn_send`. -/
structure AllPassed (x : Device × Notes) : Prop where
  accepted : x.1.world.sys.accepted.Perm (x.2.evicted ++ x.1.world.sys.pumped)
  packets : x.2.passed.reverse.map Passed.packet = x.1.world.sys.pumped

/-- Each of them has been reported as sent. -/
def DataOut (x : Device × Notes) : Prop := AllPassed x ∧ ∀ p ∈ x.2.passed, p.reported = true

/-- Each of them was settled before the next one was passed on. -/
def DataSettled (x : Device × Notes) : Prop := AllPassed x ∧ ∀ p ∈ x.2.passed.tail, p.Settled

/-! ## Runs -/

variable {fp conversions cfg} {x x' : Device × Notes}

theorem notedEvent_accounted (hB3 : 3 ≤ B) (hB : B ≤ 65535) {y y' : World × Notes} {e : Event B}
    (h : Accounted B (y.1.sys, y.2)) (hstep : notedEvent y e = some y') : Accounted B (y'.1.sys, y'.2) := by
  obtain ⟨hworld, hnotes⟩ := observed_some hstep
  rw [hnotes]
  cases e with
  | client a outcome =>
    simp only [World.step] at hworld
    split at hworld
    · obtain ⟨s', hs', hfollow⟩ := Option.map_eq_some_iff.mp hworld
      have hsys : y'.1.sys = s' := by
        rw [← hfollow, World.follow]
        split <;> rfl
      refine notedStep_accounted hB3 hB (a := a) h ?_
      rw [notedStep, observed, hs', noteEvent, hsys]
      rfl
    · cases hworld
  | answer query ipaddr accepted =>
    simp only [World.step, World.answer] at hworld
    split at hworld
    · rw [← Option.some.inj hworld]
      exact h.same (mqtt_dns_found_neutral y.1.sys ipaddr) (mqtt_dns_found_sendTimeout y.1.sys ipaddr)
    · cases hworld
  | goToSleep =>
    simp only [World.step] at hworld
    split at hworld
    · rw [← Option.some.inj hworld]
      exact h
    · cases hworld

theorem notedDevice_accounted (hB3 : 3 ≤ B) (hB : B ≤ 65535) {e : DeviceEvent B}
    (h : Accounted B (x.1.world.sys, x.2)) (hstep : notedDevice fp conversions cfg x e = some x') :
    Accounted B (x'.1.world.sys, x'.2) := by
  obtain ⟨hdevice, hnotes⟩ := observed_some hstep
  have hevents := step_events fp conversions cfg hdevice
  rw [← run_observed noteEvent x.1.world x.2] at hevents
  obtain ⟨⟨world, n⟩, hrun, hworld⟩ := Option.map_eq_some_iff.mp hevents
  have hsame : x'.2 = n := by
    rw [hnotes, note, hrun]
    rfl
  rw [hsame, ← hworld]
  exact run_invariant (I := fun y => Accounted B (y.1.sys, y.2)) (notedEvent_accounted hB3 hB) h hrun

theorem goToSleep_empty {d : Device} (h : (goToSleep d).Sleeps) : ¬ d.world.sys.client.msgQueue.rb.fill_cnt > 0 := by
  obtain ⟨hdisarmed, _⟩ := h
  rw [goToSleep_world] at hdisarmed
  exact of_decide_eq_false hdisarmed

/-- **The device sleeps only when the task has passed everything on.** -/
theorem sleeps_when_passed_on (hB3 : 3 ≤ B) (hB : B ≤ 65535) {s : Sys} (hs : Starts B s) {events : List (DeviceEvent B)}
    (hrun : run (notedDevice fp conversions cfg) (.start s, .empty) events = some x)
    (hstep : notedDevice fp conversions cfg x (.goToSleep : DeviceEvent B) = some x') (hsleeps : x'.1.Sleeps) :
    DataSettled x' := by
  have hreached : Accounted B (x.1.world.sys, x.2) :=
    run_invariant (I := fun x : Device × Notes => Accounted B (x.1.world.sys, x.2)) (notedDevice_accounted hB3 hB)
      (hs.accounted hB) hrun
  have hafter := notedDevice_accounted hB3 hB hreached hstep
  obtain ⟨hdevice, _⟩ := observed_some hstep
  simp only [Device.step] at hdevice
  split at hdevice
  · have hdevice := Option.some.inj hdevice
    have hempty : ¬ x'.1.world.sys.client.msgQueue.rb.fill_cnt > 0 := by
      rw [← hdevice] at hsleeps ⊢
      rw [goToSleep_world]
      exact goToSleep_empty hsleeps
    exact ⟨⟨hafter.accepted_perm hempty, hafter.spaced.packets⟩, hafter.spaced.earlier⟩
  · cases hdevice

end

/-! ## A wake-up -/

abbrev exampleStep (x : Device × Notes) (e : DeviceEvent 64) : Option (Device × Notes) :=
  notedDevice binary64.floatingPoint (exactConversions binary64 lowWord) .zero x e

def reached : Outcome := ⟨true, true⟩

/-- Every sample is 0. -/
def silentChannels : Samples := fun _ => Vector.replicate adcValueBuffferLength 0

/-- The client connects, the third interrupt arms the timers, and the task passes on the five packets of
`sendADCData`; the sent callback of the last one has not come. -/
def lastUnsent : List (DeviceEvent 64) :=
  [.wifi STATION_GOT_IP none reached] ++
  ([.connectCb, .recv [0x20, 0x02, 0x00, 0x00], .sentCb] : List (Step 64)).map (.client · reached) ++
  [10000, 20000, 30000].map (fun time => .interrupt time time STATION_GOT_IP none reached) ++
  [.readADC silentChannels [] (fun _ => zeroLocals 64) reached] ++
  [runTask, .sentCb, runTask, .sentCb, runTask, .sentCb, runTask, .sentCb, runTask].map (.client · reached)

theorem lastUnsent_sleeps : ∃ x x' : Device × Notes, run exampleStep (.start newClient, .empty) lastUnsent = some x ∧
    exampleStep x .goToSleep = some x' ∧ x.1.world.sys.client.connState = .MQTT_DATA ∧ x'.1.Sleeps ∧
      x'.2.passed.map Passed.reported = [false, true, true, true, true] := by
  have hrun : ((run exampleStep (.start newClient, .empty) lastUnsent).bind fun x => (exampleStep x .goToSleep).map
      fun x' => (x.1.world.sys.client.connState, x'.1.world.armed, x'.1.sleepType, x'.2.passed.map Passed.reported)) =
        some (.MQTT_DATA, false, some .LIGHT_SLEEP_T, [false, true, true, true, true]) := by decide +kernel
  obtain ⟨x, hx, hrest⟩ := Option.bind_eq_some_iff.mp hrun
  obtain ⟨x', hx', hseen⟩ := Option.map_eq_some_iff.mp hrest
  simp only [Prod.mk.injEq] at hseen
  obtain ⟨hstate, hdisarmed, hselected, hreported⟩ := hseen
  exact ⟨x, x', hx, hx', hstate, ⟨hdisarmed, hselected⟩, hreported⟩

/-- The four packets in front of the last one are settled. -/
theorem sleeps_when_passed_on_last : ∃ x x' : Device × Notes,
    run exampleStep (.start newClient, .empty) lastUnsent = some x ∧ exampleStep x .goToSleep = some x' ∧
      DataSettled x' := by
  obtain ⟨x, x', hrun, hstep, _, hsleeps, _⟩ := lastUnsent_sleeps
  exact ⟨x, x', hrun, hstep, sleeps_when_passed_on (by decide) (by decide) newClient_starts hrun hstep hsleeps⟩

/-- The device sleeps while the last packet is on its way. -/
theorem asleep_before_sent : ∃ x x' : Device × Notes,
    run exampleStep (.start newClient, .empty) lastUnsent = some x ∧ exampleStep x .goToSleep = some x' ∧
      x.1.world.sys.client.connState = .MQTT_DATA ∧ x'.1.Sleeps ∧ ¬ DataOut x' := by
  obtain ⟨x, x', hrun, hstep, hstate, hsleeps, hreported⟩ := lastUnsent_sleeps
  refine ⟨x, x', hrun, hstep, hstate, hsleeps, fun hout => ?_⟩
  have hall : ∀ b ∈ x'.2.passed.map Passed.reported, b = true := by
    intro b hb
    obtain ⟨p, hp, rfl⟩ := List.mem_map.mp hb
    exact hout.2 p hp
  rw [hreported] at hall
  exact absurd (hall false (List.mem_cons_self ..)) (by decide)

end LightSleepMqtt.Sleep
