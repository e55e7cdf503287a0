import LightSleepMqtt.Library.History
import LightSleepMqtt.Sleep.Wake

/-! The cycle of the device. `step_cycle` says what an event does to the fields of `sleep.c`; read off
it, in whatever order interrupts, timers and the client's handlers come, each behind the end of the one
before: an awake device is about to try to sleep and a sleeping one is not, however often the clock has
wrapped around the readings are thirty thousand of its ticks apart on average, and the reports are
numbered without a gap. -/
namespace LightSleepMqtt.Sleep
open Client Config Http Transition
set_option autoImplicit false

variable {B : ℕ} {d d' : Device}

section
variable (fp : FloatingPoint) (conversions : Conversions fp) (cfg : SYSCFG)

/-! ## Events -/

/-- `mqttTimer` is not armed on the way. -/
def Unarmed (w w' : World) : Prop := w'.armed = true → w.armed = true

theorem World.step_unarmed {w w' : World} {e : Event B} (he : e ≠ .goToSleep) (h : w.step e = some w') : Unarmed w w' := by
  cases e with
  | client a outcome =>
    obtain ⟨_, sys, _, rfl⟩ := World.step_client h
    intro harmed
    unfold World.follow at harmed
    split at harmed
    · cases harmed
    · exact (Bool.and_eq_true_iff.mp harmed).1
  | answer =>
    obtain ⟨_, rfl⟩ := World.answer_some h
    exact id
  | goToSleep => exact absurd rfl he

theorem run_unarmed {w w' : World} {events : List (Event B)} (he : ∀ e ∈ events, e ≠ .goToSleep)
    (h : run World.step w events = some w') : Unarmed w w' := by
  induction events generalizing w with
  | nil =>
    obtain rfl := Option.some.inj h
    exact id
  | cons e events ih =>
    obtain ⟨he, hevents⟩ := List.forall_mem_cons.mp he
    obtain ⟨t, hstep, hrest⟩ := run_cons h
    exact fun harmed => World.step_unarmed he hstep (ih hevents hrest harmed)

theorem wifi_check_ip_unarmed {wifiStatus : UInt8} {resolved : Option ℕ} {outcome : Outcome} {world : World}
    (h : run World.step d.world (wifiChanges d wifiStatus resolved outcome : List (Event B)) = some world) :
    Unarmed d.world world := by
  refine run_unarmed (fun e he => ?_) h
  unfold wifiChanges at he
  split at he
  · cases he
  · rw [List.mem_singleton.mp he]
    simp

/-- What an event does to the fields of `sleep.c`. -/
inductive Cycled (d : Device) : DeviceEvent B → Device → Prop where
  | client (a : Step B) (outcome : Outcome) {world : World} (hticks : Unarmed d.world world) :
    Cycled d (.client a outcome) { d with world := world }
  | answer (query : ℕ) (ipaddr : Option ℕ) (accepted : Bool) {world : World} (hticks : Unarmed d.world world) :
    Cycled d (.answer query ipaddr accepted) { d with world := world }
  | wifi (wifiStatus : UInt8) (resolved : Option ℕ) (outcome : Outcome) {world : World} (hticks : Unarmed d.world world) :
    Cycled d (.wifi wifiStatus resolved outcome) { d with world := world, lastWifiStatus := wifiStatus }
  | bounced {thisWakeTime : UInt32} (lastWakeTime : UInt32) (wifiStatus : UInt8) (resolved : Option ℕ)
    (outcome : Outcome) (hbounces : bounces d thisWakeTime = true) :
    Cycled d (.interrupt thisWakeTime lastWakeTime wifiStatus resolved outcome) d
  | counted {thisWakeTime : UInt32} (lastWakeTime : UInt32) (wifiStatus : UInt8) (resolved : Option ℕ)
    (outcome : Outcome) {world : World} (hticks : Unarmed d.world world) (hbounces : bounces d thisWakeTime = false)
    (hfew : d.wakeCount + 1 < 3) :
    Cycled d (.interrupt thisWakeTime lastWakeTime wifiStatus resolved outcome) { d with
      world := world, lastWakeTime := lastWakeTime, lastWifiStatus := wifiStatus, wakeCount := d.wakeCount + 1 }
  | woken {thisWakeTime : UInt32} (lastWakeTime : UInt32) (wifiStatus : UInt8) (resolved : Option ℕ)
    (outcome : Outcome) {world : World} (hticks : Unarmed d.world world) (hbounces : bounces d thisWakeTime = false)
    (hthird : ¬ d.wakeCount + 1 < 3) :
    Cycled d (.interrupt thisWakeTime lastWakeTime wifiStatus resolved outcome) { d with
      world := world, lastWakeTime := lastWakeTime, lastWifiStatus := wifiStatus, wakeCount := 0
      sleepType := some .NONE_SLEEP_T, readADC_timer := some 10, goToSleep_timer := some 100 }
  | read (samples : Samples) (mqttValue : List UInt8) (locals : ℕ → Locals B) (outcome : Outcome) {world : World}
    (hticks : Unarmed d.world world) (harmed : d.readADC_timer.isSome = true) :
    Cycled d (.readADC samples mqttValue locals outcome) { d with
      world := world, counter := (sendADCData fp conversions cfg samples d.counter mqttValue).2, readADC_timer := none }
  | kept (harmed : d.goToSleep_timer.isSome = true) (hfull : d.world.sys.client.msgQueue.rb.fill_cnt > 0) :
    Cycled d .goToSleep { d with world := d.world.goToSleep, goToSleep_timer := some 500 }
  | asleep (harmed : d.goToSleep_timer.isSome = true) (hempty : ¬ d.world.sys.client.msgQueue.rb.fill_cnt > 0) :
    Cycled d .goToSleep { d with
      world := d.world.goToSleep, goToSleep_timer := none, sleepType := some .LIGHT_SLEEP_T }

theorem step_cycle {e : DeviceEvent B} (h : d.step fp conversions cfg e = some d') : Cycled fp conversions cfg d e d' := by
  cases e with
  | client a outcome =>
    obtain ⟨world, hworld, rfl⟩ := Option.map_eq_some_iff.mp h
    exact .client a outcome (World.step_unarmed (by simp) hworld)
  | answer query ipaddr accepted =>
    obtain ⟨world, hworld, rfl⟩ := Option.map_eq_some_iff.mp h
    exact .answer query ipaddr accepted (World.step_unarmed (by simp) hworld)
  | wifi wifiStatus resolved outcome =>
    obtain ⟨world, hworld, rfl⟩ := Option.map_eq_some_iff.mp h
    exact .wifi wifiStatus resolved outcome (wifi_check_ip_unarmed hworld)
  | interrupt thisWakeTime lastWakeTime wifiStatus resolved outcome =>
    simp only [Device.step, sleepWakeOnInterruptHandeler] at h
    split at h
    · rename_i hbounces
      obtain rfl := Option.some.inj h
      exact .bounced lastWakeTime wifiStatus resolved outcome hbounces
    · rename_i hbounces
      obtain ⟨_, hchecked, rfl⟩ := Option.map_eq_some_iff.mp h
      obtain ⟨world, hworld, rfl⟩ := Option.map_eq_some_iff.mp hchecked
      have hticks := wifi_check_ip_unarmed (d := { d with lastWakeTime := lastWakeTime }) hworld
      rw [Bool.not_eq_true] at hbounces
      split
      · rename_i hthird
        exact .woken lastWakeTime wifiStatus resolved outcome hticks hbounces (UInt32.not_lt.mpr hthird)
      · rename_i hfew
        exact .counted lastWakeTime wifiStatus resolved outcome hticks hbounces (UInt32.not_le.mp hfew)
  | readADC samples mqttValue locals outcome =>
    simp only [Device.step] at h
    split at h
    · rename_i hexpires
      obtain ⟨world, hworld, rfl⟩ := Option.map_eq_some_iff.mp h
      refine .read samples mqttValue locals outcome (run_unarmed (fun e he => ?_) hworld) hexpires.1
      obtain ⟨i, _, rfl⟩ := List.mem_mapIdx.mp he
      simp
    · cases h
  | goToSleep =>
    simp only [Device.step] at h
    split at h
    · rename_i hexpires
      obtain rfl := Option.some.inj h
      unfold goToSleep
      simp only
      split
      · rename_i hfull
        exact .kept hexpires.1 hfull
      · rename_i hempty
        exact .asleep hexpires.1 hempty
    · cases h

variable {fp conversions cfg}

/-! ## Awake and asleep -/

/-- The device is awake for as long as it is about to try to sleep, and only then `mqttTimer` ticks; it
has been woken before it reads anything. -/
structure Awake (d : Device) : Prop where
  counting : d.wakeCount < 3
  armed : d.sleepType = some .NONE_SLEEP_T ↔ d.goToSleep_timer.isSome = true
  ticking : d.world.armed = true → d.goToSleep_timer.isSome = true
  silent : d.sleepType = none → d.readADC_timer = none

theorem Awake.start (s : Sys) : Awake (.start s) :=
  ⟨show (0 : UInt32) < 3 by decide, by simp [Device.start], by simp [Device.start, World.start], fun _ => rfl⟩

theorem Awake.step {e : DeviceEvent B} (h : Awake d) (hstep : d.step fp conversions cfg e = some d') : Awake d' := by
  cases step_cycle fp conversions cfg hstep with
  | client _ _ hticks | answer _ _ _ hticks | wifi _ _ _ hticks =>
    exact ⟨h.counting, h.armed, fun harmed => h.ticking (hticks harmed), h.silent⟩
  | bounced => exact h
  | counted _ _ _ _ hticks _ hfew => exact ⟨hfew, h.armed, fun harmed => h.ticking (hticks harmed), h.silent⟩
  | woken => exact ⟨(by decide : (0 : UInt32) < 3), by simp, fun _ => rfl, by simp⟩
  | read _ _ _ _ hticks => exact ⟨h.counting, h.armed, fun harmed => h.ticking (hticks harmed), fun _ => rfl⟩
  | kept harmed => exact ⟨h.counting, iff_of_true (h.armed.mpr harmed) rfl, fun _ => rfl, h.silent⟩
  | asleep _ hempty => exact ⟨h.counting, by simp, fun harmed => absurd (of_decide_eq_true harmed) hempty, by simp⟩

/-- **A device is awake exactly while `goToSleep_timer` is armed**, and `mqttTimer` ticks only there: in no
order of interrupts, timers and handlers is an awake device without the timer that will try to let it sleep. -/
theorem run_awake_armed (s : Sys) (events : List (DeviceEvent B)) :
    Always (Device.step fp conversions cfg) Awake (.start s) events :=
  always_of_invariant (fun h hstep => h.step hstep) id (Awake.start s)

/-! ## The readings and the clock -/

/-- The clock shows the low 32 bits of the time. -/
def DeviceEvent.Reads (began ended : ℕ) : DeviceEvent B → Prop
  | .interrupt thisWakeTime lastWakeTime .. => thisWakeTime = .ofNat began ∧ lastWakeTime = .ofNat ended
  | _ => True

/-- An event with the time it takes. -/
structure TimedEvent (MQTT_BUF_SIZE : ℕ) where
  event : DeviceEvent MQTT_BUF_SIZE
  began : ℕ
  ended : ℕ
  ordered : began ≤ ended
  reads : event.Reads began ended

variable (fp conversions cfg) in
/-- The device and the time; no event begins before the one in front of it has ended. -/
def timedStep (x : Device × ℕ) (e : TimedEvent B) : Option (Device × ℕ) :=
  if x.2 ≤ e.began then (x.1.step fp conversions cfg e.event).map fun d => (d, e.ended) else none

theorem timedStep_some {x x' : Device × ℕ} {e : TimedEvent B} (h : timedStep fp conversions cfg x e = some x') :
    x.2 ≤ e.began ∧ x.1.step fp conversions cfg e.event = some x'.1 ∧ x'.2 = e.ended := by
  unfold timedStep at h
  split at h
  · rename_i hbegan
    obtain ⟨d, hstep, rfl⟩ := Option.map_eq_some_iff.mp h
    exact ⟨hbegan, hstep, rfl⟩
  · cases h

/-- Count the runs of `sendADCData`. -/
def countReadings (n : ℕ) (_ : Device × ℕ) (e : TimedEvent B) (_ : Device × ℕ) : ℕ :=
  match e.event with
  | .readADC .. => n + 1
  | _ => n

/-- The interrupts that have been counted: three for each reading, also for one that is due. -/
def interrupts (d : Device) (readings : ℕ) : ℕ :=
  d.wakeCount.toNat + 3 * (d.readADC_timer.isSome.toNat + readings)

/-- Only an interrupt that does not bounce is counted. -/
theorem step_interrupts (h : Awake d) (readings : ℕ) (x : Device × ℕ) {e : TimedEvent B}
    (hstep : d.step fp conversions cfg e.event = some d') :
    d'.lastWakeTime = d.lastWakeTime ∧ interrupts d' (countReadings readings x e x) ≤ interrupts d readings ∨
      bounces d (.ofNat e.began) = false ∧ d'.lastWakeTime = .ofNat e.ended ∧
        interrupts d' (countReadings readings x e x) ≤ interrupts d readings + 1 := by
  obtain ⟨event, began, ended, _, hreads⟩ := e
  have hcounting := UInt32.lt_iff_toNat_lt.mp h.counting
  have hthree : (3 : UInt32).toNat = 3 := rfl
  have hnext : (d.wakeCount + 1).toNat = d.wakeCount.toNat + 1 := by
    rw [UInt32.toNat_add]
    exact Nat.mod_eq_of_lt (by have hone : (1 : UInt32).toNat = 1 := rfl; omega)
  cases step_cycle fp conversions cfg hstep with
  | client | answer | wifi | bounced | kept | asleep => exact .inl ⟨rfl, Nat.le_refl _⟩
  | counted _ _ _ _ _ hbounces _ =>
    obtain ⟨rfl, rfl⟩ := hreads
    refine .inr ⟨hbounces, rfl, ?_⟩
    simp only [interrupts, countReadings, hnext]
    omega
  | woken _ _ _ _ _ hbounces hthird =>
    obtain ⟨rfl, rfl⟩ := hreads
    rw [UInt32.lt_iff_toNat_lt, hnext] at hthird
    refine .inr ⟨hbounces, rfl, ?_⟩
    simp only [interrupts, countReadings, Option.isSome_some, Bool.toNat_true, UInt32.toNat_zero]
    omega
  | read _ _ _ _ _ harmed =>
    refine .inl ⟨rfl, ?_⟩
    simp only [interrupts, countReadings, harmed, Option.isSome_none, Bool.toNat_true, Bool.toNat_false]
    omega

/-- An interrupt that does not bounce is ten thousand ticks behind the last one, also when the clock has
wrapped around in between. -/
theorem not_bounces {last began : ℕ} (hshown : d.lastWakeTime = .ofNat last) (hlast : last ≤ began)
    (hbounces : bounces d (.ofNat began) = false) : last + 10000 ≤ began := by
  rw [bounces, hshown, decide_eq_false_iff_not, UInt32.lt_iff_toNat_lt, UInt32.toNat_sub, UInt32.toNat_ofNat',
    UInt32.toNat_ofNat'] at hbounces
  have hten : (10000 : UInt32).toNat = 10000 := rfl
  omega

/-- The interrupts counted since `boot` have taken ten thousand ticks each, but for the first. -/
structure Ticking (boot : ℕ) (x : (Device × ℕ) × ℕ) (last : ℕ) : Prop where
  awake : Awake x.1.1
  since : boot ≤ last
  past : last ≤ x.1.2
  shown : interrupts x.1.1 x.2 = 0 ∨ x.1.1.lastWakeTime = .ofNat last
  taken : boot + 10000 * interrupts x.1.1 x.2 ≤ last + 10000

theorem Ticking.step {boot last : ℕ} {x x' : (Device × ℕ) × ℕ} {e : TimedEvent B} (h : Ticking boot x last)
    (hobserved : observed (timedStep fp conversions cfg) countReadings x e = some x') : ∃ last, Ticking boot x' last := by
  obtain ⟨htimed, hcount⟩ := observed_some hobserved
  obtain ⟨hbegan, hstep, hended⟩ := timedStep_some htimed
  have hawake := h.awake.step hstep
  have hlast := Nat.le_trans h.past hbegan
  have hordered := e.ordered
  have hsince := h.since
  have htaken := h.taken
  obtain ⟨hsame, hle⟩ | ⟨hbounces, hshown, hle⟩ := step_interrupts h.awake x.2 x.1 hstep
  · rw [show countReadings x.2 x.1 e x.1 = x'.2 from hcount.symm] at hle
    refine ⟨last, hawake, hsince, by omega, ?_, by omega⟩
    obtain hnone | hshown := h.shown
    · exact .inl (by omega)
    · exact .inr (hsame.trans hshown)
  · rw [show countReadings x.2 x.1 e x.1 = x'.2 from hcount.symm] at hle
    refine ⟨e.ended, hawake, by omega, Nat.le_of_eq hended.symm, .inr hshown, ?_⟩
    obtain hnone | hlastShown := h.shown
    · omega
    · have hten := not_bounces hlastShown hlast hbounces
      omega

/-- **Thirty thousand ticks for a reading**: however the clock wraps around, and whatever else comes in
between, the device has not read its channels more often than that since it was booted. -/
theorem run_readings_spaced (s : Sys) (boot : ℕ) (events : List (TimedEvent B)) :
    Always (observed (timedStep fp conversions cfg) countReadings) (fun x => boot + 30000 * x.2 ≤ x.1.2 + 10000)
      ((.start s, boot), 0) events := by
  refine always_of_invariant (I := fun x => ∃ last, Ticking boot x last)
    (fun ⟨_, h⟩ hstep => h.step hstep) ?_ ⟨boot, Awake.start s, Nat.le_refl _, Nat.le_refl _, .inl rfl, Nat.le_add_right _ _⟩
  rintro x ⟨last, h⟩
  have htaken := h.taken
  have hpast := h.past
  unfold interrupts at htaken
  omega

/-! ## The reports -/

variable (fp conversions cfg) in
/-- Every topic fits the block that `sendADCData` allocates. -/
structure TopicsFitBlock : Prop where
  channels : TopicsFit fp conversions cfg 0 7
  counter : (stringMember cfg .mqtt_topicroot ++ ascii "/Counter").length + 1 ≤ TOPIC_SIZE

variable (fp conversions cfg) in
/-- The readings of the eight channels on their topics, and the number of the report. -/
structure Numbered (n : ℕ) (report : List Publication) : Prop where
  complete : report.length = 9
  channels : ∀ k < 8, (report[k]?).map Publication.topic = some (channelTopic fp conversions cfg k)
  counter : report[8]? = some ⟨stringMember cfg .mqtt_topicroot ++ ascii "/Counter", printDecimal n⟩

theorem length_printDecimal_lt {n : ℕ} (h : n < 10000000) : (printDecimal n).length ≤ 7 := by
  rw [printDecimal_ofNat, List.length_map]
  exact (Nat.length_toDigits_le_iff (by decide) (by decide)).mpr h

theorem sendLoop_complete (h : TopicsFit fp conversions cfg 0 7) (samples : Samples) (mqttValue : List UInt8) :
    (sendLoop fp conversions cfg samples (List.range 8) mqttValue).2 ≠ none := by
  suffices hfit : ∀ (adcs : List ℕ) (mqttValue : List UInt8), (∀ adc ∈ adcs, adc < 8) →
      (sendLoop fp conversions cfg samples adcs mqttValue).2 ≠ none from hfit _ _ (by simp)
  intro adcs
  induction adcs with
  | nil => simp [sendLoop]
  | cons adc adcs ih =>
    intro mqttValue hadcs
    rw [sendLoop, mqttTopic_fits (h adc (Nat.zero_le _) (Nat.le_of_lt_succ (hadcs adc List.mem_cons_self)))]
    exact ih _ fun adc hadc => hadcs adc (List.mem_cons_of_mem _ hadc)

/-- **A report in full**, as long as its number fits the block of the value. -/
theorem sendADCData_numbered (h : TopicsFitBlock fp conversions cfg) {counter : UInt32}
    (hcounter : counter.toNat + 1 < 10000000) (samples : Samples) (mqttValue : List UInt8) :
    Numbered fp conversions cfg (counter.toNat + 1) (sendADCData fp conversions cfg samples counter mqttValue).1 ∧
      (sendADCData fp conversions cfg samples counter mqttValue).2 = counter + 1 := by
  have hcomplete := sendLoop_complete h.channels samples mqttValue
  have hlength := sendLoop_length hcomplete
  have hnext : (counter + 1).toNat = counter.toNat + 1 := by
    rw [UInt32.toNat_add]
    exact Nat.mod_eq_of_lt (by have hone : (1 : UInt32).toNat = 1 := rfl; omega)
  have hshown : printDecimal (Int.bmod (counter + 1).toNat 4294967296) = printDecimal (counter.toNat + 1 : ℕ) := by
    rw [hnext, Int.bmod_eq_of_le (by omega) (by omega)]
  have hsent : sendADCData fp conversions cfg samples counter mqttValue =
      ((sendLoop fp conversions cfg samples (List.range 8) mqttValue).1 ++
        [⟨stringMember cfg .mqtt_topicroot ++ ascii "/Counter", printDecimal (counter.toNat + 1 : ℕ)⟩], counter + 1) := by
    unfold sendADCData
    simp only
    have hshort := length_printDecimal_lt hcounter
    rw [if_neg hcomplete, hshown, if_pos (by unfold VALUE_SIZE; omega), mqttTopic, if_pos h.counter]
    rfl
  refine ⟨⟨?_, fun k hk => ?_, ?_⟩, by rw [hsent]⟩
  · rw [hsent, List.length_append, hlength]
    rfl
  · have hchannel : (sendADCData fp conversions cfg samples counter mqttValue).1[k]? = some ⟨channelTopic fp conversions cfg k,
        printDecimal (adcValue fp conversions cfg samples (if k = 5 then 4 else k)).toNat⟩ :=
      (sendADCData_channel hk counter _).mpr ⟨fun adc hlow hhigh => h.channels adc hlow (by omega), rfl⟩
    rw [hchannel]
    rfl
  · rw [hsent, List.getElem?_append_right (by rw [hlength]; exact Nat.le_refl 8), hlength]
    rfl

variable (fp conversions cfg) in
/-- Note what each run of `sendADCData` passes to `MQTT_Publish`. -/
def noteReport (reports : List (List Publication)) (d : Device) (e : DeviceEvent B) (_ : Device) :
    List (List Publication) :=
  match e with
  | .readADC samples mqttValue _ _ => reports ++ [(sendADCData fp conversions cfg samples d.counter mqttValue).1]
  | _ => reports

/-- `sendADCData` has counted the reports, and all of them are complete up to the number that does not fit
its block. -/
structure Reported (fp : FloatingPoint) (conversions : Conversions fp) (cfg : SYSCFG)
    (x : Device × List (List Publication)) : Prop where
  counted : x.2.length < 10000000 → x.1.counter.toNat = x.2.length
  numbered : ∀ k report, k + 1 < 10000000 → x.2[k]? = some report → Numbered fp conversions cfg (k + 1) report

theorem Reported.same {x : Device × List (List Publication)} (h : Reported fp conversions cfg x)
    (hcounter : d'.counter = x.1.counter) : Reported fp conversions cfg (d', x.2) :=
  ⟨fun hlt => hcounter ▸ h.counted hlt, h.numbered⟩

theorem Reported.step (hfit : TopicsFitBlock fp conversions cfg) {x x' : Device × List (List Publication)}
    {e : DeviceEvent B} (h : Reported fp conversions cfg x)
    (hobserved : observed (Device.step fp conversions cfg) (noteReport fp conversions cfg) x e = some x') :
    Reported fp conversions cfg x' := by
  obtain ⟨hstep, hreports⟩ := observed_some hobserved
  obtain ⟨d', reports⟩ := x'
  simp only at hstep hreports
  cases step_cycle fp conversions cfg hstep with
  | client | answer | wifi | bounced | counted | woken | kept | asleep => exact hreports ▸ h.same rfl
  | read samples mqttValue locals outcome _ harmed =>
    simp only [noteReport] at hreports
    subst hreports
    -- the report that is added, unless its number does not fit
    have hnew (hlt : x.2.length + 1 < 10000000) :
        Numbered fp conversions cfg (x.1.counter.toNat + 1) (sendADCData fp conversions cfg samples x.1.counter mqttValue).1 ∧
          (sendADCData fp conversions cfg samples x.1.counter mqttValue).2 = x.1.counter + 1 :=
      sendADCData_numbered hfit (by rw [h.counted (by omega)]; exact hlt) samples mqttValue
    refine ⟨fun hlt => ?_, fun k report hk hreport => ?_⟩
    · rw [List.length_append, List.length_singleton] at hlt ⊢
      have hcount := h.counted (by omega)
      have hone : (1 : UInt32).toNat = 1 := rfl
      show (sendADCData fp conversions cfg samples x.1.counter mqttValue).2.toNat = _
      rw [(hnew hlt).2, UInt32.toNat_add]
      omega
    · obtain hold | hat := Nat.lt_or_ge k x.2.length
      · exact h.numbered k report hk (by rwa [List.getElem?_append_left hold] at hreport)
      · rw [List.getElem?_append_right hat] at hreport
        obtain ⟨hlast, hreport⟩ := List.getElem?_eq_some_iff.mp hreport
        rw [List.length_singleton, Nat.lt_one_iff] at hlast
        obtain rfl : k = x.2.length := by omega
        simp only [hlast, List.getElem_singleton] at hreport
        have hnumbered := (hnew hk).1
        rwa [h.counted (by omega), hreport] at hnumbered

/-- **The reports are complete and numbered from 1 on without a gap**, in every order of events and for as
long as `os_malloc` finds blocks for them; the number behind 9999999 does not fit its block. -/
theorem run_reports_numbered (hfit : TopicsFitBlock fp conversions cfg) (s : Sys) (events : List (DeviceEvent B)) :
    Always (observed (Device.step fp conversions cfg) (noteReport fp conversions cfg)) (Reported fp conversions cfg)
      (.start s, []) events :=
  always_of_invariant (fun h hstep => h.step hfit hstep) id ⟨fun _ => rfl, by simp⟩

end

/-- A device with a name, the host 1.2.3.4, and names for the topics. -/
def namedSysCfg : SYSCFG where
  bytes := List.replicate 4 0 ++ 0x63 :: List.replicate 163 0 ++ [0x31, 0x2E, 0x32, 0x2E, 0x33, 0x2E, 0x34] ++
    List.replicate 130 0 ++ ascii "/home" ++ List.replicate 59 0 ++ ascii "/a0" ++ List.replicate 44 0 ++
    ascii "/a1" ++ List.replicate 37 0 ++ ascii "/a2" ++ List.replicate 37 0 ++ ascii "/a3" ++ List.replicate 45 0
  size_eq := by decide +kernel

theorem namedSysCfg_fits :
    TopicsFitBlock binary64.floatingPoint (exactConversions binary64 lowWord) namedSysCfg := by
  refine ⟨fun adc _ hadc => ?_, by decide +kernel⟩
  interval_cases adc <;> decide +kernel

/-- Three interrupts that do not bounce, and the reading they lead to. -/
def reading (B first : ℕ) : List (DeviceEvent B) :=
  [first, first + 10000, first + 20000].map
    (fun time => .interrupt (.ofNat time) (.ofNat time) STATION_GOT_IP none reached) ++
    [.readADC silentChannels [] (fun _ => zeroLocals B) reached]

/-- The client connects, and passes on the packets of the first report before the second one. -/
def twoReports : List (DeviceEvent 64) :=
  [.wifi STATION_GOT_IP none reached] ++
  ([.connectCb, .recv [0x20, 0x02, 0x00, 0x00], .sentCb] : List (Step 64)).map (.client · reached) ++
  reading 64 10000 ++ (List.replicate 9 [runTask, .sentCb]).flatten.map (.client · reached) ++ reading 64 40000

abbrev reportStep (x : Device × List (List Publication)) (e : DeviceEvent 64) : Option (Device × List (List Publication)) :=
  observed (Device.step binary64.floatingPoint (exactConversions binary64 lowWord) namedSysCfg)
    (noteReport binary64.floatingPoint (exactConversions binary64 lowWord) namedSysCfg) x e

theorem run_reports_numbered_named :
    (run reportStep (.start newClient, []) twoReports).map (fun x => x.2.map List.length) = some [9, 9] ∧
      Always reportStep (Reported binary64.floatingPoint (exactConversions binary64 lowWord) namedSysCfg)
        (.start newClient, []) twoReports :=
  ⟨by decide +kernel, run_reports_numbered namedSysCfg_fits newClient twoReports⟩

end LightSleepMqtt.Sleep
