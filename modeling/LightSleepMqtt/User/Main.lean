import LightSleepMqtt.Sleep.Wake

/-! `user_main.c`: what `user_init` makes of the stored configuration, the callbacks it registers, and
the firmware as a whole. `mqttConnectedCb` is the only callback that calls the client; its four calls
are steps of their own, so that an interrupt may come between them. All other calls come from `wifi.c`
and `sleep.c`. The other handlers and the interrupt itself run to their end, one behind the other. -/
namespace LightSleepMqtt.User
open Message Client Http Sleep Transition
open Config hiding Device
set_option autoImplicit false

variable {B : ℕ}

/-! ## Starting up -/

/-- A string literal. -/
def literal (s : String) : CString := .ofBytes (ascii s)

/-- A member of `sysCfg` as a string. -/
def member (sysCfg : SYSCFG) (f : Field) : CString := .ofBytes (stringMember sysCfg f)

/-- The client behind `user_init`, when `CFG_Load` has left this in `sysCfg`. -/
def user_init (MQTT_BUF_SIZE : ℕ) (sysCfg : SYSCFG) : Sys :=
  let s := MQTT_InitClient MQTT_BUF_SIZE (MQTT_InitConnection (member sysCfg .mqtt_host) false)
    (member sysCfg .device_id) (some (member sysCfg .mqtt_user)) (some (member sysCfg .mqtt_pass))
    (sysCfg.word .mqtt_keepalive) 1
  let s := MQTT_OnConnected s true
  let s := MQTT_OnDisconnected s true
  let s := MQTT_OnPublished s true
  MQTT_OnData s true

/-! ## The callbacks -/

/-- The calls of `mqttConnectedCb`. -/
def mqttConnectedCb (locals : Locals B) : List (ApiCall B) := [
  .request (.publish (some (literal "/sensor/test/online")) (ascii "1") 1 1 locals),
  .initLWT (literal "/sensor/test/online") (literal "0") 1 1,
  .request (.publish (some (literal "/sensor/test/max")) (ascii "4500") 1 1 locals),
  .request (.publish (some (literal "/sensor/test/min")) (ascii "2500") 1 1 locals)]

/-! ## The firmware -/

structure Firmware where
  device : Device
  /-- How many of its calls a running `mqttConnectedCb` has made. -/
  called : ℕ

inductive FirmwareEvent (MQTT_BUF_SIZE : ℕ) where
  | device (e : DeviceEvent MQTT_BUF_SIZE)
  /-- The callback that is running makes its next call, or returns. -/
  | proceed (locals : Locals MQTT_BUF_SIZE) (outcome : Outcome)

/-- The firmware when `user_init` has returned. -/
def Firmware.start (MQTT_BUF_SIZE : ℕ) (sysCfg : SYSCFG) : Firmware := ⟨.start (user_init MQTT_BUF_SIZE sysCfg), 0⟩

abbrev Firmware.world (f : Firmware) : World := f.device.world

abbrev Firmware.sys (f : Firmware) : Sys := f.device.world.sys

/-- What the callbacks of the application do is left to `proceed`. -/
def fromOutside : DeviceEvent B → Bool
  | .client (.call _) _ | .client .resume _ => false
  | _ => true

/-- `mqttDisconnectedCb`, `mqttPublishedCb` and `mqttDataCb` do not call the client. -/
def Firmware.next (f : Firmware) (locals : Locals B) : Step B :=
  if f.sys.running = some .connectedCb then ((mqttConnectedCb locals)[f.called]?).elim .resume .call else .resume

section
variable (fp : FloatingPoint) (conversions : Conversions fp) (sysCfg : SYSCFG)

def Firmware.step (f : Firmware) : FirmwareEvent B → Option Firmware
  | .device e =>
    if fromOutside e then (f.device.step fp conversions sysCfg e).map fun device => { f with device := device } else none
  | .proceed locals outcome =>
    (f.device.step fp conversions sysCfg (.client (f.next locals) outcome)).map fun device =>
      { device := device
        called := match f.next locals with
          | .call _ => f.called + 1
          | _ => 0 }

/-- The event of the device that it is. -/
def FirmwareEvent.deviceEvent (f : Firmware) : FirmwareEvent B → DeviceEvent B
  | .device e => e
  | .proceed locals outcome => .client (f.next locals) outcome

/-- The events of the client and its surroundings. -/
def FirmwareEvent.events (f : Firmware) (e : FirmwareEvent B) : List (Event B) :=
  (e.deviceEvent f).events fp conversions sysCfg f.device

variable {fp conversions sysCfg} {f f' : Firmware}

theorem step_device {e : FirmwareEvent B} (h : f.step fp conversions sysCfg e = some f') :
    f.device.step fp conversions sysCfg (e.deviceEvent f) = some f'.device := by
  cases e with
  | device e =>
    simp only [Firmware.step] at h
    split at h
    · obtain ⟨device, hdevice, rfl⟩ := Option.map_eq_some_iff.mp h
      exact hdevice
    · cases h
  | proceed locals outcome =>
    obtain ⟨device, hdevice, rfl⟩ := Option.map_eq_some_iff.mp h
    exact hdevice

/-- The firmware is a device, a client and its surroundings; what holds of every run of these holds of it. -/
theorem step_world {e : FirmwareEvent B} (h : f.step fp conversions sysCfg e = some f') :
    run World.step f.world (e.events fp conversions sysCfg f) = some f'.world :=
  step_events fp conversions sysCfg (step_device h)

/-! ## The calls of the firmware -/

/-- What `mqttConnectedCb` and `sendADCData` publish. -/
def IsReport (fp : FloatingPoint) (conversions : Conversions fp) (sysCfg : SYSCFG) (topic : CString)
    (data : List UInt8) : Prop :=
  topic = literal "/sensor/test/online" ∧ data = ascii "1" ∨ topic = literal "/sensor/test/max" ∧ data = ascii "4500" ∨
    topic = literal "/sensor/test/min" ∧ data = ascii "2500" ∨
    (∃ adc < 8, topic = .ofBytes (channelTopic fp conversions sysCfg adc)) ∧ (∃ n : ℕ, data = printDecimal n) ∨
    topic = .ofBytes (stringMember sysCfg .mqtt_topicroot ++ ascii "/Counter") ∧ ∃ n : ℤ, data = printDecimal n

/-- The calls of the firmware. -/
def FirmwareCall (fp : FloatingPoint) (conversions : Conversions fp) (sysCfg : SYSCFG) : ApiCall B → Prop
  | .request (.publish topic data qos retain _) =>
    qos = 1 ∧ retain = 1 ∧ ∃ t, topic = some t ∧ IsReport fp conversions sysCfg t data
  | .initLWT will_topic will_msg will_qos will_retain =>
    will_topic = literal "/sensor/test/online" ∧ will_msg = literal "0" ∧ will_qos = 1 ∧ will_retain = 1
  | .connect _ | .disconnect => True
  | _ => False

/-- The events of the firmware. -/
def FirmwareUses (fp : FloatingPoint) (conversions : Conversions fp) (sysCfg : SYSCFG) : Event B → Prop
  | .client (.call c) _ => FirmwareCall fp conversions sysCfg c
  | _ => True

theorem mqttConnectedCb_calls (locals : Locals B) :
    ∀ c ∈ mqttConnectedCb locals, FirmwareCall fp conversions sysCfg c := by
  simp [mqttConnectedCb, FirmwareCall, IsReport]

theorem sendLoop_length_le (samples : Samples) (adcs : List ℕ) (mqttValue : List UInt8) :
    (sendLoop fp conversions sysCfg samples adcs mqttValue).1.length ≤ adcs.length := by
  induction adcs generalizing mqttValue with
  | nil => exact Nat.le_refl _
  | cons adc adcs ih =>
    rw [sendLoop]
    cases mqttTopic sysCfg (arm fp conversions sysCfg adc).name with
    | none => exact Nat.zero_le _
    | some topic => exact Nat.succ_le_succ (ih _)

theorem sendADCData_reports (samples : Samples) (counter : UInt32) (mqttValue : List UInt8) :
    ∀ publication ∈ (sendADCData fp conversions sysCfg samples counter mqttValue).1,
      IsReport fp conversions sysCfg (.ofBytes publication.topic) publication.value := by
  have hchannels : ∀ publication ∈ (sendLoop fp conversions sysCfg samples (List.range 8) mqttValue).1,
      IsReport fp conversions sysCfg (.ofBytes publication.topic) publication.value := by
    intro publication hpublication
    obtain ⟨k, hk⟩ := List.mem_iff_getElem?.mp hpublication
    have hlength : (sendLoop fp conversions sysCfg samples (List.range 8) mqttValue).1.length ≤ _ :=
      sendLoop_length_le samples (List.range 8) mqttValue
    obtain ⟨hlt, _⟩ := List.getElem?_eq_some_iff.mp hk
    rw [List.length_range] at hlength
    have hchannel : k < 8 := Nat.lt_of_lt_of_le hlt hlength
    rw [← sendADCData_getElem? hchannel counter] at hk
    obtain ⟨_, rfl⟩ := (sendADCData_channel hchannel counter publication).mp hk
    exact .inr (.inr (.inr (.inl ⟨⟨k, hchannel, rfl⟩, _, rfl⟩)))
  intro publication hpublication
  unfold sendADCData at hpublication
  simp only at hpublication
  split at hpublication
  · exact hchannels publication hpublication
  · generalize Int.bmod (counter + 1).toNat 4294967296 = n at hpublication
    split at hpublication
    · obtain hloop | hcounter := List.mem_append.mp hpublication
      · exact hchannels publication hloop
      · obtain ⟨topic, htopic, rfl⟩ := List.mem_map.mp hcounter
        have htopic := Option.mem_toList.mp htopic
        unfold mqttTopic at htopic
        split at htopic
        · have htopic := Option.some.inj htopic
          exact .inr (.inr (.inr (.inr ⟨congrArg CString.ofBytes htopic.symm, n, rfl⟩)))
        · cases htopic
    · exact hchannels publication hpublication

/-- **The firmware calls the client for nothing else.** -/
theorem step_uses {e : FirmwareEvent B} (h : f.step fp conversions sysCfg e = some f') :
    ∀ event ∈ e.events fp conversions sysCfg f, FirmwareUses fp conversions sysCfg event := by
  have hwifi (d : Sleep.Device) (wifiStatus : UInt8) (resolved : Option ℕ) (outcome : Outcome) :
      ∀ event ∈ (wifiChanges d wifiStatus resolved outcome : List (Event B)), FirmwareUses fp conversions sysCfg event := by
    intro event hevent
    unfold wifiChanges at hevent
    split at hevent
    · cases hevent
    · obtain rfl := List.mem_singleton.mp hevent
      unfold wifiConnectCb
      split <;> trivial
  cases e with
  | device e =>
    simp only [Firmware.step] at h
    split at h
    · rename_i houtside
      simp only [FirmwareEvent.events, FirmwareEvent.deviceEvent]
      cases e with
      | client a outcome =>
        intro event hevent
        obtain rfl := List.mem_singleton.mp hevent
        cases a with
        | call => cases houtside
        | _ => trivial
      | answer => simp [DeviceEvent.events, FirmwareUses]
      | wifi => exact hwifi _ _ _ _
      | interrupt =>
        rw [DeviceEvent.events]
        split
        · simp
        · exact hwifi _ _ _ _
      | readADC samples mqttValue locals outcome =>
        intro event hevent
        obtain ⟨i, hi, rfl⟩ := List.mem_mapIdx.mp hevent
        exact ⟨rfl, rfl, _, rfl, sendADCData_reports samples _ mqttValue _ (List.getElem_mem hi)⟩
      | goToSleep => simp [DeviceEvent.events, FirmwareUses]
    · cases h
  | proceed locals outcome =>
    intro event hevent
    obtain rfl := List.mem_singleton.mp hevent
    unfold Firmware.next
    split
    · cases hcall : (mqttConnectedCb locals)[f.called]? with
      | none => trivial
      | some c => exact mqttConnectedCb_calls locals c (List.mem_of_getElem? hcall)
    · trivial

end

end LightSleepMqtt.User
