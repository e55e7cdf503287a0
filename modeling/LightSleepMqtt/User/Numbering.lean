import LightSleepMqtt.Sleep.Cycle
import LightSleepMqtt.User.Firmware

/-! The numbers of the reports as a broker gets them. `sendADCData` numbers its reports, the queue drops
the oldest packets when it is full, and connections are lost and made again; what goes out on the topic
of the numbers ascends all the same, over all the connections of a run. -/
namespace LightSleepMqtt.User
open Message MqttWire Client Http Sleep DropQueue Transition
open Config hiding Device
set_option autoImplicit false

variable {B : ℕ}

/-! ## What is published on a topic -/

/-- The payload of a publish on a topic. -/
def valueOn (topic piece : List UInt8) : Option (List UInt8) :=
  match decode piece with
  | some (.publish _ _ _ t _ payload, _) => if t = topic then some payload else none
  | _ => none

theorem valueOn_encode {p : Packet} (h : p.WellFormed) (topic : List UInt8) : valueOn topic p.encode =
    match p with
    | .publish _ _ _ t _ payload => if t = topic then some payload else none
    | _ => none := by
  have hdecode := decode_encode p h []
  rw [List.append_nil] at hdecode
  rw [valueOn, hdecode]
  cases p <;> rfl

/-- What an event of the firmware publishes on a topic. -/
def eventValue (topic : List UInt8) : Event B → Option (List UInt8)
  | .client (.call (.request (.publish (some t) data _ _ _))) _ => if t.bytes = topic then some data else none
  | _ => none

section
variable {fp : FloatingPoint} {conversions : Conversions fp} {sysCfg : SYSCFG} {topic : List UInt8}
  {l : Log (List UInt8)} {w w' : World} {event : Event B}

theorem answer_valueOn {piece : List UInt8} (h : Answer B piece) : valueOn topic piece = none := by
  obtain ⟨_, rfl | ⟨q, hq, hreply, rfl⟩⟩ := h
  · rfl
  · rw [valueOn_encode hq]
    cases q <;> first | rfl | exact hreply.elim

theorem asked_valueOn {t : CString} {data value : List UInt8} {qos retain : ℤ} {locals : Locals B} {piece : List UInt8}
    (h : Transmits (fun p => Request.Asks (.publish (some t) data qos retain locals) p) piece)
    (hvalue : valueOn topic piece = some value) : t.bytes = topic ∧ value = data := by
  obtain rfl | ⟨p, hp, ⟨t', id, q, htopic, _, rfl⟩, rfl⟩ := h
  · cases hvalue
  · obtain rfl := Option.some.inj htopic
    rw [valueOn_encode hp] at hvalue
    simp only at hvalue
    split at hvalue
    · exact ⟨by assumption, (Option.some.inj hvalue).symm⟩
    · cases hvalue

/-- The queue accepts on a topic what the event publishes there, or nothing. -/
theorem event_values (hl : Sound B l w.sys) (hB3 : 3 ≤ B) (hB : B ≤ 65535)
    (huses : FirmwareUses fp conversions sysCfg event) (topic : List UInt8) (hstep : w.step event = some w') :
    ∃ l', Sound B l' w'.sys ∧ (l.InOrder → l'.InOrder) ∧ ∃ value : Option (List UInt8),
      (∀ v, value = some v → eventValue topic event = some v) ∧
        l'.accepted.filterMap (valueOn topic) = l.accepted.filterMap (valueOn topic) ++ value.toList := by
  cases event with
  | client a outcome =>
    obtain ⟨_, sys, hsys, rfl⟩ := World.step_client hstep
    rw [World.follow_sys]
    cases hr : a.request with
    | none =>
      obtain ⟨l', hmoves, hl'⟩ := step_answers hl hB3 hB hr hsys
      obtain ⟨value, hvalue, haccepted⟩ := hmoves.filterMap (valueOn topic)
      refine ⟨l', hl', hmoves.inOrder, value, fun v hv => ?_, haccepted⟩
      obtain ⟨piece, hanswer, hpiece⟩ := hvalue v hv
      cases (answer_valueOn hanswer).symm.trans hpiece
    | some r =>
      obtain ⟨rfl, ok, hexec⟩ := step_request hr hsys
      obtain ⟨l', hmoves, hl'⟩ := r.exec_moves hl hB3 hB hexec
      cases r with
      | publish t data qos retain locals =>
        obtain ⟨rfl, rfl, t, rfl, _⟩ := huses
        have hasked : Moves (Transmits fun p => Request.Asks (.publish (some t) data 1 1 locals) p) l l' := by
          refine hmoves.mono_waiting fun piece hpiece hmessage => ?_
          have hshort := Nat.le_trans (hl'.holds.packet_length_le hpiece) (show QUEUE_BUFFER_SIZE ≤ 16383 by decide)
          rw [hmessage] at hshort ⊢
          exact Request.message_transmits hl.sized hB3 ⟨by decide, by decide⟩ hshort
        obtain ⟨value, hvalue, haccepted⟩ := hasked.filterMap (valueOn topic)
        refine ⟨l', hl', hmoves.inOrder, value, fun v hv => ?_, haccepted⟩
        obtain ⟨piece, hpiece, hread⟩ := hvalue v hv
        obtain ⟨htopic, rfl⟩ := asked_valueOn hpiece hread
        exact if_pos htopic
      | subscribe | unSubscribe | ping => exact huses.elim
  | answer query ipaddr accepted =>
    obtain ⟨_, hanswer⟩ := World.answer_some hstep
    rw [hanswer]
    exact ⟨l, hl.neutral (mqtt_dns_found_neutral _ ipaddr), id, none, by simp, (List.append_nil _).symm⟩
  | goToSleep =>
    simp only [World.step] at hstep
    split at hstep
    · rw [← Option.some.inj hstep]
      exact ⟨l, hl, id, none, by simp, (List.append_nil _).symm⟩
    · cases hstep

end

/-! ## Ascending numbers -/

/-- Decimal numbers in ascending order up to a limit, each of them once. -/
def Ascending (limit : ℕ) (values : List (List UInt8)) : Prop :=
  ∃ ns : List ℕ, values = ns.map (fun n : ℕ => printDecimal n) ∧ ns.Pairwise (· < ·) ∧ ∀ n ∈ ns, n ≤ limit

variable {limit : ℕ} {values values' : List (List UInt8)}

theorem Ascending.sublist (h : Ascending limit values) (hsub : values'.Sublist values) : Ascending limit values' := by
  obtain ⟨ns, rfl, hascend, hlimit⟩ := h
  obtain ⟨ns', hns, rfl⟩ := List.sublist_map_iff.mp hsub
  exact ⟨ns', rfl, hascend.sublist hns, fun n hn => hlimit n (hns.subset hn)⟩

theorem Ascending.concat (h : Ascending limit values) {n : ℕ} (hn : limit < n) :
    Ascending n (values ++ [printDecimal n]) := by
  obtain ⟨ns, rfl, hascend, hlimit⟩ := h
  refine ⟨ns ++ [n], by simp, List.pairwise_append.mpr ⟨hascend, by simp, fun m hm k hk => ?_⟩, fun m hm => ?_⟩
  · rw [List.mem_singleton.mp hk]
    exact Nat.lt_of_le_of_lt (hlimit m hm) hn
  · obtain hm | hm := List.mem_append.mp hm
    · exact Nat.le_of_lt (Nat.lt_of_le_of_lt (hlimit m hm) hn)
    · exact Nat.le_of_eq (List.mem_singleton.mp hm)

theorem Ascending.mono (h : Ascending limit values) {limit' : ℕ} (hle : limit ≤ limit') : Ascending limit' values := by
  obtain ⟨ns, hvalues, hascend, hlimit⟩ := h
  exact ⟨ns, hvalues, hascend, fun n hn => Nat.le_trans (hlimit n hn) hle⟩

/-! ## The topic of the numbers -/

section
variable (fp : FloatingPoint) (conversions : Conversions fp) (sysCfg : SYSCFG)

def counterTopic : CString := .ofBytes (stringMember sysCfg .mqtt_topicroot ++ ascii "/Counter")

/-- No channel is named like the counter. -/
def CounterApart : Prop :=
  ∀ f ∈ [Field.mqtt_topicadc0, .mqtt_topicadc1, .mqtt_topicadc2, .mqtt_topicadc3], stringMember sysCfg f ≠ ascii "/Counter"

variable {fp conversions sysCfg}

theorem nul_notMem_stringMember (f : Field) : 0 ∉ stringMember sysCfg f := by
  intro hnul
  simpa using List.mem_takeWhile_imp hnul

theorem ofBytes_bytes {bytes : List UInt8} (h : 0 ∉ bytes) : (CString.ofBytes bytes).bytes = bytes :=
  List.takeWhile_eq_self_iff.mpr fun _ hb => decide_eq_true fun hzero => h (hzero ▸ hb)

theorem rooted_bytes {name : List UInt8} (h : 0 ∉ name) :
    (CString.ofBytes (stringMember sysCfg .mqtt_topicroot ++ name)).bytes = stringMember sysCfg .mqtt_topicroot ++ name := by
  refine ofBytes_bytes fun hnul => ?_
  obtain hnul | hnul := List.mem_append.mp hnul
  · exact nul_notMem_stringMember _ hnul
  · exact h hnul

theorem counterTopic_bytes :
    (counterTopic sysCfg).bytes = stringMember sysCfg .mqtt_topicroot ++ ascii "/Counter" := rooted_bytes (by decide)

/-- The topics of `mqttConnectedCb` end in other letters. -/
theorem literal_ne_counterTopic {s : String} (h : (literal s).bytes.getLast? ≠ some 'r'.toUInt8) :
    (literal s).bytes ≠ (counterTopic sysCfg).bytes := by
  intro heq
  rw [heq, counterTopic_bytes, List.getLast?_append] at h
  exact h rfl

variable (fp conversions) in
theorem arm_name_ne (h : CounterApart sysCfg) {adc : ℕ} (hadc : adc < 8) :
    0 ∉ (arm fp conversions sysCfg adc).name ∧ (arm fp conversions sysCfg adc).name ≠ ascii "/Counter" := by
  have hmember {f : Field} (hf : f ∈ [Field.mqtt_topicadc0, .mqtt_topicadc1, .mqtt_topicadc2, .mqtt_topicadc3]) :
      0 ∉ stringMember sysCfg f ∧ stringMember sysCfg f ≠ ascii "/Counter" := ⟨nul_notMem_stringMember f, h f hf⟩
  interval_cases adc
  · exact hmember (by decide)
  · exact hmember (by decide)
  · exact hmember (by decide)
  · exact hmember (by decide)
  · exact show 0 ∉ ascii "/ChargeSupply" ∧ ascii "/ChargeSupply" ≠ ascii "/Counter" by decide
  · exact show 0 ∉ ascii "/RegulatedChargeSupply" ∧ ascii "/RegulatedChargeSupply" ≠ ascii "/Counter" by decide
  · exact show 0 ∉ ascii "/BatteryVoltage" ∧ ascii "/BatteryVoltage" ≠ ascii "/Counter" by decide
  · exact show 0 ∉ ascii "/Regulated3.3V" ∧ ascii "/Regulated3.3V" ≠ ascii "/Counter" by decide

theorem channelTopic_ne_counterTopic (h : CounterApart sysCfg) {adc : ℕ} (hadc : adc < 8) :
    (CString.ofBytes (channelTopic fp conversions sysCfg adc)).bytes ≠ (counterTopic sysCfg).bytes := by
  obtain ⟨hnul, hne⟩ := arm_name_ne fp conversions h hadc
  rw [channelTopic, rooted_bytes hnul, counterTopic_bytes]
  exact fun heq => hne (List.append_cancel_left heq)

/-! ## Events beside the reports -/

theorem wifiChanges_quiet (topic : List UInt8) (d : Sleep.Device) (wifiStatus : UInt8) (resolved : Option ℕ)
    (outcome : Outcome) : ∀ event ∈ (wifiChanges d wifiStatus resolved outcome : List (Event B)), eventValue topic event = none := by
  intro event hevent
  unfold wifiChanges at hevent
  split at hevent
  · cases hevent
  · rw [List.mem_singleton.mp hevent, wifiConnectCb]
    split <;> rfl

theorem mqttConnectedCb_quiet {c : ApiCall B} {locals : Locals B} (h : c ∈ mqttConnectedCb locals) (outcome : Outcome) :
    eventValue (counterTopic sysCfg).bytes (.client (.call c) outcome) = none := by
  simp only [mqttConnectedCb, List.mem_cons, List.not_mem_nil, or_false] at h
  obtain rfl | rfl | rfl | rfl := h
  · exact if_neg (literal_ne_counterTopic (by decide))
  · rfl
  · exact if_neg (literal_ne_counterTopic (by decide))
  · exact if_neg (literal_ne_counterTopic (by decide))

/-- Only `sendADCData` publishes on the topic of the numbers. -/
theorem events_quiet {f f' : Firmware} {e : FirmwareEvent B} (h : f.step fp conversions sysCfg e = some f')
    (he : ∀ samples mqttValue locals outcome, e ≠ .device (.readADC samples mqttValue locals outcome)) :
    ∀ event ∈ e.events fp conversions sysCfg f, eventValue (counterTopic sysCfg).bytes event = none := by
  cases e with
  | device e =>
    simp only [Firmware.step] at h
    split at h
    · rename_i houtside
      simp only [FirmwareEvent.events, FirmwareEvent.deviceEvent]
      cases e with
      | client a outcome =>
        intro event hevent
        obtain rfl := List.mem_singleton.mp hevent
        cases a with
        | call => cases houtside
        | _ => rfl
      | answer => simp [DeviceEvent.events, eventValue]
      | wifi => exact wifiChanges_quiet _ _ _ _ _
      | interrupt =>
        rw [DeviceEvent.events]
        split
        · simp
        · exact wifiChanges_quiet _ _ _ _ _
      | readADC => exact absurd rfl (he _ _ _ _)
      | goToSleep => simp [DeviceEvent.events, eventValue]
    · cases h
  | proceed locals outcome =>
    intro event hevent
    obtain rfl := List.mem_singleton.mp hevent
    unfold Firmware.next
    split
    · cases hcall : (mqttConnectedCb locals)[f.called]? with
      | none => rfl
      | some c => exact mqttConnectedCb_quiet (List.mem_of_getElem? hcall) outcome
    · rfl

/-- A report is what the channels publish and its number. -/
theorem publishCalls_split {n : ℕ} {report : List Publication} (h : Numbered fp conversions sysCfg n report)
    (hapart : CounterApart sysCfg) (locals : ℕ → Locals B) (outcome : Outcome) : ∃ channels number,
    publishCalls report locals outcome = channels ++ [number] ∧
      (∀ event ∈ channels, eventValue (counterTopic sysCfg).bytes event = none) ∧
        eventValue (counterTopic sysCfg).bytes number = some (printDecimal n) := by
  have hlast := h.counter
  have hsplit : report = report.take 8 ++ [⟨stringMember sysCfg .mqtt_topicroot ++ ascii "/Counter", printDecimal n⟩] := by
    obtain ⟨hlt, hget⟩ := List.getElem?_eq_some_iff.mp hlast
    rw [← hget, List.take_concat_get', List.take_of_length_le (Nat.le_of_eq h.complete)]
  refine ⟨publishCalls (report.take 8) locals outcome, .client (.call (.request (.publish (some (counterTopic sysCfg))
    (printDecimal n) 1 1 (locals 8)))) outcome, ?_, fun event hevent => ?_, if_pos rfl⟩
  · conv_lhs => rw [hsplit]
    have htake : (report.take 8).length = 8 := by rw [List.length_take, h.complete]; rfl
    rw [publishCalls, List.mapIdx_append, htake]
    rfl
  · obtain ⟨k, hk, rfl⟩ := List.mem_mapIdx.mp hevent
    have hk8 : k < 8 := Nat.lt_of_lt_of_le hk (List.length_take_le _ _)
    have hchannel := h.channels k hk8
    refine if_neg ?_
    obtain ⟨publication, hget, htopic⟩ := Option.map_eq_some_iff.mp hchannel
    have hsame : (report.take 8)[k] = publication := by
      rw [List.getElem_take]
      exact (List.getElem?_eq_some_iff.mp hget).2
    rw [hsame, htopic]
    exact channelTopic_ne_counterTopic hapart hk8

/-! ## The numbers that are sent -/

/-- The numbers that the queue has accepted ascend. -/
def Counts (sysCfg : SYSCFG) (B n : ℕ) (w : World) : Prop :=
  ∃ l, Sound B l w.sys ∧ l.InOrder ∧ Ascending n (l.accepted.filterMap (valueOn (counterTopic sysCfg).bytes))

/-- What has been sent are packets that the queue has accepted, in their order. -/
theorem Counts.sent {n : ℕ} {w : World} (h : Counts sysCfg B n w) :
    Ascending n (w.sys.pumped.filterMap (valueOn (counterTopic sysCfg).bytes)) := by
  obtain ⟨l, hl, horder, hascend⟩ := h
  rw [hl.pumped]
  exact hascend.sublist (horder.taken_sublist.filterMap _)

section
variable {n : ℕ} {w w' : World} {event : Event B}

theorem Counts.quiet (hB3 : 3 ≤ B) (hB : B ≤ 65535) (h : Counts sysCfg B n w)
    (huses : FirmwareUses fp conversions sysCfg event)
    (hquiet : eventValue (counterTopic sysCfg).bytes event = none) (hstep : w.step event = some w') :
    Counts sysCfg B n w' := by
  obtain ⟨l, hl, horder, hascend⟩ := h
  obtain ⟨l', hl', horder', value, hvalue, haccepted⟩ := event_values hl hB3 hB huses (counterTopic sysCfg).bytes hstep
  refine ⟨l', hl', horder' horder, ?_⟩
  rw [haccepted]
  cases value with
  | none => rwa [Option.toList_none, List.append_nil]
  | some v => cases hquiet.symm.trans (hvalue v rfl)

theorem Counts.number (hB3 : 3 ≤ B) (hB : B ≤ 65535) (h : Counts sysCfg B n w)
    (huses : FirmwareUses fp conversions sysCfg event) {m : ℕ} (hm : n < m)
    (hnumber : eventValue (counterTopic sysCfg).bytes event = some (printDecimal m)) (hstep : w.step event = some w') :
    Counts sysCfg B m w' := by
  obtain ⟨l, hl, horder, hascend⟩ := h
  obtain ⟨l', hl', horder', value, hvalue, haccepted⟩ := event_values hl hB3 hB huses (counterTopic sysCfg).bytes hstep
  refine ⟨l', hl', horder' horder, ?_⟩
  rw [haccepted]
  cases value with
  | none =>
    rw [Option.toList_none, List.append_nil]
    exact hascend.mono (Nat.le_of_lt hm)
  | some v =>
    obtain rfl : printDecimal m = v := Option.some.inj (hnumber.symm.trans (hvalue v rfl))
    exact hascend.concat hm

theorem Counts.run (hB3 : 3 ≤ B) (hB : B ≤ 65535) (h : Counts sysCfg B n w) {events : List (Event B)}
    (huses : ∀ event ∈ events, FirmwareUses fp conversions sysCfg event)
    (hquiet : ∀ event ∈ events, eventValue (counterTopic sysCfg).bytes event = none)
    (hrun : Transition.run World.step w events = some w') : Counts sysCfg B n w' :=
  run_invariant_mem (P := fun event => FirmwareUses fp conversions sysCfg event ∧
      eventValue (counterTopic sysCfg).bytes event = none)
    (fun h hP hstep => h.quiet hB3 hB hP.1 hP.2 hstep) (fun event hevent => ⟨huses event hevent, hquiet event hevent⟩) h hrun

end

/-- Count the runs of `sendADCData`. -/
def countReports (n : ℕ) (_ : Firmware) (e : FirmwareEvent B) (_ : Firmware) : ℕ :=
  match e with
  | .device (.readADC ..) => n + 1
  | _ => n

/-- As long as the numbers fit their block, the counter and the queue tell of the reports. -/
def Told (sysCfg : SYSCFG) (B : ℕ) (x : Firmware × ℕ) : Prop :=
  x.2 < 10000000 → x.1.device.counter.toNat = x.2 ∧ Counts sysCfg B x.2 x.1.world

theorem Told.report (hB3 : 3 ≤ B) (hB : B ≤ 65535) (hfit : TopicsFitBlock fp conversions sysCfg)
    (hapart : CounterApart sysCfg) {f f' : Firmware} {n : ℕ} (h : Told sysCfg B (f, n)) {samples : Samples}
    {mqttValue : List UInt8} {locals : ℕ → Locals B} {outcome : Outcome}
    (hstep : f.step fp conversions sysCfg (.device (.readADC samples mqttValue locals outcome)) = some f') :
    Told sysCfg B (f', n + 1) := by
  intro hlt
  have hlt : n + 1 < 10000000 := hlt
  obtain ⟨hcounter, hcounts⟩ := h (by show n < 10000000; omega)
  have hcounter : f.device.counter.toNat = n := hcounter
  have hsmall : f.device.counter.toNat + 1 < 10000000 := by omega
  obtain ⟨hnumbered, hnext⟩ := sendADCData_numbered hfit hsmall samples mqttValue
  rw [hcounter] at hnumbered
  have hone : (1 : UInt32).toNat = 1 := rfl
  refine ⟨?_, ?_⟩
  · have hdevice := step_cycle fp conversions sysCfg (step_device hstep)
    show f'.device.counter.toNat = n + 1
    generalize f'.device = d' at hdevice
    cases hdevice with
    | read =>
      simp only [hnext, UInt32.toNat_add, hone]
      omega
  · obtain ⟨channels, number, hsplit, hquiet, hvalue⟩ := publishCalls_split hnumbered hapart locals outcome
    have hrun := step_world hstep
    have huses := step_uses hstep
    have hevents : FirmwareEvent.events fp conversions sysCfg f (.device (.readADC samples mqttValue locals outcome)) =
        channels ++ [number] := hsplit
    rw [hevents] at hrun huses
    rw [run_append] at hrun
    obtain ⟨w, hchannels, hlast⟩ := Option.bind_eq_some_iff.mp hrun
    obtain ⟨w', hnumber, hnil⟩ := run_cons hlast
    have hw := hcounts.run hB3 hB (fun event hevent => huses event (List.mem_append_left _ hevent)) hquiet hchannels
    rw [show f'.world = w' from (Option.some.inj hnil).symm]
    exact hw.number hB3 hB (huses number (by simp)) (Nat.lt_succ_self n) hvalue hnumber

theorem Told.other (hB3 : 3 ≤ B) (hB : B ≤ 65535) {f f' : Firmware} {n : ℕ} (h : Told sysCfg B (f, n))
    {e : FirmwareEvent B} (he : ∀ samples mqttValue locals outcome, e ≠ .device (.readADC samples mqttValue locals outcome))
    (hstep : f.step fp conversions sysCfg e = some f') : Told sysCfg B (f', n) := by
  intro hlt
  obtain ⟨hcounter, hcounts⟩ := h hlt
  refine ⟨Eq.trans ?_ hcounter, hcounts.run hB3 hB (step_uses hstep) (events_quiet hstep he) (step_world hstep)⟩
  have hdevice := step_cycle fp conversions sysCfg (step_device hstep)
  show f'.device.counter.toNat = f.device.counter.toNat
  generalize f'.device = d' at hdevice
  cases e with
  | device e =>
    cases hdevice with
    | read => exact absurd rfl (he _ _ _ _)
    | _ => rfl
  | proceed locals outcome =>
    cases hdevice
    rfl

theorem start_counts (hB : B ≤ 65535) : Counts sysCfg B 0 (.start (user_init B sysCfg)) := by
  have hstarts : Starts B (MQTT_InitClient B (MQTT_InitConnection (member sysCfg .mqtt_host) false)
      (member sysCfg .device_id) (some (member sysCfg .mqtt_user)) (some (member sysCfg .mqtt_pass))
      (sysCfg.word .mqtt_keepalive) 1) := ⟨_, _, _, _, _, _, _, rfl⟩
  exact ⟨Log.empty, (hstarts.sound hB).neutral ⟨rfl, rfl, rfl, rfl, fun h _ => h⟩, Log.empty_inOrder, [], rfl, .nil, by simp⟩

/-- **The numbers of the reports ascend on the wire**, whatever the queue drops, the network loses and the
device sleeps through, for as long as `os_malloc` finds blocks for the reports: a broker is never told a
number twice, nor a smaller one behind a larger. -/
theorem run_numbers_ascend (hB3 : 3 ≤ B) (hB : B ≤ 65535) (hfit : TopicsFitBlock fp conversions sysCfg)
    (hapart : CounterApart sysCfg) (events : List (FirmwareEvent B)) :
    Always (observed (Firmware.step fp conversions sysCfg) countReports)
      (fun x => x.2 < 10000000 → Ascending x.2 (x.1.sys.pumped.filterMap (valueOn (counterTopic sysCfg).bytes)))
      (.start B sysCfg, 0) events := by
  refine always_of_invariant (I := Told sysCfg B) ?_ (fun h hlt => (h hlt).2.sent) fun _ => ⟨rfl, start_counts hB⟩
  intro x e x' hx hobserved
  obtain ⟨hstep, hnotes⟩ := observed_some hobserved
  obtain ⟨f, n⟩ := x
  obtain ⟨f', n'⟩ := x'
  by_cases hread : ∃ samples mqttValue locals outcome, e = .device (.readADC samples mqttValue locals outcome)
  · obtain ⟨samples, mqttValue, locals, outcome, rfl⟩ := hread
    obtain rfl : n' = n + 1 := hnotes
    exact hx.report hB3 hB hfit hapart hstep
  · have he : ∀ samples mqttValue locals outcome, e ≠ .device (.readADC samples mqttValue locals outcome) :=
      fun samples mqttValue locals outcome heq => hread ⟨samples, mqttValue, locals, outcome, heq⟩
    have hsame : n' = n := by
      rw [show n' = countReports n f e f' from hnotes]
      unfold countReports
      split
      · exact absurd rfl (he _ _ _ _)
      · rfl
    rw [hsame]
    exact hx.other hB3 hB he hstep

end

/-- The task passes on packets, `n` of them, as each one before is reported sent. -/
def passedOn (n : ℕ) : List (FirmwareEvent 160) :=
  (List.replicate n [FirmwareEvent.device (.client .sentCb reached), .proceed (zeroLocals 160) reached,
    .device (.client (.task (zeroLocals 160) true none) reached)]).flatten

/-- What `mqttConnectedCb` has queued and a report are passed on, and then a second report. -/
def secondReport : List (FirmwareEvent 160) :=
  firstReport ++ (reading 160 10000).map .device ++ passedOn 11 ++ (reading 160 40000).map .device ++ passedOn 9

abbrev countStep (x : Firmware × ℕ) (e : FirmwareEvent 160) : Option (Firmware × ℕ) :=
  observed (Firmware.step binary64.floatingPoint (exactConversions binary64 lowWord) namedSysCfg) countReports x e

theorem namedSysCfg_apart : CounterApart namedSysCfg := by
  intro f hf
  have hnames : [Field.mqtt_topicadc0, .mqtt_topicadc1, .mqtt_topicadc2, .mqtt_topicadc3].map (stringMember namedSysCfg) =
      [ascii "/a0", ascii "/a1", ascii "/a2", ascii "/a3"] := by decide +kernel
  have hname := List.mem_map_of_mem (f := stringMember namedSysCfg) hf
  rw [hnames] at hname
  have hcounter : ascii "/Counter" ∉ [ascii "/a0", ascii "/a1", ascii "/a2", ascii "/a3"] := by decide
  exact fun heq => hcounter (heq ▸ hname)

/-- Both numbers are sent. -/
theorem run_numbers_ascend_named :
    (run countStep (.start 160 namedSysCfg, 0) secondReport).map
        (fun x => x.1.sys.pumped.filterMap (valueOn (counterTopic namedSysCfg).bytes)) =
      some [ascii "1", ascii "2"] ∧
      Always countStep
        (fun x => x.2 < 10000000 → Ascending x.2 (x.1.sys.pumped.filterMap (valueOn (counterTopic namedSysCfg).bytes)))
        (.start 160 namedSysCfg, 0) secondReport :=
  ⟨by decide +kernel,
    run_numbers_ascend (by decide) (by decide) namedSysCfg_fits namedSysCfg_apart secondReport⟩

end LightSleepMqtt.User
