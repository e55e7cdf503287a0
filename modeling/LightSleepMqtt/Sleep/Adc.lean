import Mathlib.Algebra.Order.BigOperators.Group.List
import Mathlib.Tactic.IntervalCases
import LightSleepMqtt.Http.Exact

/-! `sendADCData` of `sleep.c`: eight channels behind a multiplexer are read one after the other, and
each reading is published as a scaled average. The block for the topic and the one for the value
are allocated once for all of them; `os_malloc` is taken to find them in each call, though no call
frees them. -/
namespace LightSleepMqtt.Sleep
open Config Http
set_option autoImplicit false

/-- The levels of the pins that select a channel. -/
structure Pins where
  gpio16 : Bool
  gpio12 : Bool
  gpio13 : Bool
  deriving DecidableEq

def setADC (index : ℕ) : Pins where
  gpio16 := decide ((index >>> 0) &&& 0x0001 ≠ 0)
  gpio12 := decide ((index >>> 1) &&& 0x0001 ≠ 0)
  gpio13 := decide ((index >>> 2) &&& 0x0001 ≠ 0)

abbrev adcValueBuffferLength : ℕ := 1024

/-- What `system_adc_read_fast` reads behind the pins. -/
abbrev Samples := Pins → Vector UInt16 adcValueBuffferLength

/-- A call of `MQTT_Publish`, with quality of service 1 and to be retained. -/
structure Publication where
  topic : List UInt8
  value : List UInt8
  deriving DecidableEq

/-- What the code does with a `double` besides arithmetic: the conversion to `unsigned int`, and the
literal 4.3. -/
structure Conversions (fp : FloatingPoint) where
  toUnsigned : fp.Double → ℕ
  fourPointThree : fp.Double

/-- The block of the topic. -/
abbrev TOPIC_SIZE : ℕ := 96
/-- The block of the value. -/
abbrev VALUE_SIZE : ℕ := 8

/-- An arm of the `switch`. -/
structure Arm (fp : FloatingPoint) where
  multiplier : fp.Double
  prints : Bool
  name : List UInt8

section
variable (fp : FloatingPoint) (conversions : Conversions fp) (cfg : SYSCFG)

def arm : ℕ → Arm fp
  | 0 => ⟨fp.load (cfg.get .mqtt_muladc0), true, stringMember cfg .mqtt_topicadc0⟩
  | 1 => ⟨fp.load (cfg.get .mqtt_muladc1), true, stringMember cfg .mqtt_topicadc1⟩
  | 2 => ⟨fp.load (cfg.get .mqtt_muladc2), true, stringMember cfg .mqtt_topicadc2⟩
  | 3 => ⟨fp.load (cfg.get .mqtt_muladc3), true, stringMember cfg .mqtt_topicadc3⟩
  | 4 => ⟨fp.double.ofInt 10, true, ascii "/ChargeSupply"⟩
  -- the value is computed, but `mqttValue` is left as it is
  | 5 => ⟨fp.double.ofInt 10, false, ascii "/RegulatedChargeSupply"⟩
  | 6 => ⟨conversions.fourPointThree, true, ascii "/BatteryVoltage"⟩
  | _ => ⟨conversions.fourPointThree, true, ascii "/Regulated3.3V"⟩

def adcValueSum (adcValueBufffer : List UInt16) : fp.Double :=
  adcValueBufffer.foldl (fun sum value => fp.double.add sum (fp.double.ofInt value.toNat)) (fp.double.ofInt 0)

/-- `adcValue`, a `uint16`. -/
def adcValue (samples : Samples) (adc : ℕ) : UInt16 :=
  .ofNat (conversions.toUnsigned (fp.double.div
    (fp.double.mul (adcValueSum fp (samples (setADC adc)).toList) (arm fp conversions cfg adc).multiplier)
    (fp.double.ofInt adcValueBuffferLength)))

/-- `strcpy` of the root and `strcat` of the name behind it; `none` is a write behind the block. -/
def mqttTopic (name : List UInt8) : Option (List UInt8) :=
  if (stringMember cfg .mqtt_topicroot ++ name).length + 1 ≤ TOPIC_SIZE then some (stringMember cfg .mqtt_topicroot ++ name)
  else none

/-- The loop: what is published, and the string in `mqttValue` behind it unless a topic does not fit. -/
def sendLoop (samples : Samples) : List ℕ → List UInt8 → List Publication × Option (List UInt8)
  | [], mqttValue => ([], some mqttValue)
  | adc :: adcs, mqttValue =>
    match mqttTopic cfg (arm fp conversions cfg adc).name with
    | none => ([], none)
    | some mqttTopic =>
      let mqttValue :=
        if (arm fp conversions cfg adc).prints then printDecimal (adcValue fp conversions cfg samples adc).toNat
        else mqttValue
      let rest := sendLoop samples adcs mqttValue
      (⟨mqttTopic, mqttValue⟩ :: rest.1, rest.2)

/-- What is published before a write leaves its block, and the `counter`. The string that `mqttValue`
holds at first is what `os_malloc` happens to leave there. -/
def sendADCData (samples : Samples) (counter : UInt32) (mqttValue : List UInt8) : List Publication × UInt32 :=
  let sent := sendLoop fp conversions cfg samples (List.range 8) mqttValue
  if sent.2 = none then (sent.1, counter)
  else
    let counter := counter + 1
    let mqttValue := printDecimal (Int.bmod counter.toNat 4294967296)
    if mqttValue.length + 1 ≤ VALUE_SIZE then
      (sent.1 ++ (mqttTopic cfg (ascii "/Counter")).toList.map fun topic => ⟨topic, mqttValue⟩, counter)
    else (sent.1, counter)

end

/-! ## The loop, channel by channel -/

section
variable (fp : FloatingPoint) (conversions : Conversions fp) (cfg : SYSCFG)

def channelTopic (adc : ℕ) : List UInt8 := stringMember cfg .mqtt_topicroot ++ (arm fp conversions cfg adc).name

/-- The topics of the channels from `first` up to `last` fit their block. -/
def TopicsFit (first last : ℕ) : Prop :=
  ∀ adc, first ≤ adc → adc ≤ last → (channelTopic fp conversions cfg adc).length + 1 ≤ TOPIC_SIZE

/-- The string in `mqttValue` in front of a channel. -/
def valueBefore (samples : Samples) (mqttValue : List UInt8) : ℕ → List UInt8
  | 0 => mqttValue
  | adc + 1 =>
    if (arm fp conversions cfg adc).prints then printDecimal (adcValue fp conversions cfg samples adc).toNat
    else valueBefore samples mqttValue adc

variable {fp conversions cfg} {samples : Samples} {mqttValue : List UInt8}

theorem mqttTopic_fits {adc : ℕ} (h : (channelTopic fp conversions cfg adc).length + 1 ≤ TOPIC_SIZE) :
    mqttTopic cfg (arm fp conversions cfg adc).name = some (channelTopic fp conversions cfg adc) := if_pos h

theorem mqttTopic_outside {adc : ℕ} (h : ¬ (channelTopic fp conversions cfg adc).length + 1 ≤ TOPIC_SIZE) :
    mqttTopic cfg (arm fp conversions cfg adc).name = none := if_neg h

/-- What a channel publishes, if the loop comes that far. -/
theorem sendLoop_getElem? {n first k : ℕ} (hk : k < n) (publication : Publication) :
    (sendLoop fp conversions cfg samples (List.range' first n)
        (valueBefore fp conversions cfg samples mqttValue first)).1[k]? = some publication ↔
      TopicsFit fp conversions cfg first (first + k) ∧ publication = ⟨channelTopic fp conversions cfg (first + k),
        valueBefore fp conversions cfg samples mqttValue (first + k + 1)⟩ := by
  induction n generalizing first k with
  | zero => exact absurd hk (Nat.not_lt_zero k)
  | succ n ih =>
    rw [List.range'_succ, sendLoop]
    by_cases hfits : (channelTopic fp conversions cfg first).length + 1 ≤ TOPIC_SIZE
    · rw [mqttTopic_fits hfits]
      cases k with
      | zero =>
        simp only [List.getElem?_cons_zero, Option.some.injEq]
        constructor
        · rintro rfl
          refine ⟨fun adc hfirst hlast => ?_, rfl⟩
          obtain rfl : adc = first := Nat.le_antisymm hlast hfirst
          exact hfits
        · rintro ⟨_, rfl⟩
          rfl
      | succ k =>
        have hnext : _ ↔ TopicsFit fp conversions cfg (first + 1) (first + 1 + k) ∧ _ := ih (Nat.lt_of_succ_lt_succ hk)
        rw [Nat.add_right_comm first 1 k] at hnext
        simp only [List.getElem?_cons_succ]
        refine hnext.trans (and_congr_left fun _ => ?_)
        constructor
        · intro h adc hfirst hlast
          obtain rfl | hlt := Nat.eq_or_lt_of_le hfirst
          · exact hfits
          · exact h adc hlt hlast
        · intro h adc hfirst hlast
          exact h adc (Nat.le_of_succ_le hfirst) hlast
    · rw [mqttTopic_outside hfits]
      refine iff_of_false (by simp) fun h => hfits (h.1 first (Nat.le_refl _) (Nat.le_add_right _ _))

theorem sendLoop_length {adcs : List ℕ} (h : (sendLoop fp conversions cfg samples adcs mqttValue).2 ≠ none) :
    (sendLoop fp conversions cfg samples adcs mqttValue).1.length = adcs.length := by
  induction adcs generalizing mqttValue with
  | nil => rfl
  | cons adc adcs ih =>
    rw [sendLoop] at h ⊢
    cases htopic : mqttTopic cfg (arm fp conversions cfg adc).name with
    | none =>
      rw [htopic] at h
      exact absurd rfl h
    | some topic =>
      rw [htopic] at h
      exact congrArg (· + 1) (ih h)

/-- The publications of the channels come first. -/
theorem sendADCData_getElem? {k : ℕ} (hk : k < 8) (counter : UInt32) :
    (sendADCData fp conversions cfg samples counter mqttValue).1[k]? =
      (sendLoop fp conversions cfg samples (List.range 8) mqttValue).1[k]? := by
  unfold sendADCData
  simp only
  split
  · rfl
  · next hall =>
    have hlength := sendLoop_length hall
    split
    · rw [List.getElem?_append_left (by rw [hlength]; exact hk)]
    · rfl

/-- **What each channel publishes**: its own reading, but channel 5 what channel 4 has left. -/
theorem sendADCData_channel {k : ℕ} (hk : k < 8) (counter : UInt32) (publication : Publication) :
    (sendADCData fp conversions cfg samples counter mqttValue).1[k]? = some publication ↔
      TopicsFit fp conversions cfg 0 k ∧ publication = ⟨channelTopic fp conversions cfg k,
        printDecimal (adcValue fp conversions cfg samples (if k = 5 then 4 else k)).toNat⟩ := by
  rw [sendADCData_getElem? hk, List.range_eq_range']
  refine (sendLoop_getElem? hk publication).trans ?_
  rw [Nat.zero_add]
  have hvalue : valueBefore fp conversions cfg samples mqttValue (k + 1) =
      printDecimal (adcValue fp conversions cfg samples (if k = 5 then 4 else k)).toNat := by
    interval_cases k <;> rfl
  rw [hvalue]

end

/-! ## Exact multipliers -/

/-- The conversion of a `double` to `unsigned int`, left open where the number does not fit. -/
structure UnsignedConversion where
  toUnsigned : ℚ → ℕ
  toUnsigned_truncated : ∀ x, 0 ≤ truncated x → truncated x < 4294967296 → (toUnsigned x : ℤ) = truncated x

variable (num : ExactNumbers) (unsigned : UnsignedConversion) (cfg : SYSCFG)

abbrev exactConversions : Conversions num.floatingPoint where
  toUnsigned := unsigned.toUnsigned
  fourPointThree := 43 / 10

/-- The sum of the samples of a channel. -/
def sampleSum (samples : Samples) (k : ℕ) : ℕ := ((samples (setADC k)).toList.map UInt16.toNat).sum

/-- The truncated scaled average of a channel. -/
def scaledAverage (samples : Samples) (k : ℕ) : ℤ :=
  truncated (sampleSum samples k * (arm num.floatingPoint (exactConversions num unsigned) cfg k).multiplier /
    adcValueBuffferLength)

/-- What a run starts with: the samples, the `counter` and what is in the block of the value. -/
structure Start where
  samples : Samples
  counter : UInt32
  mqttValue : List UInt8

/-- The value is published on the topic of channel `k`. -/
def Publishes (start : Start) (k : ℕ) (value : List UInt8) : Prop :=
  (sendADCData num.floatingPoint (exactConversions num unsigned) cfg start.samples start.counter start.mqttValue).1[k]? =
    some ⟨channelTopic num.floatingPoint (exactConversions num unsigned) cfg k, value⟩

/-- Both runs publish the average of channel `k` in the first one. -/
def ReportsOwn (start start' : Start) (k : ℕ) : Prop :=
  ∃ value, value = printDecimal (scaledAverage num unsigned cfg start.samples k) ∧
    Publishes num unsigned cfg start k value ∧ Publishes num unsigned cfg start' k value

section
variable {num unsigned cfg} {samples samples' : Samples} {k : ℕ}

theorem adcValueSum_exact (values : List UInt16) :
    adcValueSum num.floatingPoint values = ((values.map UInt16.toNat).sum : ℚ) := by
  have hfold : ∀ (values : List UInt16) (sum : ℚ), values.foldl (fun sum value => sum + ((value.toNat : ℤ) : ℚ)) sum =
      sum + ((values.map UInt16.toNat).sum : ℕ) := by
    intro values
    induction values with
    | nil => intro sum; simp
    | cons value values ih =>
      intro sum
      rw [List.foldl_cons, ih, List.map_cons, List.sum_cons]
      push_cast
      ring
  exact (hfold values _).trans (by simp)

theorem adcValue_exact : adcValue num.floatingPoint (exactConversions num unsigned) cfg samples k =
    .ofNat (unsigned.toUnsigned (sampleSum samples k *
      (arm num.floatingPoint (exactConversions num unsigned) cfg k).multiplier / adcValueBuffferLength)) := by
  rw [adcValue, adcValueSum_exact]
  rfl

/-- **A `uint16` shows the numbers it holds.** -/
theorem shown_iff (x : ℚ) : printDecimal (UInt16.ofNat (unsigned.toUnsigned x)).toNat = printDecimal (truncated x) ↔
    0 ≤ truncated x ∧ truncated x < 65536 := by
  rw [printDecimal_eq_iff]
  constructor
  · intro h
    have hlt := (UInt16.ofNat (unsigned.toUnsigned x)).toNat_lt
    omega
  · rintro ⟨hlow, hhigh⟩
    have hconverted := unsigned.toUnsigned_truncated x hlow (by omega)
    rw [UInt16.toNat_ofNat_of_lt' (by show _ < 65536; omega), hconverted]

theorem truncated_div (n d : ℕ) : truncated ((n : ℚ) / d) = (n / d : ℕ) := by
  have hnonneg : 0 ≤ (n : ℚ) / d := by positivity
  rw [truncated, Int.tdiv_eq_ediv_of_nonneg (Rat.num_nonneg.mpr hnonneg), ← Rat.floor_def',
    Rat.floor_natCast_div_natCast, Int.natCast_div]

/-- The averages of the channels that are multiplied by 10. -/
theorem scaledAverage_ten (hk : k = 4 ∨ k = 5) :
    scaledAverage num unsigned cfg samples k = (sampleSum samples k * 10 / 1024 : ℕ) := by
  have hscaled : (sampleSum samples k : ℚ) * ((10 : ℤ) : ℚ) / (1024 : ℕ) = ((sampleSum samples k * 10 : ℕ) : ℚ) / (1024 : ℕ) := by
    push_cast
    ring
  rw [← truncated_div, ← hscaled]
  rcases hk with rfl | rfl <;> rfl

theorem sampleSum_le : sampleSum samples k ≤ 1024 * 65535 := by
  have hall : ∀ n ∈ (samples (setADC k)).toList.map UInt16.toNat, n ≤ 65535 := by
    intro n hn
    obtain ⟨value, _, rfl⟩ := List.mem_map.mp hn
    exact Nat.le_of_lt_succ value.toNat_lt
  have hsum := List.sum_le_card_nsmul _ _ hall
  rw [List.length_map, Vector.length_toList] at hsum
  exact hsum

/-- What channel 4 leaves in `mqttValue`. -/
theorem charge_shown : ((adcValue num.floatingPoint (exactConversions num unsigned) cfg samples 4).toNat : ℤ) =
    scaledAverage num unsigned cfg samples 4 % 65536 := by
  have hle : sampleSum samples 4 ≤ 1024 * 65535 := sampleSum_le
  have haverage : scaledAverage num unsigned cfg samples 4 = (sampleSum samples 4 * 10 / 1024 : ℕ) :=
    scaledAverage_ten (.inl rfl)
  have hlow : 0 ≤ scaledAverage num unsigned cfg samples 4 := by omega
  have hhigh : scaledAverage num unsigned cfg samples 4 < 4294967296 := by omega
  have hconverted := unsigned.toUnsigned_truncated _ hlow hhigh
  rw [adcValue_exact, UInt16.toNat_ofNat', scaledAverage, ← hconverted]
  rfl

/-- The topics fit, and the average is a number that the topic can show. -/
def ChannelFits (num : ExactNumbers) (unsigned : UnsignedConversion) (cfg : SYSCFG) (samples : Samples) (k : ℕ) : Prop :=
  TopicsFit num.floatingPoint (exactConversions num unsigned) cfg 0 k ∧
    if k = 5 then scaledAverage num unsigned cfg samples 4 % 65536 = scaledAverage num unsigned cfg samples 5
    else 0 ≤ scaledAverage num unsigned cfg samples k ∧ scaledAverage num unsigned cfg samples k < 65536

variable {start start' : Start}

theorem publishes_iff (hk : k < 8) :
    Publishes num unsigned cfg start k (printDecimal (scaledAverage num unsigned cfg start.samples k)) ↔
      ChannelFits num unsigned cfg start.samples k := by
  unfold Publishes ChannelFits
  rw [sendADCData_channel hk, Publication.mk.injEq]
  refine and_congr_right fun _ => ?_
  simp only [true_and]
  rw [eq_comm]
  split
  · next hfive => rw [hfive, printDecimal_eq_iff, charge_shown]
  · rw [adcValue_exact]
    exact shown_iff _

/-- **When a topic reports its own channel**, in two runs that read the same on this channel. -/
theorem channel_reports_iff (hk : k < 8) (hsame : start.samples (setADC k) = start'.samples (setADC k)) :
    ReportsOwn num unsigned cfg start start' k ↔
      ChannelFits num unsigned cfg start.samples k ∧ ChannelFits num unsigned cfg start'.samples k := by
  have haverage : scaledAverage num unsigned cfg start.samples k = scaledAverage num unsigned cfg start'.samples k := by
    rw [scaledAverage, scaledAverage, sampleSum, sampleSum, hsame]
  rw [← publishes_iff hk, ← publishes_iff hk, ← haverage]
  exact exists_eq_left

end

/-- The conversion as processors do it. -/
def lowWord : UnsignedConversion where
  toUnsigned x := (truncated x % 4294967296).toNat
  toUnsigned_truncated x hlow hhigh := by
    rw [Int.emod_eq_of_lt hlow hhigh, Int.toNat_of_nonneg hlow]

/-- The same sample on every channel but one. -/
def onlyOn (pins : Pins) (sample : UInt16) : Start :=
  ⟨fun p => Vector.replicate 1024 (if p = pins then sample else 0), 0, []⟩

theorem sampleSum_onlyOn (pins : Pins) (sample : UInt16) (k : ℕ) :
    sampleSum (onlyOn pins sample).samples k = 1024 * (if setADC k = pins then sample else 0).toNat := by
  rw [sampleSum, onlyOn, Vector.toList_replicate, List.map_replicate, List.sum_replicate_nat]

theorem onlyOn_other {pins pins' : Pins} (h : pins' ≠ pins) (sample sample' : UInt16) :
    (onlyOn pins sample).samples pins' = (onlyOn pins sample').samples pins' := by
  simp only [onlyOn, if_neg h]

/-- The battery, in two runs that differ on channel 4. -/
theorem channel_reports_iff_battery :
    ReportsOwn binary64 lowWord .zero (onlyOn (setADC 4) 100) (onlyOn (setADC 4) 0) 6 ↔
      ChannelFits binary64 lowWord .zero (onlyOn (setADC 4) 100).samples 6 ∧
        ChannelFits binary64 lowWord .zero (onlyOn (setADC 4) 0).samples 6 :=
  channel_reports_iff (by decide) (onlyOn_other (by decide) 100 0)

/-- The same two runs on channel 5, which reads 0: in the first one 1000 goes out on its topic. -/
theorem charge_on_other_topic :
    (onlyOn (setADC 4) 100).samples (setADC 5) = (onlyOn (setADC 4) 0).samples (setADC 5) ∧
      ¬ ReportsOwn binary64 lowWord .zero (onlyOn (setADC 4) 100) (onlyOn (setADC 4) 0) 5 := by
  refine ⟨onlyOn_other (by decide) 100 0, ?_⟩
  rintro ⟨_, rfl, hfirst, _⟩
  have hfits := ((publishes_iff (by decide)).mp hfirst).2
  rw [if_pos rfl, scaledAverage_ten (.inl rfl), scaledAverage_ten (.inr rfl), sampleSum_onlyOn, sampleSum_onlyOn] at hfits
  exact absurd hfits (by decide)

end LightSleepMqtt.Sleep
