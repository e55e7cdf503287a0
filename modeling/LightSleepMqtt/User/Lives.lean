import LightSleepMqtt.Http.Configurator
import LightSleepMqtt.User.Dialling

/-! A device over all its lives. The power comes and goes, also while `CFG_Load` stores the defaults of a
new device; each boot loads the configuration and starts the firmware afresh, and nothing in the
firmware writes to the flash. So what a broker hears of a device is the same in every life. -/
namespace LightSleepMqtt.User
open Message MqttWire Client Http Sleep NorFlash Transition
open Config hiding Device
set_option autoImplicit false

variable {B : ℕ}

/-- Without power there is nothing but the flash. -/
inductive Life where
  | off (flash : Memory)
  | on (d : Config.Device) (f : Firmware)

inductive LifeEvent (MQTT_BUF_SIZE : ℕ) where
  /-- The power may fail in an erasure or a write of `CFG_Load`. -/
  | boot (failure : Option PowerFailure)
  | firmware (e : FirmwareEvent MQTT_BUF_SIZE)
  | powerOff

section
variable (fp : FloatingPoint) (conversions : Conversions fp) (clientId : List UInt8)

def Life.step : Life → LifeEvent B → Option Life
  | .off flash, .boot none =>
    let d := CFG_Load clientId (cleared flash)
    some (.on d (.start B d.sysCfg))
  | .off flash, .boot (some failure) =>
    some (.off (cut SPI_FLASH_SEC_SIZE failure.garbage (loadOps clientId flash) failure.op flash))
  | .on d f, .firmware e => (f.step fp conversions d.sysCfg e).map fun f => .on d f
  | .on d _, .powerOff => some (.off d.flash)
  | _, _ => none

/-- The notes on a life start from nothing. -/
def lifeNotes {γ : Type} (none : γ) (observe : γ → World → Event B → World → γ) (g : γ) : Life → LifeEvent B → Life → γ
  | .on d f, .firmware e, .on _ f' =>
    batched World.step Firmware.world (fun f e => e.events fp conversions d.sysCfg f) observe g f e f'
  | .off _, .boot _, .on _ _ => none
  | _, _, _ => g

/-- The device with the notes on its connection and on the answers for its host. -/
abbrev lifeStep (x : Life × Session × List ℕ) (e : LifeEvent B) : Option (Life × Session × List ℕ) :=
  observed (Life.step fp conversions clientId) (lifeNotes fp conversions (.empty, []) (paired observeEvent noteAnswer)) x e

/-- The configuration that a device with this flash works with. -/
def knownIn (flash : Memory) : SYSCFG := (storedIn flash).getD (defaultSysCfg clientId)

/-- The device works with the configuration `cfg`, or will; it has it in its flash, says what it says, and
has dialled the host in it. -/
def LivesAs (cfg : SYSCFG) : Life × Session × List ℕ → Prop
  | (.off flash, _) => knownIn clientId flash = cfg
  | (.on d f, talk, answers) => d.sysCfg = cfg ∧ storedIn d.flash = some cfg ∧ FirmwareSpeaks fp conversions cfg (f, talk) ∧
    DialsHost cfg f.sys.connects answers

/-- The device as its configuration lets it be. -/
def Lives (B : ℕ) (cfg : SYSCFG) : Life × Session × List ℕ → Prop
  | (.off flash, _) => knownIn clientId flash = cfg
  | (.on d f, talk, answers) => d.sysCfg = cfg ∧ storedIn d.flash = some cfg ∧
    Talks fp conversions cfg B (f.world, talk) ∧ Dials cfg (f.world, answers)

end

variable {fp : FloatingPoint} {conversions : Conversions fp} {clientId : List UInt8} {cfg : SYSCFG}

theorem known_cut (failure : PowerFailure) (flash : Memory) :
    knownIn clientId (cut SPI_FLASH_SEC_SIZE failure.garbage (loadOps clientId flash) failure.op flash) =
      knownIn clientId flash := by
  obtain hold | hnew := @cut_loadOps clientId failure.garbage failure.op flash
  · rw [knownIn, knownIn, hold]
  · rw [knownIn, hnew, Option.getD_some, knownIn]

theorem user_init_dials : Dials cfg (.start (user_init B cfg), []) := by
  refine ⟨⟨false, user_init_configured cfg⟩, fun _ => rfl, ?_⟩
  unfold DialsHost
  split
  · exact fun addr haddr => absurd haddr List.not_mem_nil
  · exact List.Sublist.refl _

theorem Lives.boot (hB : B ≤ 65535) {flash : Memory} (h : knownIn clientId flash = cfg) :
    Lives fp conversions clientId B cfg
      (.on (CFG_Load clientId (cleared flash)) (.start B (CFG_Load clientId (cleared flash)).sysCfg), .empty, []) := by
  obtain ⟨hsysCfg, hstored⟩ := CFG_Load_stored clientId (cleared flash)
  have hcfg : (CFG_Load clientId (cleared flash)).sysCfg = cfg := hsysCfg.trans h
  refine ⟨hcfg, hstored.trans (congrArg some h), ?_, ?_⟩
  · rw [hcfg]
    exact user_init_talks hB
  · rw [hcfg]
    exact user_init_dials

theorem Lives.firmware (h : Provisioned cfg) (hB3 : 138 ≤ B) (hB : B ≤ 16386) {d : Config.Device} {f f' : Firmware}
    {talk : Session} {answers : List ℕ} {e : FirmwareEvent B}
    (hlives : Lives fp conversions clientId B cfg (.on d f, talk, answers))
    (hstep : f.step fp conversions d.sysCfg e = some f') :
    Lives fp conversions clientId B cfg (.on d f', lifeNotes fp conversions (.empty, []) (paired observeEvent noteAnswer)
      (talk, answers) (.on d f) (.firmware e) (.on d f')) := by
  obtain ⟨rfl, hstored, htalks, hdials⟩ := hlives
  have hobserved : firmwareStep fp conversions d.sysCfg (paired observeEvent noteAnswer) (f, talk, answers) e = some (f',
      lifeNotes fp conversions (.empty, []) (paired observeEvent noteAnswer) (talk, answers) (.on d f) (.firmware e)
        (.on d f')) := by
    rw [firmwareStep, observed, hstep]
    rfl
  obtain ⟨htalks', hdials'⟩ := firmwareStep_invariant
    (I := fun y => Talks fp conversions d.sysCfg B (y.1, y.2.1) ∧ Dials d.sysCfg (y.1, y.2.2))
    (fun hy huses hevent =>
      have hboth := observed_paired hevent
      ⟨hy.1.event h hB3 hB huses hboth.1, hy.2.event huses hboth.2⟩) ⟨htalks, hdials⟩ hobserved
  exact ⟨rfl, hstored, htalks', hdials'⟩

theorem Lives.step (h : Provisioned cfg) (hB3 : 138 ≤ B) (hB : B ≤ 16386) {x x' : Life × Session × List ℕ}
    {e : LifeEvent B} (hlives : Lives fp conversions clientId B cfg x)
    (hobserved : lifeStep fp conversions clientId x e = some x') : Lives fp conversions clientId B cfg x' := by
  obtain ⟨hstep, hnotes⟩ := observed_some hobserved
  obtain ⟨life, talk, answers⟩ := x
  obtain ⟨life', notes'⟩ := x'
  cases life with
  | off flash =>
    cases e with
    | boot failure =>
      cases failure with
      | none =>
        obtain rfl := Option.some.inj hstep
        rw [show notes' = _ from hnotes]
        exact Lives.boot (by omega) hlives
      | some failure =>
        simp only [Life.step, Option.some.injEq] at hstep
        subst hstep
        show knownIn clientId _ = cfg
        rw [known_cut failure flash]
        exact hlives
    | firmware | powerOff => cases hstep
  | on d f =>
    cases e with
    | boot => cases hstep
    | firmware e =>
      obtain ⟨f', hf, rfl⟩ := Option.map_eq_some_iff.mp hstep
      rw [show notes' = _ from hnotes]
      exact hlives.firmware h hB3 hB hf
    | powerOff =>
      obtain rfl := Option.some.inj hstep
      obtain ⟨_, hstored, _⟩ := hlives
      show knownIn clientId d.flash = cfg
      rw [knownIn, hstored, Option.getD_some]

theorem Lives.livesAs (h : Provisioned cfg) {x : Life × Session × List ℕ}
    (hlives : Lives fp conversions clientId B cfg x) : LivesAs fp conversions clientId cfg x := by
  obtain ⟨life, talk, answers⟩ := x
  cases life with
  | off => exact hlives
  | on d f =>
    obtain ⟨hcfg, hstored, htalks, hdials⟩ := hlives
    exact ⟨hcfg, hstored, htalks.speaks h, hdials.dialled⟩

/-- **A device is the same in every life**: however often the power fails, also while it stores its
defaults, and whatever happens in between, it works with one configuration, says to the broker what that
lets it say, and dials the host in it. That configuration, the one in the flash when the device is switched
on for the first time or else the defaults, has to name it. -/
theorem run_lives (flash : Memory) (h : Provisioned (knownIn clientId flash)) (hB3 : 138 ≤ B) (hB : B ≤ 16386)
    (events : List (LifeEvent B)) : Always (lifeStep fp conversions clientId)
      (LivesAs fp conversions clientId (knownIn clientId flash)) (.off flash, .empty, []) events :=
  always_of_invariant (I := Lives fp conversions clientId B (knownIn clientId flash))
    (fun hx hstep => hx.step h hB3 hB hstep) (fun hx => hx.livesAs h) (Eq.refl (knownIn clientId flash))

/-! ## New devices -/

theorem default_get {f : Field} (hf : f ∈ [Field.mqtt_user, .mqtt_pass]) (hlength : clientId.length < 32) :
    (defaultSysCfg clientId).get f = SYSCFG.zero.get f := by
  have hid : (clientId ++ [0]).length ≤ 32 := by
    rw [List.length_append, List.length_singleton]
    exact hlength
  have hbehind : 236 ≤ f.offset ∧ f.offset + f.size ≤ Field.security.offset := by
    revert f
    decide
  obtain ⟨hfirst, hlast⟩ := hbehind
  unfold defaultSysCfg
  simp only
  rw [SYSCFG.get_put_disjoint _ (.inl hlast), SYSCFG.get_put_disjoint, SYSCFG.get_put_disjoint,
    SYSCFG.get_put_disjoint, SYSCFG.get_put_disjoint]
  · exact .inr (Nat.le_trans (by decide : Field.cfg_holder.offset + (uint32 CFG_HOLDER).length ≤ 236) hfirst)
  · exact .inr (Nat.le_trans (Nat.add_le_add_left hid 4) (by omega))
  · exact .inr (Nat.le_trans (by decide : Field.device_id.offset + (Field.device_id.size - 1) + [(0 : UInt8)].length ≤ 236)
      hfirst)
  · exact .inr (Nat.le_trans (by decide : Field.sta_type.offset + (uint32 STA_TYPE).length ≤ 236) hfirst)

theorem default_device_id (hlength : clientId.length < 32) : ∃ rest,
    (defaultSysCfg clientId).get .device_id = overwrite (clientId ++ 0 :: rest) 31 [0] ∧
      (clientId ++ 0 :: rest).length = 32 := by
  have hid : (clientId ++ [0]).length ≤ Field.device_id.size := by
    rw [List.length_append, List.length_singleton]
    exact hlength
  have hget : (defaultSysCfg clientId).get .device_id = overwrite
      ((SYSCFG.zero.put Field.cfg_holder.offset (uint32 CFG_HOLDER)).put Field.device_id.offset (clientId ++ [0]) |>.get
        .device_id) 31 [0] := by
    unfold defaultSysCfg
    simp only
    rw [SYSCFG.get_put_disjoint, SYSCFG.get_put_disjoint, SYSCFG.get_put_inside]
    · rfl
    all_goals exact .inl (by decide)
  have hsize := SYSCFG.length_get ((SYSCFG.zero.put Field.cfg_holder.offset (uint32 CFG_HOLDER)).put
    Field.device_id.offset (clientId ++ [0])) (f := Field.device_id) (by decide)
  rw [SYSCFG.get_put_take _ (by decide), List.take_of_length_le hid, List.append_assoc] at hget hsize
  exact ⟨_, hget, hsize⟩

theorem cstring_cons {b : UInt8} (hb : b ≠ 0) (bytes : List UInt8) : cstring (b :: bytes) = b :: cstring bytes := by
  simp [cstring, hb]

theorem member_bytes (cfg : SYSCFG) (f : Field) : (member cfg f).bytes = cstring (stringMember cfg f) := rfl

/-- The defaults name the device, when its name fits. -/
theorem default_provisioned (hne : clientId ≠ []) (hnul : 0 ∉ clientId) (hlength : clientId.length < 32) :
    Provisioned (defaultSysCfg clientId) := by
  obtain ⟨rest, hget, hsize⟩ := default_device_id hlength
  have hended : 0 ∈ (defaultSysCfg clientId).get .device_id := by
    refine List.mem_of_getElem? (i := 31) ?_
    rw [hget, getElem?_overwrite, if_pos (Nat.le_refl _), List.getElem?_eq_getElem (by omega)]
    rfl
  constructor
  · obtain ⟨b, bytes, rfl⟩ := List.exists_cons_of_ne_nil hne
    have hb : b ≠ 0 := fun hzero => hnul (hzero ▸ List.mem_cons_self ..)
    have hfirst : ((defaultSysCfg (b :: bytes)).get .device_id).head? = some b := by
      rw [hget, List.head?_eq_getElem?, getElem?_overwrite, if_neg (by decide)]
      rfl
    obtain ⟨behind, hbytes⟩ := List.head?_eq_some_iff.mp hfirst
    have hstring : stringMember (defaultSysCfg (b :: bytes)) .device_id = b :: cstring behind := by
      rw [stringMember_eq hended, hbytes, cstring_cons hb]
    rw [member_bytes, hstring, cstring_cons hb]
    exact List.cons_ne_nil _ _
  · intro f hf
    obtain rfl | hf := List.mem_cons.mp hf
    · exact hended
    · rw [default_get hf hlength]
      revert f
      decide +kernel

/-- A new device loses its power while it stores its defaults, and again when it is connected. -/
def twoLives : List (LifeEvent 160) :=
  [.boot (some ⟨3, fun _ => 165⟩), .boot none, .firmware (.device (.wifi STATION_GOT_IP none reached)),
    .firmware (.device (.answer 1 (some 0x04030201) true)), .firmware (.device (.client .connectCb reached)), .powerOff,
    .boot none, .firmware (.device (.wifi STATION_GOT_IP none reached))]

theorem blank_provisioned : Provisioned (knownIn (ascii "ESP") fun _ => 255) := by
  have hblank : storedIn (fun _ => 255) = none := if_neg (by decide +kernel)
  rw [knownIn, hblank, Option.getD_none]
  exact default_provisioned (by decide) (by decide) (by decide)

theorem run_lives_blank :
    Always (lifeStep binary64.floatingPoint (exactConversions binary64 lowWord) (ascii "ESP"))
      (LivesAs binary64.floatingPoint (exactConversions binary64 lowWord) (ascii "ESP") (knownIn (ascii "ESP") fun _ => 255))
      (.off fun _ => 255, .empty, []) twoLives :=
  run_lives (fun _ => 255) blank_provisioned (by decide) (by decide) twoLives

end LightSleepMqtt.User
