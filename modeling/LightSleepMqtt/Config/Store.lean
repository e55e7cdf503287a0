import LightSleepMqtt.Config.SysCfg
import LightSleepMqtt.Library.NorFlash
import LightSleepMqtt.Library.CrashStore

/-! `CFG_Save` and `CFG_Load` of `config.c`. Two sectors hold configurations and the first byte of
a third tells which of them is active: a save writes the other one and then the flag. However a
power failure leaves the flag sector, it makes one of the two active. -/
namespace LightSleepMqtt.Config
open NorFlash CrashStore
set_option autoImplicit false

abbrev CFG_HOLDER : ℕ := 2
abbrev CFG_LOCATION : ℕ := 0x79
abbrev SPI_FLASH_SEC_SIZE : ℕ := 4096
/-- `AUTH_WPA2_PSK`. -/
abbrev STA_TYPE : ℕ := 3
abbrev DEFAULT_SECURITY : UInt8 := 0

structure SAVE_FLAG where
  flag : UInt8
  pad : List UInt8
  deriving DecidableEq

abbrev sizeofSAVE_FLAG : ℕ := 4

def SAVE_FLAG.bytes (f : SAVE_FLAG) : List UInt8 := f.flag :: f.pad

/-- The flash chip and the two globals of `config.c`. -/
structure Device where
  flash : Memory
  sysCfg : SYSCFG
  saveFlag : SAVE_FLAG

def readSaveFlag (flash : Memory) : SAVE_FLAG :=
  let bytes := read flash ((CFG_LOCATION + 3) * SPI_FLASH_SEC_SIZE) sizeofSAVE_FLAG
  ⟨bytes.headD 0, bytes.tail⟩

def readSysCfg (flash : Memory) (sector : ℕ) : SYSCFG :=
  ⟨read flash (sector * SPI_FLASH_SEC_SIZE) sizeofSYSCFG, length_read _ _ _⟩

/-- The sector a save writes, given the flag: not the one a load reads. -/
def targetSector (flag : UInt8) : ℕ := if flag = 0 then CFG_LOCATION + 1 else CFG_LOCATION + 0

/-- The flag a save leaves. -/
def flipped (f : SAVE_FLAG) : SAVE_FLAG := { f with flag := if f.flag = 0 then 1 else 0 }

/-- The erasures and writes of `CFG_Save`, after it has read the flag. -/
def saveOps (f : SAVE_FLAG) (cfg : SYSCFG) : List Op :=
  rewrite SPI_FLASH_SEC_SIZE (targetSector f.flag) cfg.bytes ++
    rewrite SPI_FLASH_SEC_SIZE (CFG_LOCATION + 3) (flipped f).bytes

def CFG_Save (d : Device) : Device :=
  let saveFlag := readSaveFlag d.flash
  { d with
    saveFlag := flipped saveFlag
    flash := exec SPI_FLASH_SEC_SIZE (saveOps saveFlag d.sysCfg) d.flash }

/-- A power failure in one of the four operations of a save, with what it leaves in the sector. -/
structure Failure where
  op : Fin 4
  garbage : Memory

/-- `CFG_Save` cut by a power failure: the globals are lost. -/
def CFG_Save_cut (failure : Failure) (d : Device) : Device where
  flash := cut SPI_FLASH_SEC_SIZE failure.garbage (saveOps (readSaveFlag d.flash) d.sysCfg) failure.op d.flash
  sysCfg := .zero
  saveFlag := ⟨0, [0, 0, 0]⟩

/-- `clientId` is what `os_sprintf` makes of `MQTT_CLIENT_ID` and the chip's number. -/
def defaultSysCfg (clientId : List UInt8) : SYSCFG :=
  let cfg := SYSCFG.zero.put Field.cfg_holder.offset (uint32 CFG_HOLDER)
  let cfg := cfg.put Field.device_id.offset (clientId ++ [0])
  let cfg := cfg.put (Field.device_id.offset + (Field.device_id.size - 1)) [0]
  let cfg := cfg.put Field.sta_type.offset (uint32 STA_TYPE)
  cfg.put Field.security.offset [DEFAULT_SECURITY]

def CFG_Load (clientId : List UInt8) (d : Device) : Device :=
  let saveFlag := readSaveFlag d.flash
  let sysCfg :=
    if saveFlag.flag = 0 then readSysCfg d.flash (CFG_LOCATION + 0)
    else readSysCfg d.flash (CFG_LOCATION + 1)
  if sysCfg.word .cfg_holder ≠ CFG_HOLDER then
    CFG_Save { d with saveFlag := saveFlag, sysCfg := defaultSysCfg clientId }
  else { d with saveFlag := saveFlag, sysCfg := sysCfg }

/-! ## The active configuration -/

def flagByte (flash : Memory) : UInt8 := flash ((CFG_LOCATION + 3) * SPI_FLASH_SEC_SIZE)

/-- The sector a flag byte makes active. -/
def activeSector (flag : UInt8) : ℕ := if flag = 0 then CFG_LOCATION + 0 else CFG_LOCATION + 1

def activeSysCfg (flash : Memory) : SYSCFG := readSysCfg flash (activeSector (flagByte flash))

theorem activeSector_cases (flag flag' : UInt8) :
    activeSector flag' = activeSector flag ∨ activeSector flag' = targetSector flag := by
  unfold activeSector targetSector
  split <;> split <;> simp

theorem activeSector_ne_target (flag : UInt8) : activeSector flag ≠ targetSector flag := by
  unfold activeSector targetSector
  split <;> decide

theorem activeSector_ne_flag (flag : UInt8) : activeSector flag ≠ CFG_LOCATION + 3 := by
  unfold activeSector
  split <;> decide

theorem targetSector_ne_flag (flag : UInt8) : targetSector flag ≠ CFG_LOCATION + 3 := by
  unfold targetSector
  split <;> decide

theorem activeSector_flipped (f : SAVE_FLAG) : activeSector (flipped f).flag = targetSector f.flag := by
  unfold activeSector targetSector flipped
  split <;> rfl

theorem readSaveFlag_flag (flash : Memory) : (readSaveFlag flash).flag = flagByte flash := rfl


theorem secSize_pos : 0 < SPI_FLASH_SEC_SIZE := by decide

theorem sizeofSYSCFG_le : sizeofSYSCFG ≤ SPI_FLASH_SEC_SIZE := by decide

theorem readSysCfg_confined {m m' : Memory} {j k : ℕ} (h : Confined SPI_FLASH_SEC_SIZE k m m') (hjk : j ≠ k) :
    readSysCfg m' j = readSysCfg m j := by
  have hread : read m' (j * SPI_FLASH_SEC_SIZE) sizeofSYSCFG = read m (j * SPI_FLASH_SEC_SIZE) sizeofSYSCFG :=
    read_confined h hjk sizeofSYSCFG_le
  unfold readSysCfg
  simp only [hread]

theorem flagByte_confined {m m' : Memory} {k : ℕ} (h : Confined SPI_FLASH_SEC_SIZE k m m')
    (hk : k ≠ CFG_LOCATION + 3) : flagByte m' = flagByte m := by
  apply h
  rw [Nat.mul_div_cancel _ (by decide)]
  exact hk.symm

/-- Nothing but the sector that is not active has changed. -/
theorem activeSysCfg_confined {m m' : Memory}
    (h : Confined SPI_FLASH_SEC_SIZE (targetSector (flagByte m)) m m') : activeSysCfg m' = activeSysCfg m := by
  unfold activeSysCfg
  rw [flagByte_confined h (targetSector_ne_flag _), readSysCfg_confined h (activeSector_ne_target _)]

/-! ## What a save does -/

variable (cfg : SYSCFG) (m : Memory)

/-- The flash once the configuration is written and the flag is not. -/
def written : Memory := exec SPI_FLASH_SEC_SIZE (rewrite SPI_FLASH_SEC_SIZE (targetSector (flagByte m)) cfg.bytes) m

theorem saveFlag_fits : (flipped (readSaveFlag m)).bytes.length ≤ SPI_FLASH_SEC_SIZE := by
  have hlen : (flipped (readSaveFlag m)).bytes.length = sizeofSAVE_FLAG := rfl
  rw [hlen]
  decide

theorem sysCfg_fits : cfg.bytes.length ≤ SPI_FLASH_SEC_SIZE := by
  rw [cfg.size_eq]
  exact sizeofSYSCFG_le

theorem written_confined : Confined SPI_FLASH_SEC_SIZE (targetSector (flagByte m)) m (written cfg m) :=
  exec_rewrite_confined m (sysCfg_fits cfg)

theorem written_target : readSysCfg (written cfg m) (targetSector (flagByte m)) = cfg := by
  have hread := read_rewrite m (targetSector (flagByte m)) (sysCfg_fits cfg)
  rw [cfg.size_eq] at hread
  unfold readSysCfg
  simp only [written, hread]

/-- Whatever becomes of the flag sector then, the active configuration is the old or the new one. -/
theorem active_of_written {m' : Memory} (h : Confined SPI_FLASH_SEC_SIZE (CFG_LOCATION + 3) (written cfg m) m') :
    activeSysCfg m' = activeSysCfg m ∨ activeSysCfg m' = cfg := by
  unfold activeSysCfg
  rw [readSysCfg_confined h (activeSector_ne_flag _)]
  obtain hold | hnew := activeSector_cases (flagByte m) (flagByte m')
  · left
    rw [hold]
    exact readSysCfg_confined (written_confined cfg m) (activeSector_ne_target _)
  · right
    rw [hnew]
    exact written_target cfg m

theorem active_saved : activeSysCfg (exec SPI_FLASH_SEC_SIZE (saveOps (readSaveFlag m) cfg) m) = cfg := by
  have hexec : exec SPI_FLASH_SEC_SIZE (saveOps (readSaveFlag m) cfg) m =
      exec SPI_FLASH_SEC_SIZE
        (rewrite SPI_FLASH_SEC_SIZE (CFG_LOCATION + 3) (flipped (readSaveFlag m)).bytes) (written cfg m) :=
    exec_append _ _ m
  have hread := read_rewrite (written cfg m) (CFG_LOCATION + 3) (saveFlag_fits m)
  rw [hexec]
  generalize hm : exec SPI_FLASH_SEC_SIZE
    (rewrite SPI_FLASH_SEC_SIZE (CFG_LOCATION + 3) (flipped (readSaveFlag m)).bytes) (written cfg m) = m' at hread ⊢
  have hconf : Confined SPI_FLASH_SEC_SIZE (CFG_LOCATION + 3) (written cfg m) m' :=
    hm ▸ exec_rewrite_confined (written cfg m) (saveFlag_fits m)
  have hflag : flagByte m' = (flipped (readSaveFlag m)).flag := congrArg (·.headD 0) hread
  unfold activeSysCfg
  rw [hflag, activeSector_flipped, readSysCfg_confined hconf (targetSector_ne_flag _), readSaveFlag_flag]
  exact written_target cfg m

theorem CFG_Save_active (d : Device) : activeSysCfg (CFG_Save d).flash = d.sysCfg := active_saved d.sysCfg d.flash

theorem active_interrupted (garbage : Memory) (i : ℕ) :
    activeSysCfg (cut SPI_FLASH_SEC_SIZE garbage (saveOps (readSaveFlag m) cfg) i m) = activeSysCfg m ∨
      activeSysCfg (cut SPI_FLASH_SEC_SIZE garbage (saveOps (readSaveFlag m) cfg) i m) = cfg := by
  have hcut := cut_rewrite m garbage (targetSector (flagByte m)) cfg.bytes secSize_pos
    (rewrite SPI_FLASH_SEC_SIZE (CFG_LOCATION + 3) (flipped (readSaveFlag m)).bytes) i
  obtain hfirst | ⟨j, hj⟩ := hcut
  · exact .inl (activeSysCfg_confined hfirst)
  · refine active_of_written cfg m ?_
    have hflag := cut_rewrite_confined (k := CFG_LOCATION + 3) (written cfg m) garbage secSize_pos
      (saveFlag_fits m) j
    unfold written at hflag
    rw [← hj] at hflag
    exact hflag

/-! ## What a load finds -/

/-- The active configuration, which a load finds valid. -/
def Holds (d : Device) (cfg : SYSCFG) : Prop :=
  activeSysCfg d.flash = cfg ∧ cfg.word .cfg_holder = CFG_HOLDER

theorem defaultSysCfg_holder (clientId : List UInt8) :
    (defaultSysCfg clientId).word .cfg_holder = CFG_HOLDER := by
  have hholder : (defaultSysCfg clientId).get .cfg_holder = uint32 CFG_HOLDER := by
    unfold defaultSysCfg
    simp only
    rw [SYSCFG.get_put_disjoint, SYSCFG.get_put_disjoint, SYSCFG.get_put_disjoint, SYSCFG.get_put_disjoint]
    · exact SYSCFG.get_put _ rfl (by decide)
    all_goals exact .inl (by decide)
  rw [SYSCFG.word, hholder]
  rfl

theorem load_reads_active (m : Memory) :
    (if (readSaveFlag m).flag = 0 then readSysCfg m (CFG_LOCATION + 0) else readSysCfg m (CFG_LOCATION + 1)) =
      activeSysCfg m := by
  rw [activeSysCfg, activeSector, readSaveFlag_flag]
  split <;> rfl

theorem CFG_Load_active {clientId : List UInt8} {d : Device}
    (h : (activeSysCfg d.flash).word .cfg_holder = CFG_HOLDER) :
    CFG_Load clientId d = { d with saveFlag := readSaveFlag d.flash, sysCfg := activeSysCfg d.flash } := by
  simp only [CFG_Load, load_reads_active]
  exact if_neg (not_not_intro h)

theorem CFG_Load_default {clientId : List UInt8} {d : Device}
    (h : (activeSysCfg d.flash).word .cfg_holder ≠ CFG_HOLDER) : CFG_Load clientId d =
      CFG_Save { d with saveFlag := readSaveFlag d.flash, sysCfg := defaultSysCfg clientId } := by
  simp only [CFG_Load, load_reads_active]
  exact if_pos h

/-- A load from any flash whatever leaves a configuration active that it accepts. -/
theorem CFG_Load_holds (clientId : List UInt8) (d : Device) :
    Holds (CFG_Load clientId d) (CFG_Load clientId d).sysCfg := by
  by_cases h : (activeSysCfg d.flash).word .cfg_holder = CFG_HOLDER
  · rw [CFG_Load_active h]
    exact ⟨rfl, h⟩
  · rw [CFG_Load_default h]
    exact ⟨active_saved (defaultSysCfg clientId) d.flash, defaultSysCfg_holder clientId⟩

/-- A second load finds what the first one left. -/
theorem CFG_Load_again (clientId : List UInt8) (d : Device) :
    (CFG_Load clientId (CFG_Load clientId d)).sysCfg = (CFG_Load clientId d).sysCfg := by
  obtain ⟨hactive, hholder⟩ := CFG_Load_holds clientId d
  rw [CFG_Load_active (hactive.symm ▸ hholder)]
  exact hactive

/-! ## Histories of saves, failures and loads -/

/-- The configuration store as its callers use it: they fill in `sysCfg` and save it, and read
`sysCfg` behind a load. -/
def configStore (clientId : List UInt8) : Store Device SYSCFG Failure where
  save cfg d := CFG_Save { d with sysCfg := cfg }
  interrupted cfg failure d := CFG_Save_cut failure { d with sysCfg := cfg }
  load d := ((CFG_Load clientId d).sysCfg, CFG_Load clientId d)

theorem configStore_safe (clientId : List UInt8) :
    Safe (configStore clientId) (fun cfg => cfg.word .cfg_holder = CFG_HOLDER) Holds where
  save {d _ cfg} _ hcfg := ⟨active_saved cfg d.flash, hcfg⟩
  interrupted {d old cfg} failure hold hcfg := by
    obtain ⟨rfl, hholder⟩ := hold
    obtain hkept | hnew := active_interrupted cfg d.flash failure.garbage failure.op
    · exact .inl ⟨hkept, hholder⟩
    · exact .inr ⟨hnew, hcfg⟩
  load {d cfg} hcfg := by
    obtain ⟨rfl, hholder⟩ := hcfg
    simp only [configStore, CFG_Load_active hholder]
    exact ⟨trivial, rfl, hholder⟩

/-- **Saving the configuration is crash-safe.** -/
theorem config_crash_safe (clientId : List UInt8) (d : Device) (calls : List (Call SYSCFG Failure))
    (hactive : (activeSysCfg d.flash).word .cfg_holder = CFG_HOLDER)
    (hsaved : ∀ cfg ∈ saved calls, cfg.word .cfg_holder = CFG_HOLDER) :
    Admits (activeSysCfg d.flash) calls ((configStore clientId).loads d calls) :=
  (configStore_safe clientId).admits_loads ⟨rfl, hactive⟩ hsaved

/-- The first sector is active and holds nothing but its `cfg_holder`; a save is cut while it
erases the flag sector, one is completed, and each is followed by a load. -/
theorem config_crash_safe_erasure :
    let flash : Memory := fun a => if a = CFG_LOCATION * SPI_FLASH_SEC_SIZE then 2 else 0
    let cfg := defaultSysCfg [69, 83, 80]
    let calls : List (Call SYSCFG Failure) := [.save cfg (some ⟨2, fun _ => 165⟩), .load, .save cfg none, .load]
    Admits (activeSysCfg flash) calls ((configStore []).loads ⟨flash, .zero, ⟨0, []⟩⟩ calls) := by
  intro flash cfg calls
  refine config_crash_safe [] ⟨flash, .zero, ⟨0, []⟩⟩ calls (by decide +kernel) ?_
  intro saved hsaved
  simp only [calls, CrashStore.saved, List.mem_cons, List.not_mem_nil, or_false, or_self] at hsaved
  rw [hsaved]
  exact defaultSysCfg_holder _

end LightSleepMqtt.Config
