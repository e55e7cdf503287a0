import LightSleepMqtt.Config.Store
import LightSleepMqtt.Http.Form

/-! What the configuration is used for besides MQTT: the strings that `WIFI_Connect` copies for the
station, whose members are shorter than those they come from, and the sectors of the flash, of which
`user_rf_cal_sector_set` leaves the last five to the SDK. -/
namespace LightSleepMqtt.User
open NorFlash CrashStore Config Http
set_option autoImplicit false

/-! ## The station -/

abbrev sizeofStationConfig : ℕ := 112

namespace StationConfig

def ssid : Field := ⟨0, 32⟩
def password : Field := ⟨32, 64⟩
def bssid_set : Field := ⟨96, 1⟩

end StationConfig

/-- `os_sprintf` with the format `%s`; `none` is a write behind the block. -/
def printString (block : List UInt8) (offset : ℕ) (s : List UInt8) : Option (List UInt8) :=
  if offset + (s.length + 1) ≤ block.length then some (overwrite block offset (s ++ [0])) else none

/-- The `stationConf` that is passed to `wifi_station_set_config_current`. -/
def WIFI_Connect (ssid pass : List UInt8) : Option (List UInt8) :=
  (printString (List.replicate sizeofStationConfig 0) StationConfig.ssid.offset ssid).bind fun stationConf =>
    printString stationConf StationConfig.password.offset pass

/-- A member as the station takes it: up to the first NUL, or all of it. -/
def stationString (stationConf : List UInt8) (f : Field) : List UInt8 := cstring ((stationConf.drop f.offset).take f.size)

theorem overwrite_zeros (front : List UInt8) {n : ℕ} {s : List UInt8} (h : s.length + 1 ≤ n) :
    overwrite (front ++ List.replicate n 0) front.length (s ++ [0]) = front ++ (s ++ List.replicate (n - s.length) 0) := by
  apply List.ext_getElem?
  intro i
  rw [getElem?_overwrite]
  split
  · rename_i hle
    rw [List.getElem?_append_right hle, List.getElem?_append_right hle]
    generalize i - front.length = k
    by_cases hs : k < s.length
    · rw [List.getElem?_append_left hs, List.getElem?_replicate, if_pos (by omega), List.getElem?_eq_getElem hs]
      simp [List.getD_eq_getElem?_getD, List.getElem?_append_left hs, List.getElem?_eq_getElem hs]
    · rw [List.getElem?_append_right (by omega), List.getElem?_replicate, List.getElem?_replicate]
      by_cases hk : k < n
      · rw [if_pos hk, if_pos (by omega), Option.map_some]
        obtain rfl | hlt := Nat.eq_or_lt_of_le (Nat.le_of_not_lt hs)
        · simp
        · simp [List.getD_eq_getElem?_getD, List.getElem?_eq_none (l := s ++ [0]) (i := k) (by simp; omega)]
      · rw [if_neg hk, if_neg (by omega), Option.map_none]
  · rename_i hlt
    rw [List.getElem?_append_left (by omega), List.getElem?_append_left (by omega)]

theorem printString_zeros {front : List UInt8} {n offset : ℕ} {s : List UInt8} (hoffset : front.length = offset)
    (h : s.length + 1 ≤ n) :
    printString (front ++ List.replicate n 0) offset s = some (front ++ (s ++ List.replicate (n - s.length) 0)) := by
  subst hoffset
  rw [printString, if_pos (by rw [List.length_append, List.length_replicate]; omega), overwrite_zeros front h]

/-- Two strings that fit their members. -/
theorem WIFI_Connect_fitting {ssid pass : List UInt8} (hssid : ssid.length ≤ 32) (hpass : pass.length ≤ 64) :
    WIFI_Connect ssid pass = some ((ssid ++ List.replicate (32 - ssid.length) 0) ++
      (pass ++ List.replicate (80 - pass.length) 0)) := by
  have hfirst : printString (List.replicate sizeofStationConfig 0) StationConfig.ssid.offset ssid =
      some (ssid ++ List.replicate (112 - ssid.length) 0) :=
    printString_zeros (List.length_nil (α := UInt8)) (show ssid.length + 1 ≤ 112 by omega)
  have hsplit : ssid ++ List.replicate (112 - ssid.length) 0 =
      (ssid ++ List.replicate (32 - ssid.length) 0) ++ List.replicate 80 (0 : UInt8) := by
    rw [List.append_assoc, List.replicate_append_replicate, show 32 - ssid.length + 80 = 112 - ssid.length by omega]
  have hoffset : (ssid ++ List.replicate (32 - ssid.length) (0 : UInt8)).length = StationConfig.password.offset := by
    rw [List.length_append, List.length_replicate]
    exact Nat.add_sub_cancel' hssid
  rw [WIFI_Connect, hfirst, Option.bind_some, hsplit]
  exact printString_zeros hoffset (by omega)

theorem cstring_zeros {s : List UInt8} (h : 0 ∉ s) (n : ℕ) : cstring (s ++ List.replicate n 0) = s := by
  have hne : ∀ b ∈ s, decide (b ≠ 0) = true := fun b hb => decide_eq_true fun hzero => h (hzero ▸ hb)
  rw [cstring, List.takeWhile_append_of_pos hne]
  cases n with
  | zero => simp
  | succ n => simp [List.replicate_succ]

/-- **The station gets the strings of the configuration, and no more than them, exactly when they are no
longer than a network's name and a key may be**: 32 and 64 bytes, the last ones without a NUL. -/
theorem station_gets_strings_iff {ssid pass : List UInt8} (hssid : 0 ∉ ssid) (hpass : 0 ∉ pass) :
    (∃ stationConf, WIFI_Connect ssid pass = some stationConf ∧ stationString stationConf StationConfig.ssid = ssid ∧
        stationString stationConf StationConfig.password = pass ∧
        stationString stationConf StationConfig.bssid_set = []) ↔
      ssid.length ≤ 32 ∧ pass.length ≤ 64 := by
  have hbound (stationConf : List UInt8) (f : Field) : (stationString stationConf f).length ≤ f.size := by
    have hfront : stationString stationConf f <+: (stationConf.drop f.offset).take f.size := List.takeWhile_prefix _
    exact hfront.length_le.trans (List.length_take_le _ _)
  constructor
  · rintro ⟨stationConf, _, hname, hkey, _⟩
    exact ⟨hname ▸ hbound stationConf StationConfig.ssid, hkey ▸ hbound stationConf StationConfig.password⟩
  · rintro ⟨hname, hkey⟩
    have hfront : (ssid ++ List.replicate (32 - ssid.length) (0 : UInt8)).length = 32 := by
      rw [List.length_append, List.length_replicate]
      omega
    refine ⟨_, WIFI_Connect_fitting hname hkey, ?_, ?_, ?_⟩
    · rw [stationString, StationConfig.ssid, List.drop_zero, List.take_left' hfront]
      exact cstring_zeros hssid _
    · rw [stationString, StationConfig.password, List.drop_left' hfront, List.take_append, List.take_of_length_le hkey,
        List.take_replicate]
      exact cstring_zeros hpass _
    · rw [stationString, StationConfig.bssid_set, show 96 = 32 + 64 from rfl, ← List.drop_drop, List.drop_left' hfront,
        List.drop_append, List.drop_of_length_le hkey, List.drop_replicate, List.nil_append, List.take_replicate]
      obtain ⟨n, hn⟩ : ∃ n, min 1 (80 - pass.length - (64 - pass.length)) = n := ⟨_, rfl⟩
      rw [hn]
      exact cstring_zeros (s := []) List.not_mem_nil n

/-- A name of 32 bytes and a key of 63. -/
theorem station_gets_strings_iff_longest :
    (∃ stationConf, WIFI_Connect (List.replicate 32 0x61) (List.replicate 63 0x62) = some stationConf ∧
        stationString stationConf StationConfig.ssid = List.replicate 32 0x61 ∧
        stationString stationConf StationConfig.password = List.replicate 63 0x62 ∧
        stationString stationConf StationConfig.bssid_set = []) ↔
      (List.replicate 32 (0x61 : UInt8)).length ≤ 32 ∧ (List.replicate 63 (0x62 : UInt8)).length ≤ 64 :=
  station_gets_strings_iff (by decide) (by decide)

/-! ## The sectors of the SDK -/

inductive flash_size_map where
  | FLASH_SIZE_4M_MAP_256_256
  | FLASH_SIZE_2M
  | FLASH_SIZE_8M_MAP_512_512
  | FLASH_SIZE_16M_MAP_512_512
  | FLASH_SIZE_32M_MAP_512_512
  | FLASH_SIZE_16M_MAP_1024_1024
  | FLASH_SIZE_32M_MAP_1024_1024
  | FLASH_SIZE_32M_MAP_2048_2048
  | FLASH_SIZE_64M_MAP_1024_1024
  | FLASH_SIZE_128M_MAP_1024_1024
  deriving DecidableEq

def user_rf_cal_sector_set : flash_size_map → ℕ
  | .FLASH_SIZE_4M_MAP_256_256 => 128 - 5
  | .FLASH_SIZE_8M_MAP_512_512 => 256 - 5
  | .FLASH_SIZE_16M_MAP_512_512 | .FLASH_SIZE_16M_MAP_1024_1024 => 512 - 5
  | .FLASH_SIZE_32M_MAP_512_512 | .FLASH_SIZE_32M_MAP_1024_1024 => 1024 - 5
  | .FLASH_SIZE_64M_MAP_1024_1024 => 2048 - 5
  | .FLASH_SIZE_128M_MAP_1024_1024 => 4096 - 5
  | _ => 0

/-- One sector for the calibration, one for the initial data and three for the parameters of the SDK. -/
def Reserved (size_map : flash_size_map) (sector : ℕ) : Prop :=
  user_rf_cal_sector_set size_map ≤ sector ∧ sector < user_rf_cal_sector_set size_map + 5

/-- The device behind the calls, as `config_crash_safe` makes them. -/
def behind (clientId : List UInt8) (d : Device) (calls : List (Call SYSCFG Failure)) : Device :=
  calls.foldl (fun d call => match call with
    | .save cfg none => (configStore clientId).save cfg d
    | .save cfg (some failure) => (configStore clientId).interrupted cfg failure d
    | .load => ((configStore clientId).load d).2) d

/-- The sectors of the configuration. -/
def Configurations (sector : ℕ) : Prop :=
  sector = CFG_LOCATION + 0 ∨ sector = CFG_LOCATION + 1 ∨ sector = CFG_LOCATION + 3

theorem saveOps_configurations (m : Memory) (cfg : SYSCFG) :
    ∀ op ∈ saveOps (readSaveFlag m) cfg, op.Fits SPI_FLASH_SEC_SIZE ∧ Configurations (op.sector SPI_FLASH_SEC_SIZE) := by
  have hrewrite {k : ℕ} (hk : Configurations k) {bytes : List UInt8} (hfit : bytes.length ≤ SPI_FLASH_SEC_SIZE) :
      ∀ op ∈ rewrite SPI_FLASH_SEC_SIZE k bytes,
        op.Fits SPI_FLASH_SEC_SIZE ∧ Configurations (op.sector SPI_FLASH_SEC_SIZE) := by
    intro op hop
    obtain rfl | hop := List.mem_cons.mp hop
    · exact ⟨trivial, hk⟩
    · obtain rfl := List.mem_singleton.mp hop
      refine ⟨?_, ?_⟩
      · rw [Op.Fits, Nat.mul_mod_left, Nat.zero_add]
        exact hfit
      · rw [Op.sector, Nat.mul_div_cancel k secSize_pos]
        exact hk
  intro op hop
  obtain hcfg | hflag := List.mem_append.mp hop
  · refine hrewrite ?_ (sysCfg_fits cfg) op hcfg
    unfold targetSector
    split
    · exact .inr (.inl rfl)
    · exact .inl rfl
  · exact hrewrite (.inr (.inr rfl)) (saveFlag_fits m) op hflag

theorem CFG_Save_outside {a : ℕ} (ha : ¬ Configurations (a / SPI_FLASH_SEC_SIZE)) (d : Device) :
    (CFG_Save d).flash a = d.flash a :=
  exec_outside (fun op hop => (saveOps_configurations d.flash d.sysCfg op hop).1)
    (fun op hop heq => ha (heq ▸ (saveOps_configurations d.flash d.sysCfg op hop).2)) d.flash

theorem CFG_Save_cut_outside {a : ℕ} (ha : ¬ Configurations (a / SPI_FLASH_SEC_SIZE)) (failure : Failure) (d : Device) :
    (CFG_Save_cut failure d).flash a = d.flash a :=
  cut_outside (fun op hop => (saveOps_configurations d.flash d.sysCfg op hop).1)
    (fun op hop heq => ha (heq ▸ (saveOps_configurations d.flash d.sysCfg op hop).2)) failure.garbage failure.op d.flash

theorem CFG_Load_outside {a : ℕ} (ha : ¬ Configurations (a / SPI_FLASH_SEC_SIZE)) (clientId : List UInt8) (d : Device) :
    (CFG_Load clientId d).flash a = d.flash a := by
  by_cases h : (activeSysCfg d.flash).word .cfg_holder = CFG_HOLDER
  · rw [CFG_Load_active h]
  · rw [CFG_Load_default h]
    exact CFG_Save_outside ha _

theorem behind_outside {a : ℕ} (ha : ¬ Configurations (a / SPI_FLASH_SEC_SIZE)) (clientId : List UInt8)
    (calls : List (Call SYSCFG Failure)) (d : Device) : (behind clientId d calls).flash a = d.flash a := by
  induction calls generalizing d with
  | nil => rfl
  | cons call calls ih =>
    rw [behind, List.foldl_cons]
    refine (ih _).trans ?_
    match call with
    | .save cfg none => exact CFG_Save_outside ha { d with sysCfg := cfg }
    | .save cfg (some failure) => exact CFG_Save_cut_outside ha failure { d with sysCfg := cfg }
    | .load => exact CFG_Load_outside ha clientId d

/-- **Saving and loading spares the sectors of the SDK, except on a flash of 4 Mbit**: there the flag lies
in the sector of the initial data. Neither depends on what is saved, nor on the power failures. -/
theorem calls_spare_reserved_iff (clientId : List UInt8) (size_map : flash_size_map) :
    (∀ (d : Device) (calls : List (Call SYSCFG Failure)) (a : ℕ), Reserved size_map (a / SPI_FLASH_SEC_SIZE) →
      (behind clientId d calls).flash a = d.flash a) ↔ size_map ≠ .FLASH_SIZE_4M_MAP_256_256 := by
  constructor
  · rintro hspares rfl
    have hreserved : Reserved .FLASH_SIZE_4M_MAP_256_256 ((CFG_LOCATION + 3) * SPI_FLASH_SEC_SIZE / SPI_FLASH_SEC_SIZE) := by
      rw [Nat.mul_div_cancel _ secSize_pos]
      exact ⟨by decide, by decide⟩
    -- the first save sets the flag
    have hflag : (CFG_Save ⟨fun _ => 0, .zero, ⟨0, []⟩⟩).flash ((CFG_LOCATION + 3) * SPI_FLASH_SEC_SIZE) = 0 :=
      hspares ⟨fun _ => 0, .zero, ⟨0, []⟩⟩ [.save .zero none] _ hreserved
    exact absurd hflag (by decide +kernel)
  · intro hother d calls a hreserved
    refine behind_outside (fun hconfiguration => ?_) clientId calls d
    obtain ⟨hlow, hhigh⟩ := hreserved
    have hsector : CFG_LOCATION + 0 ≤ a / SPI_FLASH_SEC_SIZE ∧ a / SPI_FLASH_SEC_SIZE ≤ CFG_LOCATION + 3 := by
      unfold Configurations at hconfiguration
      omega
    cases size_map with
    | FLASH_SIZE_4M_MAP_256_256 => exact hother rfl
    | _ =>
      simp only [user_rf_cal_sector_set, CFG_LOCATION] at hlow hhigh hsector
      omega

end LightSleepMqtt.User
