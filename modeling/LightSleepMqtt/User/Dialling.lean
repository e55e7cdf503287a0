import Mathlib.Data.List.Chain
import LightSleepMqtt.Sleep.Cycle
import LightSleepMqtt.User.Firmware

/-! Whom the firmware dials, and when. An address passed to `espconn_connect` is the one in the
configuration, or when that has a name instead, one that the network has answered. `wifi_check_ip` calls
the client back on changes only, so that it is never told to connect twice without having been told to
disconnect. -/
namespace LightSleepMqtt.User
open Message Client Http Sleep Transition
open Config hiding Device
set_option autoImplicit false

variable {B : ℕ} {fp : FloatingPoint} {conversions : Conversions fp} {sysCfg : SYSCFG}

/-! ## The addresses -/

/-- What `UTILS_StrToIP` makes of the host. -/
def hostIp (s : Sys) : ℕ × Bool := (s.client.host.map UTILS_StrToIP).getD (0, false)

theorem MQTT_Connect_connects (s : Sys) (resolved : Option ℕ) :
    (MQTT_Connect s resolved).connects = s.connects ++ if (hostIp s).2 then [(hostIp s).1] else [] := by
  obtain ⟨t, ht, hconnects, hhost⟩ : ∃ t, t = (if s.client.pCon.isSome then mqtt_tcpclient_delete s else s) ∧
      t.connects = s.connects ∧ hostIp t = hostIp s := by
    refine ⟨_, rfl, ?_⟩
    split <;> exact ⟨rfl, rfl⟩
  simp only [MQTT_Connect, ← ht]
  rw [← hconnects, ← hhost, hostIp]
  cases ((t.client.host.map UTILS_StrToIP).getD (0, false)).2 with
  | true => rfl
  | false => exact (List.append_nil _).symm

theorem receivePass_connects (s : Sys) (pdata : List UInt8) : (receivePass s B pdata).connects = s.connects := by
  have hread : (readPacket B s pdata).1.connects = s.connects := by
    obtain ⟨type, qos, id, pass, _, _, _, hpass⟩ | ⟨buffer, _, hpass⟩ | ⟨buffer, hpass⟩ := readPacket_cases B s pdata
    · obtain ⟨connection, queue, accepted, delivered, hswitch⟩ := switchType_frame (loaded s pdata) type qos id
      rw [hpass, hswitch]
      rfl
    · rw [hpass]
      rfl
    · rw [hpass]
      rfl
  unfold receivePass callsBack
  generalize readPacket B s pdata = out at hread ⊢
  obtain ⟨t, _ | _ | _⟩ := out
  · exact hread
  · simp only
    split <;> exact hread
  · exact hread

theorem MQTT_Task_connects (s : Sys) (locals : Locals B) (result : Bool) (resolved : Option ℕ) :
    (MQTT_Task s locals result resolved).connects = s.connects ∨
      (hostIp s).2 = true ∧ (MQTT_Task s locals result resolved).connects = s.connects ++ [(hostIp s).1] := by
  simp only [MQTT_Task]
  split
  · have hconnect := MQTT_Connect_connects (mqtt_tcpclient_delete { s with posted := false }) resolved
    rw [show hostIp (mqtt_tcpclient_delete { s with posted := false }) = hostIp s from rfl] at hconnect
    cases hip : (hostIp s).2 with
    | true =>
      rw [hip, if_pos rfl] at hconnect
      exact .inr ⟨rfl, hconnect⟩
    | false =>
      rw [hip, if_neg (by decide), List.append_nil] at hconnect
      exact .inl hconnect
  · exact .inl rfl
  · exact .inl rfl
  · cases result <;> exact .inl rfl
  · obtain ⟨_, hpump⟩ | ⟨_, _, _, _, _, _, hpump⟩ := pump_cases { s with posted := false } locals
    · rw [hpump]
      exact .inl rfl
    · rw [hpump]
      exact .inl rfl
  · exact .inl rfl

/-- Apart from answers, only `MQTT_Connect` dials, and only a host that is an address. -/
theorem step_connects {s s' : Sys} {a : Step B} (ha : ∀ ipaddr, a ≠ .dnsFound ipaddr) (hstep : Client.step s a = some s') :
    s'.connects = s.connects ∨ (hostIp s).2 = true ∧ s'.connects = s.connects ++ [(hostIp s).1] := by
  cases step_taken hstep with
  | @call c _ hexec =>
    cases c with
    | request r =>
      obtain ⟨connection, id, queue, posted, accepted, _, rfl⟩ := ApiCall.request_frame hexec
      exact .inl rfl
    | connect resolved =>
      obtain rfl := Option.some.inj hexec
      have hconnect := MQTT_Connect_connects s resolved
      cases hip : (hostIp s).2 with
      | true =>
        rw [hip, if_pos rfl] at hconnect
        exact .inr ⟨rfl, hconnect⟩
      | false =>
        rw [hip, if_neg (by decide), List.append_nil] at hconnect
        exact .inl hconnect
    | disconnect | deleteClient | onConnected | onDisconnected | onData | onPublished | onTimeout | initLWT =>
      obtain rfl := Option.some.inj hexec
      exact .inl rfl
  | @resume callback =>
    left
    obtain ⟨_, hend⟩ | ⟨_, hend | ⟨_, _, rest, _, hend⟩⟩ := returned_cases (B := B) s callback
    · rw [hend]
      rfl
    · rw [hend]
      rfl
    · rw [hend]
      exact receivePass_connects _ rest
  | dnsFound ipaddr => exact absurd rfl (ha ipaddr)
  | connectCb | reconCb => exact .inl rfl
  | disconCb =>
    left
    simp only [mqtt_tcpclient_discon_cb, callsBack]
    split_ifs <;> rfl
  | recv pdata => exact .inl (receivePass_connects _ pdata)
  | sentCb =>
    left
    simp only [mqtt_tcpclient_sent_cb, callsBack]
    split_ifs <;> rfl
  | timer =>
    left
    simp only [mqtt_timer, callsBack]
    split_ifs <;> rfl
  | task locals result resolved => exact MQTT_Task_connects s locals result resolved

/-- The addresses that the network has answered, in order. -/
def noteAnswer (answers : List ℕ) (_ : World) (event : Event B) (_ : World) : List ℕ :=
  match event with
  | .answer _ (some addr) _ => answers ++ [addr]
  | _ => answers

/-- What has been dialled with the host of this configuration. -/
def DialsHost (sysCfg : SYSCFG) (connects answers : List ℕ) : Prop :=
  if (UTILS_StrToIP (member sysCfg .mqtt_host)).2 then ∀ addr ∈ connects, addr = (UTILS_StrToIP (member sysCfg .mqtt_host)).1
  else connects.Sublist answers

/-- A client of the firmware that has dialled nobody else; nobody answers for a host that is an address. -/
structure Dials (sysCfg : SYSCFG) (x : World × List ℕ) : Prop where
  configured : ∃ willed, Configured sysCfg willed x.1.sys
  asked : (UTILS_StrToIP (member sysCfg .mqtt_host)).2 = true → x.1.queries = []
  dialled : DialsHost sysCfg x.1.sys.connects x.2

theorem Configured.hostIp {willed : Bool} {s : Sys} (h : Configured sysCfg willed s) :
    hostIp s = UTILS_StrToIP (member sysCfg .mqtt_host) := by
  rw [User.hostIp, h.host]
  rfl

theorem Dials.event {x x' : World × List ℕ} {event : Event B} (hx : Dials sysCfg x)
    (huses : FirmwareUses fp conversions sysCfg event) (hobserved : observed World.step noteAnswer x event = some x') :
    Dials sysCfg x' := by
  obtain ⟨hstep, hnotes⟩ := observed_some hobserved
  obtain ⟨willed, hconfigured⟩ := hx.configured
  have hip := hconfigured.hostIp
  have hdialled := hx.dialled
  refine ⟨⟨_, hconfigured.event huses hstep⟩, fun haddress => ?_, ?_⟩
  · have hnone := hx.asked haddress
    cases event with
    | client a outcome =>
      obtain ⟨_, sys, _, hfollow⟩ := World.step_client hstep
      have hhost : hostIsIp x.1.sys = true := (congrArg Prod.snd hip).trans haddress
      rw [hfollow, World.follow]
      split
      · rw [hhost]
        exact hnone
      · exact hnone
    | answer query ipaddr accepted =>
      obtain ⟨_, hanswer⟩ := World.answer_some hstep
      rw [hanswer, hnone]
      rfl
    | goToSleep =>
      simp only [World.step] at hstep
      split at hstep
      · rw [← Option.some.inj hstep]
        exact hnone
      · cases hstep
  · rw [hnotes]
    cases event with
    | client a outcome =>
      obtain ⟨hcomes, sys, hsys, hfollow⟩ := World.step_client hstep
      have hworld : x'.1.sys = sys := by rw [hfollow, World.follow_sys]
      rw [hworld]
      have hother : ∀ ipaddr, a ≠ .dnsFound ipaddr := by
        rintro ipaddr rfl
        cases hcomes
      obtain hsame | ⟨haddress, hmore⟩ := step_connects hother hsys
      · exact hsame ▸ hdialled
      · rw [hip] at haddress hmore
        unfold DialsHost at hdialled ⊢
        rw [if_pos haddress] at hdialled ⊢
        rw [hmore]
        exact fun addr haddr => (List.mem_append.mp haddr).elim (hdialled addr) List.mem_singleton.mp
    | answer query ipaddr accepted =>
      have hasked := hx.asked
      simp only [World.step, World.answer] at hstep
      split at hstep
      · rename_i hand
        rw [← Option.some.inj hstep]
        unfold DialsHost at hdialled ⊢
        cases haddress : (UTILS_StrToIP (member sysCfg .mqtt_host)).2 with
        | true =>
          rw [hasked haddress] at hand
          exact absurd hand.2.1 List.not_mem_nil
        | false =>
          rw [haddress] at hdialled
          simp only [Bool.false_eq_true, if_false] at hdialled ⊢
          cases ipaddr with
          | none => exact hdialled
          | some addr =>
            simp only [mqtt_dns_found, noteAnswer]
            split
            · exact hdialled.append (List.Sublist.refl _)
            · exact hdialled.trans (List.sublist_append_left _ _)
      · cases hstep
    | goToSleep =>
      simp only [World.step] at hstep
      split at hstep
      · rw [← Option.some.inj hstep]
        exact hdialled
      · cases hstep

/-- **The firmware dials nobody but the configured host**: the address in the configuration, or one of the
answers for the name in it, each of them once and in order. -/
theorem run_dials_host (events : List (FirmwareEvent B)) :
    Always (firmwareStep fp conversions sysCfg noteAnswer) (fun x => DialsHost sysCfg x.1.sys.connects x.2)
      (.start B sysCfg, []) events := by
  refine always_of_invariant (I := fun x : Firmware × List ℕ => Dials sysCfg (x.1.world, x.2))
    (fun hx hstep => firmwareStep_invariant (fun hy huses hevent => hy.event huses hevent) hx hstep)
    (fun hx => hx.dialled) ⟨⟨false, user_init_configured sysCfg⟩, fun _ => rfl, ?_⟩
  unfold DialsHost
  split
  · exact fun addr haddr => absurd haddr List.not_mem_nil
  · exact List.Sublist.refl _

/-! ## The calls of `wifiConnectCb` -/

/-- `MQTT_Connect` and `MQTT_Disconnect`, as the firmware calls them. -/
def madeCall : Event B → Option Bool
  | .client (.call (.connect _)) _ => some true
  | .client (.call .disconnect) _ => some false
  | _ => none

section
variable (fp : FloatingPoint) (conversions : Conversions fp) (sysCfg : SYSCFG)

def noteCalls (calls : List Bool) (f : Firmware) (e : FirmwareEvent B) (_ : Firmware) : List Bool :=
  calls ++ (e.events fp conversions sysCfg f).filterMap madeCall

end

/-- The calls are on changes of the status of the station. -/
structure Alternates (x : Firmware × List Bool) : Prop where
  spaced : x.2.IsChain fun before after => before = true → after = false
  last : x.2.getLast? = some true ↔ x.1.device.lastWifiStatus = STATION_GOT_IP

theorem wifiChanges_calls (d : Device) (wifiStatus : UInt8) (resolved : Option ℕ) (outcome : Outcome) :
    wifiStatus = d.lastWifiStatus ∧
        (wifiChanges d wifiStatus resolved outcome : List (Event B)).filterMap madeCall = [] ∨
      wifiStatus ≠ d.lastWifiStatus ∧ (wifiChanges d wifiStatus resolved outcome : List (Event B)).filterMap madeCall =
        [decide (wifiStatus = STATION_GOT_IP)] := by
  unfold wifiChanges wifiConnectCb
  split
  · rename_i hsame
    exact .inl ⟨hsame, rfl⟩
  · rename_i hchanged
    refine .inr ⟨hchanged, ?_⟩
    split
    · rename_i hip
      rw [decide_eq_true hip]
      rfl
    · rename_i hother
      rw [decide_eq_false hother]
      rfl

theorem next_calls (f : Firmware) (locals : Locals B) (outcome : Outcome) :
    madeCall (.client (f.next locals) outcome) = none := by
  unfold Firmware.next
  split
  · match f.called with
    | 0 | 1 | 2 | 3 | _ + 4 => rfl
  · rfl

/-- `wifi_check_ip` makes a call for a change of the status, and nobody else makes one. -/
theorem step_calls {f f' : Firmware} {e : FirmwareEvent B} (h : f.step fp conversions sysCfg e = some f') :
    f'.device.lastWifiStatus = f.device.lastWifiStatus ∧ (e.events fp conversions sysCfg f).filterMap madeCall = [] ∨
      f'.device.lastWifiStatus ≠ f.device.lastWifiStatus ∧ (e.events fp conversions sysCfg f).filterMap madeCall =
        [decide (f'.device.lastWifiStatus = STATION_GOT_IP)] := by
  have hcycle := step_cycle fp conversions sysCfg (step_device h)
  generalize f'.device = d' at hcycle ⊢
  cases e with
  | proceed locals outcome =>
    left
    cases hcycle with
    | client => exact ⟨rfl, by simp [FirmwareEvent.events, FirmwareEvent.deviceEvent, DeviceEvent.events, next_calls]⟩
  | device e =>
    simp only [Firmware.step] at h
    split at h
    · rename_i houtside
      simp only [FirmwareEvent.events, FirmwareEvent.deviceEvent] at hcycle ⊢
      cases hcycle with
      | client a =>
        refine .inl ⟨rfl, ?_⟩
        cases a with
        | call => cases houtside
        | _ => rfl
      | answer | kept | asleep => exact .inl ⟨rfl, rfl⟩
      | wifi wifiStatus resolved outcome => exact wifiChanges_calls f.device wifiStatus resolved outcome
      | bounced _ _ _ _ hbounces =>
        rw [DeviceEvent.events, if_pos hbounces]
        exact .inl ⟨rfl, rfl⟩
      | counted _ wifiStatus resolved outcome _ hbounces | woken _ wifiStatus resolved outcome _ hbounces =>
        rw [DeviceEvent.events, if_neg (by simp [hbounces])]
        exact wifiChanges_calls f.device wifiStatus resolved outcome
      | read samples mqttValue locals outcome =>
        refine .inl ⟨rfl, List.filterMap_eq_nil_iff.mpr fun event hevent => ?_⟩
        obtain ⟨i, _, rfl⟩ := List.mem_mapIdx.mp hevent
        rfl
    · cases h

/-- **The client is never told to connect twice in a row**, and the last it has been told is whether the
station has an address, when no interrupt comes in the middle of `wifi_check_ip`, which the interrupt
calls as well. -/
theorem run_calls_alternate (events : List (FirmwareEvent B)) :
    Always (observed (Firmware.step fp conversions sysCfg) (noteCalls fp conversions sysCfg)) Alternates
      (.start B sysCfg, []) events := by
  refine always_of_invariant (I := Alternates) ?_ id
    ⟨List.IsChain.nil, iff_of_false (by simp) (show ¬ STATION_IDLE = STATION_GOT_IP by decide)⟩
  intro x e x' hx hobserved
  obtain ⟨hstep, hnotes⟩ := observed_some hobserved
  obtain ⟨hsame, hnone⟩ | ⟨hchanged, hone⟩ := step_calls hstep
  · rw [noteCalls, hnone, List.append_nil] at hnotes
    exact ⟨hnotes ▸ hx.spaced, by rw [hnotes, hsame]; exact hx.last⟩
  · rw [noteCalls, hone] at hnotes
    refine ⟨?_, ?_⟩
    · rw [hnotes]
      refine hx.spaced.append (List.isChain_singleton _) fun before hbefore after hafter hconnected => ?_
      obtain rfl := hconnected
      obtain rfl := Option.some.inj hafter
      exact decide_eq_false fun hip => hchanged (hip.trans (hx.last.mp hbefore).symm)
    · rw [hnotes, List.getLast?_concat]
      simp

end LightSleepMqtt.User
