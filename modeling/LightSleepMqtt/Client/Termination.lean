import LightSleepMqtt.Client.Receive
import LightSleepMqtt.Message.WellFormed

/-! When READPACKET ends. A pass over a PUBLISH goes on behind `message_length` bytes, and
`message_length` is the announced length narrowed to 16 bits: where that is 0 the loop enters
again on the same bytes. -/
namespace LightSleepMqtt.Client
open Message Queue
set_option autoImplicit false

/-! ## One pass -/

/-- The length of the packet at the front of a segment as `message_length` holds it. -/
def announced (pdata : List UInt8) : ℕ := (mqtt_get_total_length pdata pdata.length % 65536).toNat

/-- The client receives: the switch over the packet types is reached. -/
def Receiving (s : Sys) : Prop :=
  s.client.connState = .MQTT_DATA ∨ s.client.connState = .MQTT_KEEPALIVE_SEND

instance (s : Sys) : Decidable (Receiving s) :=
  inferInstanceAs (Decidable (_ ∨ _))

/-- The client when a pass over `pdata` has read its front. -/
def loaded (s : Sys) (pdata : List UInt8) : Sys :=
  { s with client := { s.client with mqtt_state := { s.client.mqtt_state with
    in_buffer := copyAt s.client.mqtt_state.in_buffer 0 pdata
    message_length_read := pdata.length, message_length := announced pdata } } }

theorem copyAt_zero (buffer pdata : List UInt8) :
    copyAt buffer 0 pdata = pdata ++ buffer.drop pdata.length := by
  rw [copyAt, List.take_zero, List.nil_append, Nat.zero_add]

theorem mqtt_get_type_copyAt (buffer : List UInt8) {pdata : List UInt8} (h : 0 < pdata.length) :
    mqtt_get_type (copyAt buffer 0 pdata) = mqtt_get_type pdata := by
  rw [mqtt_get_type, copyAt_zero, byteAt_append_left _ h, mqtt_get_type]

theorem mqtt_get_total_length_copyAt (buffer pdata : List UInt8) :
    mqtt_get_total_length (copyAt buffer 0 pdata) pdata.length = mqtt_get_total_length pdata pdata.length := by
  rw [mqtt_get_total_length, readLength, copyAt_zero, List.take_left, mqtt_get_total_length, readLength,
    List.take_length]

theorem switchType_client (s : Sys) (msg_type msg_qos msg_id : ℕ) :
    (switchType s msg_type msg_qos msg_id).client.connState = s.client.connState ∧
      (switchType s msg_type msg_qos msg_id).client.mqtt_state.message_length =
        s.client.mqtt_state.message_length ∧
      (switchType s msg_type msg_qos msg_id).client.mqtt_state.message_length_read =
        s.client.mqtt_state.message_length_read := by
  simp only [switchType, deliver_publish]
  split
  · split
    · exact ⟨rfl, rfl, rfl⟩
    · split <;> exact ⟨rfl, rfl, rfl⟩
  · split
    · exact ⟨rfl, rfl, rfl⟩
    · split
      · exact ⟨rfl, rfl, rfl⟩
      · split <;> exact ⟨rfl, rfl, rfl⟩

variable {B : ℕ} {s : Sys} {pdata : List UInt8}

theorem readPacket_receiving (hs : Receiving s) (hpos : 0 < pdata.length) (hlt : pdata.length < B) :
    readPacket B s pdata =
      (switchType (loaded s pdata) (mqtt_get_type pdata)
        (mqtt_get_qos (copyAt s.client.mqtt_state.in_buffer 0 pdata))
        (mqtt_get_id (copyAt s.client.mqtt_state.in_buffer 0 pdata)
          (s.client.mqtt_state.in_buffer_length % 65536)),
        if mqtt_get_type pdata = MQTT_MSG_TYPE_PUBLISH then .publish else .left) := by
  simp only [readPacket, if_pos (And.intro hlt hpos), mqtt_get_type_copyAt _ hpos,
    mqtt_get_total_length_copyAt]
  rcases hs with hstate | hstate <;> simp only [loaded, announced, hstate]

theorem readPacket_publish {s' : Sys} (h : readPacket B s pdata = (s', .publish)) :
    Receiving s ∧ 0 < pdata.length ∧ pdata.length < B := by
  unfold readPacket at h
  by_cases hguard : pdata.length < B ∧ pdata.length > 0
  · refine ⟨?_, hguard.2, hguard.1⟩
    rw [if_pos hguard] at h
    unfold Receiving
    cases hstate : s.client.connState <;> simp only [hstate] at h <;> first
      | exact Or.inl rfl
      | exact Or.inr rfl
      | (split at h <;> simp at h)
      | simp at h
  · rw [if_neg hguard] at h
    simp at h

theorem readPacket_publish_spec {s' : Sys} (h : readPacket B s pdata = (s', .publish)) :
    mqtt_get_type pdata = MQTT_MSG_TYPE_PUBLISH ∧ s'.client.connState = s.client.connState ∧
      s'.client.mqtt_state.message_length = announced pdata ∧
      s'.client.mqtt_state.message_length_read = pdata.length := by
  obtain ⟨hs, hpos, hlt⟩ := readPacket_publish h
  rw [readPacket_receiving hs hpos hlt, Prod.mk.injEq] at h
  obtain ⟨hs', htype⟩ := h
  obtain ⟨hstate, hlength, hread⟩ := switchType_client (loaded s pdata) (mqtt_get_type pdata)
    (mqtt_get_qos (copyAt s.client.mqtt_state.in_buffer 0 pdata))
    (mqtt_get_id (copyAt s.client.mqtt_state.in_buffer 0 pdata) (s.client.mqtt_state.in_buffer_length % 65536))
  rw [hs'] at hstate hlength hread
  simp only [loaded] at hstate hlength hread
  refine ⟨?_, hstate, hlength, hread⟩
  by_contra hne
  rw [if_neg hne] at htype
  cases htype

theorem nextPacket_eq (pdata : List UInt8) {s' : Sys} (hlength : s'.client.mqtt_state.message_length = announced pdata)
    (hread : s'.client.mqtt_state.message_length_read = pdata.length) :
    nextPacket s' pdata = if announced pdata < pdata.length then some (pdata.drop (announced pdata)) else none := by
  simp only [nextPacket, hlength, hread]
  split
  · rw [List.take_of_length_le (by rw [List.length_drop])]
  · rfl

/-! ## The packets of a segment -/

/-- The rests of a segment at which a pass may start. -/
inductive PacketStart (segment : List UInt8) : List UInt8 → Prop where
  | first : PacketStart segment segment
  | behind {rest : List UInt8} : PacketStart segment rest → mqtt_get_type rest = MQTT_MSG_TYPE_PUBLISH →
      announced rest < rest.length → PacketStart segment (rest.drop (announced rest))

theorem PacketStart.trans {segment rest rest' : List UInt8} (h : PacketStart segment rest)
    (h' : PacketStart rest rest') : PacketStart segment rest' := by
  induction h' with
  | first => exact h
  | behind _ htype hlt ih => exact .behind ih htype hlt

theorem PacketStart.length {segment rest : List UInt8} (h : PacketStart segment rest) (hpos : 0 < segment.length) :
    0 < rest.length ∧ rest.length ≤ segment.length := by
  induction h with
  | first => exact ⟨hpos, Nat.le_refl _⟩
  | behind _ _ hlt ih =>
    rw [List.length_drop]
    omega

/-- No PUBLISH at which a pass may start announces a multiple of 65536 bytes. -/
def Advances (segment : List UInt8) : Prop :=
  ∀ rest, PacketStart segment rest → mqtt_get_type rest = MQTT_MSG_TYPE_PUBLISH → announced rest ≠ 0

/-- If the segment is read by the switch at all, it advances. -/
def Consumes (B : ℕ) (s : Sys) (segment : List UInt8) : Prop :=
  Receiving s → 0 < segment.length → segment.length < B → Advances segment

def Terminates (B : ℕ) (app : Application) (s : Sys) (pdata : List UInt8) : Prop :=
  ∃ fuel s', mqtt_tcpclient_recv B app fuel s pdata = some s'

variable {app : Application}

/-- Every pass that goes on consumes a byte. -/
theorem readLoop_ends (fuel : ℕ) (hfuel : pdata.length < fuel) (h : Receiving s → 0 < pdata.length →
    pdata.length < B → Advances pdata) : ∃ s', readLoop B app fuel s pdata = some s' := by
  induction fuel generalizing s pdata with
  | zero => omega
  | succ fuel ih =>
    rw [readLoop]
    split
    · exact ⟨_, rfl⟩
    · exact ⟨_, rfl⟩
    · next s₁ hpass =>
      obtain ⟨hs, hpos, hlt⟩ := readPacket_publish hpass
      obtain ⟨htype, _, hlength, hread⟩ := readPacket_publish_spec hpass
      have hadvances := h hs hpos hlt
      have hne := hadvances pdata .first htype
      simp only
      rw [nextPacket_eq pdata]
      · by_cases hmore : announced pdata < pdata.length
        · rw [if_pos hmore]
          refine ih (by rw [List.length_drop]; omega) fun _ _ _ rest hrest => ?_
          exact hadvances rest ((PacketStart.behind .first htype hmore).trans hrest)
        · rw [if_neg hmore]
          exact ⟨_, rfl⟩
      · split
        · rw [(app.keepsLengths s₁).1, hlength]
        · exact hlength
      · split
        · rw [(app.keepsLengths s₁).2, hread]
        · exact hread

theorem readLoop_publish (happ : ∀ s, (app.dataCb s).client.connState = s.client.connState)
    (hs : Receiving s) (hlt : pdata.length < B) (htype : mqtt_get_type pdata = MQTT_MSG_TYPE_PUBLISH)
    (hmore : announced pdata < pdata.length) : ∃ s', Receiving s' ∧
      ∀ fuel, readLoop B app (fuel + 1) s pdata = readLoop B app fuel s' (pdata.drop (announced pdata)) := by
  have hpass := readPacket_receiving hs (Nat.zero_lt_of_lt hmore) hlt
  rw [if_pos htype] at hpass
  obtain ⟨_, hstate, hlength, hread⟩ := readPacket_publish_spec hpass
  generalize switchType _ _ _ _ = s₁ at hpass hstate hlength hread
  refine ⟨if s₁.client.dataCb then app.dataCb s₁ else s₁, ?_, fun fuel => ?_⟩
  · unfold Receiving
    split
    · rw [happ, hstate]
      exact hs
    · rw [hstate]
      exact hs
  · rw [readLoop, hpass]
    simp only
    rw [nextPacket_eq pdata, if_pos hmore]
    · split
      · rw [(app.keepsLengths s₁).1, hlength]
      · exact hlength
    · split
      · rw [(app.keepsLengths s₁).2, hread]
      · exact hread

/-- On a PUBLISH that announces a multiple of 65536 bytes the loop never ends. -/
theorem readLoop_stuck (happ : ∀ s, (app.dataCb s).client.connState = s.client.connState)
    (hpos : 0 < pdata.length) (hlt : pdata.length < B) (htype : mqtt_get_type pdata = MQTT_MSG_TYPE_PUBLISH)
    (hzero : announced pdata = 0) (fuel : ℕ) (hs : Receiving s) : readLoop B app fuel s pdata = none := by
  induction fuel generalizing s with
  | zero => rfl
  | succ fuel ih =>
    obtain ⟨s', hs', hloop⟩ := readLoop_publish happ hs hlt htype (by omega)
    rw [hloop fuel, hzero, List.drop_zero]
    exact ih hs'

theorem PacketStart.endless {segment rest : List UInt8} (h : PacketStart segment rest)
    (happ : ∀ s, (app.dataCb s).client.connState = s.client.connState) (hpos : 0 < segment.length)
    (hlt : segment.length < B) (hrest : ∀ fuel s, Receiving s → readLoop B app fuel s rest = none) :
    ∀ fuel s, Receiving s → readLoop B app fuel s segment = none := by
  induction h with
  | first => exact hrest
  | behind hstart htype hmore ih =>
    refine ih fun fuel s hs => ?_
    cases fuel with
    | zero => rfl
    | succ fuel =>
      have hle := (hstart.length hpos).2
      obtain ⟨s', hs', hloop⟩ := readLoop_publish (B := B) happ hs (by omega) htype hmore
      rw [hloop fuel]
      exact hrest fuel s' hs'

theorem advances_of_terminates (happ : ∀ s, (app.dataCb s).client.connState = s.client.connState)
    (hs : Receiving s) (hpos : 0 < pdata.length) (hlt : pdata.length < B)
    (h : Terminates B app s pdata) : Advances pdata := by
  intro rest hstart htype hzero
  obtain ⟨hrest, hle⟩ := hstart.length hpos
  obtain ⟨fuel, s', hrun⟩ := h
  have hendless := hstart.endless happ hpos hlt
    (fun fuel s hs => readLoop_stuck happ hrest (Nat.lt_of_le_of_lt hle hlt) htype hzero fuel hs) fuel
    { s with client := { s.client with keepAliveTick := 0 } } hs
  rw [mqtt_tcpclient_recv, hendless] at hrun
  cases hrun

/-- **When the receive handler returns.** If no PUBLISH that the loop comes to announces a
multiple of 65536 bytes, it returns whatever `dataCb` does; and for a `dataCb` that keeps the
connection state it returns in no other case. -/
theorem recv_terminates_iff_consumes (B : ℕ) (s : Sys) (pdata : List UInt8) :
    (Consumes B s pdata → ∀ app : Application, Terminates B app s pdata) ∧
      ∀ app : Application, (∀ s, (app.dataCb s).client.connState = s.client.connState) →
        (Terminates B app s pdata ↔ Consumes B s pdata) := by
  have hends : Consumes B s pdata → ∀ app : Application, Terminates B app s pdata := by
    intro h app
    obtain ⟨s', hs'⟩ : ∃ s', readLoop B app (pdata.length + 1)
        { s with client := { s.client with keepAliveTick := 0 } } pdata = some s' :=
      readLoop_ends _ (Nat.lt_succ_self _) h
    exact ⟨_, s', hs'⟩
  refine ⟨hends, fun app happ => ⟨fun h hs hpos hlt => ?_, fun h => hends h app⟩⟩
  exact advances_of_terminates happ hs hpos hlt h

def receivingClient (MQTT_BUF_SIZE : ℕ) : Sys :=
  setConnState (MQTT_OnData (MQTT_InitClient MQTT_BUF_SIZE (MQTT_InitConnection (.ofBytes [0x68]) false)
    (.ofBytes [0x63]) none none 120 1) true) .MQTT_DATA

/-- Four bytes that announce a PUBLISH of 65536 bytes. -/
theorem recv_endless_on_65536 :
    ¬ Terminates 1024 .silent (receivingClient 1024) [0x30, 0xFC, 0xFF, 0x03] := by
  intro h
  have hadvances := advances_of_terminates (fun _ => rfl) (Or.inl rfl) (by decide) (by decide) h
  exact hadvances _ .first (by decide) (by decide)

end LightSleepMqtt.Client
