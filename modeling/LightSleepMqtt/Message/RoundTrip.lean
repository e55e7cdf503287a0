import LightSleepMqtt.Message.WellFormed
import LightSleepMqtt.Message.WireFormat

/-! The packets that the calls of the builders stand for. A call either fails, because a
mandatory string is missing or its packet is too long, or the wire-format decoder reads its
arguments back from the bytes it emitted. -/
namespace LightSleepMqtt.Message
open MqttWire
set_option autoImplicit false

/-! ## Emissions as packets -/

theorem lengthBytes_eq {n : ℕ} (h : n ≤ 16383) : lengthBytes n = remainingLength n := by
  unfold lengthBytes remainingLength
  by_cases hlong : n > 127
  · have hor : 0x80 ||| n % 128 = n % 128 + 128 := by
      have hlt : n % 128 < 2 ^ 7 := Nat.mod_lt _ (by decide)
      show 2 ^ 7 * 1 ||| n % 128 = _
      rw [← Nat.two_pow_add_eq_or_of_lt hlt 1]
      omega
    rw [if_pos hlong, hor, groups, if_neg (by omega), groups, if_pos (by omega)]
  · rw [if_neg hlong, groups, if_pos (by omega)]

theorem emission_encode {B : ℕ} {p : Packet} {header : UInt8}
    (hheader : header = UInt8.ofNat (p.kind * 16 + p.flags)) (hbody : p.body.length ≤ 16383)
    (hroom : 3 + p.body.length ≤ B) : emission B header (some p.body) = p.encode := by
  rw [emission, if_pos hroom, lengthBytes_eq hbody, hheader, Packet.encode]

/-- What a builder does with the packet `p`, or with no packet to build. -/
structure Sends (B : ℕ) (packet : Option Packet) (connection : mqtt_connection_t) : Prop where
  failed : connection.message.length = 0 ↔ packet = none ∨ ∃ p, packet = some p ∧ B < 3 + p.body.length
  decoded : connection.message.length ≠ 0 → ∃ p, packet = some p ∧
    connection.bytes.length = connection.message.length ∧
      ∀ rest, decode (connection.bytes ++ rest) = some (p, rest)

theorem Emitted.sends {B : ℕ} {connection : mqtt_connection_t} {header : UInt8} {p : Packet}
    (h : Emitted B header (some p.body) connection) (hmax : B ≤ 16386)
    (hheader : header = UInt8.ofNat (p.kind * 16 + p.flags)) (hfields : 3 + p.body.length ≤ B → p.Fields) :
    Sends B (some p) connection := by
  have hlength := h.length
  obtain hlt | hge := Nat.lt_or_ge B (3 + p.body.length)
  · have hnil := (emission_eq_nil_iff B header (some p.body)).mpr (by rintro bs ⟨rfl⟩; exact hlt)
    rw [hnil, List.length_nil] at hlength
    exact ⟨iff_of_true hlength (Or.inr ⟨p, rfl, hlt⟩), fun hne => absurd hlength hne⟩
  · have hencode := emission_encode hheader (by omega) hge
    have hbytes := h.bytes
    rw [hencode] at hlength hbytes
    have hpos : connection.message.length ≠ 0 := by
      rw [hlength, Packet.encode, List.length_cons]
      exact Nat.succ_ne_zero _
    refine ⟨iff_of_false hpos ?_, fun _ => ⟨p, rfl, by rw [hbytes, hlength], fun rest => ?_⟩⟩
    · rintro (hnone | ⟨q, ⟨rfl⟩, hlt⟩)
      · cases hnone
      · omega
    · have hsize : p.body.length < 128 ^ 4 := by omega
      rw [hbytes]
      exact decode_encode p ⟨hfields hge, hsize⟩ rest

theorem Emitted.sends_nothing {B : ℕ} {connection : mqtt_connection_t} {header : UInt8}
    (h : Emitted B header none connection) : Sends B none connection := by
  have hlength : connection.message.length = 0 := h.length
  exact ⟨iff_of_true hlength (Or.inl rfl), fun hne => absurd hlength hne⟩

theorem Sends.of_failed {B : ℕ} {connection : mqtt_connection_t} {p q : Option Packet}
    (h : Sends B p connection) (hzero : connection.message.length = 0)
    (hlen : p.map (fun p => p.body.length) = q.map (fun q => q.body.length)) : Sends B q connection := by
  refine ⟨iff_of_true hzero ?_, fun hne => absurd hzero hne⟩
  have hfailed := h.failed.mp hzero
  cases q with
  | none => exact Or.inl rfl
  | some q =>
    obtain ⟨p, rfl, hp⟩ := Option.map_eq_some_iff.mp hlen
    obtain hnone | ⟨p', ⟨rfl⟩, hlt⟩ := hfailed
    · cases hnone
    · exact Or.inr ⟨q, rfl, Nat.lt_of_lt_of_eq hlt (congrArg (3 + ·) hp)⟩

/-! ## The calls and their packets -/

inductive BuilderCall where
  | connect (info : mqtt_connect_info_t)
  | publish (topic : Option CString) (data : List UInt8) (qos retain : ℤ)
  | subscribe (topic : Option CString) (qos : ℤ)
  | unsubscribe (topic : Option CString)
  | puback (message_id : ℕ)
  | pubrec (message_id : ℕ)
  | pubrel (message_id : ℕ)
  | pubcomp (message_id : ℕ)
  | pingreq
  | pingresp
  | disconnect

/-- The connection after the call and the caller's `*message_id`, which holds `stored` before. -/
def BuilderCall.exec (connection : mqtt_connection_t) (stored : ℕ) : BuilderCall → mqtt_connection_t × ℕ
  | .connect info => (mqtt_msg_connect connection info, stored)
  | .publish topic data qos retain => mqtt_msg_publish connection topic data qos retain stored
  | .subscribe topic qos => mqtt_msg_subscribe connection topic qos stored
  | .unsubscribe topic => mqtt_msg_unsubscribe connection topic stored
  | .puback message_id => (mqtt_msg_puback connection message_id, stored)
  | .pubrec message_id => (mqtt_msg_pubrec connection message_id, stored)
  | .pubrel message_id => (mqtt_msg_pubrel connection message_id, stored)
  | .pubcomp message_id => (mqtt_msg_pubcomp connection message_id, stored)
  | .pingreq => (mqtt_msg_pingreq connection, stored)
  | .pingresp => (mqtt_msg_pingresp connection, stored)
  | .disconnect => (mqtt_msg_disconnect connection, stored)

/-- The arguments MQTT allows; an identifier handed in is a nonzero 16-bit value. -/
def BuilderCall.InRange : BuilderCall → Prop
  | .connect info => 0 ≤ info.will_qos ∧ info.will_qos ≤ 2
  | .publish _ _ qos retain => (qos = 0 ∨ qos = 1 ∨ qos = 2) ∧ (retain = 0 ∨ retain = 1)
  | .puback message_id | .pubrec message_id | .pubrel message_id | .pubcomp message_id =>
    message_id ≠ 0 ∧ message_id < 65536
  | _ => True

def connectOf (info : mqtt_connect_info_t) (client_id : CString) : Connect where
  clientId := client_id.bytes
  cleanSession := decide (info.clean_session ≠ 0)
  keepAlive := (info.keepalive % 65536).toNat
  will := (nonEmpty info.will_topic).map fun topic =>
    ⟨topic.bytes, info.will_message.bytes, info.will_qos.toNat, decide (info.will_retain ≠ 0)⟩
  userName := (nonEmpty info.username).map fun s => s.bytes
  password := (nonEmpty info.password).map fun s => s.bytes

/-- The packet of a call that draws the identifier `id`, unless a mandatory string is NULL or
empty. The requested quality of service of SUBSCRIBE is stored in one byte. -/
def BuilderCall.packet (id : ℕ) : BuilderCall → Option Packet
  | .connect info => (nonEmpty info.client_id).map fun client_id => .connect (connectOf info client_id)
  | .publish topic data qos retain =>
    (nonEmpty topic).map fun t => .publish false qos.toNat (decide (retain ≠ 0)) t.bytes id data
  | .subscribe topic qos =>
    (nonEmpty topic).map fun t => .subscribe id [(t.bytes, UInt8.ofNat (qos % 256).toNat)]
  | .unsubscribe topic => (nonEmpty topic).map fun t => .unsubscribe id [t.bytes]
  | .puback message_id => some (.puback message_id)
  | .pubrec message_id => some (.pubrec message_id)
  | .pubrel message_id => some (.pubrel false message_id)
  | .pubcomp message_id => some (.pubcomp message_id)
  | .pingreq => some .pingreq
  | .pingresp => some .pingresp
  | .disconnect => some .disconnect

theorem BuilderCall.packet_body_length (call : BuilderCall) (n m : ℕ) :
    (call.packet n).map (fun p => p.body.length) = (call.packet m).map (fun p => p.body.length) := by
  cases call with
  | publish topic data qos retain =>
    simp only [BuilderCall.packet, Option.map_map, Function.comp_def, publish_body_length]
  | subscribe topic qos | unsubscribe topic =>
    simp only [BuilderCall.packet, Option.map_map, Function.comp_def, Packet.body, List.length_append, word_length]
  | _ => rfl

theorem Sends.drawn {B : ℕ} {connection : mqtt_connection_t} {call : BuilderCall} {n id : ℕ}
    (h : Sends B (call.packet id) connection) (hid : connection.message.length ≠ 0 → n = id) :
    Sends B (call.packet n) connection := by
  by_cases hzero : connection.message.length = 0
  · exact h.of_failed hzero (call.packet_body_length id n)
  · rw [hid hzero]
    exact h

theorem nonEmpty_some {field : Option CString} {s : CString} (h : nonEmpty field = some s) : s.bytes ≠ [] := by
  unfold nonEmpty at h
  split at h
  · split at h
    · cases h
    · next hne =>
      cases h
      exact hne
  · cases h

theorem nonEmpty_eq_some {field : Option CString} {s : CString} (h : nonEmpty field = some s) : field = some s := by
  unfold nonEmpty at h
  split at h
  · split at h
    · cases h
    · exact h
  · cases h

/-! ## Headers and bodies -/

theorem will_flag_bits : ∀ (clean retain user pass : Bool) (qos : Fin 3),
    (if clean then MQTT_CONNECT_FLAG_CLEAN_SESSION else 0) ||| (MQTT_CONNECT_FLAG_WILL |||
        (if retain then MQTT_CONNECT_FLAG_WILL_RETAIN else 0) ||| UInt8.ofNat (qos.val <<< 3)) |||
        (if user then MQTT_CONNECT_FLAG_USERNAME else 0) ||| (if pass then MQTT_CONNECT_FLAG_PASSWORD else 0) =
      UInt8.ofNat (user.toNat * 128 + pass.toNat * 64 + (retain.toNat * 32 + qos.val * 8 + 4) +
        clean.toNat * 2) := by decide

theorem plain_flag_bits : ∀ clean user pass : Bool,
    (if clean then MQTT_CONNECT_FLAG_CLEAN_SESSION else 0) ||| 0 |||
        (if user then MQTT_CONNECT_FLAG_USERNAME else 0) ||| (if pass then MQTT_CONNECT_FLAG_PASSWORD else 0) =
      UInt8.ofNat (user.toNat * 128 + pass.toNat * 64 + 0 + clean.toNat * 2) := by decide

theorem connectFlags_eq (info : mqtt_connect_info_t) (client_id : CString)
    (hqos : 0 ≤ info.will_qos ∧ info.will_qos ≤ 2) :
    connectFlags info = UInt8.ofNat (connectOf info client_id).flags := by
  have hmod : info.will_qos % 4 = info.will_qos := by omega
  unfold connectFlags willFlags credentialFlag Connect.flags connectOf
  simp only [Option.isSome_map, hmod]
  cases nonEmpty info.will_topic with
  | none =>
    have h := plain_flag_bits (decide (info.clean_session ≠ 0)) (nonEmpty info.username).isSome
      (nonEmpty info.password).isSome
    simp only [decide_eq_true_eq] at h
    exact h
  | some topic =>
    have h := will_flag_bits (decide (info.clean_session ≠ 0)) (decide (info.will_retain ≠ 0))
      (nonEmpty info.username).isSome (nonEmpty info.password).isSome ⟨info.will_qos.toNat, by omega⟩
    simp only [decide_eq_true_eq] at h
    exact h

theorem connectBytes_eq (info : mqtt_connect_info_t) (hqos : 0 ≤ info.will_qos ∧ info.will_qos ≤ 2) :
    connectBytes info = ((BuilderCall.connect info).packet 0).map Packet.body := by
  simp only [connectBytes, BuilderCall.packet, Option.map_map]
  cases nonEmpty info.client_id with
  | none => rfl
  | some client_id =>
    have hflags := connectFlags_eq info client_id hqos
    simp only [Option.map_some, Function.comp, Packet.body, Connect.body, connectPrefix, hflags, optionalBytes,
      List.append_assoc]
    unfold willBytes connectOf
    cases nonEmpty info.will_topic <;> rfl

theorem publish_header {qos retain : ℤ} (hqos : qos = 0 ∨ qos = 1 ∨ qos = 2) (hretain : retain = 0 ∨ retain = 1)
    (topic data : List UInt8) (id : ℕ) :
    fixedHeader MQTT_MSG_TYPE_PUBLISH 0 qos retain =
      UInt8.ofNat ((Packet.publish false qos.toNat (decide (retain ≠ 0)) topic id data).kind * 16 +
        (Packet.publish false qos.toNat (decide (retain ≠ 0)) topic id data).flags) := by
  simp only [Packet.kind, Packet.flags]
  rcases hqos with rfl | rfl | rfl <;> rcases hretain with rfl | rfl <;> rfl

/-! ## The builders -/

section
variable {B : ℕ} {connection : mqtt_connection_t} (h : Sized B connection) (hB : 3 ≤ B) (hmax : B ≤ 16386)
include h hB hmax

theorem mqtt_msg_connect_sends (info : mqtt_connect_info_t) (hqos : 0 ≤ info.will_qos ∧ info.will_qos ≤ 2) :
    Sends B ((BuilderCall.connect info).packet 0) (mqtt_msg_connect connection info) := by
  have hemitted := mqtt_msg_connect_emitted h hB info
  rw [connectBytes_eq info hqos] at hemitted
  simp only [BuilderCall.packet] at hemitted ⊢
  cases hid : nonEmpty info.client_id with
  | none =>
    rw [hid] at hemitted
    exact hemitted.sends_nothing
  | some client_id =>
    rw [hid] at hemitted
    refine hemitted.sends hmax rfl fun hroom => Connect.wellFormed_of_body _ ?_ ?_ ?_
    · simp only [Packet.body] at hroom
      omega
    · simp only [connectOf]
      omega
    · intro w hw
      obtain ⟨topic, _, rfl⟩ := Option.map_eq_some_iff.mp hw
      simp only
      omega

theorem mqtt_msg_publish_sends (topic : Option CString) (data : List UInt8) {qos retain : ℤ}
    (hqos : qos = 0 ∨ qos = 1 ∨ qos = 2) (hretain : retain = 0 ∨ retain = 1) (stored : ℕ) :
    Sends B ((BuilderCall.publish topic data qos retain).packet
        (mqtt_msg_publish connection topic data qos retain stored).2)
      (mqtt_msg_publish connection topic data qos retain stored).1 := by
  obtain ⟨hemitted, hid⟩ := mqtt_msg_publish_emitted h hB topic data qos retain stored
  have hnext := nextMessageId_ne_zero connection.message_id
  have hlt := nextMessageId_lt connection.message_id
  have hpositive : 0 < qos.toNat ↔ qos > 0 := by omega
  refine Sends.drawn ?_ hid
  simp only [BuilderCall.packet]
  cases ht : nonEmpty topic with
  | none =>
    rw [publishBody, ht] at hemitted
    exact hemitted.sends_nothing
  | some t =>
    have hbody : publishBody topic data qos (nextMessageId connection.message_id) =
        some (Packet.publish false qos.toNat (decide (retain ≠ 0)) t.bytes
          (if qos > 0 then nextMessageId connection.message_id else 0) data).body := by
      rw [publishBody, ht, Option.map_some, Packet.body]
      simp only [hpositive]
      by_cases hq : qos > 0 <;> simp only [hq, if_true, if_false]
    rw [hbody] at hemitted
    apply hemitted.sends hmax (publish_header hqos hretain ..)
    intro hroom
    rw [publish_body_length] at hroom
    refine ⟨nonEmpty_some ht, by omega, by omega, ?_, ?_⟩
    · split <;> omega
    · rw [hpositive]
      split <;> simp_all

theorem mqtt_msg_subscribe_sends (topic : Option CString) (qos : ℤ) (stored : ℕ) :
    Sends B ((BuilderCall.subscribe topic qos).packet (mqtt_msg_subscribe connection topic qos stored).2)
      (mqtt_msg_subscribe connection topic qos stored).1 := by
  obtain ⟨hemitted, hid⟩ := mqtt_msg_subscribe_emitted h hB topic qos stored
  have hnext := nextMessageId_ne_zero connection.message_id
  have hlt := nextMessageId_lt connection.message_id
  refine Sends.drawn ?_ hid
  simp only [BuilderCall.packet]
  cases ht : nonEmpty topic with
  | none =>
    rw [subscribeBody, ht] at hemitted
    exact hemitted.sends_nothing
  | some t =>
    have hbody : subscribeBody topic qos (nextMessageId connection.message_id) =
        some (Packet.subscribe (nextMessageId connection.message_id)
          [(t.bytes, UInt8.ofNat (qos % 256).toNat)]).body := by
      simp [subscribeBody, ht, Packet.body]
    rw [hbody] at hemitted
    apply hemitted.sends hmax rfl
    intro hroom
    refine ⟨⟨hnext, hlt⟩, ?_⟩
    intro f hf
    rw [List.mem_singleton.mp hf]
    simp only [Packet.body, List.flatMap_singleton, List.length_append, word_length, string_length] at hroom ⊢
    omega

theorem mqtt_msg_unsubscribe_sends (topic : Option CString) (stored : ℕ) :
    Sends B ((BuilderCall.unsubscribe topic).packet (mqtt_msg_unsubscribe connection topic stored).2)
      (mqtt_msg_unsubscribe connection topic stored).1 := by
  obtain ⟨hemitted, hid⟩ := mqtt_msg_unsubscribe_emitted h hB topic stored
  have hnext := nextMessageId_ne_zero connection.message_id
  have hlt := nextMessageId_lt connection.message_id
  refine Sends.drawn ?_ hid
  simp only [BuilderCall.packet]
  cases ht : nonEmpty topic with
  | none =>
    rw [unsubscribeBody, ht] at hemitted
    exact hemitted.sends_nothing
  | some t =>
    have hbody : unsubscribeBody topic (nextMessageId connection.message_id) =
        some (Packet.unsubscribe (nextMessageId connection.message_id) [t.bytes]).body := by
      simp [unsubscribeBody, ht, Packet.body]
    rw [hbody] at hemitted
    apply hemitted.sends hmax rfl
    intro hroom
    refine ⟨⟨hnext, hlt⟩, ?_⟩
    intro f hf
    rw [List.mem_singleton.mp hf]
    simp only [Packet.body, List.flatMap_singleton, List.length_append, word_length, string_length] at hroom
    omega

theorem idMessage_sends {p : Packet} {message_id type : ℕ} {qos : ℤ} (hbody : p.body = word message_id)
    (hheader : fixedHeader type 0 qos 0 = UInt8.ofNat (p.kind * 16 + p.flags)) (hfields : p.Fields)
    (hid : message_id ≠ 0) : Sends B (some p) (idMessage connection message_id type qos) := by
  have hemitted := idMessage_emitted h hB message_id type qos
  rw [drawnId, if_neg hid, ← hbody] at hemitted
  exact hemitted.sends hmax hheader fun _ => hfields

theorem emptyMessage_sends {p : Packet} {type : ℕ} (hbody : p.body = [])
    (hheader : fixedHeader type 0 0 0 = UInt8.ofNat (p.kind * 16 + p.flags)) (hfields : p.Fields) :
    Sends B (some p) (emptyMessage connection type) := by
  have hemitted := emptyMessage_emitted h hB type
  rw [← hbody] at hemitted
  exact hemitted.sends hmax hheader fun _ => hfields

end

/-- A call lacks its mandatory string: it is NULL or empty. -/
def BuilderCall.LacksString : BuilderCall → Prop
  | .connect info => ∀ s, info.client_id = some s → s.bytes = []
  | .publish topic .. | .subscribe topic _ | .unsubscribe topic => ∀ s, topic = some s → s.bytes = []
  | _ => False

theorem nonEmpty_eq_none_iff (field : Option CString) :
    nonEmpty field = none ↔ ∀ s, field = some s → s.bytes = [] := by
  cases field with
  | none => simp [nonEmpty]
  | some s => simp [nonEmpty]

theorem BuilderCall.packet_eq_none_iff (call : BuilderCall) (id : ℕ) :
    call.packet id = none ↔ call.LacksString := by
  cases call <;> simp only [BuilderCall.packet, BuilderCall.LacksString, Option.map_eq_none_iff,
    nonEmpty_eq_none_iff, reduceCtorEq]

theorem BuilderCall.exec_sends {B : ℕ} (hB : 3 ≤ B) (hmax : B ≤ 16386) {connection : mqtt_connection_t}
    (h : Sized B connection) (stored : ℕ) (call : BuilderCall) (hcall : call.InRange) :
    Sends B (call.packet (call.exec connection stored).2) (call.exec connection stored).1 := by
  cases call with
  | connect info => exact mqtt_msg_connect_sends h hB hmax info hcall
  | publish topic data qos retain =>
    exact mqtt_msg_publish_sends h hB hmax topic data hcall.1 hcall.2 stored
  | subscribe topic qos => exact mqtt_msg_subscribe_sends h hB hmax topic qos stored
  | unsubscribe topic => exact mqtt_msg_unsubscribe_sends h hB hmax topic stored
  | puback id | pubrec id | pubrel id | pubcomp id =>
    exact idMessage_sends h hB hmax rfl rfl hcall hcall.1
  | pingreq | pingresp | disconnect => exact emptyMessage_sends h hB hmax rfl rfl trivial

/-- **Every builder emits the wire format of its arguments**: it fails exactly when a mandatory
string is missing or the packet is too long for the block, and otherwise the decoder consumes
exactly `message.length` bytes and gives the arguments back. -/
theorem builders_emit_wire_format {B : ℕ} (hB : 3 ≤ B) (hmax : B ≤ 16386) {connection : mqtt_connection_t}
    (h : Sized B connection) (stored : ℕ) (call : BuilderCall) (hcall : call.InRange) :
    ((call.exec connection stored).1.message.length = 0 ↔
      call.LacksString ∨
        ∃ p, call.packet (call.exec connection stored).2 = some p ∧ B < 3 + p.body.length) ∧
    ((call.exec connection stored).1.message.length ≠ 0 →
      ∃ p, call.packet (call.exec connection stored).2 = some p ∧
        (call.exec connection stored).1.bytes.length = (call.exec connection stored).1.message.length ∧
        ∀ rest, decode ((call.exec connection stored).1.bytes ++ rest) = some (p, rest)) := by
  obtain ⟨hfailed, hdecoded⟩ := BuilderCall.exec_sends hB hmax h stored call hcall
  rw [BuilderCall.packet_eq_none_iff] at hfailed
  exact ⟨hfailed, hdecoded⟩

/-- A PUBLISH with an identifier in a block of 16 bytes. -/
theorem builders_emit_wire_format_publish :
    let call := BuilderCall.publish (some (.ofBytes [0x61, 0x2F])) [0x31, 0x7E] 1 0
    let ret := call.exec (mqtt_msg_init (List.replicate 16 0) 16) 0
    (ret.1.message.length = 0 ↔
      call.LacksString ∨ ∃ p, call.packet ret.2 = some p ∧ 16 < 3 + p.body.length) ∧
    (ret.1.message.length ≠ 0 → ∃ p, call.packet ret.2 = some p ∧
      ret.1.bytes.length = ret.1.message.length ∧ ∀ rest, decode (ret.1.bytes ++ rest) = some (p, rest)) :=
  builders_emit_wire_format (by decide) (by decide) ⟨by decide, by decide⟩ 0 _ ⟨by decide, by decide⟩

end LightSleepMqtt.Message
