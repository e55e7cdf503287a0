import LightSleepMqtt.Message.RemainingLength
import LightSleepMqtt.Queue.Queue

/-! Where the builders write. `Checked` builds the messages once more: a write behind the block and
a length that leaves its `uint16_t` fail, and the sums that are compared with the length of the
buffer are those of an `int`. -/
namespace LightSleepMqtt.Message
open MqttWire
open Queue (QUEUE QUEUE_Gets QUEUE_Gets_cons)
set_option autoImplicit false

namespace Checked

/-- A step of a builder: it may also leave the block of `B` bytes. -/
abbrev Step := ExceptT mqtt_connection_t Option mqtt_connection_t

variable (B : ℕ)

/-- The bytes go to `message.length`, which advances behind them. -/
def put (connection : mqtt_connection_t) (bytes : List UInt8) : Option mqtt_connection_t :=
  if connection.message.length + bytes.length ≤ B ∧ connection.message.length + bytes.length < 65536 then
    some (connection.put bytes)
  else none

def orFlags (connection : mqtt_connection_t) (flags : UInt8) : Option mqtt_connection_t :=
  if 12 < B then some (Message.orFlags connection flags) else none

def orFlagsIf (p : Prop) [Decidable p] (connection : mqtt_connection_t) (flags : UInt8) : Option mqtt_connection_t :=
  if p then orFlags B connection flags else some connection

def append_string (connection : mqtt_connection_t) (string : List UInt8) : Step :=
  if toInt32 (connection.message.length + string.length + 2) > connection.buffer_length then throw connection
  else do
    let connection ← put B connection [UInt8.ofNat (string.length >>> 8)]
    let connection ← put B connection [UInt8.ofNat (string.length &&& 0xff)]
    put B connection string

def append_message_id (connection : mqtt_connection_t) (message_id : ℕ) : Option (mqtt_connection_t × ℕ) := do
  let drawn := if message_id = 0 then nextMessageId connection.message_id else message_id
  let connection :=
    if message_id = 0 then { connection with message_id := drawn } else connection
  if connection.message.length + 2 > connection.buffer_length then return (connection, 0)
  let connection ← put B connection [UInt8.ofNat (drawn >>> 8)]
  let connection ← put B connection [UInt8.ofNat (drawn &&& 0xff)]
  return (connection, drawn)

/-- Up to three bytes in front of the body. -/
def fini_message (connection : mqtt_connection_t) (type dup : ℕ) (qos retain : ℤ) : Option mqtt_connection_t :=
  if 2 < B ∧ (Message.fini_message connection type dup qos retain).message.length < 65536 then
    some (Message.fini_message connection type dup qos retain)
  else none

def connectHeader (connection : mqtt_connection_t) (info : mqtt_connect_info_t) : Step :=
  if connection.message.length + CONNECT_HEADER_SIZE > connection.buffer_length then throw connection
  else
    put B connection [0, 6, 0x4D, 0x51, 0x49, 0x73, 0x64, 0x70, 3, 0,
      UInt8.ofNat (info.keepalive / 256 % 256).toNat, UInt8.ofNat (info.keepalive % 256).toNat]

def connectWill (connection : mqtt_connection_t) (info : mqtt_connect_info_t) : Step :=
  match nonEmpty info.will_topic with
  | none => return connection
  | some topic => do
    let connection ← append_string B connection topic.bytes
    let connection ← append_string B connection info.will_message.bytes
    let connection ← orFlags B connection MQTT_CONNECT_FLAG_WILL
    let connection ← orFlagsIf B (info.will_retain ≠ 0) connection MQTT_CONNECT_FLAG_WILL_RETAIN
    orFlags B connection (UInt8.ofNat ((info.will_qos % 4).toNat <<< 3))

def connectCredential (connection : mqtt_connection_t) (string : Option CString) (flag : UInt8) : Step :=
  match nonEmpty string with
  | none => return connection
  | some s => do
    let connection ← append_string B connection s.bytes
    orFlags B connection flag

def connectBody (connection : mqtt_connection_t) (info : mqtt_connect_info_t) : Step := do
  let connection ← connectHeader B connection info
  let connection ← orFlagsIf B (info.clean_session ≠ 0) connection MQTT_CONNECT_FLAG_CLEAN_SESSION
  match nonEmpty info.client_id with
  | none => throw connection
  | some client_id => do
    let connection ← append_string B connection client_id.bytes
    let connection ← connectWill B connection info
    let connection ← connectCredential B connection info.username MQTT_CONNECT_FLAG_USERNAME
    connectCredential B connection info.password MQTT_CONNECT_FLAG_PASSWORD

def mqtt_msg_connect (connection : mqtt_connection_t) (info : mqtt_connect_info_t) : Option mqtt_connection_t := do
  match ← (connectBody B (init_message connection) info).run with
  | .error connection => return fail_message connection
  | .ok connection => fini_message B connection MQTT_MSG_TYPE_CONNECT 0 0 0

def mqtt_msg_publish (connection : mqtt_connection_t) (topic : Option CString) (data : List UInt8)
    (qos retain : ℤ) (message_id : ℕ) : Option (mqtt_connection_t × ℕ) := do
  let connection := init_message connection
  match nonEmpty topic with
  | none => return (fail_message connection, message_id)
  | some topic =>
    match ← (append_string B connection topic.bytes).run with
    | .error connection => return (fail_message connection, message_id)
    | .ok connection =>
      let appended ← (if qos > 0 then append_message_id B connection 0 else some (connection, 0) : Option _)
      let connection := appended.1
      if qos > 0 ∧ appended.2 = 0 then return (fail_message connection, appended.2)
      else if toInt32 (connection.message.length + data.length) > connection.buffer_length then
        return (fail_message connection, appended.2)
      else
        let connection ← put B connection data
        return (← fini_message B connection MQTT_MSG_TYPE_PUBLISH 0 qos retain, appended.2)

def idMessage (connection : mqtt_connection_t) (message_id type : ℕ) (qos : ℤ) : Option mqtt_connection_t := do
  let appended ← append_message_id B (init_message connection) message_id
  if appended.2 = 0 then return fail_message appended.1 else fini_message B appended.1 type 0 qos 0

def topicRequest (connection : mqtt_connection_t) (topic : Option CString) (message_id : ℕ) :
    Option (Except mqtt_connection_t mqtt_connection_t × ℕ) := do
  let connection := init_message connection
  match nonEmpty topic with
  | none => return (.error connection, message_id)
  | some topic =>
    let appended ← append_message_id B connection 0
    if appended.2 = 0 then return (.error appended.1, appended.2)
    else return (← (append_string B appended.1 topic.bytes).run, appended.2)

def mqtt_msg_subscribe (connection : mqtt_connection_t) (topic : Option CString) (qos : ℤ)
    (message_id : ℕ) : Option (mqtt_connection_t × ℕ) := do
  match ← topicRequest B connection topic message_id with
  | (.error connection, message_id) => return (fail_message connection, message_id)
  | (.ok connection, message_id) =>
    if connection.message.length + 1 > connection.buffer_length then
      return (fail_message connection, message_id)
    else
      let connection ← put B connection [UInt8.ofNat (qos % 256).toNat]
      return (← fini_message B connection MQTT_MSG_TYPE_SUBSCRIBE 0 1 0, message_id)

def mqtt_msg_unsubscribe (connection : mqtt_connection_t) (topic : Option CString) (message_id : ℕ) :
    Option (mqtt_connection_t × ℕ) := do
  match ← topicRequest B connection topic message_id with
  | (.error connection, message_id) => return (fail_message connection, message_id)
  | (.ok connection, message_id) =>
    return (← fini_message B connection MQTT_MSG_TYPE_UNSUBSCRIBE 0 1 0, message_id)

def emptyMessage (connection : mqtt_connection_t) (type : ℕ) : Option mqtt_connection_t :=
  fini_message B (init_message connection) type 0 0 0

def exec (connection : mqtt_connection_t) (stored : ℕ) : BuilderCall → Option (mqtt_connection_t × ℕ)
  | .connect info => (mqtt_msg_connect B connection info).map fun c => (c, stored)
  | .publish topic data qos retain => mqtt_msg_publish B connection topic data qos retain stored
  | .subscribe topic qos => mqtt_msg_subscribe B connection topic qos stored
  | .unsubscribe topic => mqtt_msg_unsubscribe B connection topic stored
  | .puback message_id => (idMessage B connection message_id MQTT_MSG_TYPE_PUBACK 0).map fun c => (c, stored)
  | .pubrec message_id => (idMessage B connection message_id MQTT_MSG_TYPE_PUBREC 0).map fun c => (c, stored)
  | .pubrel message_id => (idMessage B connection message_id MQTT_MSG_TYPE_PUBREL 1).map fun c => (c, stored)
  | .pubcomp message_id => (idMessage B connection message_id MQTT_MSG_TYPE_PUBCOMP 0).map fun c => (c, stored)
  | .pingreq => (emptyMessage B connection MQTT_MSG_TYPE_PINGREQ).map fun c => (c, stored)
  | .pingresp => (emptyMessage B connection MQTT_MSG_TYPE_PINGRESP).map fun c => (c, stored)
  | .disconnect => (emptyMessage B connection MQTT_MSG_TYPE_DISCONNECT).map fun c => (c, stored)

end Checked

/-! ## One step -/

/-- The message under construction ends inside the block. -/
structure Within (B : ℕ) (connection : mqtt_connection_t) : Prop where
  sized : Sized B connection
  reserved : 3 ≤ connection.message.length
  room : connection.message.length ≤ B

/-- The step writes nowhere else, and leaves the message inside the block. -/
structure Agrees (B : ℕ) (checked : Checked.Step) (step : Except mqtt_connection_t mqtt_connection_t) : Prop where
  same : checked.run = some step
  within : ∀ connection, step = .ok connection → Within B connection

variable {B : ℕ} {connection : mqtt_connection_t}

theorem Agrees.pure (h : Within B connection) : Agrees B (pure connection) (.ok connection) :=
  ⟨rfl, fun _ hc => Except.ok.inj hc ▸ h⟩

theorem Agrees.bind {checked : Checked.Step} {step : Except mqtt_connection_t mqtt_connection_t}
    {checkedNext : mqtt_connection_t → Checked.Step} {next : mqtt_connection_t → Except mqtt_connection_t mqtt_connection_t}
    (h : Agrees B checked step) (hnext : ∀ c, step = .ok c → Within B c → Agrees B (checkedNext c) (next c)) :
    Agrees B (checked >>= checkedNext) (step >>= next) := by
  cases step with
  | error c =>
    refine ⟨?_, fun _ hc => by cases hc⟩
    rw [ExceptT.run_bind, h.same]
    rfl
  | ok c =>
    have hc := hnext c rfl (h.within c rfl)
    refine ⟨?_, hc.within⟩
    rw [ExceptT.run_bind, h.same]
    exact hc.same

/-- A write that cannot fail, in front of further steps. -/
theorem Agrees.lift {write : Option mqtt_connection_t} {written : mqtt_connection_t} (h : write = some written)
    {checkedNext : mqtt_connection_t → Checked.Step} {step : Except mqtt_connection_t mqtt_connection_t}
    (hnext : Agrees B (checkedNext written) step) : Agrees B (liftM write >>= checkedNext) step := by
  subst h
  exact ⟨hnext.same, hnext.within⟩

section
variable (hB : B ≤ 65535)

theorem Within.put (h : Within B connection) {bytes : List UInt8} (hroom : connection.message.length + bytes.length ≤ B) :
    Within B (connection.put bytes) := by
  refine ⟨⟨h.sized.limit, ?_⟩, Nat.le_trans h.reserved (Nat.le_add_right _ _), hroom⟩
  rw [mqtt_connection_t.put, copyAt_length (by rw [h.sized.block]; exact hroom)]
  exact h.sized.block

theorem Within.orFlags (h : Within B connection) (flags : UInt8) : Within B (orFlags connection flags) :=
  ⟨⟨h.sized.limit, (List.length_set ..).trans h.sized.block⟩, h.reserved, h.room⟩

/-- Bytes written one after the other. -/
theorem put_put {first second : List UInt8}
    (hroom : connection.message.length + first.length ≤ connection.buffer.length) :
    (connection.put first).put second = connection.put (first ++ second) := by
  have hfront : (connection.buffer.take connection.message.length ++ first).length =
      connection.message.length + first.length := by
    rw [List.length_append, List.length_take]
    omega
  have hbuffer : copyAt (copyAt connection.buffer connection.message.length first)
      (connection.message.length + first.length) second =
        copyAt connection.buffer connection.message.length (first ++ second) := by
    rw [copyAt, copyAt, ← hfront, List.take_left, List.drop_append, List.drop_of_length_le (Nat.le_add_right _ _),
      Nat.add_sub_cancel_left, List.drop_drop, hfront, List.nil_append, copyAt, List.length_append]
    simp only [List.append_assoc, Nat.add_assoc]
  simp only [mqtt_connection_t.put, hbuffer, List.length_append, Nat.add_assoc]

include hB

theorem checked_put {bytes : List UInt8} (hroom : connection.message.length + bytes.length ≤ B) :
    Checked.put B connection bytes = some (connection.put bytes) :=
  if_pos ⟨hroom, by omega⟩

/-- A word, byte by byte. -/
theorem checked_word (h : Within B connection) (n : ℕ) (hroom : connection.message.length + 2 ≤ B) :
    Checked.put B connection [UInt8.ofNat (n >>> 8)] = some (connection.put [UInt8.ofNat (n >>> 8)]) ∧
      Checked.put B (connection.put [UInt8.ofNat (n >>> 8)]) [UInt8.ofNat (n &&& 0xff)] =
        some (connection.put (beWord n)) := by
  refine ⟨checked_put hB (by rw [List.length_singleton]; omega), ?_⟩
  rw [checked_put hB, put_put, beWord, List.singleton_append]
  · rw [h.sized.block, List.length_singleton]
    omega
  · show connection.message.length + 1 + 1 ≤ B
    omega

theorem append_string_agrees (h : Within B connection) {string : List UInt8} (hlength : string.length < 2147418111) :
    Agrees B (Checked.append_string B connection string) (append_string connection string) := by
  have hroom := h.room
  have hlimit := h.sized.limit
  have hsum : toInt32 (connection.message.length + string.length + 2) =
      (connection.message.length + string.length + 2 : ℕ) := toInt32_of_lt (by omega)
  rw [Checked.append_string, append_string, hsum]
  by_cases hfull : connection.message.length + string.length + 2 > connection.buffer_length
  · rw [if_pos (by omega), if_pos hfull]
    exact ⟨rfl, fun _ hc => by cases hc⟩
  · rw [if_neg (by omega), if_neg hfull]
    obtain ⟨hhigh, hlow⟩ := checked_word hB h string.length (by omega)
    have hword : Within B (connection.put (beWord string.length)) := h.put (by show _ + 2 ≤ B; omega)
    have hend : (connection.put (beWord string.length)).message.length + string.length ≤ B := by
      show connection.message.length + 2 + string.length ≤ B
      omega
    refine Agrees.lift hhigh (Agrees.lift hlow ?_)
    rw [checked_put hB hend]
    exact Agrees.pure (hword.put hend)

theorem append_message_id_agrees (h : Within B connection) (message_id : ℕ) :
    Checked.append_message_id B connection message_id = some (append_message_id connection message_id) ∧
      Within B (append_message_id connection message_id).1 := by
  unfold Checked.append_message_id append_message_id
  simp only
  generalize (if message_id = 0 then nextMessageId connection.message_id else message_id) = drawn
  have hdrawn : Within B (if message_id = 0 then { connection with message_id := drawn } else connection) := by
    split
    · exact ⟨⟨h.sized.limit, h.sized.block⟩, h.reserved, h.room⟩
    · exact h
  generalize (if message_id = 0 then { connection with message_id := drawn } else connection) = c at hdrawn ⊢
  have hlimit := hdrawn.sized.limit
  by_cases hfull : c.message.length + 2 > c.buffer_length
  · rw [if_pos hfull, if_pos hfull]
    exact ⟨rfl, hdrawn⟩
  · obtain ⟨hhigh, hlow⟩ := checked_word hB hdrawn drawn (by omega)
    rw [if_neg hfull, if_neg hfull, hhigh, Option.bind_eq_bind, Option.bind_some, hlow]
    exact ⟨rfl, hdrawn.put (by show c.message.length + 2 ≤ B; omega)⟩

/-- The reserved bytes in front of the body. -/
theorem fini_message_agrees (h : Within B connection) (type dup : ℕ) (qos retain : ℤ) :
    Checked.fini_message B connection type dup qos retain = some (fini_message connection type dup qos retain) ∧
      (fini_message connection type dup qos retain).message.data +
        (fini_message connection type dup qos retain).message.length ≤ B := by
  have hreserved := h.reserved
  have hroom := h.room
  have hends : (fini_message connection type dup qos retain).message.data +
      (fini_message connection type dup qos retain).message.length = connection.message.length := by
    unfold fini_message
    simp only
    split
    · show 0 + (connection.message.length - 3 + 3) = connection.message.length
      omega
    · show 1 + (connection.message.length - 3 + 2) = connection.message.length
      omega
  exact ⟨if_pos ⟨by omega, by omega⟩, by omega⟩

end

/-! ## The builders -/

/-- The strings of a call, each without its terminator. -/
def mqtt_connect_info_t.strings (info : mqtt_connect_info_t) : List CString :=
  info.client_id.toList ++ info.will_topic.toList ++ [info.will_message] ++ info.username.toList ++
    info.password.toList

def BuilderCall.strings : BuilderCall → List CString
  | .connect info => info.strings
  | .publish topic .. | .subscribe topic _ | .unsubscribe topic => topic.toList
  | _ => []

def BuilderCall.payload : BuilderCall → List UInt8
  | .publish _ data .. => data
  | _ => []

/-- No string is so long that its length and that of a message add up to more than an `int` holds. -/
def Short (strings : List CString) : Prop := ∀ s ∈ strings, s.bytes.length < 2147418111

/-- The builder writes nowhere outside the block, and what it returns lies inside. -/
def Ends (B : ℕ) (checked : Option mqtt_connection_t) (built : mqtt_connection_t) : Prop :=
  checked = some built ∧ built.message.data + built.message.length ≤ B

section
variable (hB : B ≤ 65535)

theorem fail_message_ends (connection : mqtt_connection_t) : Ends B (some (fail_message connection)) (fail_message connection) :=
  ⟨rfl, Nat.zero_le B⟩

theorem orFlags_agrees (h : Within B connection) (hheader : 12 < B) (flags : UInt8) :
    Checked.orFlags B connection flags = some (orFlags connection flags) ∧ Within B (orFlags connection flags) :=
  ⟨if_pos hheader, h.orFlags flags⟩

theorem orFlagsIf_agrees (h : Within B connection) (hheader : 12 < B) (p : Prop) [Decidable p] (flags : UInt8) :
    Checked.orFlagsIf B p connection flags = some (if p then orFlags connection flags else connection) ∧
      Within B (if p then orFlags connection flags else connection) := by
  unfold Checked.orFlagsIf
  split
  · exact orFlags_agrees h hheader flags
  · exact ⟨rfl, h⟩

include hB

theorem connectWill_agrees (h : Within B connection) (hheader : 12 < B) {info : mqtt_connect_info_t}
    (hshort : Short info.strings) : Agrees B (Checked.connectWill B connection info) (connectWill connection info) := by
  unfold Checked.connectWill connectWill
  cases htopic : nonEmpty info.will_topic with
  | none => exact Agrees.pure h
  | some topic =>
    have hmember : topic ∈ info.strings := by
      simp [mqtt_connect_info_t.strings, nonEmpty_eq_some htopic]
    refine (append_string_agrees hB h (hshort topic hmember)).bind fun c _ hc => ?_
    have hmessage : info.will_message ∈ info.strings := by
      simp [mqtt_connect_info_t.strings]
    refine (append_string_agrees hB hc (hshort _ hmessage)).bind fun c _ hc => ?_
    obtain ⟨hflag, hc⟩ := orFlags_agrees hc hheader MQTT_CONNECT_FLAG_WILL
    obtain ⟨hretain, hc⟩ := orFlagsIf_agrees hc hheader (info.will_retain ≠ 0) MQTT_CONNECT_FLAG_WILL_RETAIN
    obtain ⟨hqos, hc⟩ := orFlags_agrees hc hheader (UInt8.ofNat ((info.will_qos % 4).toNat <<< 3))
    refine Agrees.lift hflag (Agrees.lift hretain ?_)
    rw [hqos]
    exact Agrees.pure hc

theorem connectCredential_agrees (h : Within B connection) (hheader : 12 < B) {string : Option CString}
    (hshort : Short string.toList) (flag : UInt8) :
    Agrees B (Checked.connectCredential B connection string flag) (connectCredential connection string flag) := by
  unfold Checked.connectCredential connectCredential
  cases hstring : nonEmpty string with
  | none => exact Agrees.pure h
  | some s =>
    have hmember : s ∈ string.toList := by
      simp [nonEmpty_eq_some hstring]
    refine (append_string_agrees hB h (hshort s hmember)).bind fun c _ hc => ?_
    obtain ⟨hflag, hc⟩ := orFlags_agrees hc hheader flag
    rw [hflag]
    exact Agrees.pure hc

theorem connectHeader_agrees (h : Within B connection) (info : mqtt_connect_info_t) :
    Agrees B (Checked.connectHeader B connection info) (connectHeader connection info) ∧
      ((∃ c, connectHeader connection info = .ok c) → 12 < B) := by
  have hreserved := h.reserved
  have hlimit := h.sized.limit
  unfold Checked.connectHeader connectHeader
  by_cases hfull : connection.message.length + CONNECT_HEADER_SIZE > connection.buffer_length
  · rw [if_pos hfull, if_pos hfull]
    exact ⟨⟨rfl, fun _ hc => by cases hc⟩, fun ⟨_, hc⟩ => by cases hc⟩
  · have hroom : connection.message.length + 12 ≤ B := by
      rw [hlimit] at hfull
      exact Nat.le_of_not_lt hfull
    rw [if_neg hfull, if_neg hfull, checked_put hB hroom]
    exact ⟨Agrees.pure (h.put hroom), fun _ => by omega⟩

theorem connectBody_agrees (h : Within B connection) {info : mqtt_connect_info_t} (hshort : Short info.strings) :
    Agrees B (Checked.connectBody B connection info) (connectBody connection info) := by
  obtain ⟨hagrees, hheader⟩ := connectHeader_agrees hB h info
  refine hagrees.bind fun c hok hc => ?_
  replace hheader := hheader ⟨c, hok⟩
  obtain ⟨hclean, hc⟩ := orFlagsIf_agrees hc hheader (info.clean_session ≠ 0) MQTT_CONNECT_FLAG_CLEAN_SESSION
  refine Agrees.lift hclean ?_
  cases hid : nonEmpty info.client_id with
  | none => exact ⟨rfl, fun _ hc => by cases hc⟩
  | some client_id =>
    have hmember : client_id ∈ info.strings := by
      simp [mqtt_connect_info_t.strings, nonEmpty_eq_some hid]
    have huser : Short info.username.toList := fun s hs => hshort s (by
      simp [mqtt_connect_info_t.strings, Option.mem_toList.mp hs])
    have hpassword : Short info.password.toList := fun s hs => hshort s (by
      simp [mqtt_connect_info_t.strings, Option.mem_toList.mp hs])
    refine (append_string_agrees hB hc (hshort _ hmember)).bind fun c _ hc => ?_
    refine (connectWill_agrees hB hc hheader hshort).bind fun c _ hc => ?_
    refine (connectCredential_agrees hB hc hheader huser _).bind fun c _ hc => ?_
    exact connectCredential_agrees hB hc hheader hpassword _

theorem mqtt_msg_connect_ends (h : Within B (init_message connection)) {info : mqtt_connect_info_t}
    (hshort : Short info.strings) :
    Ends B (Checked.mqtt_msg_connect B connection info) (mqtt_msg_connect connection info) := by
  obtain ⟨hsame, hwithin⟩ := connectBody_agrees hB h hshort
  unfold Checked.mqtt_msg_connect mqtt_msg_connect
  rw [hsame]
  cases hbody : connectBody (init_message connection) info with
  | error c => exact fail_message_ends c
  | ok c => exact fini_message_agrees hB (hwithin c hbody) _ _ _ _

theorem idMessage_ends (h : Within B (init_message connection)) (message_id type : ℕ) (qos : ℤ) :
    Ends B (Checked.idMessage B connection message_id type qos) (idMessage connection message_id type qos) := by
  obtain ⟨happended, hwithin⟩ := append_message_id_agrees hB h message_id
  unfold Checked.idMessage idMessage
  rw [happended]
  simp only [Option.bind_eq_bind, Option.bind_some]
  split
  · exact fail_message_ends _
  · exact fini_message_agrees hB hwithin _ _ _ _

theorem mqtt_msg_publish_ends (h : Within B (init_message connection)) {topic : Option CString}
    (hshort : Short topic.toList) {data : List UInt8} (hdata : data.length < 2147418112) (qos retain : ℤ)
    (message_id : ℕ) :
    Checked.mqtt_msg_publish B connection topic data qos retain message_id =
        some (mqtt_msg_publish connection topic data qos retain message_id) ∧
      (mqtt_msg_publish connection topic data qos retain message_id).1.message.data +
        (mqtt_msg_publish connection topic data qos retain message_id).1.message.length ≤ B := by
  unfold Checked.mqtt_msg_publish mqtt_msg_publish
  cases htopic : nonEmpty topic with
  | none => exact ⟨rfl, Nat.zero_le B⟩
  | some t =>
    obtain ⟨hsame, hwithin⟩ := append_string_agrees hB h (hshort t (by simp [nonEmpty_eq_some htopic]))
    simp only [hsame, Option.bind_eq_bind, Option.bind_some]
    cases hbody : append_string (init_message connection) t.bytes with
    | error c => exact ⟨rfl, Nat.zero_le B⟩
    | ok c =>
      have hc := hwithin c hbody
      have happended : (if qos > 0 then Checked.append_message_id B c 0 else some (c, 0)) =
          some (if qos > 0 then append_message_id c 0 else (c, 0)) ∧
            Within B (if qos > 0 then append_message_id c 0 else (c, 0)).1 := by
        split
        · exact append_message_id_agrees hB hc 0
        · exact ⟨rfl, hc⟩
      simp only
      generalize (if qos > 0 then append_message_id c 0 else (c, 0)) = appended at happended ⊢
      obtain ⟨hsame, hwithin⟩ := happended
      have hroom := hwithin.room
      have hlimit := hwithin.sized.limit
      have hsum : toInt32 (appended.1.message.length + data.length) = (appended.1.message.length + data.length : ℕ) :=
        toInt32_of_lt (by omega)
      simp only [hsame, Option.bind_some, hsum]
      by_cases hfailed : qos > 0 ∧ appended.2 = 0
      · rw [if_pos hfailed, if_pos hfailed]
        exact ⟨rfl, Nat.zero_le B⟩
      rw [if_neg hfailed, if_neg hfailed]
      by_cases hfull : appended.1.message.length + data.length > appended.1.buffer_length
      · rw [if_pos (by omega), if_pos hfull]
        exact ⟨rfl, Nat.zero_le B⟩
      have hend : appended.1.message.length + data.length ≤ B := by omega
      obtain ⟨hfini, hends⟩ := fini_message_agrees hB (hwithin.put hend) MQTT_MSG_TYPE_PUBLISH 0 qos retain
      rw [if_neg (by omega), if_neg hfull, checked_put hB hend, Option.bind_some, hfini]
      exact ⟨rfl, hends⟩

theorem topicRequest_agrees (h : Within B (init_message connection)) {topic : Option CString}
    (hshort : Short topic.toList) (message_id : ℕ) :
    Checked.topicRequest B connection topic message_id = some (topicRequest connection topic message_id) ∧
      ∀ c, (topicRequest connection topic message_id).1 = .ok c → Within B c := by
  unfold Checked.topicRequest topicRequest
  cases htopic : nonEmpty topic with
  | none => exact ⟨rfl, fun _ hc => by cases hc⟩
  | some t =>
    obtain ⟨happended, hwithin⟩ := append_message_id_agrees hB h 0
    simp only [happended, Option.bind_eq_bind, Option.bind_some]
    split
    · exact ⟨rfl, fun _ hc => by cases hc⟩
    · obtain ⟨hsame, hwithin⟩ := append_string_agrees hB hwithin (hshort t (by simp [nonEmpty_eq_some htopic]))
      rw [hsame]
      exact ⟨rfl, hwithin⟩

theorem mqtt_msg_subscribe_ends (h : Within B (init_message connection)) {topic : Option CString}
    (hshort : Short topic.toList) (qos : ℤ) (message_id : ℕ) :
    Checked.mqtt_msg_subscribe B connection topic qos message_id =
        some (mqtt_msg_subscribe connection topic qos message_id) ∧
      (mqtt_msg_subscribe connection topic qos message_id).1.message.data +
        (mqtt_msg_subscribe connection topic qos message_id).1.message.length ≤ B := by
  obtain ⟨hsame, hwithin⟩ := topicRequest_agrees hB h hshort message_id
  unfold Checked.mqtt_msg_subscribe mqtt_msg_subscribe
  rw [hsame, Option.bind_eq_bind, Option.bind_some]
  generalize topicRequest connection topic message_id = requested at hwithin ⊢
  obtain ⟨c | c, id⟩ := requested
  · exact ⟨rfl, Nat.zero_le B⟩
  · have hc := hwithin c rfl
    have hlimit := hc.sized.limit
    simp only
    by_cases hfull : c.message.length + 1 > c.buffer_length
    · rw [if_pos hfull, if_pos hfull]
      exact ⟨rfl, Nat.zero_le B⟩
    · have hend : c.message.length + [UInt8.ofNat (qos % 256).toNat].length ≤ B := by
        rw [List.length_singleton]
        omega
      obtain ⟨hfini, hends⟩ := fini_message_agrees hB (hc.put hend) MQTT_MSG_TYPE_SUBSCRIBE 0 1 0
      rw [if_neg hfull, if_neg hfull, checked_put hB hend, Option.bind_eq_bind, Option.bind_some, hfini]
      exact ⟨rfl, hends⟩

theorem mqtt_msg_unsubscribe_ends (h : Within B (init_message connection)) {topic : Option CString}
    (hshort : Short topic.toList) (message_id : ℕ) :
    Checked.mqtt_msg_unsubscribe B connection topic message_id =
        some (mqtt_msg_unsubscribe connection topic message_id) ∧
      (mqtt_msg_unsubscribe connection topic message_id).1.message.data +
        (mqtt_msg_unsubscribe connection topic message_id).1.message.length ≤ B := by
  obtain ⟨hsame, hwithin⟩ := topicRequest_agrees hB h hshort message_id
  unfold Checked.mqtt_msg_unsubscribe mqtt_msg_unsubscribe
  rw [hsame, Option.bind_eq_bind, Option.bind_some]
  generalize topicRequest connection topic message_id = requested at hwithin ⊢
  obtain ⟨c | c, id⟩ := requested
  · exact ⟨rfl, Nat.zero_le B⟩
  · obtain ⟨hfini, hends⟩ := fini_message_agrees hB (hwithin c rfl) MQTT_MSG_TYPE_UNSUBSCRIBE 0 1 0
    simp only [hfini]
    exact ⟨rfl, hends⟩

end

theorem init_message_within (h : Sized B connection) (hmin : 3 ≤ B) : Within B (init_message connection) :=
  ⟨⟨h.limit, h.block⟩, Nat.le_refl 3, hmin⟩

/-- A builder call that stays inside its block of `B` bytes. `writes`: every write is inside, and
`message.length` fits its `uint16_t`. `inside`: what is returned is inside. `whole`: as it takes at
most `B` bytes, `QUEUE_Gets` with that limit returns it whole. -/
structure StaysInside (B : ℕ) (connection : mqtt_connection_t) (stored : ℕ) (call : BuilderCall) : Prop where
  writes : Checked.exec B connection stored call = some (call.exec connection stored)
  inside : (call.exec connection stored).1.message.data + (call.exec connection stored).1.message.length ≤ B
  whole : ∀ (N : ℕ) (ps : List (List UInt8)) (queue : QUEUE) (buffer : List UInt8) (isBegin : UInt8),
    queue.Holds N ((call.exec connection stored).1.bytes :: ps) → B ≤ buffer.length →
      ∃ queue' buf, QUEUE_Gets queue buffer (UInt16.ofNat B) isBegin =
          (queue', some (buf, (call.exec connection stored).1.message.length)) ∧
        buf.take (call.exec connection stored).1.message.length = (call.exec connection stored).1.bytes

theorem exec_ends (hmin : 3 ≤ B) (hB : B ≤ 65535) (h : Sized B connection) (stored : ℕ) {call : BuilderCall}
    (hshort : Short call.strings) (hdata : call.payload.length < 2147418112) :
    Checked.exec B connection stored call = some (call.exec connection stored) ∧
      (call.exec connection stored).1.message.data + (call.exec connection stored).1.message.length ≤ B := by
  have hinit := init_message_within h hmin
  have hpair : ∀ {checked built}, Ends B checked built →
      checked.map (fun c => (c, stored)) = some (built, stored) ∧ built.message.data + built.message.length ≤ B :=
    fun hends => ⟨congrArg (Option.map fun c => (c, stored)) hends.1, hends.2⟩
  cases call with
  | connect info => exact hpair (mqtt_msg_connect_ends hB hinit hshort)
  | publish topic data qos retain => exact mqtt_msg_publish_ends hB hinit hshort hdata qos retain stored
  | subscribe topic qos => exact mqtt_msg_subscribe_ends hB hinit hshort qos stored
  | unsubscribe topic => exact mqtt_msg_unsubscribe_ends hB hinit hshort stored
  | puback id | pubrec id | pubrel id | pubcomp id => exact hpair (idMessage_ends hB hinit id _ _)
  | pingreq | pingresp | disconnect => exact hpair (fini_message_agrees hB hinit _ _ _ _)

/-- **The builders stay inside the output buffer.** -/
theorem builders_stay_inside (hmin : 3 ≤ B) (hB : B ≤ 65535) (h : Sized B connection) (stored : ℕ) (call : BuilderCall)
    (hshort : Short call.strings) (hdata : call.payload.length < 2147418112) : StaysInside B connection stored call := by
  obtain ⟨hwrites, hinside⟩ := exec_ends hmin hB h stored hshort hdata
  refine ⟨hwrites, hinside, fun N ps queue buffer isBegin hqueue hbuffer => ?_⟩
  have hemitted := call.exec_emitted h hmin stored
  have hlength : (call.exec connection stored).1.bytes.length = (call.exec connection stored).1.message.length := by
    rw [hemitted.bytes, hemitted.length]
  have hlimit : (UInt16.ofNat B).toNat = B := UInt16.toNat_ofNat_of_lt' (by show B < 65536; omega)
  obtain ⟨queue', buf, hgets, -, -, htake, -⟩ := QUEUE_Gets_cons hqueue buffer (UInt16.ofNat B) isBegin (by rw [hlimit]; exact hbuffer)
  rw [hlimit, hlength, Nat.min_eq_left (by omega)] at hgets htake
  refine ⟨queue', buf, hgets, ?_⟩
  rw [htake, List.take_of_length_le (by omega)]

/-- A topic that just fits into a block of 10 bytes. -/
theorem builders_stay_inside_full :
    StaysInside 10 (mqtt_msg_init (List.replicate 10 0) 10) 0 (.publish (some (.ofBytes [0x61, 0x2F, 0x62])) [0x31, 0x7E] 0 0) :=
  builders_stay_inside (by decide) (by decide) (mqtt_msg_init_sized (by decide) _ List.length_replicate) 0 _
    (by
      intro s hs
      obtain rfl := Option.some.inj (Option.mem_toList.mp hs)
      decide)
    (by decide)

/-! ## A sum that an `int` does not hold -/

def longString (n : ℕ) : CString where
  bytes := List.replicate n 0x61
  noNul h := absurd (List.eq_of_mem_replicate h) (by decide)

/-- A message of `n` bytes in its block and a string that overflows the sum. -/
theorem append_string_outside (hlength : connection.message.length = B)
    {string : List UInt8} (hsum : toInt32 (B + string.length + 2) < 0) :
    (Checked.append_string B connection string).run = none := by
  have hput : Checked.put B connection [UInt8.ofNat (string.length >>> 8)] = none := by
    refine if_neg fun hroom => ?_
    rw [List.length_singleton] at hroom
    omega
  rw [Checked.append_string, hlength, if_neg (by omega), hput]
  rfl

theorem nonEmpty_longString {n : ℕ} (hn : n ≠ 0) : nonEmpty (some (longString n)) = some (longString n) :=
  if_neg fun hnil => hn (by rw [← List.length_replicate (n := n) (a := (0x61 : UInt8)), show List.replicate n _ = _ from hnil]; rfl)

theorem bind_ok {checked : Checked.Step} {c : mqtt_connection_t} (h : checked.run = some (.ok c))
    (next : mqtt_connection_t → Checked.Step) : (checked >>= next).run = (next c).run := by
  rw [ExceptT.run_bind, h]
  rfl

theorem bind_outside {checked : Checked.Step} (h : checked.run = none) (next : mqtt_connection_t → Checked.Step) :
    (checked >>= next).run = none := by
  rw [ExceptT.run_bind, h]
  rfl

/-- A client identifier that fills the block behind the variable header, and a long will topic. -/
def longInfo (n m : ℕ) : mqtt_connect_info_t :=
  ⟨some (longString n), none, none, some (longString m), .ofBytes [], 0, 0, 0, 0⟩

theorem longInfo_outside {n m : ℕ} (hn : n ≠ 0) (hm : m ≠ 0) (hshort : n < 2147418111) (hfull : 15 + 2 + n = B)
    (hB : B ≤ 65535) (hsized : Sized B connection) (hsum : toInt32 (B + m + 2) < 0) (stored : ℕ) :
    Checked.exec B connection stored (.connect (longInfo n m)) = none := by
  have hinit : Within B (init_message connection) := init_message_within hsized (by omega)
  have hroom : ¬ (init_message connection).message.length + CONNECT_HEADER_SIZE > (init_message connection).buffer_length := by
    rw [hinit.sized.limit]
    show ¬ 3 + 12 > B
    omega
  obtain ⟨hheader, -⟩ := connectHeader_agrees hB hinit (longInfo n m)
  have hfifteen : connectHeader (init_message connection) (longInfo n m) =
      .ok ((init_message connection).put [0, 6, 0x4D, 0x51, 0x49, 0x73, 0x64, 0x70, 3, 0, 0, 0]) := if_neg hroom
  generalize hc : (init_message connection).put [0, 6, 0x4D, 0x51, 0x49, 0x73, 0x64, 0x70, 3, 0, 0, 0] = c at hfifteen
  have hlength : c.message.length = 15 := by
    rw [← hc]
    rfl
  have hwithin := hheader.within c hfifteen
  have hid : Agrees B (Checked.append_string B c (longString n).bytes) (append_string c (longString n).bytes) :=
    append_string_agrees hB hwithin (by rw [longString, List.length_replicate]; exact hshort)
  have hput : append_string c (longString n).bytes = .ok ((c.put (beWord (longString n).bytes.length)).put (longString n).bytes) := by
    refine if_neg ?_
    rw [hlength, hwithin.sized.limit, longString, List.length_replicate]
    omega
  generalize hd : (c.put (beWord (longString n).bytes.length)).put (longString n).bytes = d at hput
  have hend : d.message.length = B := by
    rw [← hd]
    show c.message.length + 2 + (List.replicate n (0x61 : UInt8)).length = B
    rw [hlength, List.length_replicate, hfull]
  have htopic : (Checked.append_string B d (longString m).bytes).run = none := by
    refine append_string_outside hend ?_
    rw [longString, List.length_replicate]
    exact hsum
  have hwill : (Checked.connectWill B d (longInfo n m)).run = none := by
    simp only [Checked.connectWill, longInfo, nonEmpty_longString hm]
    exact bind_outside htopic _
  have hbody : (Checked.connectBody B (init_message connection) (longInfo n m)).run = none := by
    rw [Checked.connectBody, bind_ok (hheader.same.trans (congrArg some hfifteen))]
    simp only [longInfo, nonEmpty_longString hn]
    refine (bind_ok (c := c) rfl _).trans ?_
    rw [bind_ok (hid.same.trans (congrArg some hput))]
    exact bind_outside hwill _
  rw [Checked.exec, Checked.mqtt_msg_connect, hbody]
  rfl

/-- In a block of 65535 bytes, a client identifier of 65518 bytes and a will topic of `2^31 - 2^16 - 1`
bytes: the message is full, the sum is `2^31`, and the topic's length goes behind the block. -/
theorem longest_topic_outside :
    Sized 65535 (mqtt_msg_init (List.replicate 65535 0) 65535) ∧
      (∀ s ∈ (BuilderCall.connect (longInfo 65518 2147418111)).strings, s.bytes.length < 2147418112) ∧
      ¬ StaysInside 65535 (mqtt_msg_init (List.replicate 65535 0) 65535) 0 (.connect (longInfo 65518 2147418111)) := by
  have hsized : Sized 65535 (mqtt_msg_init (List.replicate 65535 0) 65535) :=
    mqtt_msg_init_sized (by decide) _ List.length_replicate
  refine ⟨hsized, ?_, fun h => ?_⟩
  · have hall : ∀ s ∈ [longString 65518, longString 2147418111, .ofBytes []], s.bytes.length < 2147418112 := by
      simp only [List.forall_mem_cons, longString, List.length_replicate]
      exact ⟨by decide, by decide, by decide, fun s hs => absurd hs List.not_mem_nil⟩
    exact hall
  · have houtside := longInfo_outside (n := 65518) (m := 2147418111) (by decide) (by decide) (by decide) (by decide)
      (by decide) hsized (by decide) 0
    rw [h.writes] at houtside
    cases houtside

end LightSleepMqtt.Message
