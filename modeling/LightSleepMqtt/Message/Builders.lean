import LightSleepMqtt.Message.Decoders

/-! The packet builders of `mqtt_msg.c`. They write into the connection's buffer behind
three reserved bytes and prepend the fixed header at the end; `message.data` is the offset
of the first byte. A builder step that returns -1 is an `Except.error` with the connection
as the step leaves it. -/
namespace LightSleepMqtt.Message
set_option autoImplicit false

/-- A NUL-terminated string that is not NULL: the bytes in front of its terminator. -/
structure CString where
  bytes : List UInt8
  noNul : (0 : UInt8) ∉ bytes
  deriving DecidableEq

/-- The string that starts the buffer: it ends in front of the first NUL. -/
def CString.ofBytes (bytes : List UInt8) : CString where
  bytes := bytes.takeWhile (· ≠ 0)
  noNul h := by simpa using List.all_eq_true.mp List.all_takeWhile _ h

/-- The string, unless it is NULL or empty. -/
def nonEmpty : Option CString → Option CString
  | some s => if s.bytes = [] then none else some s
  | none => none

structure mqtt_message_t where
  data : ℕ
  length : ℕ
  deriving DecidableEq

structure mqtt_connection_t where
  message : mqtt_message_t
  message_id : ℕ
  buffer : List UInt8
  buffer_length : ℕ
  deriving DecidableEq

/-- `will_message` is set together with `will_topic` and only read when that is not NULL. -/
structure mqtt_connect_info_t where
  client_id : Option CString
  username : Option CString
  password : Option CString
  will_topic : Option CString
  will_message : CString
  keepalive : ℤ
  will_qos : ℤ
  will_retain : ℤ
  clean_session : ℤ
  deriving DecidableEq

abbrev MQTT_MAX_FIXED_HEADER_SIZE : ℕ := 3

abbrev MQTT_CONNECT_FLAG_USERNAME : UInt8 := 0x80
abbrev MQTT_CONNECT_FLAG_PASSWORD : UInt8 := 0x40
abbrev MQTT_CONNECT_FLAG_WILL_RETAIN : UInt8 := 0x20
abbrev MQTT_CONNECT_FLAG_WILL : UInt8 := 0x04
abbrev MQTT_CONNECT_FLAG_CLEAN_SESSION : UInt8 := 0x02

/-- `sizeof(struct mqtt_connect_variable_header)` for protocol name v31. -/
abbrev CONNECT_HEADER_SIZE : ℕ := 12

/-- `memcpy(buffer + offset, bytes, ...)`. -/
def copyAt (buffer : List UInt8) (offset : ℕ) (bytes : List UInt8) : List UInt8 :=
  buffer.take offset ++ bytes ++ buffer.drop (offset + bytes.length)

/-- Write at `message.length` and advance it. -/
def mqtt_connection_t.put (connection : mqtt_connection_t) (bytes : List UInt8) : mqtt_connection_t :=
  { connection with
    buffer := copyAt connection.buffer connection.message.length bytes
    message := { connection.message with length := connection.message.length + bytes.length } }

def mqtt_connection_t.bytes (connection : mqtt_connection_t) : List UInt8 :=
  (connection.buffer.drop connection.message.data).take connection.message.length

def beWord (n : ℕ) : List UInt8 := [UInt8.ofNat (n >>> 8), UInt8.ofNat (n &&& 0xff)]

def append_string (connection : mqtt_connection_t) (string : List UInt8) :
    Except mqtt_connection_t mqtt_connection_t :=
  if connection.message.length + string.length + 2 > connection.buffer_length then .error connection
  else .ok ((connection.put (beWord string.length)).put string)

/-- `++connection->message_id`, repeated while the result is zero. -/
def nextMessageId (message_id : ℕ) : ℕ :=
  let message_id := (message_id + 1) % 65536
  if message_id = 0 then (message_id + 1) % 65536 else message_id

/-- The second component is the result, 0 when there is no room. -/
def append_message_id (connection : mqtt_connection_t) (message_id : ℕ) : mqtt_connection_t × ℕ :=
  let drawn := if message_id = 0 then nextMessageId connection.message_id else message_id
  let connection :=
    if message_id = 0 then { connection with message_id := drawn } else connection
  if connection.message.length + 2 > connection.buffer_length then (connection, 0)
  else (connection.put (beWord drawn), drawn)

def init_message (connection : mqtt_connection_t) : mqtt_connection_t :=
  { connection with message := { connection.message with length := MQTT_MAX_FIXED_HEADER_SIZE } }

def fail_message (connection : mqtt_connection_t) : mqtt_connection_t :=
  { connection with message := { data := 0, length := 0 } }

def fixedHeader (type dup : ℕ) (qos retain : ℤ) : UInt8 :=
  UInt8.ofNat ((type &&& 0x0f) <<< 4 ||| (dup &&& 1) <<< 3 ||| (qos % 4).toNat <<< 1 ||| (retain % 2).toNat)

def fini_message (connection : mqtt_connection_t) (type dup : ℕ) (qos retain : ℤ) : mqtt_connection_t :=
  let remaining_length := connection.message.length - MQTT_MAX_FIXED_HEADER_SIZE
  if remaining_length > 127 then
    { connection with
      buffer := ((connection.buffer.set 0 (fixedHeader type dup qos retain)).set 1
        (UInt8.ofNat (0x80 ||| remaining_length % 128))).set 2 (UInt8.ofNat (remaining_length / 128))
      message := { data := 0, length := remaining_length + 3 } }
  else
    { connection with
      buffer := (connection.buffer.set 1 (fixedHeader type dup qos retain)).set 2
        (UInt8.ofNat remaining_length)
      message := { data := 1, length := remaining_length + 2 } }

/-- The connection is zeroed; `message.data` is NULL with a length of 0. -/
def mqtt_msg_init (buffer : List UInt8) (buffer_length : ℕ) : mqtt_connection_t :=
  { message := { data := 0, length := 0 }, message_id := 0, buffer := buffer,
    buffer_length := buffer_length % 65536 }

/-- `variable_header->flags |= flags`; the header starts behind the reserved bytes. -/
def orFlags (connection : mqtt_connection_t) (flags : UInt8) : mqtt_connection_t :=
  { connection with buffer := connection.buffer.set 12 (byteAt connection.buffer 12 ||| flags) }

/-- The variable header with zero flags; `keepalive >> 8` is stored in one byte. -/
def connectHeader (connection : mqtt_connection_t) (info : mqtt_connect_info_t) :
    Except mqtt_connection_t mqtt_connection_t :=
  if connection.message.length + CONNECT_HEADER_SIZE > connection.buffer_length then .error connection
  else
    .ok (connection.put [0, 6, 0x4D, 0x51, 0x49, 0x73, 0x64, 0x70, 3, 0,
      UInt8.ofNat (info.keepalive / 256 % 256).toNat, UInt8.ofNat (info.keepalive % 256).toNat])

def connectWill (connection : mqtt_connection_t) (info : mqtt_connect_info_t) :
    Except mqtt_connection_t mqtt_connection_t :=
  match nonEmpty info.will_topic with
  | none => .ok connection
  | some topic => do
    let connection ← append_string connection topic.bytes
    let connection ← append_string connection info.will_message.bytes
    let connection := orFlags connection MQTT_CONNECT_FLAG_WILL
    let connection :=
      if info.will_retain ≠ 0 then orFlags connection MQTT_CONNECT_FLAG_WILL_RETAIN else connection
    .ok (orFlags connection (UInt8.ofNat ((info.will_qos % 4).toNat <<< 3)))

/-- An optional credential, announced by its flag. -/
def connectCredential (connection : mqtt_connection_t) (string : Option CString) (flag : UInt8) :
    Except mqtt_connection_t mqtt_connection_t :=
  match nonEmpty string with
  | none => .ok connection
  | some s => do
    let connection ← append_string connection s.bytes
    .ok (orFlags connection flag)

/-- Everything `mqtt_msg_connect` appends between `init_message` and `fini_message`. -/
def connectBody (connection : mqtt_connection_t) (info : mqtt_connect_info_t) :
    Except mqtt_connection_t mqtt_connection_t := do
  let connection ← connectHeader connection info
  let connection :=
    if info.clean_session ≠ 0 then orFlags connection MQTT_CONNECT_FLAG_CLEAN_SESSION else connection
  match nonEmpty info.client_id with
  | none => .error connection
  | some client_id => do
    let connection ← append_string connection client_id.bytes
    let connection ← connectWill connection info
    let connection ← connectCredential connection info.username MQTT_CONNECT_FLAG_USERNAME
    connectCredential connection info.password MQTT_CONNECT_FLAG_PASSWORD

def mqtt_msg_connect (connection : mqtt_connection_t) (info : mqtt_connect_info_t) : mqtt_connection_t :=
  match connectBody (init_message connection) info with
  | .error connection => fail_message connection
  | .ok connection => fini_message connection MQTT_MSG_TYPE_CONNECT 0 0 0

/-- The second component is `*message_id`, which the early failures leave as it was. -/
def mqtt_msg_publish (connection : mqtt_connection_t) (topic : Option CString) (data : List UInt8)
    (qos retain : ℤ) (message_id : ℕ) : mqtt_connection_t × ℕ :=
  let connection := init_message connection
  match nonEmpty topic with
  | none => (fail_message connection, message_id)
  | some topic =>
    match append_string connection topic.bytes with
    | .error connection => (fail_message connection, message_id)
    | .ok connection =>
      let appended := if qos > 0 then append_message_id connection 0 else (connection, 0)
      let connection := appended.1
      if qos > 0 ∧ appended.2 = 0 then (fail_message connection, appended.2)
      else if connection.message.length + data.length > connection.buffer_length then
        (fail_message connection, appended.2)
      else (fini_message (connection.put data) MQTT_MSG_TYPE_PUBLISH 0 qos retain, appended.2)

/-- The builders whose body is one packet identifier. -/
def idMessage (connection : mqtt_connection_t) (message_id type : ℕ) (qos : ℤ) : mqtt_connection_t :=
  let appended := append_message_id (init_message connection) message_id
  if appended.2 = 0 then fail_message appended.1 else fini_message appended.1 type 0 qos 0

def mqtt_msg_puback (connection : mqtt_connection_t) (message_id : ℕ) : mqtt_connection_t :=
  idMessage connection message_id MQTT_MSG_TYPE_PUBACK 0

def mqtt_msg_pubrec (connection : mqtt_connection_t) (message_id : ℕ) : mqtt_connection_t :=
  idMessage connection message_id MQTT_MSG_TYPE_PUBREC 0

def mqtt_msg_pubrel (connection : mqtt_connection_t) (message_id : ℕ) : mqtt_connection_t :=
  idMessage connection message_id MQTT_MSG_TYPE_PUBREL 1

def mqtt_msg_pubcomp (connection : mqtt_connection_t) (message_id : ℕ) : mqtt_connection_t :=
  idMessage connection message_id MQTT_MSG_TYPE_PUBCOMP 0

/-- The identifier and the topic of SUBSCRIBE and UNSUBSCRIBE, with `*message_id`. -/
def topicRequest (connection : mqtt_connection_t) (topic : Option CString) (message_id : ℕ) :
    Except mqtt_connection_t mqtt_connection_t × ℕ :=
  let connection := init_message connection
  match nonEmpty topic with
  | none => (.error connection, message_id)
  | some topic =>
    let appended := append_message_id connection 0
    if appended.2 = 0 then (.error appended.1, appended.2)
    else (append_string appended.1 topic.bytes, appended.2)

def mqtt_msg_subscribe (connection : mqtt_connection_t) (topic : Option CString) (qos : ℤ)
    (message_id : ℕ) : mqtt_connection_t × ℕ :=
  match topicRequest connection topic message_id with
  | (.error connection, message_id) => (fail_message connection, message_id)
  | (.ok connection, message_id) =>
    if connection.message.length + 1 > connection.buffer_length then
      (fail_message connection, message_id)
    else
      (fini_message (connection.put [UInt8.ofNat (qos % 256).toNat]) MQTT_MSG_TYPE_SUBSCRIBE 0 1 0,
        message_id)

def mqtt_msg_unsubscribe (connection : mqtt_connection_t) (topic : Option CString) (message_id : ℕ) :
    mqtt_connection_t × ℕ :=
  match topicRequest connection topic message_id with
  | (.error connection, message_id) => (fail_message connection, message_id)
  | (.ok connection, message_id) =>
    (fini_message connection MQTT_MSG_TYPE_UNSUBSCRIBE 0 1 0, message_id)

def emptyMessage (connection : mqtt_connection_t) (type : ℕ) : mqtt_connection_t :=
  fini_message (init_message connection) type 0 0 0

def mqtt_msg_pingreq (connection : mqtt_connection_t) : mqtt_connection_t :=
  emptyMessage connection MQTT_MSG_TYPE_PINGREQ

def mqtt_msg_pingresp (connection : mqtt_connection_t) : mqtt_connection_t :=
  emptyMessage connection MQTT_MSG_TYPE_PINGRESP

def mqtt_msg_disconnect (connection : mqtt_connection_t) : mqtt_connection_t :=
  emptyMessage connection MQTT_MSG_TYPE_DISCONNECT

end LightSleepMqtt.Message
