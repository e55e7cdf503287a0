import LightSleepMqtt.Client.Api

/-! The receive handler. `readPacket` is one pass of its READPACKET loop, up to the callback
the pass makes; `nextPacket` is what follows a delivered publish. The loop puts the two
together with callbacks that return, and is fuelled: `none` means that it does not end
within the fuel. -/
namespace LightSleepMqtt.Client
open Message Queue
set_option autoImplicit false

def bytesAt (message : List UInt8) (pointer : Option ℕ) (length : ℕ) : Option (List UInt8) :=
  pointer.map fun offset => (message.drop offset).take length

/-- The arguments `deliver_publish` passes to `dataCb`. -/
def eventData (message : List UInt8) (length : ℕ) : DataCall :=
  let topic := mqtt_get_publish_topic message length
  let data := mqtt_get_publish_data message length
  { topic := bytesAt message topic.1 topic.2, topic_len := topic.2
    data := bytesAt message data.1 data.2, length := data.2 }

/-- Up to the call of `dataCb`. -/
def deliver_publish (s : Sys) (message : List UInt8) (length : ℕ) : Sys :=
  { s with delivered :=
      if s.client.dataCb then s.delivered ++ [eventData message length] else s.delivered }

/-- A response is built, and dropped when the queue has no room for it. -/
def respond (s : Sys) (connection : mqtt_connection_t) : Sys :=
  (putsOutbound (setOutbound s connection s.client.mqtt_state.pending_msg_id)).1

/-- The switch over the type of a packet in `MQTT_DATA` and `MQTT_KEEPALIVE_SEND`, without the
types that are only reported. -/
def switchType (s : Sys) (msg_type msg_qos msg_id : ℕ) : Sys :=
  let connection := s.client.mqtt_state.mqtt_connection
  if msg_type = MQTT_MSG_TYPE_PUBLISH then
    let s :=
      if msg_qos = 1 then respond s (mqtt_msg_puback connection msg_id)
      else if msg_qos = 2 then respond s (mqtt_msg_pubrec connection msg_id)
      else s
    deliver_publish s s.client.mqtt_state.in_buffer s.client.mqtt_state.message_length_read
  else if msg_type = MQTT_MSG_TYPE_PUBREC then respond s (mqtt_msg_pubrel connection msg_id)
  else if msg_type = MQTT_MSG_TYPE_PUBREL then respond s (mqtt_msg_pubcomp connection msg_id)
  else if msg_type = MQTT_MSG_TYPE_PINGREQ then respond s (mqtt_msg_pingresp connection)
  else s

/-- How a pass ends: the loop is left, or a callback is called first. -/
inductive Pass where
  | left
  | connected
  | publish
  deriving DecidableEq

/-- One pass over the segment `pdata`, whose length is `len`. -/
def readPacket (MQTT_BUF_SIZE : ℕ) (s : Sys) (pdata : List UInt8) : Sys × Pass :=
  if pdata.length < MQTT_BUF_SIZE ∧ pdata.length > 0 then
    let in_buffer := copyAt s.client.mqtt_state.in_buffer 0 pdata
    let s := { s with client := { s.client with mqtt_state :=
      { s.client.mqtt_state with in_buffer := in_buffer } } }
    let msg_type := mqtt_get_type in_buffer
    let msg_qos := mqtt_get_qos in_buffer
    let msg_id := mqtt_get_id in_buffer (s.client.mqtt_state.in_buffer_length % 65536)
    match s.client.connState with
    | .MQTT_CONNECT_SENDING =>
      if msg_type = MQTT_MSG_TYPE_CONNACK ∧
          s.client.mqtt_state.pending_msg_type = MQTT_MSG_TYPE_CONNECT then
        (setConnState s .MQTT_DATA, .connected)
      else (s, .left)
    | .MQTT_DATA | .MQTT_KEEPALIVE_SEND =>
      let message_length := (mqtt_get_total_length in_buffer pdata.length % 65536).toNat
      let s := { s with client := { s.client with mqtt_state := { s.client.mqtt_state with
        message_length_read := pdata.length, message_length := message_length } } }
      let s := switchType s msg_type msg_qos msg_id
      (s, if msg_type = MQTT_MSG_TYPE_PUBLISH then .publish else .left)
    | _ => (s, .left)
  else (s, .left)

/-- The segment with which READPACKET is entered again behind a delivered publish. -/
def nextPacket (s : Sys) (pdata : List UInt8) : Option (List UInt8) :=
  let message_length := s.client.mqtt_state.message_length
  let len := s.client.mqtt_state.message_length_read
  if message_length < len then some ((pdata.drop message_length).take (len - message_length)) else none

/-- Callbacks that return. They work through the functions of `mqtt.h`, none of which writes
the lengths that the handler keeps in the client. -/
structure Application where
  connectedCb : Sys → Sys
  dataCb : Sys → Sys
  keepsLengths : ∀ s, (dataCb s).client.mqtt_state.message_length = s.client.mqtt_state.message_length ∧
    (dataCb s).client.mqtt_state.message_length_read = s.client.mqtt_state.message_length_read

def Application.silent : Application := ⟨id, id, fun _ => ⟨rfl, rfl⟩⟩

/-- READPACKET until it is left. -/
def readLoop (MQTT_BUF_SIZE : ℕ) (app : Application) : ℕ → Sys → List UInt8 → Option Sys
  | 0, _, _ => none
  | fuel + 1, s, pdata =>
    match readPacket MQTT_BUF_SIZE s pdata with
    | (s, .left) => some (system_os_post s)
    | (s, .connected) => some (system_os_post (if s.client.connectedCb then app.connectedCb s else s))
    | (s, .publish) =>
      let s := if s.client.dataCb then app.dataCb s else s
      match nextPacket s pdata with
      | none => some (system_os_post s)
      | some pdata => readLoop MQTT_BUF_SIZE app fuel s pdata

def mqtt_tcpclient_recv (MQTT_BUF_SIZE : ℕ) (app : Application) (fuel : ℕ) (s : Sys)
    (pdata : List UInt8) : Option Sys :=
  readLoop MQTT_BUF_SIZE app fuel { s with client := { s.client with keepAliveTick := 0 } } pdata

end LightSleepMqtt.Client
