import LightSleepMqtt.Message.Builders
import LightSleepMqtt.Queue.Queue

/-! The client of `mqtt.h` and what its handlers act on besides: the one-slot event queue of
the task, the callback that is running, and a record of what went over the interfaces of the
client (packets accepted by the queue, packets and connection attempts handed to the
network, publishes handed to the application). -/
namespace LightSleepMqtt.Client
open Message Queue
set_option autoImplicit false

inductive tConnState where
  | WIFI_INIT
  | WIFI_CONNECTING
  | WIFI_CONNECTING_ERROR
  | WIFI_CONNECTED
  | DNS_RESOLVE
  | TCP_DISCONNECTING
  | TCP_DISCONNECTED
  | TCP_RECONNECT_DISCONNECTING
  | TCP_RECONNECT_REQ
  | TCP_RECONNECT
  | TCP_CONNECTING
  | TCP_CONNECTING_ERROR
  | TCP_CONNECTED
  | MQTT_CONNECT_SEND
  | MQTT_CONNECT_SENDING
  | MQTT_SUBSCIBE_SEND
  | MQTT_SUBSCIBE_SENDING
  | MQTT_DATA
  | MQTT_KEEPALIVE_SEND
  | MQTT_PUBLISH_RECV
  | MQTT_PUBLISHING
  | MQTT_DELETING
  | MQTT_DELETED
  deriving DecidableEq

abbrev MQTT_SEND_TIMOUT : ℕ := 5

abbrev MQTT_RECONNECT_TIMEOUT : ℕ := 5

abbrev QUEUE_BUFFER_SIZE : ℕ := 2048

/-- `struct espconn`, of which the client only sets the remote address. -/
structure espconn where
  remote_ip : ℕ

/-- `out_buffer` is the block that `mqtt_connection.buffer` points to, and `outbound_message`
is always the message of `mqtt_connection`. -/
structure mqtt_state_t where
  in_buffer : List UInt8
  in_buffer_length : ℕ
  out_buffer_length : ℕ
  message_length : ℕ
  message_length_read : ℕ
  mqtt_connection : mqtt_connection_t
  pending_msg_id : ℕ
  pending_msg_type : ℕ

/-- The callbacks are flags: whether the application has registered one. -/
structure MQTT_Client where
  pCon : Option espconn
  security : Bool
  host : Option CString
  ip : ℕ
  mqtt_state : mqtt_state_t
  connect_info : mqtt_connect_info_t
  connectedCb : Bool
  disconnectedCb : Bool
  publishedCb : Bool
  timeoutCb : Bool
  dataCb : Bool
  keepAliveTick : ℕ
  reconnectTick : ℕ
  sendTimeout : ℕ
  connState : tConnState
  msgQueue : QUEUE

/-- The arguments of a `dataCb` call: the bytes behind `topic` and `data`, `none` for NULL. -/
structure DataCall where
  topic : Option (List UInt8)
  topic_len : ℕ
  data : Option (List UInt8)
  length : ℕ
  deriving DecidableEq

/-- A callback of the application that has been called and has not returned yet. `dataCb` comes
with the segment in which the delivered publish stands; when none is `registered`, the handler
passes the place of the call without making it. -/
inductive Callback where
  | connectedCb
  | disconnectedCb
  | publishedCb
  | timeoutCb
  | dataCb (pdata : List UInt8) (registered : Bool)
  deriving DecidableEq

/-- The client with its surroundings. `released` says that its buffers have been freed,
`posted` that an `MQTT_Task` event is pending. -/
structure Sys where
  client : MQTT_Client
  released : Bool
  posted : Bool
  running : Option Callback
  /-- The packets whose `QUEUE_Puts` succeeded. -/
  accepted : List (List UInt8)
  /-- The packets `MQTT_Task` took from `msgQueue` and passed to `espconn_send`. -/
  pumped : List (List UInt8)
  /-- The packets that are sent past the queue. -/
  control : List (List UInt8)
  /-- The addresses passed to `espconn_connect`. -/
  connects : List ℕ
  delivered : List DataCall

/-- `system_os_post`: the slot is taken or has an event of this client already. -/
def system_os_post (s : Sys) : Sys := { s with posted := true }

def setConnState (s : Sys) (connState : tConnState) : Sys :=
  { s with client := { s.client with connState := connState } }

/-- Store a built message, with the identifier the builder has written through its pointer. -/
def setOutbound (s : Sys) (connection : mqtt_connection_t) (pending_msg_id : ℕ) : Sys :=
  { s with client := { s.client with mqtt_state :=
    { s.client.mqtt_state with mqtt_connection := connection, pending_msg_id := pending_msg_id } } }

/-- `outbound_message->data`, to the end of the block. -/
def outboundData (s : Sys) : List UInt8 :=
  s.client.mqtt_state.mqtt_connection.buffer.drop s.client.mqtt_state.mqtt_connection.message.data

def outboundLength (s : Sys) : UInt16 := UInt16.ofNat s.client.mqtt_state.mqtt_connection.message.length

theorem outbound_packet {s : Sys} (h : s.client.mqtt_state.mqtt_connection.message.length < 65536) :
    (outboundData s).take (outboundLength s).toNat = s.client.mqtt_state.mqtt_connection.bytes := by
  rw [outboundLength, UInt16.toNat_ofNat_of_lt' h]
  rfl

def putsOutbound (s : Sys) : Sys × Int16 :=
  let ret := QUEUE_Puts s.client.msgQueue (outboundData s) (outboundLength s)
  ({ s with
      client := { s.client with msgQueue := ret.1 }
      accepted :=
        if ret.2 = -1 then s.accepted
        else s.accepted ++ [(outboundData s).take (outboundLength s).toNat] },
    ret.2)

end LightSleepMqtt.Client
