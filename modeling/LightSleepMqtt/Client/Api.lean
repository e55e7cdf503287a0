import LightSleepMqtt.Client.State

/-! The functions an application calls. The four that queue a packet share the retry loop,
which ends when the packet is queued or the queue has been emptied without finding room; the
loop is fuelled, and `none` means that the fuel did not suffice. -/
namespace LightSleepMqtt.Client
open Message Queue
set_option autoImplicit false

/-! ## Setting up -/

def noInfo : mqtt_connect_info_t :=
  { client_id := none, username := none, password := none, will_topic := none,
    will_message := ⟨[], List.not_mem_nil⟩, keepalive := 0, will_qos := 0, will_retain := 0,
    clean_session := 0 }

/-- The client is zeroed. -/
def MQTT_InitConnection (host : CString) (security : Bool) : MQTT_Client :=
  { pCon := none, security := security, host := some host, ip := 0
    mqtt_state :=
      { in_buffer := [], in_buffer_length := 0, out_buffer_length := 0, message_length := 0,
        message_length_read := 0, mqtt_connection := mqtt_msg_init [] 0, pending_msg_id := 0,
        pending_msg_type := 0 }
    connect_info := noInfo
    connectedCb := false, disconnectedCb := false, publishedCb := false, timeoutCb := false
    dataCb := false, keepAliveTick := 0, reconnectTick := 0, sendTimeout := 0
    connState := .WIFI_INIT, msgQueue := ⟨⟨[], 0, 0, 0, 0⟩⟩ }

def MQTT_InitClient (MQTT_BUF_SIZE : ℕ) (client : MQTT_Client) (client_id : CString)
    (client_user client_pass : Option CString) (keepAliveTime cleanSession : ℕ) : Sys :=
  { client := { client with
      connect_info := { noInfo with
        client_id := some client_id, username := client_user, password := client_pass
        keepalive := toInt32 keepAliveTime, clean_session := cleanSession }
      mqtt_state := { client.mqtt_state with
        in_buffer := List.replicate MQTT_BUF_SIZE 0
        in_buffer_length := MQTT_BUF_SIZE
        out_buffer_length := MQTT_BUF_SIZE
        mqtt_connection := mqtt_msg_init (List.replicate MQTT_BUF_SIZE 0) MQTT_BUF_SIZE }
      msgQueue := QUEUE_Init client.msgQueue QUEUE_BUFFER_SIZE }
    released := false, posted := true, running := none
    accepted := [], pumped := [], control := [], connects := [], delivered := [] }

def MQTT_OnConnected (s : Sys) (connectedCb : Bool) : Sys :=
  { s with client := { s.client with connectedCb := connectedCb } }

def MQTT_OnDisconnected (s : Sys) (disconnectedCb : Bool) : Sys :=
  { s with client := { s.client with disconnectedCb := disconnectedCb } }

def MQTT_OnData (s : Sys) (dataCb : Bool) : Sys :=
  { s with client := { s.client with dataCb := dataCb } }

def MQTT_OnPublished (s : Sys) (publishedCb : Bool) : Sys :=
  { s with client := { s.client with publishedCb := publishedCb } }

def MQTT_OnTimeout (s : Sys) (timeoutCb : Bool) : Sys :=
  { s with client := { s.client with timeoutCb := timeoutCb } }

def MQTT_InitLWT (s : Sys) (will_topic will_msg : CString) (will_qos will_retain : UInt8) : Sys :=
  { s with client := { s.client with connect_info := { s.client.connect_info with
      will_topic := some will_topic, will_message := will_msg
      will_qos := will_qos.toNat, will_retain := will_retain.toNat } } }

/-! ## Queueing a packet -/

/-- The locals of a function that fetches packets: `dataBuffer` is on the stack and not
initialised, and neither is the parser of each `QUEUE_Gets`. -/
structure Locals (size : ℕ) where
  dataBuffer : List UInt8
  sized : dataBuffer.length = size
  isBegin : ℕ → UInt8

/-- The loop around `QUEUE_Puts`; the second result is whether the packet is queued. -/
def retryLoop {MQTT_BUF_SIZE : ℕ} (locals : Locals MQTT_BUF_SIZE) (data : List UInt8) (length : UInt16) :
    ℕ → QUEUE → List UInt8 → Option (QUEUE × Bool)
  | 0, _, _ => none
  | fuel + 1, queue, dataBuffer =>
    match QUEUE_Puts queue data length with
    | (queue, ret) =>
      if ret ≠ -1 then some (queue, true)
      else
        match QUEUE_Gets queue dataBuffer (UInt16.ofNat MQTT_BUF_SIZE) (locals.isBegin fuel) with
        | (queue, none) => some (queue, false)
        | (queue, some (dataBuffer, _)) => retryLoop locals data length fuel queue dataBuffer

/-- The end of the functions that queue the message they have built. A fetched packet frees at
least its two delimiters, so the loop runs less often than the ring has bytes. -/
def queueOutbound {MQTT_BUF_SIZE : ℕ} (s : Sys) (locals : Locals MQTT_BUF_SIZE) : Option (Sys × Bool) :=
  match retryLoop locals (outboundData s) (outboundLength s) (s.client.msgQueue.rb.size + 1)
      s.client.msgQueue locals.dataBuffer with
  | none => none
  | some (queue, false) => some ({ s with client := { s.client with msgQueue := queue } }, false)
  | some (queue, true) =>
    some (system_os_post { s with
      client := { s.client with msgQueue := queue }
      accepted := s.accepted ++ [(outboundData s).take (outboundLength s).toNat] }, true)

section
variable {MQTT_BUF_SIZE : ℕ} (s : Sys)

def MQTT_Publish (topic : Option CString) (data : List UInt8) (qos retain : ℤ)
    (locals : Locals MQTT_BUF_SIZE) : Option (Sys × Bool) :=
  let built := mqtt_msg_publish s.client.mqtt_state.mqtt_connection topic data qos retain
    s.client.mqtt_state.pending_msg_id
  let s := setOutbound s built.1 built.2
  if s.client.mqtt_state.mqtt_connection.message.length = 0 then some (s, false)
  else queueOutbound s locals

/-- A message that could not be built is queued as an empty packet. -/
def MQTT_Subscribe (topic : Option CString) (qos : UInt8) (locals : Locals MQTT_BUF_SIZE) :
    Option (Sys × Bool) :=
  let built := mqtt_msg_subscribe s.client.mqtt_state.mqtt_connection topic qos.toNat
    s.client.mqtt_state.pending_msg_id
  queueOutbound (setOutbound s built.1 built.2) locals

def MQTT_UnSubscribe (topic : Option CString) (locals : Locals MQTT_BUF_SIZE) : Option (Sys × Bool) :=
  let built := mqtt_msg_unsubscribe s.client.mqtt_state.mqtt_connection topic
    s.client.mqtt_state.pending_msg_id
  queueOutbound (setOutbound s built.1 built.2) locals

def MQTT_Ping (locals : Locals MQTT_BUF_SIZE) : Option (Sys × Bool) :=
  let s := setOutbound s (mqtt_msg_pingreq s.client.mqtt_state.mqtt_connection)
    s.client.mqtt_state.pending_msg_id
  if s.client.mqtt_state.mqtt_connection.message.length = 0 then some (s, false)
  else queueOutbound s locals

/-! ## Connecting and disconnecting -/

def mqtt_tcpclient_delete : Sys := { s with client := { s.client with pCon := none } }

/-- A decimal number, in an `int`, up to the first other character; with that character and what
follows it. -/
def readNumber : ℤ → List UInt8 → Option (ℤ × UInt8 × List UInt8)
  | _, [] => none
  | n, c :: start =>
    if 0x30 ≤ c ∧ c ≤ 0x39 then readNumber (Int.bmod (n * 10 + (c.toNat - 0x30)) 4294967296) start
    else some (n, c, start)

/-- The loop of `UTILS_StrToIP` with `left` bytes of the address to come; the lower ones are `ip`. -/
def strToIP : ℕ → ℕ → List UInt8 → ℕ × Bool
  | 0, ip, _ => (ip, true)
  | left + 1, ip, start =>
    match readNumber 0 start with
    | none => (ip, false)
    | some (n, c, start) =>
      if left > 0 ∧ c ≠ 0x2E then (ip, false)
      else if n ≥ 256 then (ip, false)
      else strToIP left (ip + (n % 256).toNat * 256 ^ (3 - left)) start

/-- The address, whose first number is in the lowest byte, as it is stored in a zeroed word, and
whether the string is one. -/
def UTILS_StrToIP (str : CString) : ℕ × Bool := strToIP 4 0 (str.bytes ++ [0])

/-- `resolved` is the address `espconn_gethostbyname` stores at once when it knows the name;
otherwise `mqtt_dns_found` is called back. -/
def MQTT_Connect (resolved : Option ℕ) : Sys :=
  let s := if s.client.pCon.isSome then mqtt_tcpclient_delete s else s
  let parsed := (s.client.host.map UTILS_StrToIP).getD (0, false)
  let s := { s with client := { s.client with
    pCon := some ⟨parsed.1⟩, keepAliveTick := 0, reconnectTick := 0 } }
  setConnState
    (if parsed.2 then { s with connects := s.connects ++ [parsed.1] }
    else { s with client := { s.client with ip := resolved.getD s.client.ip } }) .TCP_CONNECTING

/-- Disarming the timer is left out: its ticks are steps of the surroundings. -/
def MQTT_Disconnect : Sys := system_os_post (setConnState s .TCP_DISCONNECTING)

def MQTT_DeleteClient : Sys := system_os_post (setConnState s .MQTT_DELETING)

end

/-! ## The calls of an application -/

/-- The calls that queue a packet. -/
inductive Request (MQTT_BUF_SIZE : ℕ) where
  | publish (topic : Option CString) (data : List UInt8) (qos retain : ℤ) (locals : Locals MQTT_BUF_SIZE)
  | subscribe (topic : Option CString) (qos : UInt8) (locals : Locals MQTT_BUF_SIZE)
  | unSubscribe (topic : Option CString) (locals : Locals MQTT_BUF_SIZE)
  | ping (locals : Locals MQTT_BUF_SIZE)

variable {MQTT_BUF_SIZE : ℕ}

def Request.exec (s : Sys) : Request MQTT_BUF_SIZE → Option (Sys × Bool)
  | .publish topic data qos retain locals => MQTT_Publish s topic data qos retain locals
  | .subscribe topic qos locals => MQTT_Subscribe s topic qos locals
  | .unSubscribe topic locals => MQTT_UnSubscribe s topic locals
  | .ping locals => MQTT_Ping s locals

inductive ApiCall (MQTT_BUF_SIZE : ℕ) where
  | request (r : Request MQTT_BUF_SIZE)
  | onConnected (connectedCb : Bool)
  | onDisconnected (disconnectedCb : Bool)
  | onData (dataCb : Bool)
  | onPublished (publishedCb : Bool)
  | onTimeout (timeoutCb : Bool)
  | initLWT (will_topic will_msg : CString) (will_qos will_retain : UInt8)
  | connect (resolved : Option ℕ)
  | disconnect
  | deleteClient

def ApiCall.exec (s : Sys) : ApiCall MQTT_BUF_SIZE → Option Sys
  | .request r => (r.exec s).map Prod.fst
  | .onConnected connectedCb => some (MQTT_OnConnected s connectedCb)
  | .onDisconnected disconnectedCb => some (MQTT_OnDisconnected s disconnectedCb)
  | .onData dataCb => some (MQTT_OnData s dataCb)
  | .onPublished publishedCb => some (MQTT_OnPublished s publishedCb)
  | .onTimeout timeoutCb => some (MQTT_OnTimeout s timeoutCb)
  | .initLWT will_topic will_msg will_qos will_retain =>
    some (MQTT_InitLWT s will_topic will_msg will_qos will_retain)
  | .connect resolved => some (MQTT_Connect s resolved)
  | .disconnect => some (MQTT_Disconnect s)
  | .deleteClient => some (MQTT_DeleteClient s)

end LightSleepMqtt.Client
