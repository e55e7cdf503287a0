import LightSleepMqtt.Client.Receive

/-! The other handlers of `mqtt.c`: the callbacks of the network, the timer and the task. A
handler that calls the application stops at the call; what is left of it is `returned`, for
when the callback has returned. Sending is a record in `pumped` or `control`, and whether
`espconn_send` takes the packet is a parameter where the code looks at the result. -/
namespace LightSleepMqtt.Client
open Message Queue
set_option autoImplicit false

variable (s : Sys)

/-- Stop at the call of a callback, or run on when there is none to call. -/
def callsBack (registered : Bool) (callback : Callback) (rest : Sys → Sys) : Sys :=
  if registered then { s with running := some callback } else rest s

/-- Note the message of `mqtt_connection` as pending and send it past the queue. -/
def sendOutbound : Sys :=
  { s with
    client := { s.client with
      sendTimeout := MQTT_SEND_TIMOUT
      mqtt_state := { s.client.mqtt_state with
        pending_msg_type := mqtt_get_type (outboundData s)
        pending_msg_id := mqtt_get_id (outboundData s) (outboundLength s).toNat } }
    control := s.control ++ [(outboundData s).take (outboundLength s).toNat] }

/-! ## The callbacks of the network -/

/-- `ipaddr` is `none` when the name was not found. -/
def mqtt_dns_found (ipaddr : Option ℕ) : Sys :=
  match ipaddr with
  | none => setConnState s .TCP_RECONNECT_REQ
  | some addr =>
    system_os_post
      (if s.client.ip = 0 ∧ addr ≠ 0 then
        setConnState { s with
          client := { s.client with pCon := s.client.pCon.map fun _ => ⟨addr⟩ }
          connects := s.connects ++ [addr] } .TCP_CONNECTING
      else s)

def mqtt_tcpclient_connect_cb : Sys :=
  let connection := mqtt_msg_init s.client.mqtt_state.mqtt_connection.buffer
    s.client.mqtt_state.out_buffer_length
  let s := setOutbound s (mqtt_msg_connect connection s.client.connect_info)
    s.client.mqtt_state.pending_msg_id
  system_os_post (setConnState (sendOutbound s) .MQTT_CONNECT_SENDING)

def mqtt_tcpclient_recon_cb : Sys := system_os_post (setConnState s .TCP_RECONNECT_REQ)

def mqtt_tcpclient_discon_cb : Sys :=
  let s := setConnState s
    (if s.client.connState = .TCP_DISCONNECTING then .TCP_DISCONNECTED
    else if s.client.connState = .MQTT_DELETING then .MQTT_DELETED
    else .TCP_RECONNECT_REQ)
  callsBack s s.client.disconnectedCb .disconnectedCb system_os_post

def mqtt_tcpclient_sent_cb : Sys :=
  let s := { s with client := { s.client with sendTimeout := 0, keepAliveTick := 0 } }
  if (s.client.connState = .MQTT_DATA ∨ s.client.connState = .MQTT_KEEPALIVE_SEND) ∧
      s.client.mqtt_state.pending_msg_type = MQTT_MSG_TYPE_PUBLISH then
    callsBack s s.client.publishedCb .publishedCb system_os_post
  else system_os_post s

/-! ## The timer -/

def tick (n : ℕ) : ℕ := (n + 1) % 4294967296

/-- The end of `mqtt_timer`. -/
def countSendTimeout : Sys :=
  { s with client := { s.client with sendTimeout := s.client.sendTimeout - 1 } }

/-- `keepalive` is an `int` that is compared as a `uint32_t`. -/
def mqtt_timer : Sys :=
  if s.client.connState = .MQTT_DATA then
    let s := { s with client := { s.client with keepAliveTick := tick s.client.keepAliveTick } }
    countSendTimeout
      (if (s.client.keepAliveTick : ℤ) > s.client.connect_info.keepalive % 4294967296 then
        system_os_post (setConnState s .MQTT_KEEPALIVE_SEND)
      else s)
  else if s.client.connState = .TCP_RECONNECT_REQ then
    let s := { s with client := { s.client with reconnectTick := tick s.client.reconnectTick } }
    if s.client.reconnectTick > MQTT_RECONNECT_TIMEOUT then
      let s := { s with client := { s.client with reconnectTick := 0 } }
      callsBack (system_os_post (setConnState s .TCP_RECONNECT)) s.client.timeoutCb .timeoutCb countSendTimeout
    else countSendTimeout s
  else countSendTimeout s

/-! ## The task -/

/-- `result` is whether `espconn_send` returns ESPCONN_OK. -/
def mqtt_send_keepalive (result : Bool) : Sys :=
  let s := setOutbound s (mqtt_msg_pingreq s.client.mqtt_state.mqtt_connection)
    s.client.mqtt_state.pending_msg_id
  let s := sendOutbound s
  system_os_post
    (if result then setConnState { s with client := { s.client with keepAliveTick := 0 } } .MQTT_DATA
    else setConnState s .TCP_RECONNECT_DISCONNECTING)

def mqtt_client_delete : Sys :=
  let s := mqtt_tcpclient_delete s
  { s with
    client := { s.client with
      host := none
      connect_info := { s.client.connect_info with
        client_id := none, username := none, password := none, will_topic := none } }
    released := true }

def pump {MQTT_BUF_SIZE : ℕ} (locals : Locals MQTT_BUF_SIZE) : Sys :=
  if QUEUE_IsEmpty s.client.msgQueue ∨ s.client.sendTimeout ≠ 0 then s
  else
    match QUEUE_Gets s.client.msgQueue locals.dataBuffer (UInt16.ofNat MQTT_BUF_SIZE) (locals.isBegin 0) with
    | (queue, none) => { s with client := { s.client with msgQueue := queue } }
    | (queue, some (dataBuffer, dataLen)) =>
      { s with
        client := { s.client with
          msgQueue := queue
          sendTimeout := MQTT_SEND_TIMOUT
          mqtt_state := { s.client.mqtt_state with
            pending_msg_type := mqtt_get_type dataBuffer
            pending_msg_id := mqtt_get_id dataBuffer dataLen } }
        pumped := s.pumped ++ [dataBuffer.take dataLen] }

/-- The event has left the queue. `result` is that of a keepalive send, `resolved` that of
`MQTT_Connect`. -/
def MQTT_Task {MQTT_BUF_SIZE : ℕ} (locals : Locals MQTT_BUF_SIZE) (result : Bool) (resolved : Option ℕ) : Sys :=
  let s := { s with posted := false }
  match s.client.connState with
  | .TCP_RECONNECT => setConnState (MQTT_Connect (mqtt_tcpclient_delete s) resolved) .TCP_CONNECTING
  | .TCP_DISCONNECTED => mqtt_tcpclient_delete s
  | .MQTT_DELETED => mqtt_client_delete s
  | .MQTT_KEEPALIVE_SEND => mqtt_send_keepalive s result
  | .MQTT_DATA => pump s locals
  | _ => s

/-! ## The receive handler, pass by pass -/

/-- One pass, up to the callback it makes. -/
def receivePass (MQTT_BUF_SIZE : ℕ) (pdata : List UInt8) : Sys :=
  match readPacket MQTT_BUF_SIZE s pdata with
  | (s, .left) => system_os_post s
  | (s, .connected) => callsBack s s.client.connectedCb .connectedCb system_os_post
  | (s, .publish) => { s with running := some (.dataCb pdata s.client.dataCb) }

def receiveFirst (MQTT_BUF_SIZE : ℕ) (pdata : List UInt8) : Sys :=
  receivePass { s with client := { s.client with keepAliveTick := 0 } } MQTT_BUF_SIZE pdata

/-- What a handler still does when its callback has returned. -/
def returned (MQTT_BUF_SIZE : ℕ) (callback : Callback) : Sys :=
  let s := { s with running := none }
  match callback with
  | .dataCb pdata _ =>
    match nextPacket s pdata with
    | none => system_os_post s
    | some pdata => receivePass s MQTT_BUF_SIZE pdata
  | .timeoutCb => countSendTimeout s
  | .connectedCb | .disconnectedCb | .publishedCb => system_os_post s

end LightSleepMqtt.Client
