import PicoFramework.Spec.MqttPolicy
import PicoFramework.Spec.TcpClient

/-! `mqtt.c`, on top of an lwIP that answers each call as it likes. lwIP keeps a state of its own
for the one client that it has given out: while that is not disconnected, a second connect is
refused with the connection left as it is, and once it is disconnected no status is reported. -/

namespace Pico

def MQTT_DEFAULT_PORT : UInt16 := 1883
def MQTT_DEFAULT_KEEP_ALIVE_S : UInt16 := 60
def MQTT_MAX_MESSAGE_LENGTH : ℕ := 256

/-- `mqtt_result_t`, but for the board without a network. -/
inductive MqttResult where
  | ok
  | errInvalidArg
  | errNotConnected
  | errNoMemory
  | errFailed
deriving DecidableEq

inductive MqttState where
  | idle
  | resolving
  | connecting
  | connected
  | waiting
  | gaveUp
deriving DecidableEq

/-- `mqtt_config_t`; of the callbacks only whether they are there. -/
structure MqttConfig where
  brokerHost : Option CString
  brokerPort : UInt16
  clientId : Option CString
  username : Option CString
  password : Option CString
  keepAliveS : UInt16
  willTopic : Option CString
  willMessage : Option CString
  willQos : UInt8
  willRetain : Bool
  onMessage : Bool
  onConnect : Bool
  retry : WifiRetryConfig
deriving DecidableEq

/-- `mqtt_t`; of the client of lwIP only whether there is one. -/
structure Mqtt where
  config : MqttConfig
  state : MqttState
  retry : WifiRetry
  client : Bool
  brokerIpv4 : UInt32
  messageTopic : Bytes
  messageBuffer : Bytes
  messageOverflowed : Bool
  messagesDropped : UInt32
  sessions : UInt32
  initialised : Bool
deriving DecidableEq

/-- What lwIP has of the client's connection. -/
inductive MqttLink where
  | disconnected
  | connecting
  | session
deriving DecidableEq

/-- `struct mqtt_connect_client_info_t`. -/
structure MqttClientInfo where
  clientId : Option CString
  clientUser : Option CString
  clientPass : Option CString
  keepAlive : UInt16
  will : Option (Option CString × Option CString × UInt8 × Bool)
deriving DecidableEq

/-- A call of `mqtt_client_connect`. -/
structure MqttDial where
  ip : UInt32
  port : UInt16
  info : MqttClientInfo
deriving DecidableEq

structure MqttWorld where
  mqtt : Mqtt
  link : MqttLink
  /-- The DNS lookups that lwIP has yet to answer. -/
  lookups : ℕ
  /-- What `mqtt_client_connect` was called with, call by call. -/
  dialed : List MqttDial
  /-- What `on_message` was called with. -/
  delivered : List (Bytes × Bytes)
  /-- Since the last `mqtt_connect`: how often an attempt was begun, and how often one failed. -/
  attempts : ℕ
  failures : ℕ
deriving DecidableEq

/-- What lwIP and the clock answer during one call. -/
structure MqttAnswers where
  /-- `now_ms()`, first and when an attempt is given up. -/
  now : UInt32
  later : UInt32
  dns : DnsAnswer
  newOk : Bool
  connectOk : Bool
deriving DecidableEq

def mqttInit : MqttWorld where
  mqtt :=
    { config := ⟨none, 0, none, none, none, 0, none, none, 0, false, false, false, ⟨0, 0, 0⟩⟩
      state := .idle, retry := ⟨⟨0, 0, 0⟩, 0, 0, false⟩, client := false, brokerIpv4 := 0
      messageTopic := [], messageBuffer := [], messageOverflowed := false, messagesDropped := 0
      sessions := 0, initialised := true }
  link := .disconnected
  lookups := 0
  dialed := []
  delivered := []
  attempts := 0
  failures := 0

/-- A string that counts as absent when it is empty. -/
def unlessBlank (s : Option CString) : Option CString := if isBlank s then none else s

def MqttConfig.info (config : MqttConfig) : MqttClientInfo where
  clientId := config.clientId
  clientUser := unlessBlank config.username
  clientPass := unlessBlank config.password
  keepAlive := config.keepAliveS
  will :=
    if isBlank config.willTopic then none
    else some (config.willTopic, config.willMessage, config.willQos, config.willRetain)

namespace MqttWorld

def setMqtt (w : MqttWorld) (f : Mqtt → Mqtt) : MqttWorld := { w with mqtt := f w.mqtt }

def handleFailure (now : UInt32) (w : MqttWorld) : MqttWorld :=
  let w := { w with failures := w.failures + 1 }
  if w.mqtt.retry.exhausted then w.setMqtt fun m => { m with state := .gaveUp }
  else w.setMqtt fun m => { m with retry := m.retry.fail now, state := .waiting }

/-- `mqtt_client_connect`: true for `ERR_OK`. -/
def mqttClientConnect (dial : MqttDial) (ok : Bool) (w : MqttWorld) : Bool × MqttWorld :=
  let w := { w with dialed := w.dialed ++ [dial] }
  if w.link ≠ .disconnected then (false, w)
  else if ok then (true, { w with link := .connecting })
  else (false, w)

def startConnect (a : MqttAnswers) (w : MqttWorld) : MqttResult × MqttWorld :=
  if !w.mqtt.client && !a.newOk then (.errNoMemory, w)
  else
    let w := w.setMqtt fun m => { m with client := true }
    let dial := ⟨w.mqtt.brokerIpv4, w.mqtt.config.brokerPort, w.mqtt.config.info⟩
    let (connected, w) := w.mqttClientConnect dial a.connectOk
    if !connected then (.errFailed, w)
    else (.ok, w.setMqtt fun m => { m with state := .connecting })

def onDns (ip : Option UInt32) (a : MqttAnswers) (w : MqttWorld) : MqttWorld :=
  match ip with
  | none => w.handleFailure a.later
  | some ip =>
      let w := w.setMqtt fun m => { m with brokerIpv4 := ip }
      let (result, w) := w.startConnect a
      if result ≠ .ok then w.handleFailure a.later else w

def beginAttempt (a : MqttAnswers) (w : MqttWorld) : MqttWorld :=
  let w := { w with attempts := w.attempts + 1 }
  match a.dns with
  | .found ip =>
      let w := w.setMqtt fun m => { m with brokerIpv4 := ip }
      let (result, w) := w.startConnect a
      if result ≠ .ok then w.handleFailure a.later else w
  | .inProgress =>
      { w with lookups := w.lookups + 1 }.setMqtt fun m => { m with state := .resolving }
  | .failed => w.handleFailure a.later

/-- `mqtt_connection_status_handler`. The call of `on_connect` is its last act, so what the
application does there are the calls that follow. -/
def mqttConnectionStatusHandler (accepted : Bool) (a : MqttAnswers) (w : MqttWorld) : MqttWorld :=
  if accepted then
    w.setMqtt fun m =>
      { m with retry := m.retry.reset, state := .connected, sessions := m.sessions + 1 }
  else w.handleFailure a.later

def onIncomingPublish (topic : CString) (w : MqttWorld) : MqttWorld :=
  w.setMqtt fun m =>
    { m with
      messageBuffer := []
      messageOverflowed := false
      messageTopic := topic.bytes.take MQTT_TOPIC_MAX_LENGTH }

/-- `on_incoming_data`; the last part of a message completes it. -/
def onIncomingData (data : Bytes) (last : Bool) (w : MqttWorld) : MqttWorld :=
  let space := MQTT_MAX_MESSAGE_LENGTH - w.mqtt.messageBuffer.length
  let w := w.setMqtt fun m =>
    { m with
      messageBuffer := m.messageBuffer ++ data.take space
      messageOverflowed := m.messageOverflowed || data.length > space }
  if !last then w
  else
    let w :=
      if w.mqtt.messageOverflowed then
        w.setMqtt fun m => { m with messagesDropped := m.messagesDropped + 1 }
      else if w.mqtt.config.onMessage then
        { w with delivered := w.delivered ++ [(w.mqtt.messageTopic, w.mqtt.messageBuffer)] }
      else w
    w.setMqtt fun m => { m with messageBuffer := [], messageOverflowed := false }

/-- The arguments that `mqtt_connect` goes on with. -/
def configIsUsable (config : MqttConfig) : Bool :=
  !isBlank config.brokerHost && mqttCheckClientId config.clientId = .ok &&
    (isBlank config.willTopic ||
      (mqttCheckPublishTopic config.willTopic = .ok && mqttQosIsValid config.willQos))

def mqttConnect (config : MqttConfig) (a : MqttAnswers) (w : MqttWorld) : MqttResult × MqttWorld :=
  if !w.mqtt.initialised then (.errInvalidArg, w)
  else if !configIsUsable config then (.errInvalidArg, w)
  else
    let config :=
      { config with
        brokerPort := if config.brokerPort = 0 then MQTT_DEFAULT_PORT else config.brokerPort
        keepAliveS :=
          if config.keepAliveS = 0 then MQTT_DEFAULT_KEEP_ALIVE_S else config.keepAliveS }
    let w := { w with attempts := 0, failures := 0 }.setMqtt fun m =>
      { m with
        config := config
        retry := wifiRetryInit config.retry
        messageBuffer := []
        messageOverflowed := false }
    (.ok, w.beginAttempt a)

def mqttClose (w : MqttWorld) : MqttResult × MqttWorld :=
  if !w.mqtt.initialised then (.errInvalidArg, w)
  else
    -- `mqtt_disconnect` reports no status
    let w := if w.mqtt.client then { w with link := .disconnected } else w
    (.ok, w.setMqtt fun m => { m with retry := m.retry.reset, state := .idle })

def mqttPoll (a : MqttAnswers) (w : MqttWorld) : MqttWorld :=
  if !w.mqtt.initialised then w
  else if w.mqtt.state = .waiting ∧ w.mqtt.retry.due a.now = true then w.beginAttempt a
  else w

end MqttWorld

namespace Mqtt

/-- `mqtt_is_connected`. -/
def isConnected (m : Mqtt) : Bool := m.state = .connected

/-- `mqtt_publish_message`; `sent` is what `mqtt_publish` answers, and a payload of no bytes may
be NULL. -/
def publishMessage (m : Mqtt) (topic : Option CString) (payload : Option Bytes) (length : UInt16)
    (qos : UInt8) (sent : Bool) : MqttResult :=
  if !m.initialised || (payload.isNone && length ≠ 0) then .errInvalidArg
  else if mqttCheckPublishTopic topic ≠ .ok then .errInvalidArg
  else if !mqttQosIsValid qos then .errInvalidArg
  else if !m.isConnected then .errNotConnected
  else if sent then .ok
  else .errFailed

/-- `mqtt_subscribe_topic`; `sent` is what `mqtt_sub_unsub` answers. -/
def subscribeTopic (m : Mqtt) (topic : Option CString) (qos : UInt8) (sent : Bool) : MqttResult :=
  if !m.initialised then .errInvalidArg
  else if mqttCheckSubscribeFilter topic ≠ .ok then .errInvalidArg
  else if !mqttQosIsValid qos then .errInvalidArg
  else if !m.isConnected then .errNotConnected
  else if sent then .ok
  else .errFailed

end Mqtt

/-- A call of the application, or a callback of lwIP. -/
inductive MqttMove where
  | connect (config : MqttConfig) (a : MqttAnswers)
  | close
  | poll (a : MqttAnswers)
  | dns (ip : Option UInt32) (a : MqttAnswers)
  | status (accepted : Bool) (a : MqttAnswers)
  | incomingPublish (topic : CString)
  | incomingData (data : Bytes) (last : Bool)

/-- lwIP answers a lookup that it has been asked for, accepts a connection that is being made,
and reports one lost that is there. -/
def MqttMove.enabled (w : MqttWorld) : MqttMove → Bool
  | .dns _ _ => 0 < w.lookups
  | .status true _ => w.link = .connecting
  | .status false _ => w.link ≠ .disconnected
  | .incomingPublish _ | .incomingData _ _ => w.link = .session
  | _ => true

def MqttWorld.perform (w : MqttWorld) : MqttMove → MqttWorld
  | .connect config a => (w.mqttConnect config a).2
  | .close => w.mqttClose.2
  | .poll a => w.mqttPoll a
  | .dns ip a => { w with lookups := w.lookups - 1 }.onDns ip a
  | .status true a => { w with link := .session }.mqttConnectionStatusHandler true a
  | .status false a => { w with link := .disconnected }.mqttConnectionStatusHandler false a
  | .incomingPublish topic => w.onIncomingPublish topic
  | .incomingData data last => w.onIncomingData data last

/-- A move that is not enabled does nothing. -/
def MqttWorld.step (w : MqttWorld) (move : MqttMove) : MqttWorld :=
  if move.enabled w then w.perform move else w

end Pico
