import PicoFramework.Spec.HomeAssistant
import PicoFramework.Spec.Mqtt
import PicoFramework.Spec.Wifi

/-! `net.c` of the `home_led` application, and what of `main.c`, `settings.c` and `console.c` it works
with: the link, the broker session, and the conversation with Home Assistant. What is printed to
the console is left out. -/

namespace Pico

def PUBLISH_INTERVAL_MS : UInt32 := 250

structure StoredSettings where
  ssid : CString
  password : CString
  hostname : CString
  brokerHost : CString
  brokerPort : CString
  mqttUser : CString
  mqttPass : CString
  deviceId : CString
  haPrefix : CString
deriving DecidableEq

/-- A call of MQTT with its result, the start of a session, or the request of an announcement. -/
inductive HaEvent where
  | session
  | requested
  | subscribe (topic : CString) (result : MqttResult)
  | publish (topic : CString) (payload : Bytes) (result : MqttResult)
deriving DecidableEq

/-- `app_t`, as far as the network goes. -/
structure App where
  /-- `APP_LED_COUNT`. -/
  ledCount : UInt16
  light : Light
  range : LedRange
  wifi : WifiWorld
  mqtt : MqttWorld
  ha : Ha
  radioReady : Bool
  haReady : Bool
  announcePending : Bool
  announceStep : ℕ
  statePublishPending : Bool
  statePublishStep : ℕ
  statePublishGeneration : UInt32
  statePublishRangeGeneration : UInt32
  stored : StoredSettings
  publishedGeneration : UInt32
  publishedRangeGeneration : UInt32
  lastPublishMs : UInt32
  /-- What has been said to the broker, the latest first. -/
  log : List HaEvent
  /-- How often the light and the range have changed since the start. -/
  lightChanges : ℕ
  rangeChanges : ℕ
deriving DecidableEq

inductive DiscoveryEntity where
  | light
  | rangeFirst
  | rangeLast
deriving DecidableEq

/-- Whether lwIP takes each of the three subscribes. -/
structure SubscribeAnswers where
  command : Bool
  first : Bool
  last : Bool
deriving DecidableEq

/-- What the radio, lwIP and the clock answer during one `net_poll`. -/
structure NetAnswers where
  wifi : WifiAnswers
  mqtt : MqttAnswers
  announcementSent : Bool
  stateSent : Bool
  now : UInt32
deriving DecidableEq

/-- `atoi`, of a number that an `int` has. -/
def atoi (text : Bytes) : ℤ :=
  let p := text.dropWhile fun c => c = 0x20 || (0x09 ≤ c && c ≤ 0x0D)
  let digits := (skipSign p).takeWhile isJsonDigit
  let magnitude : ℤ := digits.foldl (fun value c => value * 10 + (c - 0x30).toNat) 0
  if p.head? = some 0x2D then -magnitude else magnitude

section configuration

def wifiConfigOf (stored : StoredSettings) : WifiConfig where
  ssid := stored.ssid
  password := stored.password
  hostname := stored.hostname
  attemptTimeoutMs := WIFI_DEFAULT_ATTEMPT_TIMEOUT_MS
  retry := ⟨1000, 15000, 0⟩

def mqttConfigOf (stored : StoredSettings) (ha : Ha) : MqttConfig where
  brokerHost := stored.brokerHost
  brokerPort := UInt16.ofInt (atoi stored.brokerPort.bytes)
  clientId := stored.deviceId
  username := stored.mqttUser
  password := stored.mqttPass
  keepAliveS := MQTT_DEFAULT_KEEP_ALIVE_S
  willTopic := ha.topicAvailability
  willMessage := HA_UNAVAILABLE
  willQos := 1
  willRetain := true
  onMessage := true
  onConnect := true
  retry := ⟨1000, 15000, 0⟩

end configuration

def discoveryTopic (ha : Ha) : DiscoveryEntity → CString
  | .light => ha.topicConfig
  | .rangeFirst => ha.topicRangeFirstConfig
  | .rangeLast => ha.topicRangeLastConfig

def discoveryDocument (ha : Ha) (ledCount : UInt16) : DiscoveryEntity → Option Bytes
  | .light => haBuildDiscovery ha HA_DISCOVERY_BUFFER_SIZE
  | .rangeFirst => haBuildRangeDiscovery ha .first ledCount HA_DISCOVERY_BUFFER_SIZE
  | .rangeLast => haBuildRangeDiscovery ha .last ledCount HA_DISCOVERY_BUFFER_SIZE

namespace App

def isConnected (app : App) : Bool := app.mqtt.mqtt.isConnected

/-- The light as a call has left it, with the changes counted. -/
def setLight (app : App) (light : Light) : App :=
  { app with
    light := light
    lightChanges := app.lightChanges + (light.generation - app.light.generation).toNat }

def setRange (app : App) (range : LedRange) : App :=
  { app with
    range := range
    rangeChanges := app.rangeChanges + (range.generation - app.range.generation).toNat }

section publishing

/-- `mqtt_publish_message` with QoS 1 and the retain flag; `sent` is what lwIP answers. -/
def publish (topic : CString) (payload : Bytes) (sent : Bool) (app : App) : Bool × App :=
  let result := app.mqtt.mqtt.publishMessage (some topic) (some payload)
    (UInt16.ofNat payload.length) 1 sent
  (result = .ok, { app with log := .publish topic payload result :: app.log })

/-- `mqtt_subscribe_topic` with QoS 1. -/
def subscribe (topic : CString) (sent : Bool) (app : App) : App :=
  { app with
    log := .subscribe topic (app.mqtt.mqtt.subscribeTopic (some topic) 1 sent) :: app.log }

def netPublishState (app : App) : App :=
  if !app.isConnected || app.statePublishPending then app
  else
    { app with
      statePublishGeneration := app.light.generation
      statePublishRangeGeneration := app.range.generation
      statePublishStep := 0
      statePublishPending := true }

/-- One of the three messages of `poll_state_publish`; nothing is sent of a text that did not fit. -/
def publishState (topic : CString) (payload : Option Bytes) (sent : Bool) (app : App) : App :=
  match payload with
  | none => app
  | some payload =>
      let (accepted, app) := app.publish topic payload sent
      if accepted then { app with statePublishStep := app.statePublishStep + 1 } else app

def pollStatePublish (sent : Bool) (now : UInt32) (app : App) : App :=
  if !app.statePublishPending || !app.isConnected then app
  else
    match app.statePublishStep with
    | 0 => app.publishState app.ha.topicState (haBuildState app.light HA_STATE_BUFFER_SIZE) sent
    | 1 =>
        app.publishState app.ha.topicRangeFirstState
          (haBuildRangeState app.range .first HA_NUMBER_STATE_BUFFER_SIZE) sent
    | 2 =>
        app.publishState app.ha.topicRangeLastState
          (haBuildRangeState app.range .last HA_NUMBER_STATE_BUFFER_SIZE) sent
    | _ =>
        { app with
          publishedGeneration := app.statePublishGeneration
          publishedRangeGeneration := app.statePublishRangeGeneration
          lastPublishMs := now
          statePublishPending := false }

def publishDiscovery (entity : DiscoveryEntity) (sent : Bool) (app : App) : Bool × App :=
  match discoveryDocument app.ha app.ledCount entity with
  | none => (false, app)
  | some document => app.publish (discoveryTopic app.ha entity) document sent

def netAnnounce (subscribed : SubscribeAnswers) (app : App) : App :=
  let app := { app with log := .requested :: app.log }
  let app := app.subscribe app.ha.topicCommand subscribed.command
  let app := app.subscribe app.ha.topicRangeFirstCommand subscribed.first
  let app := app.subscribe app.ha.topicRangeLastCommand subscribed.last
  { app with announceStep := 0, announcePending := true, statePublishPending := false }

/-- A step of the announcement that is over when its message is accepted. -/
def announced (result : Bool × App) : App :=
  if result.1 then { result.2 with announceStep := result.2.announceStep + 1 } else result.2

def pollAnnouncement (sent : Bool) (app : App) : App :=
  if !app.announcePending || !app.isConnected then app
  else
    match app.announceStep with
    | 0 => announced (app.publishDiscovery .light sent)
    | 1 => announced (app.publishDiscovery .rangeFirst sent)
    | 2 => announced (app.publishDiscovery .rangeLast sent)
    | 3 => announced (app.publish app.ha.topicAvailability HA_AVAILABLE.bytes sent)
    | 4 =>
        let app := app.netPublishState
        if app.statePublishPending then { app with announceStep := app.announceStep + 1 } else app
    | _ => if app.statePublishPending then app else { app with announcePending := false }

end publishing

section callbacks

def onBrokerSession (subscribed : SubscribeAnswers) (app : App) : App := app.netAnnounce subscribed

def onBrokerMessage (topic payload : Bytes) (now : UInt32) (app : App) : App :=
  if topic = app.ha.topicRangeFirstCommand.bytes ∨ topic = app.ha.topicRangeLastCommand.bytes then
    match haParseRangeCommand payload with
    | none => app
    | some value =>
        if topic = app.ha.topicRangeFirstCommand.bytes then app.setRange (app.range.setFirst value)
        else app.setRange (app.range.setLast value)
  else if topic ≠ app.ha.topicCommand.bytes then app
  else
    match haParseCommand payload with
    | none => app
    | some command => app.setLight (haApplyCommand command app.light now)

/-- A call or a callback of MQTT, without what the application does in its own callbacks. -/
def mqttStep (move : MqttMove) (app : App) : App := { app with mqtt := app.mqtt.step move }

/-- lwIP reports the status of the connection. -/
def onStatus (accepted : Bool) (a : MqttAnswers) (subscribed : SubscribeAnswers) (app : App) : App :=
  let move := MqttMove.status accepted a
  if !move.enabled app.mqtt then app
  else
    let app := app.mqttStep move
    if !accepted then app
    else
      let app := { app with log := .session :: app.log }
      if app.mqtt.mqtt.config.onConnect then app.onBrokerSession subscribed else app

/-- lwIP hands over data of a message. -/
def onData (data : Bytes) (last : Bool) (now : UInt32) (app : App) : App :=
  let messages := app.mqtt.delivered.length
  let app := app.mqttStep (.incomingData data last)
  (app.mqtt.delivered.drop messages).foldl
    (fun app message => app.onBrokerMessage message.1 message.2 now) app

end callbacks

section lifecycle

/-- `cmd_connect` from the credentials on, and `net_start_if_configured` when that is ready to. -/
def associate (wa : WifiAnswers) (ma : MqttAnswers) (app : App) : App :=
  if wifiCheckCredentials (some app.stored.ssid) (some app.stored.password) ≠ .ok then app
  else
    let (result, wifi) := app.wifi.wifiConnect (wifiConfigOf app.stored) wa
    let app := { app with wifi := wifi }
    if result = .ok ∧ app.stored.brokerHost.length ≠ 0 then
      { app with mqtt := (app.mqtt.mqttConnect (mqttConfigOf app.stored app.ha) ma).2 }
    else app

def netStartIfConfigured (wa : WifiAnswers) (ma : MqttAnswers) (app : App) : App :=
  if !app.radioReady || !app.haReady then app else app.associate wa ma

def netPoll (a : NetAnswers) (app : App) : App :=
  let app := { app with wifi := app.wifi.wifiPoll a.wifi }
  let app := { app with mqtt := app.mqtt.mqttPoll a.mqtt }
  (app.pollAnnouncement a.announcementSent).pollStatePublish a.stateSent a.now

/-- A command has changed the settings, whose strings the configurations have borrowed. -/
def setStored (stored : StoredSettings) (app : App) : App :=
  { app with
    stored := stored
    wifi := app.wifi.setWifi fun m =>
      { m with
        config :=
          { m.config with
            ssid := m.config.ssid.map fun _ => stored.ssid
            password := m.config.password.map fun _ => stored.password
            hostname := m.config.hostname.map fun _ => stored.hostname } }
    mqtt := app.mqtt.setMqtt fun m =>
      { m with
        config :=
          { m.config with
            brokerHost := m.config.brokerHost.map fun _ => stored.brokerHost
            clientId := m.config.clientId.map fun _ => stored.deviceId
            username := m.config.username.map fun _ => stored.mqttUser
            password := m.config.password.map fun _ => stored.mqttPass } } }

def cmdDisconnect (app : App) : App :=
  { app with mqtt := app.mqtt.mqttClose.2, wifi := app.wifi.wifiDisconnect.2 }

def cmdAnnounce (subscribed : SubscribeAnswers) (app : App) : App :=
  if !app.isConnected then app else app.netAnnounce subscribed

/-- The main loop behind its polls, as far as it publishes. -/
def mainLoop (now : UInt32) (app : App) : App :=
  let app := app.setLight (app.light.tick now)
  if (app.light.generation ≠ app.publishedGeneration ∨
      app.range.generation ≠ app.publishedRangeGeneration) ∧
      now - app.lastPublishMs ≥ PUBLISH_INTERVAL_MS then app.netPublishState
  else app

end lifecycle

end App

section starting

/-- `load_light`, of what the store has. -/
def loadLight (brightness rgb : UInt32) : Light :=
  lightRestore <| some
    { on := false
      brightness := if brightness > 255 then 255 else brightness.toUInt8
      color := ws2812Rgb (rgb >>> 16).toUInt8 (rgb >>> 8).toUInt8 rgb.toUInt8
      mireds := LIGHT_DEFAULT_MIREDS
      colorMode := LightColorMode.temp.number
      effect := LightEffect.solid.number }

def loadRange (ledCount : UInt16) (first last : UInt32) : LedRange :=
  let saved (value : UInt32) : UInt16 := if value.toNat < 2 ^ 16 then value.toUInt16 else 0
  ledRangeRestore ledCount (saved first) (saved last)

/-- What a board has in flash, and what its network answers as it starts. -/
structure Boot where
  ledCount : UInt16
  stored : StoredSettings
  brightness : UInt32
  rgb : UInt32
  rangeFirst : UInt32
  rangeLast : UInt32
  radioOk : Bool
  wifi : WifiAnswers
  mqtt : MqttAnswers

/-- `main` up to its loop. -/
def Boot.app (boot : Boot) : App :=
  let light := loadLight boot.brightness boot.rgb
  let range := loadRange boot.ledCount boot.rangeFirst boot.rangeLast
  let (started, wifi) := wifiInit boot.radioOk
  let (haReady, ha) := haInit (some boot.stored.deviceId) (some boot.stored.haPrefix) haCleared
  let app : App :=
    { ledCount := boot.ledCount, light := light, range := range, wifi := wifi, mqtt := mqttInit
      ha := ha, radioReady := started = .ok, haReady := haReady, announcePending := false
      announceStep := 0, statePublishPending := false, statePublishStep := 0
      statePublishGeneration := 0, statePublishRangeGeneration := 0, stored := boot.stored
      publishedGeneration := light.generation, publishedRangeGeneration := range.generation
      lastPublishMs := 0, log := [], lightChanges := 0, rangeChanges := 0 }
  app.netStartIfConfigured boot.wifi boot.mqtt

end starting

/-- A call that changes the range. -/
inductive RangeMove where
  | set (first last : UInt16)
  | setFirst (first : UInt32)
  | setLast (last : UInt32)

def LedRange.step (range : LedRange) : RangeMove → LedRange
  | .set first last => (range.set first last).2
  | .setFirst first => range.setFirst first
  | .setLast last => range.setLast last

/-- A command of the console, a callback of lwIP, or a part of the main loop. -/
inductive HomeLedMove where
  | light (move : LightMove)
  | range (move : RangeMove)
  | settings (stored : StoredSettings)
  | connect (wa : WifiAnswers) (ma : MqttAnswers)
  | disconnect
  | announce (subscribed : SubscribeAnswers)
  | dns (ip : Option UInt32) (a : MqttAnswers)
  | status (accepted : Bool) (a : MqttAnswers) (subscribed : SubscribeAnswers)
  | incomingPublish (topic : CString)
  | incomingData (data : Bytes) (last : Bool) (now : UInt32)
  | poll (a : NetAnswers)
  | loop (now : UInt32)

def App.step (app : App) : HomeLedMove → App
  | .light move => app.setLight (app.light.step move)
  | .range move => app.setRange (app.range.step move)
  | .settings stored => app.setStored stored
  | .connect wa ma => app.associate wa ma
  | .disconnect => app.cmdDisconnect
  | .announce subscribed => app.cmdAnnounce subscribed
  | .dns ip a => app.mqttStep (.dns ip a)
  | .status accepted a subscribed => app.onStatus accepted a subscribed
  | .incomingPublish topic => app.mqttStep (.incomingPublish topic)
  | .incomingData data last now => app.onData data last now
  | .poll a => app.netPoll a
  | .loop now => app.mainLoop now

end Pico
