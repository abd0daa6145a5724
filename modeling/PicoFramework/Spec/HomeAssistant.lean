import Mathlib.Data.List.TakeWhile
import PicoFramework.Spec.JsonWriter
import PicoFramework.Spec.LedRange
import PicoFramework.Spec.Light

/-! `ha.c`: topics, discovery documents, and the messages that Home Assistant and the light
exchange. What a builder returns is the text behind the length, and `none` for a length of zero. -/

namespace Pico

def HA_TOPIC_MAX_LENGTH : ℕ := 96
def HA_DEVICE_ID_MAX_LENGTH : ℕ := 32
def HA_DISCOVERY_BUFFER_SIZE : ℕ := 1024
def HA_STATE_BUFFER_SIZE : ℕ := 256
def HA_NUMBER_STATE_BUFFER_SIZE : ℕ := 8
def HA_AVAILABLE : CString := cstr "online"
def HA_UNAVAILABLE : CString := cstr "offline"
def DEFAULT_DISCOVERY_PREFIX : CString := cstr "homeassistant"

structure Ha where
  deviceId : CString
  topicConfig : CString
  topicCommand : CString
  topicState : CString
  topicAvailability : CString
  topicRangeFirstConfig : CString
  topicRangeFirstCommand : CString
  topicRangeFirstState : CString
  topicRangeLastConfig : CString
  topicRangeLastCommand : CString
  topicRangeLastState : CString
deriving DecidableEq

inductive HaRangeEndpoint where
  | first
  | last
deriving DecidableEq

/-- `ha_command_t`; a field that is not flagged is `none`. -/
structure HaCommand where
  power : Option Bool
  brightness : Option UInt8
  color : Option Ws2812Color
  mireds : Option UInt16
  effect : Option UInt32
  unknownEffect : Bool
deriving DecidableEq

section topics

/-- A text that `snprintf` has not cut short. -/
def whole (size : ℕ) (text : CString) : Option CString :=
  if 0 < text.length ∧ text.length < size then some text else none

def compose (discoveryPrefix component id suffix : CString) : Option CString :=
  whole (HA_TOPIC_MAX_LENGTH + 1)
    (discoveryPrefix ++ cstr "/" ++ component ++ cstr "/" ++ id ++ cstr "/" ++ suffix)

def composeRangeConfig (discoveryPrefix id endpoint : CString) : Option CString :=
  whole (HA_TOPIC_MAX_LENGTH + 1)
    (discoveryPrefix ++ cstr "/number/" ++ id ++ cstr "_range_" ++ endpoint ++ cstr "/config")

/-- After `memset`. -/
def haCleared : Ha :=
  ⟨cstr "", cstr "", cstr "", cstr "", cstr "", cstr "", cstr "", cstr "", cstr "", cstr "", cstr ""⟩

/-- The topics of a device, all ten or none. -/
def haTopics (discoveryPrefix id : CString) : Option Ha := do
  let config ← compose discoveryPrefix (cstr "light") id (cstr "config")
  let command ← compose discoveryPrefix (cstr "light") id (cstr "set")
  let state ← compose discoveryPrefix (cstr "light") id (cstr "state")
  let availability ← compose discoveryPrefix (cstr "light") id (cstr "status")
  let firstConfig ← composeRangeConfig discoveryPrefix id (cstr "first")
  let firstCommand ← compose discoveryPrefix (cstr "light") id (cstr "range/first/set")
  let firstState ← compose discoveryPrefix (cstr "light") id (cstr "range/first/state")
  let lastConfig ← composeRangeConfig discoveryPrefix id (cstr "last")
  let lastCommand ← compose discoveryPrefix (cstr "light") id (cstr "range/last/set")
  let lastState ← compose discoveryPrefix (cstr "light") id (cstr "range/last/state")
  return ⟨id, config, command, state, availability, firstConfig, firstCommand, firstState,
    lastConfig, lastCommand, lastState⟩

/-- `ha_init`: what it answers, and the topics it leaves. -/
def haInit (deviceId discoveryPrefix : Option CString) (ha : Ha) : Bool × Ha :=
  match deviceId with
  | none => (false, ha)
  | some id =>
      if id.length = 0 then (false, ha)
      else if id.length > HA_DEVICE_ID_MAX_LENGTH then (false, haCleared)
      else
        let discoveryPrefix :=
          match discoveryPrefix with
          | none => DEFAULT_DISCOVERY_PREFIX
          | some given => if given.length = 0 then DEFAULT_DISCOVERY_PREFIX else given
        match haTopics discoveryPrefix id with
        | none => (false, haCleared)
        | some ha => (true, ha)

end topics

section outgoing

/-- What a builder returns of the document that it has written. -/
def finished (writer : JsonWriter) : Option Bytes :=
  if (jsonWriterFinish writer).1 ∧ writer.length ≠ 0 then some writer.text else none

def writeDevice (writer : JsonWriter) (ha : Ha) : JsonWriter :=
  let writer := jsonWriterObjectOpen writer (cstr "device")
  let writer := jsonWriterArrayOpen writer (cstr "identifiers")
  let writer := jsonWriterString writer none ha.deviceId
  let writer := jsonWriterArrayClose writer
  let writer := jsonWriterString writer (cstr "name") (cstr "Pico LED controller")
  let writer := jsonWriterString writer (cstr "manufacturer") (cstr "pico-framework")
  let writer := jsonWriterString writer (cstr "model") (cstr "home_led")
  jsonWriterObjectClose writer

def haBuildDiscovery (ha : Ha) (size : ℕ) : Option Bytes :=
  if size = 0 ∨ ha.deviceId.length = 0 then none
  else
    let uniqueId := (ha.deviceId ++ cstr "_light").cut (HA_DEVICE_ID_MAX_LENGTH + 8)
    let writer := jsonWriterInit (some size)
    let writer := jsonWriterObjectOpen writer none
    let writer := jsonWriterString writer (cstr "name") (cstr "LED strip")
    let writer := jsonWriterString writer (cstr "unique_id") uniqueId
    let writer := jsonWriterString writer (cstr "schema") (cstr "json")
    let writer := jsonWriterString writer (cstr "command_topic") ha.topicCommand
    let writer := jsonWriterString writer (cstr "state_topic") ha.topicState
    let writer := jsonWriterString writer (cstr "availability_topic") ha.topicAvailability
    let writer := jsonWriterString writer (cstr "payload_available") HA_AVAILABLE
    let writer := jsonWriterString writer (cstr "payload_not_available") HA_UNAVAILABLE
    let writer := jsonWriterBool writer (cstr "brightness") true
    let writer := jsonWriterArrayOpen writer (cstr "supported_color_modes")
    let writer := jsonWriterString writer none (cstr "rgb")
    let writer := jsonWriterString writer none (cstr "color_temp")
    let writer := jsonWriterArrayClose writer
    let writer := jsonWriterInt writer (cstr "min_mireds") (Int32.ofNat LIGHT_MIREDS_MIN.toNat)
    let writer := jsonWriterInt writer (cstr "max_mireds") (Int32.ofNat LIGHT_MIREDS_MAX.toNat)
    let writer := jsonWriterBool writer (cstr "effect") true
    let writer := jsonWriterArrayOpen writer (cstr "effect_list")
    let writer := (List.range LIGHT_EFFECT_COUNT).foldl
      (fun writer i => jsonWriterString writer none (lightEffectName (UInt32.ofNat i))) writer
    let writer := jsonWriterArrayClose writer
    let writer := jsonWriterInt writer (cstr "qos") 1
    let writer := writeDevice writer ha
    finished (jsonWriterObjectClose writer)

def haBuildRangeDiscovery (ha : Ha) (endpoint : HaRangeEndpoint) (ledCount : UInt16) (size : ℕ) :
    Option Bytes :=
  if size = 0 ∨ ledCount = 0 ∨ ha.deviceId.length = 0 then none
  else
    let first := endpoint = .first
    let uniqueId := (ha.deviceId ++ cstr "_range_" ++ if first then cstr "first" else cstr "last").cut
      (HA_DEVICE_ID_MAX_LENGTH + 20)
    let writer := jsonWriterInit (some size)
    let writer := jsonWriterObjectOpen writer none
    let writer := jsonWriterString writer (cstr "name")
      (if first then cstr "Range start" else cstr "Range end")
    let writer := jsonWriterString writer (cstr "unique_id") uniqueId
    let writer := jsonWriterString writer (cstr "command_topic")
      (if first then ha.topicRangeFirstCommand else ha.topicRangeLastCommand)
    let writer := jsonWriterString writer (cstr "state_topic")
      (if first then ha.topicRangeFirstState else ha.topicRangeLastState)
    let writer := jsonWriterString writer (cstr "availability_topic") ha.topicAvailability
    let writer := jsonWriterString writer (cstr "payload_available") HA_AVAILABLE
    let writer := jsonWriterString writer (cstr "payload_not_available") HA_UNAVAILABLE
    let writer := jsonWriterInt writer (cstr "min") 1
    let writer := jsonWriterInt writer (cstr "max") (Int32.ofNat ledCount.toNat)
    let writer := jsonWriterInt writer (cstr "step") 1
    let writer := jsonWriterString writer (cstr "mode") (cstr "slider")
    let writer := jsonWriterInt writer (cstr "qos") 1
    let writer := writeDevice writer ha
    finished (jsonWriterObjectClose writer)

def haBuildState (light : Light) (size : ℕ) : Option Bytes :=
  if size = 0 then none
  else
    let writer := jsonWriterInit (some size)
    let writer := jsonWriterObjectOpen writer none
    let writer := jsonWriterString writer (cstr "state") (if light.on then cstr "ON" else cstr "OFF")
    let writer := jsonWriterInt writer (cstr "brightness") (Int32.ofNat light.brightness.toNat)
    let writer := jsonWriterString writer (cstr "color_mode") (lightColorModeName light.colorMode)
    let writer :=
      if light.colorMode = .temp then
        jsonWriterInt writer (cstr "color_temp") (Int32.ofNat light.mireds.toNat)
      else
        let writer := jsonWriterObjectOpen writer (cstr "color")
        let writer := jsonWriterInt writer (cstr "r") (Int32.ofNat light.color.r.toNat)
        let writer := jsonWriterInt writer (cstr "g") (Int32.ofNat light.color.g.toNat)
        let writer := jsonWriterInt writer (cstr "b") (Int32.ofNat light.color.b.toNat)
        jsonWriterObjectClose writer
    let writer :=
      match lightEffectName light.effect.number with
      | none => writer
      | some effect => jsonWriterString writer (cstr "effect") effect
    finished (jsonWriterObjectClose writer)

def haBuildRangeState (range : LedRange) (endpoint : HaRangeEndpoint) (size : ℕ) : Option Bytes :=
  if size = 0 then none
  else
    let value := if endpoint = .first then range.first else range.last
    let text := ascii (toString value.toNat)
    if 0 < text.length ∧ text.length < size then some text else none

end outgoing

section incoming

/-- A number of a document, as one of the bytes. -/
def clampByte (number : Int32) : UInt8 :=
  if number < 0 then 0 else if number > 255 then 255 else UInt8.ofNat number.toNatClampNeg

def readChannel (object : JsonValue) (key : CString) : Option UInt8 := do
  let value ← jsonFindIn object key
  let number ← jsonGetInt value
  return clampByte number

def startsAnObject (payload : Bytes) : Bool := (payload.dropWhile isJsonSpace).head? = some 0x7B

def parsePower (payload : Bytes) : Option Bool := do
  let value ← jsonFindN payload (cstr "state")
  if jsonStringEquals value (cstr "ON") then some true
  else if jsonStringEquals value (cstr "OFF") then some false
  else none

def parseBrightness (payload : Bytes) : Option UInt8 := do
  let value ← jsonFindN payload (cstr "brightness")
  let number ← jsonGetInt value
  return clampByte number

/-- All three channels or none. -/
def parseColor (payload : Bytes) : Option Ws2812Color := do
  let value ← jsonFindN payload (cstr "color")
  let r ← readChannel value (cstr "r")
  let g ← readChannel value (cstr "g")
  let b ← readChannel value (cstr "b")
  return ws2812Rgb r g b

def parseMireds (payload : Bytes) : Option UInt16 := do
  let value ← jsonFindN payload (cstr "color_temp")
  let number ← jsonGetInt value
  if number > 0 then some (if number > 65535 then 65535 else UInt16.ofNat number.toNatClampNeg)
  else none

/-- The effect, and whether one was named that there is not. -/
def parseEffect (payload : Bytes) : Option UInt32 × Bool :=
  match jsonFindN payload (cstr "effect") with
  | none => (none, false)
  | some value =>
      match jsonGetString value 40 with
      | none => (none, true)
      | some name =>
          match lightEffectFromName (some (bufferString name)) with
          | some effect => (some effect, false)
          | none => (none, true)

def haParseCommand (payload : Bytes) : Option HaCommand :=
  if payload = [] then none
  else if !startsAnObject payload || !jsonValidN payload then none
  else
    some
      { power := parsePower payload
        brightness := parseBrightness payload
        color := parseColor payload
        mireds := parseMireds payload
        effect := (parseEffect payload).1
        unknownEffect := (parseEffect payload).2 }

/-- The digits of `ha_parse_range_command`: a value that no `uint32_t` has ends it. -/
def rangeDigits : ℕ → Bytes → Option (ℕ × Bytes)
  | value, [] => some (value, [])
  | value, c :: rest =>
      if isJsonDigit c then
        let digit := (c - 0x30).toNat
        if value > (0xFFFFFFFF - digit) / 10 then none else rangeDigits (value * 10 + digit) rest
      else some (value, c :: rest)

/-- After a point, zeros and at least one. -/
def skipZeroFraction (p : Bytes) : Option Bytes :=
  match p with
  | [] => some []
  | c :: rest =>
      if c ≠ 0x2E then some (c :: rest)
      else
        let after := rest.dropWhile (· = 0x30)
        if after.length = rest.length then none else some after

def haParseRangeCommand (payload : Bytes) : Option UInt32 := do
  if payload = [] then none
  let p := payload.dropWhile isJsonSpace
  let p := if p.head? = some 0x2B then p.drop 1 else p
  let (value, rest) ← rangeDigits 0 p
  if rest.length = p.length then none
  let rest ← skipZeroFraction rest
  if rest.dropWhile isJsonSpace ≠ [] then none
  return UInt32.ofNat value

/-- `ha_parse_range_command` with the memory at `out`, which only the last step writes. -/
def haParseRangeCommandInto (payload : Bytes) (out : UInt32) : Bool × UInt32 :=
  match haParseRangeCommand payload with
  | some value => (true, value)
  | none => (false, out)

/-- `ha_apply_command`: appearance before power. -/
def haApplyCommand (command : HaCommand) (light : Light) (nowMs : UInt32) : Light :=
  let light := command.brightness.elim light (light.setBrightness · nowMs)
  let light := command.color.elim light light.setColor
  let light := command.mireds.elim light (light.setMireds · nowMs)
  let light := command.effect.elim light fun effect => (light.setEffect effect).2
  command.power.elim light (light.setPower · nowMs)

end incoming

end Pico
