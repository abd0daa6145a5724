import PicoFramework.Spec.Basic

/-! `mqtt_policy.c`: which topics, filters and client ids are sent at all. -/

namespace Pico

def MQTT_TOPIC_MAX_LENGTH : ℕ := 128
def MQTT_CLIENT_ID_MAX_LENGTH : ℕ := 64

inductive MqttTopicResult where
  | ok
  | empty
  | tooLong
  | wildcardNotAllowed
  | badWildcardPlacement
deriving DecidableEq

inductive MqttClientIdResult where
  | ok
  | empty
  | tooLong
deriving DecidableEq

/-- NULL, or no character. -/
def isBlank (s : Option CString) : Bool := (s.map CString.length).getD 0 = 0

def mqttCheckPublishTopic (topic : Option CString) : MqttTopicResult :=
  match topic with
  | none => .empty
  | some topic =>
      if topic.length = 0 then .empty
      else if topic.length > MQTT_TOPIC_MAX_LENGTH then .tooLong
      else if topic.bytes.any fun c => c = 0x2B || c = 0x23 then .wildcardNotAllowed
      else .ok

/-- What the walk makes of the level that ends where it is; `atEnd` at the terminator. -/
def checkLevel (level : Bytes) (atEnd : Bool) : MqttTopicResult :=
  let hasPlus := level.any (· = 0x2B)
  let hasHash := level.any (· = 0x23)
  if hasPlus && level.length ≠ 1 then .badWildcardPlacement
  else if hasHash && (level.length ≠ 1 || !atEnd) then .badWildcardPlacement
  else .ok

/-- The walk of `mqtt_check_subscribe_filter` over what follows; `level` is what lies between
`level_start` and `p`. -/
def checkLevels (level : Bytes) : Bytes → MqttTopicResult
  | [] => checkLevel level true
  | c :: rest =>
      if c = 0x2F then
        match checkLevel level false with
        | .ok => checkLevels [] rest
        | refused => refused
      else checkLevels (level ++ [c]) rest

def mqttCheckSubscribeFilter (topic : Option CString) : MqttTopicResult :=
  match topic with
  | none => .empty
  | some topic =>
      if topic.length = 0 then .empty
      else if topic.length > MQTT_TOPIC_MAX_LENGTH then .tooLong
      else checkLevels [] topic.bytes

def mqttCheckClientId (clientId : Option CString) : MqttClientIdResult :=
  match clientId with
  | none => .empty
  | some clientId =>
      if clientId.length = 0 then .empty
      else if clientId.length > MQTT_CLIENT_ID_MAX_LENGTH then .tooLong
      else .ok

def mqttQosIsValid (qos : UInt8) : Bool := qos ≤ 2

end Pico
