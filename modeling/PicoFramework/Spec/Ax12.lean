import PicoFramework.Spec.ServoCalls

/-! `ax12.c` and `ax12_registers.c`. -/

namespace Pico

def AX12_REG_MODEL_NUMBER : UInt8 := 0x00
def AX12_REG_FIRMWARE_VERSION : UInt8 := 0x02
def AX12_REG_ID : UInt8 := 0x03
def AX12_REG_BAUD_RATE : UInt8 := 0x04
def AX12_REG_RETURN_DELAY_TIME : UInt8 := 0x05
def AX12_REG_CW_ANGLE_LIMIT : UInt8 := 0x06
def AX12_REG_CCW_ANGLE_LIMIT : UInt8 := 0x08
def AX12_REG_TEMPERATURE_LIMIT : UInt8 := 0x0B
def AX12_REG_MIN_VOLTAGE_LIMIT : UInt8 := 0x0C
def AX12_REG_MAX_VOLTAGE_LIMIT : UInt8 := 0x0D
def AX12_REG_MAX_TORQUE : UInt8 := 0x0E
def AX12_REG_STATUS_RETURN_LEVEL : UInt8 := 0x10
def AX12_REG_ALARM_LED : UInt8 := 0x11
def AX12_REG_SHUTDOWN : UInt8 := 0x12
def AX12_REG_DOWN_CALIBRATION : UInt8 := 0x14
def AX12_REG_UP_CALIBRATION : UInt8 := 0x16
def AX12_REG_TORQUE_ENABLE : UInt8 := 0x18
def AX12_REG_LED : UInt8 := 0x19
def AX12_REG_CW_COMPLIANCE_MARGIN : UInt8 := 0x1A
def AX12_REG_CCW_COMPLIANCE_MARGIN : UInt8 := 0x1B
def AX12_REG_CW_COMPLIANCE_SLOPE : UInt8 := 0x1C
def AX12_REG_CCW_COMPLIANCE_SLOPE : UInt8 := 0x1D
def AX12_REG_GOAL_POSITION : UInt8 := 0x1E
def AX12_REG_MOVING_SPEED : UInt8 := 0x20
def AX12_REG_TORQUE_LIMIT : UInt8 := 0x22
def AX12_REG_PRESENT_POSITION : UInt8 := 0x24
def AX12_REG_PRESENT_SPEED : UInt8 := 0x26
def AX12_REG_PRESENT_LOAD : UInt8 := 0x28
def AX12_REG_PRESENT_VOLTAGE : UInt8 := 0x2A
def AX12_REG_PRESENT_TEMPERATURE : UInt8 := 0x2B
def AX12_REG_REGISTERED : UInt8 := 0x2C
def AX12_REG_MOVING : UInt8 := 0x2E
def AX12_REG_LOCK : UInt8 := 0x2F
def AX12_REG_PUNCH : UInt8 := 0x30

def AX12_POSITION_MAX : ℕ := 1023
def AX12_RANGE_MILLIDEGREES : ℕ := 300000
def AX12_SPEED_MAX : ℕ := 1023
def AX12_ID_MIN : ℕ := 0
def AX12_ID_MAX : ℕ := 253
def AX12_BAUD_CLOCK : ℕ := 2000000
def AX12_BAUD_VALUE_MIN : ℕ := 1
def AX12_BAUD_VALUE_MAX : ℕ := 254
def AX12_DEFAULT_ID : UInt8 := 1
def AX12_DEFAULT_BAUDRATE : UInt32 := 1000000
def AX12_RESET_TIMEOUT_MS : ℕ := 1000

section registers

/-- `g_registers`: address and width. -/
def ax12Registers : List (UInt8 × UInt8) :=
  [(AX12_REG_MODEL_NUMBER, 2), (AX12_REG_FIRMWARE_VERSION, 1), (AX12_REG_ID, 1),
    (AX12_REG_BAUD_RATE, 1), (AX12_REG_RETURN_DELAY_TIME, 1), (AX12_REG_CW_ANGLE_LIMIT, 2),
    (AX12_REG_CCW_ANGLE_LIMIT, 2), (AX12_REG_TEMPERATURE_LIMIT, 1),
    (AX12_REG_MIN_VOLTAGE_LIMIT, 1), (AX12_REG_MAX_VOLTAGE_LIMIT, 1), (AX12_REG_MAX_TORQUE, 2),
    (AX12_REG_STATUS_RETURN_LEVEL, 1), (AX12_REG_ALARM_LED, 1), (AX12_REG_SHUTDOWN, 1),
    (AX12_REG_DOWN_CALIBRATION, 2), (AX12_REG_UP_CALIBRATION, 2), (AX12_REG_TORQUE_ENABLE, 1),
    (AX12_REG_LED, 1), (AX12_REG_CW_COMPLIANCE_MARGIN, 1), (AX12_REG_CCW_COMPLIANCE_MARGIN, 1),
    (AX12_REG_CW_COMPLIANCE_SLOPE, 1), (AX12_REG_CCW_COMPLIANCE_SLOPE, 1),
    (AX12_REG_GOAL_POSITION, 2), (AX12_REG_MOVING_SPEED, 2), (AX12_REG_TORQUE_LIMIT, 2),
    (AX12_REG_PRESENT_POSITION, 2), (AX12_REG_PRESENT_SPEED, 2), (AX12_REG_PRESENT_LOAD, 2),
    (AX12_REG_PRESENT_VOLTAGE, 1), (AX12_REG_PRESENT_TEMPERATURE, 1), (AX12_REG_REGISTERED, 1),
    (AX12_REG_MOVING, 1), (AX12_REG_LOCK, 1), (AX12_REG_PUNCH, 2)]

def ax12RegisterWidth (address : UInt8) : UInt8 := (ax12Registers.lookup address).getD 0

def ax12BaudValueToRate (value : UInt8) : UInt32 :=
  if value.toNat < AX12_BAUD_VALUE_MIN then 0
  else if value.toNat > AX12_BAUD_VALUE_MAX then 0
  else UInt32.ofNat (AX12_BAUD_CLOCK / (value.toNat + 1))

def ax12RateToBaudValue (rate : UInt32) : Option UInt8 :=
  if rate = 0 then none
  else
    let divisor := wrap32 (AX12_BAUD_CLOCK + rate.toNat / 2) / rate.toNat
    if divisor < AX12_BAUD_VALUE_MIN + 1 ∨ divisor > AX12_BAUD_VALUE_MAX + 1 then none
    else
      let candidate := UInt8.ofNat (divisor - 1)
      let actual := ax12BaudValueToRate candidate
      let difference := if actual > rate then actual - rate else rate - actual
      if difference.toNat * 100 > rate.toNat * 3 then none else some candidate

def ax12PositionToMillidegrees (position : UInt16) : UInt32 :=
  let position := min position.toNat AX12_POSITION_MAX
  UInt32.ofNat ((position * AX12_RANGE_MILLIDEGREES + AX12_POSITION_MAX / 2) / AX12_POSITION_MAX)

def ax12MillidegreesToPosition (millidegrees : UInt32) : UInt16 :=
  if millidegrees.toNat ≥ AX12_RANGE_MILLIDEGREES then UInt16.ofNat AX12_POSITION_MAX
  else
    UInt16.ofNat ((millidegrees.toNat * AX12_POSITION_MAX + AX12_RANGE_MILLIDEGREES / 2) /
      AX12_RANGE_MILLIDEGREES)

def ax12DecodeSignedMagnitude (raw : UInt16) : Int16 :=
  let magnitude := (raw &&& 0x03FF).toInt16
  if raw &&& 0x0400 ≠ 0 then -magnitude else magnitude

def ax12VoltageToMillivolts (raw : UInt8) : UInt32 := raw.toUInt32 * 100

end registers

variable {ε : Type} (L : Line ε)

section calls

def ax12Ping (id : UInt8) : BusM ε ServoBusResult := return (← servoBusPing L id none).result

/-- The IDs found; `ids` is whether there is a table for them. -/
def ax12Scan (ids : Bool) (capacity : ℕ) : BusM ε (ServoBusResult × Bytes) := do
  if !ids || capacity = 0 then
    return (.errInvalidArg, [])
  let found ← withoutRetries <|
    scanFrom L capacity (List.range' AX12_ID_MIN (AX12_ID_MAX + 1 - AX12_ID_MIN)) []
  return (.ok, found)

def ax12ReadRegister (id reg : UInt8) (value : Option UInt32) (errorOut : Option UInt8) :
    BusM ε (ServoBusResult × Option UInt32 × Option UInt8) := do
  let width := ax12RegisterWidth reg
  if width = 0 then
    return (.errInvalidArg, value, errorOut)
  servoBusReadValue L id reg width value errorOut

def ax12WriteRegister (id reg : UInt8) (value : UInt32) (errorOut : Option UInt8) :
    BusM ε ServoReply := do
  let width := ax12RegisterWidth reg
  if width = 0 then
    return ⟨.errInvalidArg, none, errorOut⟩
  servoBusWriteValue L id reg value width errorOut

def ax12SetTorqueEnable (id : UInt8) (enable : Bool) : BusM ε ServoBusResult :=
  writeServoRegister L id AX12_REG_TORQUE_ENABLE (if enable then 1 else 0) 1

def ax12SetGoalPosition (id : UInt8) (position : UInt16) : BusM ε ServoBusResult :=
  writeUpTo L AX12_POSITION_MAX id AX12_REG_GOAL_POSITION position 2

def ax12GetPresentPosition (id : UInt8) (position : Option UInt16) :
    BusM ε (ServoBusResult × Option UInt16) :=
  readInto L id AX12_REG_PRESENT_POSITION 2 UInt32.toUInt16 position

def ax12SetGoalMillidegrees (id : UInt8) (millidegrees : UInt32) : BusM ε ServoBusResult :=
  ax12SetGoalPosition L id (ax12MillidegreesToPosition millidegrees)

def ax12GetPresentMillidegrees (id : UInt8) (millidegrees : Option UInt32) :
    BusM ε (ServoBusResult × Option UInt32) := do
  if millidegrees.isNone then
    return (.errInvalidArg, millidegrees)
  let (result, position) ← ax12GetPresentPosition L id (some 0)
  return (result,
    if result = .ok then some (ax12PositionToMillidegrees (position.getD 0)) else millidegrees)

def ax12SetMovingSpeed (id : UInt8) (speed : UInt16) : BusM ε ServoBusResult :=
  writeUpTo L AX12_SPEED_MAX id AX12_REG_MOVING_SPEED speed 2

def ax12SetTorqueLimit (id : UInt8) (limit : UInt16) : BusM ε ServoBusResult :=
  writeUpTo L AX12_POSITION_MAX id AX12_REG_TORQUE_LIMIT limit 2

def ax12IsMoving (id : UInt8) (moving : Option Bool) : BusM ε (ServoBusResult × Option Bool) :=
  readInto L id AX12_REG_MOVING 1 (fun value => value ≠ 0) moving

def ax12SyncSetGoalPositions (targets : Option (List ServoSyncTarget)) (count : UInt8) :
    BusM ε ServoBusResult :=
  syncWriteChecked L AX12_REG_GOAL_POSITION AX12_POSITION_MAX AX12_ID_MAX targets count

def ax12GetPresentSpeed (id : UInt8) (speed : Option Int16) : BusM ε (ServoBusResult × Option Int16) :=
  readInto L id AX12_REG_PRESENT_SPEED 2 (fun value => ax12DecodeSignedMagnitude value.toUInt16) speed

def ax12GetPresentLoad (id : UInt8) (load : Option Int16) : BusM ε (ServoBusResult × Option Int16) :=
  readInto L id AX12_REG_PRESENT_LOAD 2 (fun value => ax12DecodeSignedMagnitude value.toUInt16) load

def ax12SetLed (id : UInt8) (on : Bool) : BusM ε ServoBusResult :=
  writeServoRegister L id AX12_REG_LED (if on then 1 else 0) 1

def ax12GetTemperature (id : UInt8) (degrees : Option UInt8) : BusM ε (ServoBusResult × Option UInt8) :=
  readInto L id AX12_REG_PRESENT_TEMPERATURE 1 UInt32.toUInt8 degrees

def ax12GetVoltageMillivolts (id : UInt8) (millivolts : Option UInt32) :
    BusM ε (ServoBusResult × Option UInt32) :=
  readInto L id AX12_REG_PRESENT_VOLTAGE 1 (fun value => ax12VoltageToMillivolts value.toUInt8)
    millivolts

def ax12SetId (id newId : UInt8) : BusM ε ServoBusResult := do
  if newId.toNat > AX12_ID_MAX then
    return .errInvalidArg
  writeServoRegister L id AX12_REG_ID newId.toUInt32 1

def ax12SetBaudrate (id : UInt8) (rate : UInt32) : BusM ε ServoBusResult := do
  match ax12RateToBaudValue rate with
  | none => return .errInvalidArg
  | some value =>
      let exact := ax12BaudValueToRate value
      let previous ← servoBusGetBaudrate
      let reachable ← servoBusSetBaudrate L exact
      if reachable ≠ .ok then
        return reachable
      let restored ← servoBusSetBaudrate L previous
      if restored ≠ .ok then
        return restored
      let written ← withoutRetries (writeServoRegister L id AX12_REG_BAUD_RATE value.toUInt32 1)
      if written = .errTransport ∨ written = .errInvalidArg then
        return written
      let followed ← servoBusSetBaudrate L exact
      if followed ≠ .ok then
        return followed
      if id = SERVO_PROTOCOL_BROADCAST_ID then
        return .ok
      let answered := (← servoBusPing L id none).result
      if answered ≠ .ok then
        let _ ← servoBusSetBaudrate L previous
      return answered

def ax12FactoryReset (id : UInt8) : BusM ε ServoBusResult := do
  if id = SERVO_PROTOCOL_BROADCAST_ID then
    return .errInvalidArg
  let previous ← servoBusGetBaudrate
  let reachable ← servoBusSetBaudrate L AX12_DEFAULT_BAUDRATE
  if reachable ≠ .ok then
    return reachable
  let restored ← servoBusSetBaudrate L previous
  if restored ≠ .ok then
    return restored
  let sent := (← servoBusFactoryReset L id none).result
  if sent = .errTransport ∨ sent = .errInvalidArg then
    return sent
  let followed ← servoBusSetBaudrate L AX12_DEFAULT_BAUDRATE
  if followed ≠ .ok then
    return followed
  if ← pollReset L AX12_DEFAULT_ID (AX12_RESET_TIMEOUT_MS / 50) then
    return .ok
  let _ ← servoBusSetBaudrate L previous
  return .errTimeout

def ax12SetAngleLimits (id : UInt8) (cwLimit ccwLimit : UInt16) : BusM ε ServoBusResult := do
  if cwLimit.toNat > AX12_POSITION_MAX || ccwLimit.toNat > AX12_POSITION_MAX then
    return .errInvalidArg
  let data := servoProtocolEncodeValue cwLimit.toUInt32 2 .little ++
    servoProtocolEncodeValue ccwLimit.toUInt32 2 .little
  return (← servoBusWrite L id AX12_REG_CW_ANGLE_LIMIT (some data) 4 none).result

end calls

end Pico
