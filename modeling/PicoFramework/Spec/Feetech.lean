import PicoFramework.Spec.ServoCalls

/-! `feetech.c` and `feetech_registers.c`. -/

namespace Pico

def FEETECH_REG_MODEL : UInt8 := 0x03
def FEETECH_REG_ID : UInt8 := 0x05
def FEETECH_REG_BAUD_RATE : UInt8 := 0x06
def FEETECH_REG_RETURN_DELAY : UInt8 := 0x07
def FEETECH_REG_STATUS_RETURN : UInt8 := 0x08
def FEETECH_REG_MIN_ANGLE_LIMIT : UInt8 := 0x09
def FEETECH_REG_MAX_ANGLE_LIMIT : UInt8 := 0x0B
def FEETECH_REG_MAX_TEMPERATURE : UInt8 := 0x0D
def FEETECH_REG_MAX_VOLTAGE : UInt8 := 0x0E
def FEETECH_REG_MIN_VOLTAGE : UInt8 := 0x0F
def FEETECH_REG_MAX_TORQUE : UInt8 := 0x10
def FEETECH_REG_SETTING_BYTE : UInt8 := 0x12
def FEETECH_REG_PROTECTION : UInt8 := 0x13
def FEETECH_REG_ALARM_LED : UInt8 := 0x14
def FEETECH_REG_P_GAIN : UInt8 := 0x15
def FEETECH_REG_D_GAIN : UInt8 := 0x16
def FEETECH_REG_I_GAIN : UInt8 := 0x17
def FEETECH_REG_MIN_START_TORQUE : UInt8 := 0x18
def FEETECH_REG_CW_DEAD_BAND : UInt8 := 0x1A
def FEETECH_REG_CCW_DEAD_BAND : UInt8 := 0x1B
def FEETECH_REG_OVERLOAD_CURRENT : UInt8 := 0x1C
def FEETECH_REG_RESOLUTION : UInt8 := 0x1E
def FEETECH_REG_POSITION_OFFSET : UInt8 := 0x1F
def FEETECH_REG_MODE : UInt8 := 0x21
def FEETECH_REG_TORQUE_ENABLE : UInt8 := 0x28
def FEETECH_REG_ACCELERATION : UInt8 := 0x29
def FEETECH_REG_GOAL_POSITION : UInt8 := 0x2A
def FEETECH_REG_GOAL_TIME : UInt8 := 0x2C
def FEETECH_REG_GOAL_SPEED : UInt8 := 0x2E
def FEETECH_REG_TORQUE_LIMIT : UInt8 := 0x30
def FEETECH_REG_LOCK : UInt8 := 0x37
def FEETECH_REG_PRESENT_POSITION : UInt8 := 0x38
def FEETECH_REG_PRESENT_SPEED : UInt8 := 0x3A
def FEETECH_REG_PRESENT_LOAD : UInt8 := 0x3C
def FEETECH_REG_PRESENT_VOLTAGE : UInt8 := 0x3E
def FEETECH_REG_PRESENT_TEMPERATURE : UInt8 := 0x3F
def FEETECH_REG_MOVING : UInt8 := 0x42
def FEETECH_REG_PRESENT_CURRENT : UInt8 := 0x45

def FEETECH_POSITION_MAX : ℕ := 4095
def FEETECH_RANGE_MILLIDEGREES : ℕ := 360000
def FEETECH_SPEED_MAX : ℕ := 4095
def FEETECH_ID_MIN : ℕ := 0
def FEETECH_ID_MAX : ℕ := 253
def FEETECH_LOCK_OPEN : UInt8 := 0
def FEETECH_LOCK_CLOSED : UInt8 := 1
def FEETECH_DEFAULT_ID : UInt8 := 1
def FEETECH_DEFAULT_BAUDRATE : UInt32 := 1000000
def FEETECH_RESET_TIMEOUT_MS : ℕ := 1000

section registers

/-- `g_registers`: address, width and whether it is kept in EEPROM. -/
def feetechRegisters : List (UInt8 × UInt8 × Bool) :=
  [(FEETECH_REG_MODEL, 2, true), (FEETECH_REG_ID, 1, true), (FEETECH_REG_BAUD_RATE, 1, true),
    (FEETECH_REG_RETURN_DELAY, 1, true), (FEETECH_REG_STATUS_RETURN, 1, true),
    (FEETECH_REG_MIN_ANGLE_LIMIT, 2, true), (FEETECH_REG_MAX_ANGLE_LIMIT, 2, true),
    (FEETECH_REG_MAX_TEMPERATURE, 1, true), (FEETECH_REG_MAX_VOLTAGE, 1, true),
    (FEETECH_REG_MIN_VOLTAGE, 1, true), (FEETECH_REG_MAX_TORQUE, 2, true),
    (FEETECH_REG_SETTING_BYTE, 1, true), (FEETECH_REG_PROTECTION, 1, true),
    (FEETECH_REG_ALARM_LED, 1, true), (FEETECH_REG_P_GAIN, 1, true), (FEETECH_REG_D_GAIN, 1, true),
    (FEETECH_REG_I_GAIN, 1, true), (FEETECH_REG_MIN_START_TORQUE, 2, true),
    (FEETECH_REG_CW_DEAD_BAND, 1, true), (FEETECH_REG_CCW_DEAD_BAND, 1, true),
    (FEETECH_REG_OVERLOAD_CURRENT, 2, true), (FEETECH_REG_RESOLUTION, 1, true),
    (FEETECH_REG_POSITION_OFFSET, 2, true), (FEETECH_REG_MODE, 1, true),
    (FEETECH_REG_TORQUE_ENABLE, 1, false), (FEETECH_REG_ACCELERATION, 1, false),
    (FEETECH_REG_GOAL_POSITION, 2, false), (FEETECH_REG_GOAL_TIME, 2, false),
    (FEETECH_REG_GOAL_SPEED, 2, false), (FEETECH_REG_TORQUE_LIMIT, 2, false),
    (FEETECH_REG_LOCK, 1, false), (FEETECH_REG_PRESENT_POSITION, 2, false),
    (FEETECH_REG_PRESENT_SPEED, 2, false), (FEETECH_REG_PRESENT_LOAD, 2, false),
    (FEETECH_REG_PRESENT_VOLTAGE, 1, false), (FEETECH_REG_PRESENT_TEMPERATURE, 1, false),
    (FEETECH_REG_MOVING, 1, false), (FEETECH_REG_PRESENT_CURRENT, 2, false)]

def feetechRegisterWidth (address : UInt8) : UInt8 :=
  ((feetechRegisters.lookup address).map Prod.fst).getD 0

def feetechRegisterIsEeprom (address : UInt8) : Bool :=
  ((feetechRegisters.lookup address).map Prod.snd).getD false

/-- `g_baud_rates`. -/
def feetechBaudRates : List UInt32 :=
  [1000000, 500000, 250000, 128000, 115200, 76800, 57600, 38400]

def feetechBaudIndexToRate (index : UInt8) : UInt32 := feetechBaudRates.getD index.toNat 0

/-- The first rate of the table that is within 3 % of the one asked for. -/
def feetechRateToBaudIndex (rate : UInt32) : Option UInt8 :=
  if rate = 0 then none
  else
    let near (candidate : UInt32) : Bool :=
      let difference := if candidate > rate then candidate - rate else rate - candidate
      difference.toNat * 100 ≤ rate.toNat * 3
    (feetechBaudRates.findIdx? near).map UInt8.ofNat

def feetechPositionToMillidegrees (position : UInt16) : UInt32 :=
  let position := min position.toNat FEETECH_POSITION_MAX
  UInt32.ofNat
    ((position * FEETECH_RANGE_MILLIDEGREES + FEETECH_POSITION_MAX / 2) / FEETECH_POSITION_MAX)

def feetechMillidegreesToPosition (millidegrees : UInt32) : UInt16 :=
  if millidegrees.toNat ≥ FEETECH_RANGE_MILLIDEGREES then UInt16.ofNat FEETECH_POSITION_MAX
  else
    UInt16.ofNat ((millidegrees.toNat * FEETECH_POSITION_MAX + FEETECH_RANGE_MILLIDEGREES / 2) /
      FEETECH_RANGE_MILLIDEGREES)

def feetechDecodeSignedMagnitude (raw : UInt16) : Int16 :=
  let magnitude := (raw &&& 0x7FFF).toInt16
  if raw &&& 0x8000 ≠ 0 then -magnitude else magnitude

def feetechVoltageToMillivolts (raw : UInt8) : UInt32 := raw.toUInt32 * 100

end registers

variable {ε : Type} (L : Line ε)

section calls

def feetechPing (id : UInt8) : BusM ε ServoBusResult := return (← servoBusPing L id none).result

/-- The IDs found; `ids` is whether there is a table for them. -/
def feetechScan (ids : Bool) (capacity : ℕ) : BusM ε (ServoBusResult × Bytes) := do
  if !ids || capacity = 0 then
    return (.errInvalidArg, [])
  let found ← withoutRetries <|
    scanFrom L capacity (List.range' FEETECH_ID_MIN (FEETECH_ID_MAX + 1 - FEETECH_ID_MIN)) []
  return (.ok, found)

def feetechReadRegister (id reg : UInt8) (value : Option UInt32) (errorOut : Option UInt8) :
    BusM ε (ServoBusResult × Option UInt32 × Option UInt8) := do
  let width := feetechRegisterWidth reg
  if width = 0 then
    return (.errInvalidArg, value, errorOut)
  servoBusReadValue L id reg width value errorOut

def feetechWriteRegister (id reg : UInt8) (value : UInt32) (errorOut : Option UInt8) :
    BusM ε ServoReply := do
  let width := feetechRegisterWidth reg
  if width = 0 then
    return ⟨.errInvalidArg, none, errorOut⟩
  servoBusWriteValue L id reg value width errorOut

def feetechSetTorqueEnable (id : UInt8) (enable : Bool) : BusM ε ServoBusResult :=
  writeServoRegister L id FEETECH_REG_TORQUE_ENABLE (if enable then 1 else 0) 1

def feetechSetGoalPosition (id : UInt8) (position : UInt16) : BusM ε ServoBusResult :=
  writeUpTo L FEETECH_POSITION_MAX id FEETECH_REG_GOAL_POSITION position 2

def feetechGetPresentPosition (id : UInt8) (position : Option UInt16) :
    BusM ε (ServoBusResult × Option UInt16) :=
  readInto L id FEETECH_REG_PRESENT_POSITION 2 UInt32.toUInt16 position

def feetechSetGoalMillidegrees (id : UInt8) (millidegrees : UInt32) : BusM ε ServoBusResult :=
  feetechSetGoalPosition L id (feetechMillidegreesToPosition millidegrees)

def feetechGetPresentMillidegrees (id : UInt8) (millidegrees : Option UInt32) :
    BusM ε (ServoBusResult × Option UInt32) := do
  if millidegrees.isNone then
    return (.errInvalidArg, millidegrees)
  let (result, position) ← feetechGetPresentPosition L id (some 0)
  return (result,
    if result = .ok then some (feetechPositionToMillidegrees (position.getD 0)) else millidegrees)

def feetechSetGoalSpeed (id : UInt8) (speed : UInt16) : BusM ε ServoBusResult :=
  writeUpTo L FEETECH_SPEED_MAX id FEETECH_REG_GOAL_SPEED speed 2

def feetechSetAcceleration (id acceleration : UInt8) : BusM ε ServoBusResult :=
  writeServoRegister L id FEETECH_REG_ACCELERATION acceleration.toUInt32 1

def feetechIsMoving (id : UInt8) (moving : Option Bool) : BusM ε (ServoBusResult × Option Bool) :=
  readInto L id FEETECH_REG_MOVING 1 (fun value => value ≠ 0) moving

def feetechSyncSetGoalPositions (targets : Option (List ServoSyncTarget)) (count : UInt8) :
    BusM ε ServoBusResult :=
  syncWriteChecked L FEETECH_REG_GOAL_POSITION FEETECH_POSITION_MAX FEETECH_ID_MAX targets count

def feetechGetPresentSpeed (id : UInt8) (speed : Option Int16) :
    BusM ε (ServoBusResult × Option Int16) :=
  readInto L id FEETECH_REG_PRESENT_SPEED 2
    (fun value => feetechDecodeSignedMagnitude value.toUInt16) speed

def feetechGetPresentLoad (id : UInt8) (load : Option Int16) :
    BusM ε (ServoBusResult × Option Int16) :=
  readInto L id FEETECH_REG_PRESENT_LOAD 2
    (fun value => feetechDecodeSignedMagnitude value.toUInt16) load

def feetechGetTemperature (id : UInt8) (degrees : Option UInt8) :
    BusM ε (ServoBusResult × Option UInt8) :=
  readInto L id FEETECH_REG_PRESENT_TEMPERATURE 1 UInt32.toUInt8 degrees

def feetechGetVoltageMillivolts (id : UInt8) (millivolts : Option UInt32) :
    BusM ε (ServoBusResult × Option UInt32) :=
  readInto L id FEETECH_REG_PRESENT_VOLTAGE 1
    (fun value => feetechVoltageToMillivolts value.toUInt8) millivolts

end calls

section configuration

def feetechUnlockEeprom (id : UInt8) : BusM ε ServoBusResult :=
  writeServoRegister L id FEETECH_REG_LOCK FEETECH_LOCK_OPEN.toUInt32 1

def feetechLockEeprom (id : UInt8) : BusM ε ServoBusResult :=
  writeServoRegister L id FEETECH_REG_LOCK FEETECH_LOCK_CLOSED.toUInt32 1

def feetechSetId (id newId : UInt8) : BusM ε ServoBusResult := do
  if newId.toNat > FEETECH_ID_MAX then
    return .errInvalidArg
  let unlocked ← feetechUnlockEeprom L id
  if unlocked ≠ .ok then
    return unlocked
  let written ← writeServoRegister L id FEETECH_REG_ID newId.toUInt32 1
  if written ≠ .ok then
    let _ ← feetechLockEeprom L id
    return written
  feetechLockEeprom L newId

def feetechSetBaudrate (id : UInt8) (rate : UInt32) : BusM ε ServoBusResult := do
  match feetechRateToBaudIndex rate with
  | none => return .errInvalidArg
  | some index =>
      let exact := feetechBaudIndexToRate index
      let previous ← servoBusGetBaudrate
      let reachable ← servoBusSetBaudrate L exact
      if reachable ≠ .ok then
        return reachable
      let restored ← servoBusSetBaudrate L previous
      if restored ≠ .ok then
        return restored
      let unlocked ← feetechUnlockEeprom L id
      if unlocked ≠ .ok then
        return unlocked
      let written ← withoutRetries (writeServoRegister L id FEETECH_REG_BAUD_RATE index.toUInt32 1)
      if written = .errTransport ∨ written = .errInvalidArg then
        let _ ← feetechLockEeprom L id
        return written
      let followed ← servoBusSetBaudrate L exact
      if followed ≠ .ok then
        return followed
      if id = SERVO_PROTOCOL_BROADCAST_ID then
        return .ok
      let answered := (← servoBusPing L id none).result
      if answered ≠ .ok then
        let _ ← servoBusSetBaudrate L previous
        let _ ← feetechLockEeprom L id
        return answered
      feetechLockEeprom L id

def feetechFactoryReset (id : UInt8) : BusM ε ServoBusResult := do
  if id = SERVO_PROTOCOL_BROADCAST_ID then
    return .errInvalidArg
  let previous ← servoBusGetBaudrate
  let reachable ← servoBusSetBaudrate L FEETECH_DEFAULT_BAUDRATE
  if reachable ≠ .ok then
    return reachable
  let restored ← servoBusSetBaudrate L previous
  if restored ≠ .ok then
    return restored
  let unlocked ← feetechUnlockEeprom L id
  if unlocked ≠ .ok then
    return unlocked
  let sent := (← servoBusFactoryReset L id none).result
  if sent = .errTransport ∨ sent = .errInvalidArg then
    let _ ← feetechLockEeprom L id
    return sent
  let followed ← servoBusSetBaudrate L FEETECH_DEFAULT_BAUDRATE
  if followed ≠ .ok then
    return followed
  if ← pollReset L FEETECH_DEFAULT_ID (FEETECH_RESET_TIMEOUT_MS / 50) then
    return .ok
  let _ ← servoBusSetBaudrate L previous
  let _ ← feetechLockEeprom L id
  return .errTimeout

def feetechSetMode (id mode : UInt8) : BusM ε ServoBusResult := do
  let unlocked ← feetechUnlockEeprom L id
  if unlocked ≠ .ok then
    return unlocked
  let written ← writeServoRegister L id FEETECH_REG_MODE mode.toUInt32 1
  let relocked ← feetechLockEeprom L id
  return if written ≠ .ok then written else relocked

end configuration

end Pico
