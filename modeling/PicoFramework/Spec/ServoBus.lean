import PicoFramework.Spec.HalfDuplexUart
import PicoFramework.Spec.ServoProtocol

/-! `servo_bus.c`, over whatever line the UART is on. A pointer for a result is an `Option`: NULL, or
what it points to; what is left there is returned. -/

namespace Pico

inductive ServoBusResult where
  | ok
  | errInvalidArg
  | errTransport
  | errTimeout
  | errChecksum
  | errMalformed
  | errWrongId
  | errShortReply
deriving DecidableEq

structure ServoBusStats where
  transactions : UInt32
  retries : UInt32
  timeouts : UInt32
  checksumErrors : UInt32
  malformed : UInt32
  wrongId : UInt32
deriving DecidableEq

/-- `servo_bus_t`, with the UART that it borrows. -/
structure ServoBus where
  uart : HalfDuplexUart
  endianness : ServoEndianness
  maxRetries : UInt8
  responseTimeoutUs : UInt32
  stats : ServoBusStats
  initialised : Bool
deriving DecidableEq

/-- The bus, the packets that have been put on the wire, and the other end of it. -/
structure ServoWorld (ε : Type) where
  bus : ServoBus
  sent : List Bytes
  line : ε

abbrev BusM (ε : Type) := StateM (ServoWorld ε)

/-- What a transaction leaves: its result, the bytes read and the error byte. -/
structure ServoReply where
  result : ServoBusResult
  params : Option Bytes
  error : Option UInt8
deriving DecidableEq

structure ServoBusConfig where
  uart : HalfDuplexUart
  endianness : ServoEndianness
  maxRetries : UInt8
  responseTimeoutUs : UInt32
deriving DecidableEq

def SERVO_BUS_DEFAULT_RESPONSE_TIMEOUT_US : UInt32 := 3000

def servoBusInit (config : ServoBusConfig) : ServoBus where
  uart := config.uart
  endianness := config.endianness
  maxRetries := config.maxRetries
  responseTimeoutUs :=
    if config.responseTimeoutUs ≠ 0 then config.responseTimeoutUs
    else SERVO_BUS_DEFAULT_RESPONSE_TIMEOUT_US
  stats := ⟨0, 0, 0, 0, 0, 0⟩
  initialised := true

variable {ε : Type} (L : Line ε)

section uart

def halfDuplexUartSetBaudrate (baudrate : UInt32) : BusM ε HalfDuplexUartResult := do
  let w ← get
  if !w.bus.uart.initialised || baudrate = 0 then
    return .errInvalidArg
  match L.timing baudrate with
  | none => return .errBaudrate
  | some timing =>
      set { w with bus.uart.baudrate := baudrate, bus.uart.timing := timing }
      return .ok

def halfDuplexUartFlushRx : BusM ε Unit := do
  let w ← get
  if w.bus.uart.initialised then
    set { w with line := L.flush w.line }

/-- `half_duplex_uart_read_exact`, with the bytes that were read. -/
def halfDuplexUartReadExact (len : ℕ) (timeoutUs : UInt32) :
    BusM ε (HalfDuplexUartResult × Bytes) := do
  let w ← get
  if !w.bus.uart.initialised then
    return (.errInvalidArg, [])
  if len = 0 then
    return (.ok, [])
  let (arrived, line) := L.receive timeoutUs w.line
  set { w with line := line }
  if len ≤ arrived.length then
    return (.ok, arrived.take len)
  return (.errTimeout, arrived)

def halfDuplexUartWrite (data : Bytes) : BusM ε HalfDuplexUartResult := do
  let w ← get
  if !w.bus.uart.initialised then
    return .errInvalidArg
  if data.length = 0 then
    return .ok
  let (echoed, line) := L.transmit w.bus.uart.baudrate data w.line
  set { w with sent := w.sent ++ [data], line := line }
  if w.bus.uart.echo = .keep then
    return .ok
  return if echoed then .ok else .errTimeout

end uart

section transactions

def replyTimeoutUs (bus : ServoBus) (replySize : ℕ) : UInt32 :=
  halfDuplexUartFrameTimeUs bus.uart.baudrate (UInt32.ofNat replySize) + bus.responseTimeoutUs

def transportError (result : HalfDuplexUartResult) : ServoBusResult :=
  if result = .errTimeout then .errTimeout else .errTransport

/-- What is made of the bytes of a reply. -/
def judgeReply (reply : Bytes) (id : UInt8) (paramsOut : Option Bytes) (paramCount : UInt8)
    (errorOut : Option UInt8) : ServoReply :=
  match servoProtocolParseStatus reply with
  | .error .errBadChecksum => ⟨.errChecksum, paramsOut, errorOut⟩
  | .error _ => ⟨.errMalformed, paramsOut, errorOut⟩
  | .ok status =>
      if status.id ≠ id then ⟨.errWrongId, paramsOut, errorOut⟩
      else if status.paramCount < paramCount then ⟨.errShortReply, paramsOut, errorOut⟩
      else
        let count := paramCount.toNat
        ⟨.ok, paramsOut.map fun out => status.params.take count ++ out.drop count,
          errorOut.map fun _ => status.error⟩

def attempt (request : Bytes) (id : UInt8) (paramsOut : Option Bytes) (paramCount : UInt8)
    (errorOut : Option UInt8) : BusM ε ServoReply := do
  let sent ← halfDuplexUartWrite L request
  if sent ≠ .ok then
    return ⟨transportError sent, paramsOut, errorOut⟩
  if id = SERVO_PROTOCOL_BROADCAST_ID then
    return ⟨.ok, paramsOut, errorOut⟩
  let expected := servoProtocolPacketSize paramCount
  if expected > SERVO_PROTOCOL_MAX_PACKET_SIZE then
    return ⟨.errInvalidArg, paramsOut, errorOut⟩
  let timeout := replyTimeoutUs (← get).bus expected
  let (received, reply) ← halfDuplexUartReadExact L expected timeout
  if received ≠ .ok then
    return ⟨transportError received, paramsOut, errorOut⟩
  return judgeReply reply id paramsOut paramCount errorOut

/-- The counter that a failed attempt adds to. -/
def countFailure (result : ServoBusResult) (stats : ServoBusStats) : ServoBusStats :=
  match result with
  | .errTimeout => { stats with timeouts := stats.timeouts + 1 }
  | .errChecksum => { stats with checksumErrors := stats.checksumErrors + 1 }
  | .errWrongId => { stats with wrongId := stats.wrongId + 1 }
  | .errMalformed | .errShortReply => { stats with malformed := stats.malformed + 1 }
  | _ => stats

def updateServoStats (update : ServoBusStats → ServoBusStats) : BusM ε Unit :=
  modify fun w => { w with bus.stats := update w.bus.stats }

/-- The loop of `transact`, from the attempt numbered `try` on, with `left` attempts to go. -/
def transactFrom (request : Bytes) (id : UInt8) (paramCount : UInt8) :
    (attempts left : ℕ) → ServoReply → BusM ε ServoReply
  | _, 0, last => return last
  | attempts, left + 1, last => do
      updateServoStats fun stats =>
        { stats with
          retries := if attempts > 0 then stats.retries + 1 else stats.retries
          transactions := stats.transactions + 1 }
      let reply ← attempt L request id last.params paramCount last.error
      if reply.result = .ok then
        return reply
      updateServoStats (countFailure reply.result)
      if reply.result = .errInvalidArg then
        return reply
      halfDuplexUartFlushRx L
      transactFrom request id paramCount (attempts + 1) left reply

def transact (request : Bytes) (id : UInt8) (paramsOut : Option Bytes) (paramCount : UInt8)
    (errorOut : Option UInt8) : BusM ε ServoReply := do
  let bus := (← get).bus
  transactFrom L request id paramCount 0 (bus.maxRetries.toNat + 1)
    ⟨.errTimeout, paramsOut, errorOut.map fun _ => 0⟩

def servoBusPing (id : UInt8) (errorOut : Option UInt8) : BusM ε ServoReply := do
  if !(← get).bus.initialised then
    return ⟨.errInvalidArg, none, errorOut⟩
  match servoProtocolBuildPing SERVO_PROTOCOL_MAX_PACKET_SIZE id with
  | .error _ => return ⟨.errInvalidArg, none, errorOut⟩
  | .ok request => transact L request id none 0 errorOut

def servoBusRead (id reg : UInt8) (data : Option Bytes) (count : UInt8) (errorOut : Option UInt8) :
    BusM ε ServoReply := do
  if !(← get).bus.initialised || data.isNone || count = 0 then
    return ⟨.errInvalidArg, data, errorOut⟩
  if id = SERVO_PROTOCOL_BROADCAST_ID then
    return ⟨.errInvalidArg, data, errorOut⟩
  match servoProtocolBuildRead SERVO_PROTOCOL_MAX_PACKET_SIZE id reg count with
  | .error _ => return ⟨.errInvalidArg, data, errorOut⟩
  | .ok request => transact L request id data count errorOut

def servoBusWrite (id reg : UInt8) (data : Option Bytes) (count : UInt8)
    (errorOut : Option UInt8) : BusM ε ServoReply := do
  if !(← get).bus.initialised || data.isNone || count = 0 then
    return ⟨.errInvalidArg, none, errorOut⟩
  match servoProtocolBuildWrite SERVO_PROTOCOL_MAX_PACKET_SIZE id reg data count with
  | .error _ => return ⟨.errInvalidArg, none, errorOut⟩
  | .ok request => transact L request id none 0 errorOut

/-- The result, `*value` and `*error_out`. -/
def servoBusReadValue (id reg width : UInt8) (value : Option UInt32) (errorOut : Option UInt8) :
    BusM ε (ServoBusResult × Option UInt32 × Option UInt8) := do
  if value.isNone || !servoProtocolWidthOk width then
    return (.errInvalidArg, value, errorOut)
  let reply ← servoBusRead L id reg (some [0, 0, 0, 0]) width errorOut
  if reply.result ≠ .ok then
    return (reply.result, value, reply.error)
  let read := servoProtocolDecodeValue (reply.params.getD []) width (← get).bus.endianness
  return (.ok, some read, reply.error)

def servoBusWriteValue (id reg : UInt8) (value : UInt32) (width : UInt8)
    (errorOut : Option UInt8) : BusM ε ServoReply := do
  let bus := (← get).bus
  if !bus.initialised || !servoProtocolWidthOk width then
    return ⟨.errInvalidArg, none, errorOut⟩
  servoBusWrite L id reg (some (servoProtocolEncodeValue value width bus.endianness)) width errorOut

def servoBusSyncWrite (reg width : UInt8) (targets : Option (List ServoSyncTarget))
    (count : UInt8) : BusM ε ServoBusResult := do
  let bus := (← get).bus
  if !bus.initialised || targets.isNone || count = 0 then
    return .errInvalidArg
  match servoProtocolBuildSyncWrite SERVO_PROTOCOL_MAX_PACKET_SIZE reg width targets count
      bus.endianness with
  | .error _ => return .errInvalidArg
  | .ok request => return (← transact L request SERVO_PROTOCOL_BROADCAST_ID none 0 none).result

/-- A call with `bus->max_retries` at 0 for as long as it runs. -/
def withoutRetries {α : Type} (call : BusM ε α) : BusM ε α := do
  let savedRetries := (← get).bus.maxRetries
  modify fun w => { w with bus.maxRetries := 0 }
  let result ← call
  modify fun w => { w with bus.maxRetries := savedRetries }
  return result

def servoBusFactoryReset (id : UInt8) (errorOut : Option UInt8) : BusM ε ServoReply := do
  let errorOut := errorOut.map fun _ => 0
  if !(← get).bus.initialised then
    return ⟨.errInvalidArg, none, errorOut⟩
  match servoProtocolBuild SERVO_PROTOCOL_MAX_PACKET_SIZE id SERVO_INST_RESET [] with
  | .error _ => return ⟨.errInvalidArg, none, errorOut⟩
  | .ok request => withoutRetries (transact L request id none 0 errorOut)

end transactions

section speed

def servoBusGetBaudrate : BusM ε UInt32 := do
  let bus := (← get).bus
  return if bus.initialised then bus.uart.baudrate else 0

def servoBusSetBaudrate (baudrate : UInt32) : BusM ε ServoBusResult := do
  if !(← get).bus.initialised || baudrate = 0 then
    return .errInvalidArg
  let result ← halfDuplexUartSetBaudrate L baudrate
  if result = .errBaudrate then
    return .errInvalidArg
  return if result = .ok then .ok else .errTransport

end speed

end Pico
