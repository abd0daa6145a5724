import PicoFramework.Spec.Basic

/-! `servo_protocol.c`: the packets of Dynamixel Protocol 1.0. A packet that is built is returned;
`written` is its length. -/

namespace Pico

def SERVO_PROTOCOL_BROADCAST_ID : UInt8 := 0xFE
def SERVO_PROTOCOL_MAX_PARAMS : ℕ := 128
def SERVO_PROTOCOL_OVERHEAD : ℕ := 6
def SERVO_PROTOCOL_MAX_PACKET_SIZE : ℕ := SERVO_PROTOCOL_OVERHEAD + SERVO_PROTOCOL_MAX_PARAMS

def SERVO_INST_PING : UInt8 := 0x01
def SERVO_INST_READ : UInt8 := 0x02
def SERVO_INST_WRITE : UInt8 := 0x03
def SERVO_INST_RESET : UInt8 := 0x06
def SERVO_INST_SYNC_WRITE : UInt8 := 0x83

namespace ServoProtocol

def HEADER_BYTE : UInt8 := 0xFF
def OFFSET_ID : ℕ := 2
def OFFSET_LENGTH : ℕ := 3
def OFFSET_INSTRUCTION : ℕ := 4
def OFFSET_PARAMS : ℕ := 5
def LENGTH_MINIMUM : UInt8 := 2

end ServoProtocol

inductive ServoEndianness where
  | little
  | big
deriving DecidableEq

inductive ServoProtocolResult where
  | ok
  | errInvalidArg
  | errBufferTooSmall
  | errTooManyParams
  | errBadHeader
  | errIncomplete
  | errBadChecksum
deriving DecidableEq

/-- `servo_status_packet_t`; a NULL `params` is one of no bytes. -/
structure ServoStatusPacket where
  id : UInt8
  error : UInt8
  params : Bytes
  paramCount : UInt8
  packetSize : ℕ
deriving DecidableEq

structure ServoSyncTarget where
  id : UInt8
  value : UInt32
deriving DecidableEq

def servoProtocolPacketSize (paramCount : UInt8) : ℕ := paramCount.toNat + SERVO_PROTOCOL_OVERHEAD

def servoProtocolChecksum (data : Bytes) : UInt8 := ~~~(data.foldl (· + ·) 0)

/-- What the checksum of a packet covers. -/
def servoProtocolBody (id instruction : UInt8) (params : Bytes) : Bytes :=
  id :: (UInt8.ofNat params.length + ServoProtocol.LENGTH_MINIMUM) :: instruction :: params

section building

/-- `params` are `param_count` bytes. -/
def servoProtocolBuild (capacity : ℕ) (id instruction : UInt8) (params : Bytes) :
    Except ServoProtocolResult Bytes :=
  if params.length > SERVO_PROTOCOL_MAX_PARAMS then .error .errTooManyParams
  else if capacity < params.length + SERVO_PROTOCOL_OVERHEAD then .error .errBufferTooSmall
  else
    let body := servoProtocolBody id instruction params
    .ok (ServoProtocol.HEADER_BYTE :: ServoProtocol.HEADER_BYTE :: body ++ [servoProtocolChecksum body])

def servoProtocolBuildPing (capacity : ℕ) (id : UInt8) : Except ServoProtocolResult Bytes :=
  servoProtocolBuild capacity id SERVO_INST_PING []

def servoProtocolBuildRead (capacity : ℕ) (id reg count : UInt8) :
    Except ServoProtocolResult Bytes :=
  if count = 0 then .error .errInvalidArg
  else servoProtocolBuild capacity id SERVO_INST_READ [reg, count]

def servoProtocolBuildWrite (capacity : ℕ) (id reg : UInt8) (data : Option Bytes) (count : UInt8) :
    Except ServoProtocolResult Bytes :=
  match data with
  | none => .error .errInvalidArg
  | some data =>
      if count = 0 then .error .errInvalidArg
      else if count.toNat + 1 > SERVO_PROTOCOL_MAX_PARAMS then .error .errTooManyParams
      else servoProtocolBuild capacity id SERVO_INST_WRITE (reg :: data.take count.toNat)

/-- Whether a register may have this many bytes. -/
def servoProtocolWidthOk (width : UInt8) : Bool := width = 1 ∨ width = 2 ∨ width = 4

/-- The bytes of a value, those of a `width` that is not 1, 2 or 4 being none. -/
def servoProtocolEncodeValue (value : UInt32) (width : UInt8) (endianness : ServoEndianness) :
    Bytes :=
  if servoProtocolWidthOk width then
    let bytes := (List.range width.toNat).map fun i => UInt8.ofNat (value.toNat / 2 ^ (8 * i))
    match endianness with
    | .little => bytes
    | .big => bytes.reverse
  else []

def servoProtocolDecodeValue (data : Bytes) (width : UInt8) (endianness : ServoEndianness) :
    UInt32 :=
  if servoProtocolWidthOk width then
    (List.range width.toNat).foldl (fun value i =>
      let byte := match endianness with
        | .little => data.getD i 0
        | .big => data.getD (width.toNat - 1 - i) 0
      value ||| (byte.toUInt32 <<< UInt32.ofNat (8 * i))) 0
  else 0

def servoProtocolSyncWriteParams (width count : UInt8) : ℕ :=
  2 + (width.toNat + 1) * count.toNat

def servoProtocolBuildSyncWrite (capacity : ℕ) (reg width : UInt8)
    (targets : Option (List ServoSyncTarget)) (count : UInt8) (endianness : ServoEndianness) :
    Except ServoProtocolResult Bytes :=
  match targets with
  | none => .error .errInvalidArg
  | some targets =>
      if count = 0 then .error .errInvalidArg
      else if !servoProtocolWidthOk width then .error .errInvalidArg
      else if servoProtocolSyncWriteParams width count > SERVO_PROTOCOL_MAX_PARAMS then
        .error .errTooManyParams
      else
        servoProtocolBuild capacity SERVO_PROTOCOL_BROADCAST_ID SERVO_INST_SYNC_WRITE
          (reg :: width :: (targets.take count.toNat).flatMap fun target =>
            target.id :: servoProtocolEncodeValue target.value width endianness)

end building

def servoProtocolParseStatus (data : Bytes) : Except ServoProtocolResult ServoStatusPacket :=
  if data.length < 2 then .error .errIncomplete
  else if data.getD 0 0 ≠ ServoProtocol.HEADER_BYTE ∨ data.getD 1 0 ≠ ServoProtocol.HEADER_BYTE then .error .errBadHeader
  else if data.length ≤ ServoProtocol.OFFSET_LENGTH then .error .errIncomplete
  else
    let length := data.getD ServoProtocol.OFFSET_LENGTH 0
    if length < ServoProtocol.LENGTH_MINIMUM then .error .errBadHeader
    else
      let paramCount := length - ServoProtocol.LENGTH_MINIMUM
      if paramCount.toNat > SERVO_PROTOCOL_MAX_PARAMS then .error .errTooManyParams
      else
        let size := servoProtocolPacketSize paramCount
        if data.length < size then .error .errIncomplete
        else
          let expected := servoProtocolChecksum ((data.drop ServoProtocol.OFFSET_ID).take (size - 1 - ServoProtocol.OFFSET_ID))
          if expected ≠ data.getD (size - 1) 0 then .error .errBadChecksum
          else
            .ok {
              id := data.getD ServoProtocol.OFFSET_ID 0
              error := data.getD ServoProtocol.OFFSET_INSTRUCTION 0
              params := (data.drop ServoProtocol.OFFSET_PARAMS).take paramCount.toNat
              paramCount := paramCount
              packetSize := size }

end Pico
