import PicoFramework.Lib.Store
import PicoFramework.Spec.ServoProtocol

/-! The building functions of `servo_protocol.c` once more, with every byte that they write: a write
outside its buffer is a fault. They return the result, `*written` and `out`. -/

namespace Pico

open Lib.Store

/-- `servo_protocol_build`; `out` has `capacity` bytes. -/
def servoProtocolBuildInto (out : Bytes) (id instruction : UInt8) (params : Bytes)
    (paramCount : UInt8) : Option (ServoProtocolResult × ℕ × Bytes) :=
  if paramCount.toNat > SERVO_PROTOCOL_MAX_PARAMS then some (.errTooManyParams, 0, out)
  else
    let size := servoProtocolPacketSize paramCount
    if out.length < size then some (.errBufferTooSmall, 0, out)
    else do
      let out ← store out 0 ServoProtocol.HEADER_BYTE
      let out ← store out 1 ServoProtocol.HEADER_BYTE
      let out ← store out ServoProtocol.OFFSET_ID id
      let out ← store out ServoProtocol.OFFSET_LENGTH (paramCount + ServoProtocol.LENGTH_MINIMUM)
      let out ← store out ServoProtocol.OFFSET_INSTRUCTION instruction
      let out ← storeAll out ServoProtocol.OFFSET_PARAMS (params.take paramCount.toNat)
      let covered := (out.drop ServoProtocol.OFFSET_ID).take (size - 1 - ServoProtocol.OFFSET_ID)
      let out ← store out (size - 1) (servoProtocolChecksum covered)
      return (.ok, size, out)

/-- `servo_protocol_encode_value` to `&out[pos]`. -/
def servoProtocolEncodeValueInto (out : Bytes) (pos : ℕ) (value : UInt32) (width : UInt8)
    (endianness : ServoEndianness) : Option Bytes :=
  if servoProtocolWidthOk width then
    (List.range width.toNat).foldlM (fun out i =>
      let byte := UInt8.ofNat (value.toNat / 2 ^ (8 * i))
      match endianness with
      | .little => store out (pos + i) byte
      | .big => store out (pos + (width.toNat - 1 - i)) byte) out
  else some out

/-- The loop of `servo_protocol_build_sync_write`: `params` and `at`. -/
def syncWriteParamsInto (width : UInt8) (endianness : ServoEndianness) :
    List ServoSyncTarget → Bytes → ℕ → Option (Bytes × ℕ)
  | [], params, pos => some (params, pos)
  | target :: targets, params, pos => do
      let params ← store params pos target.id
      let params ← servoProtocolEncodeValueInto params (pos + 1) target.value width endianness
      syncWriteParamsInto width endianness targets params (pos + 1 + width.toNat)

/-- `servo_protocol_build_sync_write`; `params` is what its local buffer holds at first. -/
def servoProtocolBuildSyncWriteInto (out params : Bytes) (reg width : UInt8)
    (targets : List ServoSyncTarget) (count : UInt8) (endianness : ServoEndianness) :
    Option (ServoProtocolResult × ℕ × Bytes) :=
  if count = 0 then some (.errInvalidArg, 0, out)
  else if !servoProtocolWidthOk width then some (.errInvalidArg, 0, out)
  else if servoProtocolSyncWriteParams width count > SERVO_PROTOCOL_MAX_PARAMS then
    some (.errTooManyParams, 0, out)
  else do
    let params ← store params 0 reg
    let params ← store params 1 width
    let (params, pos) ← syncWriteParamsInto width endianness (targets.take count.toNat) params 2
    servoProtocolBuildInto out SERVO_PROTOCOL_BROADCAST_ID SERVO_INST_SYNC_WRITE params
      (UInt8.ofNat pos)

end Pico
