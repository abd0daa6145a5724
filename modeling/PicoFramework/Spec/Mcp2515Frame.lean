import PicoFramework.Spec.CanFrame

/-! `mcp2515_frame.c`: an identifier in the registers `SIDH`, `SIDL`, `EID8` and `EID0`, and the
five bytes that every buffer starts with. -/

namespace Pico

def SIDL_EXIDE : UInt32 := 0x08
def DLC_RTR : UInt8 := 0x40
def DLC_MASK : UInt8 := 0x0F
def MCP2515_FRAME_HEADER_SIZE : ℕ := 5

def mcp2515FramePackId (packed : UInt32) : Bytes :=
  let id := canIdValue packed
  if canIdIsExtended packed then
    let sid := (id >>> 18) &&& 0x7FF
    let eid := id &&& 0x3FFFF
    [(sid >>> 3).toUInt8, (((sid &&& 0x7) <<< 5) ||| SIDL_EXIDE ||| ((eid >>> 16) &&& 0x3)).toUInt8,
      (eid >>> 8).toUInt8, eid.toUInt8]
  else [(id >>> 3).toUInt8, ((id &&& 0x7) <<< 5).toUInt8, 0, 0]

def mcp2515FramePackMask (mask : UInt32) (extended : Bool) : Bytes :=
  mcp2515FramePackId
    (if extended then mask ||| CAN_FLAG_EXTENDED else mask &&& ~~~CAN_FLAG_EXTENDED)

def mcp2515FramePackHeader (message : CanMessage) : Bytes :=
  let dlc := message.length &&& DLC_MASK
  mcp2515FramePackId message.packed ++ [if message.remote then dlc ||| DLC_RTR else dlc]

def mcp2515FrameUnpackHeader (header : Bytes) : CanMessage :=
  let byte (i : ℕ) : UInt32 := (header.getD i 0).toUInt32
  let extended : Bool := byte 1 &&& SIDL_EXIDE ≠ 0
  let sid := (byte 0 <<< 3) ||| ((byte 1 >>> 5) &&& 0x7)
  { id :=
      if extended then
        let eid := ((byte 1 &&& 0x3) <<< 16) ||| (byte 2 <<< 8) ||| byte 3
        (sid <<< 18) ||| eid
      else sid
    length := canDlcToLength (header.getD 4 0 &&& DLC_MASK).toNat
    extended := extended
    remote := header.getD 4 0 &&& DLC_RTR ≠ 0
    data := List.replicate CAN_MAX_DATA_LENGTH 0
    data_length := List.length_replicate }

end Pico
