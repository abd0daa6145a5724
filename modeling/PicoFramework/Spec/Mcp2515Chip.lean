import PicoFramework.Spec.CanFrame

/-! The MCP2515 as its datasheet gives it, as far as the driver deals with it: registers, the SPI
instructions on them, which frames the two receive buffers accept, where a frame is stored, and in
which order the transmit buffers are sent. Beside its registers the controller keeps a history of
the frames that it has had. -/

namespace Pico

section registers

def REG_RXF0SIDH : UInt8 := 0x00
def REG_RXF1SIDH : UInt8 := 0x04
def REG_RXF2SIDH : UInt8 := 0x08
def REG_CANSTAT : UInt8 := 0x0E
def REG_CANCTRL : UInt8 := 0x0F
def REG_RXF3SIDH : UInt8 := 0x10
def REG_RXF4SIDH : UInt8 := 0x14
def REG_RXF5SIDH : UInt8 := 0x18
def REG_RXM0SIDH : UInt8 := 0x20
def REG_RXM1SIDH : UInt8 := 0x24
def REG_CANINTF : UInt8 := 0x2C
def REG_EFLG : UInt8 := 0x2D
def REG_RXB0CTRL : UInt8 := 0x60
def REG_RXB1CTRL : UInt8 := 0x70

def CANINTF_RX0IF : UInt8 := 0x01
def CANINTF_RX1IF : UInt8 := 0x02
def CANINTF_TX0IF : UInt8 := 0x04
def CANINTF_TX1IF : UInt8 := 0x08
def CANINTF_TX2IF : UInt8 := 0x10
def CANINTF_ERRIF : UInt8 := 0x20

def EFLG_RX0OVR : UInt8 := 0x40
def EFLG_RX1OVR : UInt8 := 0x80

def STATUS_RX0IF : UInt8 := 0x01
def STATUS_RX1IF : UInt8 := 0x02
def STATUS_TXREQ0 : UInt8 := 0x04
def STATUS_TXREQ1 : UInt8 := 0x10
def STATUS_TXREQ2 : UInt8 := 0x40

/-- `RXBnCTRL.RXM`, `RXB0CTRL.BUKT` and `TXBnCTRL.TXREQ`. -/
def RXM : UInt8 := 0x60
def BUKT : UInt8 := 0x04
def TXREQ : UInt8 := 0x08

abbrev Registers := UInt8 → UInt8

/-- Registers written one after the other. -/
def Registers.write : Registers → UInt8 → Bytes → Registers
  | regs, _, [] => regs
  | regs, reg, value :: values =>
      Registers.write (Function.update regs reg value) (reg + 1) values

/-- Registers read one after the other. -/
def Registers.read (regs : Registers) : UInt8 → ℕ → Bytes
  | _, 0 => []
  | reg, count + 1 => regs reg :: regs.read (reg + 1) count

inductive RxBuffer where
  | rxb0
  | rxb1
deriving DecidableEq

abbrev TxBuffer := Fin 3

namespace RxBuffer

def flag : RxBuffer → UInt8
  | rxb0 => CANINTF_RX0IF
  | rxb1 => CANINTF_RX1IF

def overflow : RxBuffer → UInt8
  | rxb0 => EFLG_RX0OVR
  | rxb1 => EFLG_RX1OVR

def ctrl : RxBuffer → UInt8
  | rxb0 => REG_RXB0CTRL
  | rxb1 => REG_RXB1CTRL

/-- `RXBnSIDH`, the first of the thirteen registers of the buffer. -/
def sidh : RxBuffer → UInt8
  | rxb0 => 0x61
  | rxb1 => 0x71

/-- The mask and the filters that the buffer compares with. -/
def mask : RxBuffer → UInt8
  | rxb0 => REG_RXM0SIDH
  | rxb1 => REG_RXM1SIDH

def filters : RxBuffer → List UInt8
  | rxb0 => [REG_RXF0SIDH, REG_RXF1SIDH]
  | rxb1 => [REG_RXF2SIDH, REG_RXF3SIDH, REG_RXF4SIDH, REG_RXF5SIDH]

end RxBuffer

namespace TxBuffer

def ctrl (n : TxBuffer) : UInt8 := ![0x30, 0x40, 0x50] n

def sidh (n : TxBuffer) : UInt8 := ![0x31, 0x41, 0x51] n

def flag (n : TxBuffer) : UInt8 := ![CANINTF_TX0IF, CANINTF_TX1IF, CANINTF_TX2IF] n

end TxBuffer

end registers

section acceptance

/-- The fields that four registers from `SIDH` on have. -/
structure IdFields where
  sid : UInt32
  exide : Bool
  eid : UInt32
deriving DecidableEq

def Registers.idFields (regs : Registers) (sidh : UInt8) : IdFields where
  sid := ((regs sidh).toUInt32 <<< 3) ||| ((regs (sidh + 1)).toUInt32 >>> 5)
  exide := regs (sidh + 1) &&& 0x08 ≠ 0
  eid := (((regs (sidh + 1)).toUInt32 &&& 0x3) <<< 16) ||| ((regs (sidh + 2)).toUInt32 <<< 8) |||
    (regs (sidh + 3)).toUInt32

/-- The frame type is compared exactly, and the bits that the mask sets. The extended bits of a
standard frame are its first two data bytes. -/
def IdFields.hits (filter mask : IdFields) (frame : CanMessage) : Bool :=
  filter.exide = frame.extended &&
    if frame.extended then
      ((frame.id >>> 18) ^^^ filter.sid) &&& mask.sid = 0 &&
        ((frame.id &&& 0x3FFFF) ^^^ filter.eid) &&& mask.eid = 0
    else
      let data := ((frame.data.getD 0 0).toUInt32 <<< 8) ||| (frame.data.getD 1 0).toUInt32
      (frame.id ^^^ filter.sid) &&& mask.sid = 0 &&
        (data ^^^ filter.eid) &&& mask.eid &&& 0xFFFF = 0

/-- With both bits of `RXM` set the filters are off. -/
def Registers.accepts (regs : Registers) (buffer : RxBuffer) (frame : CanMessage) : Bool :=
  regs buffer.ctrl &&& RXM = RXM ||
    buffer.filters.any fun filter =>
      (regs.idFields filter).hits (regs.idFields buffer.mask) frame

end acceptance

/-- A frame as it was stored. -/
structure RxFrame where
  frame : CanMessage
  buffer : RxBuffer
  /-- The thirteen registers of the buffer. -/
  bytes : Bytes
deriving DecidableEq

/-- A frame whose transmission was requested. -/
structure TxRequest where
  buffer : TxBuffer
  /-- The thirteen registers of the buffer. -/
  bytes : Bytes
deriving DecidableEq

structure Mcp2515Chip where
  regs : Registers
  /-- The buffer whose frame is on the bus. -/
  transmitting : Option TxBuffer
  /-- The frames stored so far, and the number of the one that a buffer got last. -/
  stored : List RxFrame
  held : RxBuffer → ℕ
  /-- The numbers of the frames that were read out, in this order. -/
  taken : List ℕ
  /-- Of those whose flag was cleared before they were. -/
  lost : List ℕ
  /-- The buffer that the last instruction has read out. -/
  lastRead : Option RxBuffer
  /-- The transmissions requested so far, and the number of the last one of a buffer. -/
  requested : List TxRequest
  loaded : TxBuffer → ℕ
  /-- The numbers of those that have gone out, in this order, and the registers that did. -/
  sent : List (ℕ × Bytes)

namespace Mcp2515Chip

/-- The buffer has a frame that was not read yet. -/
def full (chip : Mcp2515Chip) (buffer : RxBuffer) : Bool :=
  chip.regs REG_CANINTF &&& buffer.flag ≠ 0

/-- A transmission of the buffer is pending. -/
def txreq (chip : Mcp2515Chip) (n : TxBuffer) : Bool := chip.regs n.ctrl &&& TXREQ ≠ 0

/-- The frames that wait in the receive buffers. -/
def waiting (chip : Mcp2515Chip) : List ℕ :=
  ([.rxb0, .rxb1] : List RxBuffer).filterMap fun buffer =>
    if chip.full buffer then some (chip.held buffer) else none

def setBits (reg bits : UInt8) (chip : Mcp2515Chip) : Mcp2515Chip :=
  { chip with regs := Function.update chip.regs reg (chip.regs reg ||| bits) }

section bus

/-- What the registers of a receive buffer get of a frame. A remote request is flagged by `SRR` in a
standard frame and by `RTR` in an extended one. -/
def layout (frame : CanMessage) : Bytes :=
  let id := frame.id
  let length := frame.length &&& 0x0F
  (if frame.extended then
    [(id >>> 21).toUInt8,
      ((((id >>> 18) &&& 0x7) <<< 5) ||| (0x08 : UInt32) ||| ((id >>> 16) &&& 0x3)).toUInt8,
      (id >>> 8).toUInt8, id.toUInt8, if frame.remote then length ||| 0x40 else length]
  else
    [(id >>> 3).toUInt8, ((id &&& 0x7) <<< 5).toUInt8 ||| (if frame.remote then 0x10 else 0), 0, 0,
      length]) ++
  if frame.remote then [] else frame.data.take length.toNat

def store (buffer : RxBuffer) (frame : CanMessage) (chip : Mcp2515Chip) : Mcp2515Chip :=
  let regs := chip.regs.write buffer.sidh (layout frame)
  setBits REG_CANINTF buffer.flag
    { chip with
      regs := regs
      stored := chip.stored ++ [⟨frame, buffer, regs.read buffer.sidh 13⟩]
      held := Function.update chip.held buffer chip.stored.length }

/-- No buffer is left for a frame. -/
def overflow (buffer : RxBuffer) (chip : Mcp2515Chip) : Mcp2515Chip :=
  setBits REG_CANINTF CANINTF_ERRIF (setBits REG_EFLG buffer.overflow chip)

/-- A frame on the bus. What `RXB0` accepts and has no room for rolls over. -/
def receive (frame : CanMessage) (chip : Mcp2515Chip) : Mcp2515Chip :=
  if chip.regs.accepts .rxb0 frame then
    if !chip.full .rxb0 then chip.store .rxb0 frame
    else if chip.regs REG_RXB0CTRL &&& BUKT = 0 then chip.overflow .rxb0
    else if !chip.full .rxb1 then chip.store .rxb1 frame
    else chip.overflow .rxb1
  else if chip.regs.accepts .rxb1 frame then
    if !chip.full .rxb1 then chip.store .rxb1 frame else chip.overflow .rxb1
  else chip

/-- The bus is free. Of the pending buffers, all of one priority, the one with the highest number is
sent first. -/
def startTransmission (chip : Mcp2515Chip) : Mcp2515Chip :=
  if chip.transmitting.isSome then chip
  else { chip with transmitting := ([2, 1, 0] : List TxBuffer).find? chip.txreq }

/-- The arbitration or the frame was lost; the buffer stays pending. -/
def stopTransmission (chip : Mcp2515Chip) : Mcp2515Chip := { chip with transmitting := none }

def completeTransmission (chip : Mcp2515Chip) : Mcp2515Chip :=
  match chip.transmitting with
  | none => chip
  | some n =>
      setBits REG_CANINTF n.flag
        { chip with
          regs := Function.update chip.regs n.ctrl (chip.regs n.ctrl &&& ~~~TXREQ)
          transmitting := none
          sent := chip.sent ++ [(chip.loaded n, chip.regs.read n.sidh 13)] }

/-- What happens on the bus, or in the controller by itself. -/
inductive Event where
  | receive (frame : CanMessage)
  | start
  | stop
  | complete
  /-- An error raises bits of `EFLG` other than the two overflows. -/
  | error (bits : UInt8)
  /-- The requested mode is entered. -/
  | mode

def react (chip : Mcp2515Chip) : Event → Mcp2515Chip
  | .receive frame => chip.receive frame
  | .start => chip.startTransmission
  | .stop => chip.stopTransmission
  | .complete => chip.completeTransmission
  | .error bits => setBits REG_CANINTF CANINTF_ERRIF (setBits REG_EFLG (bits &&& 0x3F) chip)
  | .mode =>
      let mode := (chip.regs REG_CANSTAT &&& 0x1F) ||| (chip.regs REG_CANCTRL &&& 0xE0)
      { chip with regs := Function.update chip.regs REG_CANSTAT mode }

end bus

section instructions

/-- READ of one register. -/
def readRegister (reg : UInt8) (chip : Mcp2515Chip) : UInt8 × Mcp2515Chip :=
  (chip.regs reg, { chip with lastRead := none })

/-- WRITE. -/
def writeRegisters (reg : UInt8) (values : Bytes) (chip : Mcp2515Chip) : Mcp2515Chip :=
  { chip with regs := chip.regs.write reg values, lastRead := none }

/-- BIT MODIFY. -/
def bitModify (reg mask value : UInt8) (chip : Mcp2515Chip) : Mcp2515Chip :=
  let modified :=
    { chip with
      regs := Function.update chip.regs reg ((chip.regs reg &&& ~~~mask) ||| (value &&& mask))
      lastRead := none }
  let cleared := ([.rxb0, .rxb1] : List RxBuffer).filter fun buffer =>
    chip.full buffer && !modified.full buffer
  { modified with lost := chip.lost ++ cleared.map chip.held }

/-- READ STATUS. -/
def readStatus (chip : Mcp2515Chip) : UInt8 × Mcp2515Chip :=
  let flagged (mask bit : UInt8) : UInt8 := if chip.regs REG_CANINTF &&& mask ≠ 0 then bit else 0
  let pending (n : TxBuffer) (bit : UInt8) : UInt8 := if chip.txreq n then bit else 0
  (flagged CANINTF_RX0IF STATUS_RX0IF ||| flagged CANINTF_RX1IF STATUS_RX1IF |||
    pending 0 STATUS_TXREQ0 ||| flagged CANINTF_TX0IF 0x08 |||
    pending 1 STATUS_TXREQ1 ||| flagged CANINTF_TX1IF 0x20 |||
    pending 2 STATUS_TXREQ2 ||| flagged CANINTF_TX2IF 0x80,
    { chip with lastRead := none })

/-- READ RX BUFFER from `RXBnSIDH` on, as many bytes as the reader clocks out; it clears the flag. -/
def readRxBuffer {α : Type} (buffer : RxBuffer) (reader : Registers → α) (chip : Mcp2515Chip) :
    α × Mcp2515Chip :=
  (reader fun i => chip.regs (buffer.sidh + i),
    { chip with
      regs := Function.update chip.regs REG_CANINTF (chip.regs REG_CANINTF &&& ~~~buffer.flag)
      taken := if chip.full buffer then chip.taken ++ [chip.held buffer] else chip.taken
      lastRead := some buffer })

/-- LOAD TX BUFFER from `TXBnSIDH` on. -/
def loadTxBuffer (n : TxBuffer) (values : Bytes) (chip : Mcp2515Chip) : Mcp2515Chip :=
  { chip with regs := chip.regs.write n.sidh values, lastRead := none }

/-- REQUEST TO SEND. -/
def requestToSend (n : TxBuffer) (chip : Mcp2515Chip) : Mcp2515Chip :=
  setBits n.ctrl TXREQ
    { chip with
      requested := chip.requested ++ [⟨n, chip.regs.read n.sidh 13⟩]
      loaded := Function.update chip.loaded n chip.requested.length
      lastRead := none }

end instructions

/-- After RESET: configuration mode, nothing received, nothing to send. -/
def reset : Mcp2515Chip where
  regs := Registers.write (Function.update (fun _ => 0) REG_CANSTAT 0x80) REG_CANCTRL [0x87]
  transmitting := none
  stored := []
  held := fun _ => 0
  taken := []
  lost := []
  lastRead := none
  requested := []
  loaded := fun _ => 0
  sent := []

end Mcp2515Chip

end Pico
