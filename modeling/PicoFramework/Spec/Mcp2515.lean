import PicoFramework.Lib.Interleave
import PicoFramework.Spec.Mcp2515Chip
import PicoFramework.Spec.Mcp2515Filters
import PicoFramework.Spec.Mcp2515Frame

/-! `mcp2515.c`, one SPI transaction after the other. A transaction is named by its instruction; the
clock, the chip select and the interrupt pin are left out. -/

namespace Pico

open Lib.Interleave

def REQOP_NORMAL : UInt8 := 0x00
def REQOP_LOOPBACK : UInt8 := 0x02
def REQOP_LISTEN_ONLY : UInt8 := 0x03

inductive Mcp2515Result where
  | ok
  | errInvalidArg
  | errNoDevice
  | errNotInitialised
  | errModeTimeout
  | errMonitorMode
  | errTxFull
  | errRxEmpty
deriving DecidableEq

inductive Mcp2515Mode where
  | normal
  | loopback
  | listenOnly
deriving DecidableEq

/-- `mcp2515_bus_stats_t`. -/
structure Mcp2515Stats where
  received : UInt32
  transmitted : UInt32
  rxOverflow : UInt32
  controllerErrors : UInt32
  lastEflg : UInt8
deriving DecidableEq

structure Mcp2515Bus where
  mode : Mcp2515Mode
  nextTxBuffer : UInt8
  stats : Mcp2515Stats
  initialised : Bool
deriving DecidableEq

/-- The driver's memory and the controller. -/
structure Mcp2515 where
  bus : Mcp2515Bus
  chip : Mcp2515Chip

section transport

/-- One SPI transaction. -/
def spi {α : Type} (command : Mcp2515Chip → α × Mcp2515Chip) : Prog Mcp2515 α :=
  .step (fun m => { m with chip := (command m.chip).2 }) fun m => .ret (command m.chip).1

def writeRegisters (reg : UInt8) (data : Bytes) : Prog Mcp2515 PUnit :=
  spi fun chip => (⟨⟩, chip.writeRegisters reg data)

def writeRegister (reg value : UInt8) : Prog Mcp2515 PUnit := writeRegisters reg [value]

def readRegister (reg : UInt8) : Prog Mcp2515 UInt8 := spi (Mcp2515Chip.readRegister reg)

def bitModify (reg mask value : UInt8) : Prog Mcp2515 PUnit :=
  spi fun chip => (⟨⟩, chip.bitModify reg mask value)

def readStatus : Prog Mcp2515 UInt8 := spi Mcp2515Chip.readStatus

/-- An assignment to the driver's memory. -/
def setBus (f : Mcp2515Bus → Mcp2515Bus) : Prog Mcp2515 PUnit :=
  .store fun m => { m with bus := f m.bus }

def setStats (f : Mcp2515Stats → Mcp2515Stats) : Prog Mcp2515 PUnit :=
  setBus fun bus => { bus with stats := f bus.stats }

end transport

section modes

def reqopFor : Mcp2515Mode → UInt8
  | .loopback => REQOP_LOOPBACK
  | .listenOnly => REQOP_LISTEN_ONLY
  | .normal => REQOP_NORMAL

/-- The loop of `switch_mode`. -/
def awaitMode (reqop : UInt8) : ℕ → Prog Mcp2515 Mcp2515Result
  | 0 => pure .errModeTimeout
  | attempts + 1 => do
      let canstat ← readRegister REG_CANSTAT
      if canstat >>> 5 = reqop then pure .ok else awaitMode reqop attempts

def switchMode (reqop : UInt8) : Prog Mcp2515 Mcp2515Result := do
  bitModify REG_CANCTRL 0xE0 (reqop <<< 5)
  awaitMode reqop 50

end modes

section filters

def filterReg (slot : Fin 6) : UInt8 :=
  ![REG_RXF0SIDH, REG_RXF1SIDH, REG_RXF2SIDH, REG_RXF3SIDH, REG_RXF4SIDH, REG_RXF5SIDH] slot

def writeFilter (sidhReg : UInt8) (packedId : UInt32) : Prog Mcp2515 PUnit :=
  writeRegisters sidhReg (mcp2515FramePackId packedId)

def writeMask (sidhReg : UInt8) (mask : UInt32) (extended : Bool) : Prog Mcp2515 PUnit :=
  writeRegisters sidhReg (mcp2515FramePackMask mask extended)

def configureFilters (plan : Mcp2515FilterPlan) : Prog Mcp2515 PUnit := do
  if plan.acceptAll then
    writeRegister REG_RXB0CTRL 0x64
    writeRegister REG_RXB1CTRL 0x60
  else
    (List.finRange 6).forM fun slot => writeFilter (filterReg slot) (plan.filterId slot)
    writeMask REG_RXM0SIDH (plan.mask 0) (plan.maskExtended 0)
    writeMask REG_RXM1SIDH (plan.mask 1) (plan.maskExtended 1)
    writeRegister REG_RXB0CTRL 0x04
    writeRegister REG_RXB1CTRL 0x00

end filters

section stats

/-- A `TXnIF` counts as a frame transmitted, and is to be cleared. -/
def countTransmitted (canintf flag clearMask : UInt8) : Prog Mcp2515 UInt8 := do
  if canintf &&& flag ≠ 0 then
    setStats fun stats => { stats with transmitted := stats.transmitted + 1 }
    pure (clearMask ||| flag)
  else pure clearMask

def updateStats : Prog Mcp2515 PUnit := do
  let canintf ← readRegister REG_CANINTF
  let clearMask ← countTransmitted canintf CANINTF_TX0IF 0
  let clearMask ← countTransmitted canintf CANINTF_TX1IF clearMask
  let clearMask ← countTransmitted canintf CANINTF_TX2IF clearMask
  let clearMask ←
    if canintf &&& CANINTF_ERRIF ≠ 0 then do
      let eflg ← readRegister REG_EFLG
      setStats fun stats =>
        { stats with
          controllerErrors := stats.controllerErrors + 1
          lastEflg := eflg
          rxOverflow :=
            if eflg &&& (EFLG_RX0OVR ||| EFLG_RX1OVR) ≠ 0 then stats.rxOverflow + 1
            else stats.rxOverflow }
      bitModify REG_EFLG (EFLG_RX0OVR ||| EFLG_RX1OVR) 0
      pure (clearMask ||| CANINTF_ERRIF)
    else pure clearMask
  if clearMask ≠ 0 then bitModify REG_CANINTF clearMask 0 else pure ⟨⟩

end stats

section calls

/-- What a call answers. -/
structure Mcp2515Answer where
  result : Mcp2515Result
  /-- What `mcp2515_bus_receive` has put into `*message`. -/
  message : Option CanMessage
  /-- What the other calls return. -/
  count : ℕ
  stats : Option Mcp2515Stats
deriving DecidableEq

def Mcp2515Answer.of (result : Mcp2515Result) : Mcp2515Answer := ⟨result, none, 0, none⟩

def TXREQ_BIT (n : TxBuffer) : UInt8 := ![STATUS_TXREQ0, STATUS_TXREQ1, STATUS_TXREQ2] n

/-- The first buffer that is free, from `next_tx_buffer` on. -/
def chooseTxBuffer (nextTxBuffer status : UInt8) : Option TxBuffer :=
  ((List.range 3).map fun i => Fin.ofNat 3 (nextTxBuffer.toNat + i)).find? fun n =>
    status &&& TXREQ_BIT n = 0

/-- The bytes that `mcp2515_bus_send` loads. -/
def txBytes (message : CanMessage) : Bytes :=
  mcp2515FramePackHeader message ++
    if !message.remote && message.length > 0 then message.data.take message.length.toNat else []

def mcp2515BusSend (message : CanMessage) : Prog Mcp2515 Mcp2515Answer := do
  let bus ← .load Mcp2515.bus
  if !canMessageIsValid message then pure (.of .errInvalidArg)
  else if !bus.initialised then pure (.of .errNotInitialised)
  else if bus.mode = .listenOnly then pure (.of .errMonitorMode)
  else
    let status ← readStatus
    match chooseTxBuffer bus.nextTxBuffer status with
    | none => pure (.of .errTxFull)
    | some chosen =>
        spi fun chip => (PUnit.unit, chip.loadTxBuffer chosen (txBytes message))
        spi fun chip => (PUnit.unit, chip.requestToSend chosen)
        setBus fun bus => { bus with nextTxBuffer := UInt8.ofNat ((chosen.val + 1) % 3) }
        pure (.of .ok)

def mcp2515BusCanSend : Prog Mcp2515 Mcp2515Answer := do
  let bus ← .load Mcp2515.bus
  if !bus.initialised || bus.mode = .listenOnly then pure (.of .ok)
  else
    let status ← readStatus
    let allBusy := TXREQ_BIT 0 ||| TXREQ_BIT 1 ||| TXREQ_BIT 2
    pure { Mcp2515Answer.of .ok with count := if status &&& allBusy ≠ allBusy then 1 else 0 }

/-- What the driver makes of the registers of a receive buffer. -/
def readMessage (registers : Registers) : CanMessage :=
  let message := mcp2515FrameUnpackHeader (registers.read 0 MCP2515_FRAME_HEADER_SIZE)
  if !message.remote && message.length > 0 then
    { message with
      data := cleared CAN_MAX_DATA_LENGTH (registers.read 5 message.length.toNat)
      data_length := length_cleared _ _ }
  else message

def mcp2515BusReceive : Prog Mcp2515 Mcp2515Answer := do
  let bus ← .load Mcp2515.bus
  if !bus.initialised then pure (.of .errNotInitialised)
  else
    updateStats
    let status ← readStatus
    let rxb : Option RxBuffer :=
      if status &&& STATUS_RX0IF ≠ 0 then some .rxb0
      else if status &&& STATUS_RX1IF ≠ 0 then some .rxb1
      else none
    match rxb with
    | none => pure (.of .errRxEmpty)
    | some rxb =>
        let message ← spi (Mcp2515Chip.readRxBuffer rxb readMessage)
        bitModify REG_CANINTF rxb.flag 0
        setStats fun stats => { stats with received := stats.received + 1 }
        pure { Mcp2515Answer.of .ok with message := some message }

def mcp2515BusAvailable : Prog Mcp2515 Mcp2515Answer := do
  let bus ← .load Mcp2515.bus
  if !bus.initialised then pure (.of .ok)
  else
    let status ← readStatus
    let waits (bit : UInt8) : ℕ := if status &&& bit ≠ 0 then 1 else 0
    pure { Mcp2515Answer.of .ok with count := waits STATUS_RX0IF + waits STATUS_RX1IF }

def mcp2515BusSetMode (mode : Mcp2515Mode) : Prog Mcp2515 Mcp2515Answer := do
  let bus ← .load Mcp2515.bus
  if !bus.initialised then pure (.of .errNotInitialised)
  else
    let result ← switchMode (reqopFor mode)
    if result = .ok then setBus fun bus => { bus with mode := mode } else pure ⟨⟩
    pure (.of result)

def mcp2515BusGetStats : Prog Mcp2515 Mcp2515Answer := do
  let bus ← .load Mcp2515.bus
  if !bus.initialised then pure (.of .errNotInitialised)
  else
    updateStats
    let bus ← .load Mcp2515.bus
    pure { Mcp2515Answer.of .ok with stats := some bus.stats }

def mcp2515BusClearStats : Prog Mcp2515 Mcp2515Answer := do
  setStats fun _ => ⟨0, 0, 0, 0, 0⟩
  pure (.of .ok)

/-- A call of the driver. -/
inductive Mcp2515Call where
  | send (message : CanMessage)
  | canSend
  | receive
  | available
  | setMode (mode : Mcp2515Mode)
  | getStats
  | clearStats

def mcp2515Program : Mcp2515Call → Prog Mcp2515 Mcp2515Answer
  | .send message => mcp2515BusSend message
  | .canSend => mcp2515BusCanSend
  | .receive => mcp2515BusReceive
  | .available => mcp2515BusAvailable
  | .setMode mode => mcp2515BusSetMode mode
  | .getStats => mcp2515BusGetStats
  | .clearStats => mcp2515BusClearStats

end calls

/-- A driver and its controller behind `mcp2515_bus_init`. -/
def mcp2515Started (plan : Mcp2515FilterPlan) (mode : Mcp2515Mode) : Mcp2515 :=
  ((configureFilters plan).run
    { bus := ⟨mode, 0, ⟨0, 0, 0, 0, 0⟩, true⟩, chip := Mcp2515Chip.reset }).2

end Pico
