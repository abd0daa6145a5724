import Mathlib
import PicoFramework.Spec.CanBus
import PicoFramework.Spec.HalfDuplexUart
import PicoFramework.Spec.Ws2812

/-! What `ws2812.c`, `half_duplex_uart.c` and `can.c` claim of the chip in their init calls, and
what they give back. The allocators are the SDK's: each finds something that is free, or nothing.
The pins and what the state machines are set up with are left out. -/

namespace Pico

def NUM_PIO_STATE_MACHINES : ℕ := 4
def PIO_INSTRUCTION_COUNT : ℕ := 32

/-- The instructions in `ws2812.pio` and `half_duplex_uart.pio`. -/
def ws2812ProgramLength : ℕ := 4
def halfDuplexUartTxProgramLength : ℕ := 8
def halfDuplexUartRxProgramLength : ℕ := 9

/-- A state machine of a PIO block, a word of its instruction memory, its first interrupt, and a
DMA channel. -/
inductive PioClaim where
  | machine (pio sm : ℕ)
  | word (pio index : ℕ)
  | irq (pio : ℕ)
  | channel (n : ℕ)
deriving DecidableEq

abbrev PioClaims := Finset PioClaim

def programWords (pio offset length : ℕ) : PioClaims :=
  (Finset.range length).image fun i => .word pio (offset + i)

/-- The chip and the SDK on it. -/
structure PicoChip where
  numPios : ℕ
  numBank0Gpios : ℕ
  clockHz : UInt32
  programOffset : PioClaims → ℕ → ℕ → Option ℕ
  programOffset_free : ∀ claims pio length, ∀ offset ∈ programOffset claims pio length,
    Disjoint (programWords pio offset length) claims
  unusedSm : PioClaims → ℕ → Option ℕ
  unusedSm_free : ∀ claims pio, ∀ sm ∈ unusedSm claims pio, PioClaim.machine pio sm ∉ claims
  unusedChannel : PioClaims → Option ℕ
  unusedChannel_free : ∀ claims, ∀ n ∈ unusedChannel claims, PioClaim.channel n ∉ claims

theorem find_holds {p : ℕ → Prop} [DecidablePred p] {ns : List ℕ} {n : ℕ}
    (h : ns.find? (fun n => decide (p n)) = some n) : p n := by
  have hfound := List.find?_some h
  exact of_decide_eq_true hfound

/-- An RP2040 at 125 MHz. Programs are put as high as they fit, and the first state machine or
channel that is free is taken. -/
def rp2040 : PicoChip where
  numPios := 2
  numBank0Gpios := 30
  clockHz := 125000000
  programOffset claims pio length :=
    (List.range (PIO_INSTRUCTION_COUNT + 1 - length)).reverse.find? fun offset =>
      Disjoint (programWords pio offset length) claims
  programOffset_free claims pio length _ h :=
    find_holds (p := fun offset => Disjoint (programWords pio offset length) claims) h
  unusedSm claims pio :=
    (List.range NUM_PIO_STATE_MACHINES).find? fun sm => .machine pio sm ∉ claims
  unusedSm_free claims pio _ h := find_holds (p := fun sm => PioClaim.machine pio sm ∉ claims) h
  unusedChannel claims := (List.range 12).find? fun n => .channel n ∉ claims
  unusedChannel_free claims _ h := find_holds (p := fun n => PioClaim.channel n ∉ claims) h

/-- What a strip remembers of its claims; it is initialised when it has them. -/
structure Ws2812Port where
  pio : ℕ
  sm : ℕ
  offset : ℕ
  dmaChannel : Option ℕ
deriving DecidableEq

structure HalfDuplexUartPort where
  pio : ℕ
  smTx : ℕ
  smRx : ℕ
  offsetTx : ℕ
  offsetRx : ℕ
deriving DecidableEq

/-- An entry of `g_program`, with the offset as it is. -/
structure Ws2812Program where
  offset : Option ℕ
  users : ℕ
deriving DecidableEq

/-- The claims, the tables of the drivers, and what each strip, UART and bus remembers. -/
structure PioBoard (σ υ κ : Type) where
  claims : PioClaims
  program : ℕ → Ws2812Program
  activeBuses : ℕ → Option κ
  strip : σ → Option Ws2812Port
  uart : υ → Option HalfDuplexUartPort
  bus : κ → CanBus

section drivers

variable {σ υ κ : Type} [DecidableEq σ] [DecidableEq υ] [DecidableEq κ] (chip : PicoChip)

def PioBoard.claim (rs : PioClaims) (b : PioBoard σ υ κ) : PioBoard σ υ κ :=
  { b with claims := b.claims ∪ rs }

def PioBoard.unclaim (rs : PioClaims) (b : PioBoard σ υ κ) : PioBoard σ υ κ :=
  { b with claims := b.claims \ rs }

def PioBoard.setProgram (pio : ℕ) (program : Ws2812Program) (b : PioBoard σ υ κ) :
    PioBoard σ υ κ :=
  { b with program := Function.update b.program pio program }

section ws2812

/-- What `ws2812_init` checks and claims by. -/
structure Ws2812InitConfig where
  pio : Option ℕ
  pixels : Option (List Ws2812Color)
  length : UInt16
  wireBuffer : Option (List UInt32)

def programAcquire (pio : ℕ) (b : PioBoard σ υ κ) : Option (ℕ × PioBoard σ υ κ) :=
  (b.program pio).offset.elim
    ((chip.programOffset b.claims pio ws2812ProgramLength).map fun offset =>
      (offset, (b.claim (programWords pio offset ws2812ProgramLength)).setProgram pio
        ⟨some offset, (b.program pio).users + 1⟩))
    fun offset => some (offset, b.setProgram pio ⟨some offset, (b.program pio).users + 1⟩)

def programRelease (pio : ℕ) (b : PioBoard σ υ κ) : PioBoard σ υ κ :=
  if (b.program pio).users = 0 then b
  else if (b.program pio).users - 1 = 0 then
    (b.unclaim (programWords pio ((b.program pio).offset.getD 0) ws2812ProgramLength)).setProgram
      pio ⟨none, 0⟩
  else b.setProgram pio ⟨(b.program pio).offset, (b.program pio).users - 1⟩

def PioBoard.setStrip (s : σ) (port : Option Ws2812Port) (b : PioBoard σ υ κ) : PioBoard σ υ κ :=
  { b with strip := Function.update b.strip s port }

def ws2812Init (s : σ) (config : Ws2812InitConfig) (b : PioBoard σ υ κ) :
    Ws2812Result × PioBoard σ υ κ :=
  config.pio.elim (.errInvalidArg, b) fun pio =>
    if config.pixels.isNone || config.length = 0 then (.errInvalidArg, b)
    else (programAcquire chip pio b).elim (.errNoProgramSpace, b) fun acquired =>
      (chip.unusedSm acquired.2.claims pio).elim
        (.errNoStateMachine, programRelease pio acquired.2) fun sm =>
          if config.wireBuffer.isNone then
            (.ok, (acquired.2.claim {.machine pio sm}).setStrip s
              (some ⟨pio, sm, acquired.1, none⟩))
          else (chip.unusedChannel (acquired.2.claim {.machine pio sm}).claims).elim
            (.errNoDmaChannel, programRelease pio
              ((acquired.2.claim {.machine pio sm}).unclaim {.machine pio sm})) fun n =>
                (.ok, ((acquired.2.claim {.machine pio sm}).claim {.channel n}).setStrip s
                  (some ⟨pio, sm, acquired.1, some n⟩))

def Ws2812Port.channels (port : Ws2812Port) : PioClaims :=
  port.dmaChannel.elim ∅ fun n => {.channel n}

def ws2812Deinit (s : σ) (b : PioBoard σ υ κ) : PioBoard σ υ κ :=
  (b.strip s).elim b fun port =>
    (programRelease port.pio
      ((b.unclaim port.channels).unclaim {.machine port.pio port.sm})).setStrip s none

end ws2812

section uart

inductive HalfDuplexUartOpened where
  | ok
  | errInvalidArg
  | errBaudrate
  | errNoProgramSpace
  | errNoStateMachine
deriving DecidableEq

def pioAddProgram (pio length : ℕ) (b : PioBoard σ υ κ) : Option (ℕ × PioBoard σ υ κ) :=
  (chip.programOffset b.claims pio length).map fun offset =>
    (offset, b.claim (programWords pio offset length))

/-- `pio_claim_unused_sm`; without one that is free nothing is claimed. -/
def pioClaimUnusedSm (pio : ℕ) (b : PioBoard σ υ κ) : Option ℕ × PioBoard σ υ κ :=
  (chip.unusedSm b.claims pio, (chip.unusedSm b.claims pio).elim b fun sm =>
    b.claim {.machine pio sm})

def pioUnclaimSm (pio : ℕ) (sm : Option ℕ) (b : PioBoard σ υ κ) : PioBoard σ υ κ :=
  sm.elim b fun sm => b.unclaim {.machine pio sm}

def PioBoard.setUart (u : υ) (port : Option HalfDuplexUartPort) (b : PioBoard σ υ κ) :
    PioBoard σ υ κ :=
  { b with uart := Function.update b.uart u port }

/-- `half_duplex_uart_init` without both state machines. -/
def halfDuplexUartGiveUp (pio offsetTx offsetRx : ℕ) (smTx smRx : Option ℕ)
    (b : PioBoard σ υ κ) : PioBoard σ υ κ :=
  ((pioUnclaimSm pio smRx (pioUnclaimSm pio smTx b)).unclaim
    (programWords pio offsetRx halfDuplexUartRxProgramLength)).unclaim
      (programWords pio offsetTx halfDuplexUartTxProgramLength)

/-- `half_duplex_uart_init` with both programs in place. -/
def halfDuplexUartMachines (u : υ) (pio offsetTx offsetRx : ℕ) (b : PioBoard σ υ κ) :
    HalfDuplexUartOpened × PioBoard σ υ κ :=
  let tx := pioClaimUnusedSm chip pio b
  let rx := pioClaimUnusedSm chip pio tx.2
  let refused := (.errNoStateMachine, halfDuplexUartGiveUp pio offsetTx offsetRx tx.1 rx.1 rx.2)
  tx.1.elim refused fun smTx => rx.1.elim refused fun smRx =>
    (.ok, rx.2.setUart u (some ⟨pio, smTx, smRx, offsetTx, offsetRx⟩))

/-- `half_duplex_uart_init` on a block, with what it answers. -/
def halfDuplexUartInitOn (u : υ) (pio : Option ℕ) (config : HalfDuplexUartConfig)
    (b : PioBoard σ υ κ) : HalfDuplexUartOpened × PioBoard σ υ κ :=
  pio.elim (.errInvalidArg, b) fun pio =>
    if config.baudrate = 0 then (.errInvalidArg, b)
    else if config.directionPin ≥ 0 ∧ config.directionPin = config.pin.toNat then
      (.errInvalidArg, b)
    else if ((halfDuplexUartComputeTiming chip.clockHz config.baudrate).filter
        halfDuplexUartTimingIsUsable).isNone then (.errBaudrate, b)
    else (pioAddProgram chip pio halfDuplexUartTxProgramLength b).elim
      (.errNoProgramSpace, b) fun tx =>
        (pioAddProgram chip pio halfDuplexUartRxProgramLength tx.2).elim
          (.errNoProgramSpace, tx.2.unclaim
            (programWords pio tx.1 halfDuplexUartTxProgramLength)) fun rx =>
            halfDuplexUartMachines chip u pio tx.1 rx.1 rx.2

def halfDuplexUartDeinit (u : υ) (b : PioBoard σ υ κ) : PioBoard σ υ κ :=
  (b.uart u).elim b fun port =>
    ((((b.unclaim {.machine port.pio port.smTx}).unclaim {.machine port.pio port.smRx}).unclaim
      (programWords port.pio port.offsetRx halfDuplexUartRxProgramLength)).unclaim
        (programWords port.pio port.offsetTx halfDuplexUartTxProgramLength)).setUart u none

end uart

section can

def CAN_DEFAULT_BITRATE : UInt32 := 500000
def CAN_MAX_BITRATE : UInt32 := 1000000

def busIsActive (c : κ) (b : PioBoard σ υ κ) : Bool :=
  (List.range chip.numPios).any fun pio => b.activeBuses pio = some c

/-- Whether there is a handler for a block. -/
def irqHandlerFor (pio : ℕ) : Bool := pio < 2 || (pio = 2 && chip.numPios > 2)

def pinsAreCompatible (rxPin txPin : ℤ) : Bool :=
  if rxPin < 0 ∨ rxPin ≥ chip.numBank0Gpios ∨ txPin < CAN_NO_TX_PIN ∨
      txPin ≥ chip.numBank0Gpios ∨ txPin = rxPin then false
  else !(chip.numBank0Gpios > 32 && txPin ≥ 0 &&
    ((rxPin < 16 && txPin > 31) || (rxPin > 31 && txPin < 16)))

def bitrateIsUsable (bitrate : UInt32) : Bool :=
  if bitrate = 0 ∨ bitrate > CAN_MAX_BITRATE then false
  else
    let divider := 8 * chip.clockHz.toNat / bitrate.toNat
    divider ≠ 0 && divider ≤ 0x00ffffff

def blockMachines (pio : ℕ) : PioClaims :=
  (Finset.range NUM_PIO_STATE_MACHINES).image fun sm => .machine pio sm

/-- The words of the two placeholder programs. -/
def reservationLow (pio : ℕ) : PioClaims := programWords pio 0 (PIO_INSTRUCTION_COUNT / 2)

def reservationHigh (pio : ℕ) : PioClaims :=
  programWords pio (PIO_INSTRUCTION_COUNT / 2) (PIO_INSTRUCTION_COUNT / 2)

def pioIsFree (pio : ℕ) (b : PioBoard σ υ κ) : Bool :=
  Disjoint (blockMachines pio) b.claims && Disjoint (reservationLow pio) b.claims &&
    Disjoint (reservationHigh pio) b.claims

def pioAddProgramAtOffset (words : PioClaims) (b : PioBoard σ υ κ) : Option (PioBoard σ υ κ) :=
  if Disjoint words b.claims then some (b.claim words) else none

def PioBoard.setBus (c : κ) (bus : CanBus) (b : PioBoard σ υ κ) : PioBoard σ υ κ :=
  { b with bus := Function.update b.bus c bus }

def PioBoard.setActive (pio : ℕ) (c : Option κ) (b : PioBoard σ υ κ) : PioBoard σ υ κ :=
  { b with activeBuses := Function.update b.activeBuses pio c }

/-- What is left of a bus when its queue cannot be set up. -/
def CanBusConfig.halfOpened (config : CanBusConfig) (bitrate : UInt32) : CanBus :=
  { config.opened bitrate ⟨⟨[], 0, 0⟩, 0, false⟩ with initialised := false }

/-- `can_bus_init` from `claim_pio` on. -/
def canBusClaim (c : κ) (config : CanBusConfig) (bitrate : UInt32) (b : PioBoard σ υ κ) :
    CanResult × PioBoard σ υ κ :=
  let claimed := b.claim (blockMachines config.pio)
  (pioAddProgramAtOffset (reservationLow config.pio) claimed).elim
    (.errPioInUse, claimed.unclaim (blockMachines config.pio)) fun low =>
      (pioAddProgramAtOffset (reservationHigh config.pio) low).elim
        (.errPioInUse, (low.unclaim (reservationLow config.pio)).unclaim
          (blockMachines config.pio)) fun high =>
            (canQueueInit config.rxStorage).elim
              (.errInvalidArg, ((((high.setBus c (config.halfOpened bitrate)).unclaim
                (reservationHigh config.pio)).unclaim (reservationLow config.pio)).unclaim
                  (blockMachines config.pio))) fun queue =>
                (.ok, ((high.setBus c (config.opened bitrate queue)).setActive config.pio
                  (some c)).claim {.irq config.pio})

def canBusInit (c : κ) (config : CanBusConfig) (b : PioBoard σ υ κ) :
    CanResult × PioBoard σ υ κ :=
  if config.pio ≥ chip.numPios ∨
      (config.rxStorage.elim 0 List.length) < CAN_QUEUE_RECORD_SIZE + 1 ∨
      pinsAreCompatible chip config.rxPin config.txPin = false then (.errInvalidArg, b)
  else
    let bitrate := if config.bitrate ≠ 0 then config.bitrate else CAN_DEFAULT_BITRATE
    if bitrateIsUsable chip bitrate = false then (.errInvalidArg, b)
    else if irqHandlerFor chip config.pio = false then (.errInvalidArg, b)
    else if busIsActive chip c b then (.errPioInUse, b)
    else if (b.activeBuses config.pio).isSome ∨ pioIsFree config.pio b = false then
      (.errPioInUse, b)
    else if .irq config.pio ∈ b.claims then (.errIrqInUse, b)
    else canBusClaim c config bitrate b

def canBusDeinit (c : κ) (b : PioBoard σ υ κ) : PioBoard σ υ κ :=
  if busIsActive chip c b = false then b
  else
    (((((b.setBus c { b.bus c with initialised := false }).setActive (b.bus c).pio none).unclaim
      {.irq (b.bus c).pio}).unclaim (reservationHigh (b.bus c).pio)).unclaim
        (reservationLow (b.bus c).pio)).unclaim (blockMachines (b.bus c).pio)

end can

section runs

/-- The board, what other code has claimed, and what was claimed for a strip or a UART that was then
initialised again, with the number of such strips on each block. -/
structure PioHistory (σ υ κ : Type) where
  board : PioBoard σ υ κ
  elsewhere : PioClaims
  lost : PioClaims
  lostOn : ℕ → ℕ

inductive PioEvent (σ υ κ : Type) where
  | stripInit (s : σ) (config : Ws2812InitConfig)
  | stripDeinit (s : σ)
  | uartInit (u : υ) (pio : Option ℕ) (config : HalfDuplexUartConfig)
  | uartDeinit (u : υ)
  | canInit (c : κ) (config : CanBusConfig)
  | canDeinit (c : κ)
  | claim (rs : PioClaims)
  | unclaim (rs : PioClaims)

def Ws2812Port.claims (port : Ws2812Port) : PioClaims :=
  {.machine port.pio port.sm} ∪ port.channels

def HalfDuplexUartPort.claims (port : HalfDuplexUartPort) : PioClaims :=
  {.machine port.pio port.smTx} ∪ {.machine port.pio port.smRx} ∪
    programWords port.pio port.offsetRx halfDuplexUartRxProgramLength ∪
    programWords port.pio port.offsetTx halfDuplexUartTxProgramLength

/-- Whether a strip is on a block. -/
def onBlock (pio : ℕ) (port : Option Ws2812Port) : ℕ :=
  port.elim 0 fun port => if port.pio = pio then 1 else 0

/-- A strip has been initialised; whatever it had is lost. -/
def PioHistory.stripOpened (s : σ) (w : PioHistory σ υ κ) (b : PioBoard σ υ κ) :
    PioHistory σ υ κ :=
  { w with
    board := b
    lost := w.lost ∪ (w.board.strip s).elim ∅ Ws2812Port.claims
    lostOn := fun pio => w.lostOn pio + onBlock pio (w.board.strip s) }

def PioHistory.uartOpened (u : υ) (w : PioHistory σ υ κ) (b : PioBoard σ υ κ) :
    PioHistory σ υ κ :=
  { w with board := b, lost := w.lost ∪ (w.board.uart u).elim ∅ HalfDuplexUartPort.claims }

def PioHistory.withBoard (b : PioBoard σ υ κ) (w : PioHistory σ υ κ) : PioHistory σ υ κ :=
  { w with board := b }

inductive PioStep : PioHistory σ υ κ → PioEvent σ υ κ → PioHistory σ υ κ → Prop
  | stripInit (w : PioHistory σ υ κ) (s : σ) (config : Ws2812InitConfig) :
      PioStep w (.stripInit s config)
        (if (ws2812Init chip s config w.board).1 = .ok then
          w.stripOpened s (ws2812Init chip s config w.board).2
        else w.withBoard (ws2812Init chip s config w.board).2)
  | stripDeinit (w : PioHistory σ υ κ) (s : σ) :
      PioStep w (.stripDeinit s) (w.withBoard (ws2812Deinit s w.board))
  | uartInit (w : PioHistory σ υ κ) (u : υ) (pio : Option ℕ) (config : HalfDuplexUartConfig) :
      PioStep w (.uartInit u pio config)
        (if (halfDuplexUartInitOn chip u pio config w.board).1 = .ok then
          w.uartOpened u (halfDuplexUartInitOn chip u pio config w.board).2
        else w.withBoard (halfDuplexUartInitOn chip u pio config w.board).2)
  | uartDeinit (w : PioHistory σ υ κ) (u : υ) :
      PioStep w (.uartDeinit u) (w.withBoard (halfDuplexUartDeinit u w.board))
  | canInit (w : PioHistory σ υ κ) (c : κ) (config : CanBusConfig) :
      PioStep w (.canInit c config) (w.withBoard (canBusInit chip c config w.board).2)
  | canDeinit (w : PioHistory σ υ κ) (c : κ) :
      PioStep w (.canDeinit c) (w.withBoard (canBusDeinit chip c w.board))
  | claim (w : PioHistory σ υ κ) (rs : PioClaims) (hfree : Disjoint rs w.board.claims) :
      PioStep w (.claim rs) { w with board := w.board.claim rs, elsewhere := w.elsewhere ∪ rs }
  | unclaim (w : PioHistory σ υ κ) (rs : PioClaims) (hheld : rs ⊆ w.elsewhere) :
      PioStep w (.unclaim rs)
        { w with board := w.board.unclaim rs, elsewhere := w.elsewhere \ rs }

/-- Nothing of ours is initialised yet. -/
def PioHistory.start (claims : PioClaims) (bus : κ → CanBus) : PioHistory σ υ κ where
  board := ⟨claims, fun _ => ⟨none, 0⟩, fun _ => none, fun _ => none, fun _ => none, bus⟩
  elsewhere := claims
  lost := ∅
  lostOn _ := 0

inductive PioOwner (σ υ κ : Type) where
  | strip (s : σ)
  | uart (u : υ)
  | bus (c : κ)
  | program (pio : ℕ)
  | elsewhere
  | lost

/-- What `can.c` takes of a block. -/
def blockClaims (pio : ℕ) : PioClaims :=
  blockMachines pio ∪ reservationLow pio ∪ reservationHigh pio ∪ {.irq pio}

def PioHistory.holds (w : PioHistory σ υ κ) : PioOwner σ υ κ → PioClaims
  | .strip s => (w.board.strip s).elim ∅ Ws2812Port.claims
  | .uart u => (w.board.uart u).elim ∅ HalfDuplexUartPort.claims
  | .bus c => if busIsActive chip c w.board then blockClaims (w.board.bus c).pio else ∅
  | .program pio => (w.board.program pio).offset.elim ∅ fun offset =>
      programWords pio offset ws2812ProgramLength
  | .elsewhere => w.elsewhere
  | .lost => w.lost

end runs

end drivers

end Pico
