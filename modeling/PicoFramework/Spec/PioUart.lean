import PicoFramework.Lib.Amid
import PicoFramework.Spec.HalfDuplexUart

/-! The transfers of `half_duplex_uart.c`, over the two state machines of `half_duplex_uart.pio` and
the wire that they share. A machine is modelled by the byte; time is in microseconds and does not
wrap around. -/

namespace Pico.PioUart

open Lib.Power Lib.Amid

section hardware

/-- The words of a joined FIFO. -/
def PIO_FIFO_WORDS : ℕ := 8

/-- The two state machines with their FIFOs, and what is on the wire. -/
structure UartBoard where
  now : ℕ
  txFifo : Bytes
  /-- The byte that the transmitter is shifting out, and the flag that it sets where it has none. -/
  osr : Option UInt8
  stalled : Bool
  /-- The byte that the receiver is taking in, and when it will have it. -/
  incoming : Option (UInt8 × ℕ)
  rxFifo : Bytes
  /-- The byte that the receiver waits to push into a FIFO that is full. -/
  held : Option UInt8
  /-- The time that a byte takes on the wire. -/
  frameUs : ℕ
  /-- The length of the packet that is sent. What else is on the wire only speaks when it is over. -/
  packet : ℕ
  /-- What has been sent; what has been answered; and whether a byte of the answer has gone by while
  the receiver waited. -/
  sent : Bytes
  answer : Bytes
  missed : Bool
  /-- The longest that the processor takes between two accesses, and how long it has taken. -/
  latencyUs : ℕ
  idleUs : ℕ
deriving DecidableEq

inductive UartEvent where
  | elapse
  | pull
  | shift
  | arrive
  | answer (byte : UInt8) (instead : Option UInt8)

namespace UartBoard

/-- A byte is taken in within a frame. -/
def take (b : UartBoard) (byte : UInt8) : UartBoard :=
  { b with incoming := some (byte, b.now + b.frameUs) }

/-- The receiver pushes a byte, or waits to; while it waits it takes nothing in. -/
def push (byte : UInt8) (b : UartBoard) : UartBoard :=
  if b.held.isSome then b
  else if b.rxFifo.length < PIO_FIFO_WORDS then { b with rxFifo := b.rxFifo ++ [byte] }
  else { b with held := some byte }

/-- A microsecond goes by, unless the byte is there or the processor has waited long enough. -/
def elapse (b : UartBoard) : UartBoard :=
  if b.idleUs < b.latencyUs ∧ ∀ x ∈ b.incoming, b.now < x.2 then
    { b with now := b.now + 1, idleUs := b.idleUs + 1 }
  else b

/-- `pull`: the next word, or the flag. -/
def pull (b : UartBoard) : UartBoard :=
  if b.osr.isSome then b
  else if b.txFifo = [] then { b with stalled := true }
  else { b with osr := b.txFifo.head?, txFifo := b.txFifo.tail }

/-- The transmitter's byte goes over the wire. One that starts while the receiver waits is missed,
as nothing is read meanwhile. -/
def shift (b : UartBoard) : UartBoard :=
  if b.incoming.isSome then b
  else b.osr.elim b fun byte =>
    if b.held.isSome then { b with osr := none, sent := b.sent ++ [byte] }
    else { b with osr := none, sent := b.sent ++ [byte] }.take byte

def arrive (b : UartBoard) : UartBoard :=
  b.incoming.elim b fun x => { b with incoming := none }.push x.1

/-- A byte of the answer. If it starts while the receiver waits, that may come back to some part
of it, and make a byte of that. -/
def answerWith (byte : UInt8) (instead : Option UInt8) (b : UartBoard) : UartBoard :=
  if b.sent.length = b.packet ∧ b.osr = none ∧ b.incoming = none then
    if b.held.isSome then
      instead.elim { b with answer := b.answer ++ [byte], missed := true }
        { b with answer := b.answer ++ [byte], missed := true }.take
    else { b with answer := b.answer ++ [byte] }.take byte
  else b

/-- What the hardware does by itself. -/
def react (b : UartBoard) : UartEvent → UartBoard
  | .elapse => b.elapse
  | .pull => b.pull
  | .shift => b.shift
  | .arrive => b.arrive
  | .answer byte instead => b.answerWith byte instead

/-- The processor makes an access. -/
def accessed (b : UartBoard) : UartBoard := { b with idleUs := 0 }

/-- `pio_sm_clear_fifos`; a byte that waited goes in after it. -/
def clearRx (b : UartBoard) : UartBoard := { b with rxFifo := b.held.toList, held := none }

/-- `pio_sm_put`. -/
def put (byte : UInt8) (b : UartBoard) : UartBoard := { b with txFifo := b.txFifo ++ [byte] }

/-- The word is shifted right into 32 bits; the byte is its top. -/
def rxByte (b : UartBoard) : UInt8 × UartBoard :=
  (b.rxFifo.headD 0,
    { b with rxFifo := b.rxFifo.tail ++ b.held.toList, held := none })

end UartBoard

/-- A bus that nothing has happened on, before a packet of `n` bytes. -/
def quietBoard (n frameUs latencyUs : ℕ) : UartBoard where
  now := 0
  txFifo := []
  osr := none
  stalled := true
  incoming := none
  rxFifo := []
  held := none
  frameUs := frameUs
  packet := n
  sent := []
  answer := []
  missed := false
  latencyUs := latencyUs
  idleUs := 0

end hardware

section driver

abbrev UartDriver := Powered (Course UartBoard UartEvent)

def uartAccess {α : Type} (f : UartBoard → α × UartBoard) : UartDriver α :=
  access UartBoard.react fun b => f b.accessed

def uartLook {α : Type} (f : UartBoard → α) : UartDriver α := uartAccess fun b => (f b, b)

def uartChange (f : UartBoard → UartBoard) : UartDriver Unit := uartAccess fun b => ((), f b)

def rxByte : UartDriver UInt8 := uartAccess UartBoard.rxByte

/-- `while (pio_sm_is_rx_fifo_empty(...))`, left with `false` at the deadline. -/
def awaitRx (deadline : ℕ) : UartDriver Bool :=
  untilSome do
    let isEmpty ← uartLook (·.rxFifo.isEmpty)
    if !isEmpty then
      return some true
    let now ← uartLook (·.now)
    return if deadline ≤ now then some false else none

def pioSmPutBlocking (byte : UInt8) : UartDriver Unit := do
  untilDone (uartLook fun b => decide (b.txFifo.length < PIO_FIFO_WORDS))
  uartChange (·.put byte)

def putAll : Bytes → UartDriver Unit
  | [] => return
  | byte :: rest => do
      pioSmPutBlocking byte
      putAll rest

/-- The echo of so many bytes, each of which has as long to come. -/
def discardEcho (echoTimeoutUs : ℕ) : ℕ → UartDriver HalfDuplexUartResult
  | 0 => return .ok
  | n + 1 => do
      let start ← uartLook (·.now)
      let came ← awaitRx (start + echoTimeoutUs)
      if came then
        let _ ← rxByte
        discardEcho echoTimeoutUs n
      else
        uartChange (·.clearRx)
        return .errTimeout

def halfDuplexUartWrite (bus : HalfDuplexUart) (data : Bytes) : UartDriver HalfDuplexUartResult := do
  if !bus.initialised then
    return .errInvalidArg
  if data = [] then
    return .ok
  uartChange (·.clearRx)
  putAll data
  uartChange fun b => { b with stalled := false }
  untilDone (uartLook (·.stalled))
  if bus.echo = .keep then
    return .ok
  discardEcho ((halfDuplexUartFrameTimeUs bus.baudrate 2 + 100).toNat) data.length

/-- The loop of `half_duplex_uart_read`, for so many bytes yet. -/
def readBytes (interByteTimeoutUs : ℕ) : ℕ → ℕ → UartDriver Bytes
  | 0, _ => return []
  | n + 1, deadline => do
      let came ← awaitRx deadline
      if came then
        let byte ← rxByte
        let now ← uartLook (·.now)
        let rest ← readBytes interByteTimeoutUs n (now + interByteTimeoutUs)
        return byte :: rest
      else
        return []

def halfDuplexUartRead (bus : HalfDuplexUart) (capacity timeoutUs interByteTimeoutUs : ℕ) :
    UartDriver (HalfDuplexUartResult × Bytes) := do
  if !bus.initialised then
    return (.errInvalidArg, [])
  if capacity = 0 then
    return (.ok, [])
  let now ← uartLook (·.now)
  let buffer ← readBytes interByteTimeoutUs capacity (now + timeoutUs)
  return (if buffer = [] then .errTimeout else .ok, buffer)

def halfDuplexUartReadExact (bus : HalfDuplexUart) (len timeoutUs : ℕ) :
    UartDriver (HalfDuplexUartResult × Bytes) := do
  if !bus.initialised then
    return (.errInvalidArg, [])
  if len = 0 then
    return (.ok, [])
  let (result, buffer) ← halfDuplexUartRead bus len timeoutUs timeoutUs
  return (if result ≠ .ok then result else if buffer.length = len then .ok else .errTimeout, buffer)

def halfDuplexUartTransfer (bus : HalfDuplexUart) (tx : Bytes) (rxLen timeoutUs : ℕ) :
    UartDriver (HalfDuplexUartResult × Bytes) := do
  let sent ← halfDuplexUartWrite bus tx
  if sent ≠ .ok then
    return (sent, [])
  halfDuplexUartReadExact bus rxLen timeoutUs

def halfDuplexUartFlushRx (bus : HalfDuplexUart) : UartDriver Unit := do
  if bus.initialised then
    uartChange (·.clearRx)

end driver

end Pico.PioUart
