import PicoFramework.Spec.Basic

/-! `half_duplex_uart.c` and `half_duplex_uart_timing.c`. The PIO, the wire and whatever is connected
to it are a `Line`: it takes a packet at a rate, and gives bytes back. -/

namespace Pico

def HALF_DUPLEX_UART_CYCLES_PER_BIT : ℕ := 8
def HALF_DUPLEX_UART_MAX_ERROR_PERMILLE : ℤ := 20
def DIVIDER_FRACTION_STEPS : ℕ := 256
def DIVIDER_256_MIN : ℕ := 1 * DIVIDER_FRACTION_STEPS
def DIVIDER_256_MAX : ℕ := 65536 * DIVIDER_FRACTION_STEPS

inductive HalfDuplexUartResult where
  | ok
  | errInvalidArg
  | errBaudrate
  | errTimeout
deriving DecidableEq

inductive HalfDuplexUartEcho where
  | discard
  | keep
deriving DecidableEq

structure HalfDuplexUartTiming where
  dividerInt : UInt16
  dividerFrac : UInt8
  actualBaudrate : UInt32
  errorPermille : ℤ
deriving DecidableEq

def halfDuplexUartComputeTiming (sysClockHz baudrate : UInt32) : Option HalfDuplexUartTiming :=
  if sysClockHz = 0 ∨ baudrate = 0 then none
  else
    let cyclesPerSecond := baudrate.toNat * HALF_DUPLEX_UART_CYCLES_PER_BIT
    let numerator := sysClockHz.toNat * DIVIDER_FRACTION_STEPS
    let divider256 := (numerator + cyclesPerSecond / 2) / cyclesPerSecond
    if divider256 < DIVIDER_256_MIN ∨ divider256 > DIVIDER_256_MAX then none
    else
      let actual := (numerator + divider256 * HALF_DUPLEX_UART_CYCLES_PER_BIT / 2) /
        (divider256 * HALF_DUPLEX_UART_CYCLES_PER_BIT)
      some {
        dividerInt := UInt16.ofNat (divider256 / DIVIDER_FRACTION_STEPS)
        dividerFrac := UInt8.ofNat (divider256 % DIVIDER_FRACTION_STEPS)
        actualBaudrate := UInt32.ofNat actual
        errorPermille := (((actual : ℤ) - baudrate.toNat) * 1000).tdiv baudrate.toNat }

def halfDuplexUartTimingIsUsable (timing : HalfDuplexUartTiming) : Bool :=
  |timing.errorPermille| ≤ HALF_DUPLEX_UART_MAX_ERROR_PERMILLE

def halfDuplexUartFrameTimeUs (baudrate bytes : UInt32) : UInt32 :=
  if baudrate = 0 then 0
  else UInt32.ofNat ((bytes.toNat * 10 * 1000000 + baudrate.toNat - 1) / baudrate.toNat)

structure HalfDuplexUart where
  baudrate : UInt32
  echo : HalfDuplexUartEcho
  timing : HalfDuplexUartTiming
  initialised : Bool
deriving DecidableEq

/-- What the wire leads to. The system clock does not change. -/
structure Line (ε : Type) where
  /-- `clock_get_hz(clk_sys)`. -/
  clockHz : UInt32
  /-- A packet goes out at a rate; whether its echo comes back in time. -/
  transmit : UInt32 → Bytes → ε → Bool × ε
  /-- The bytes that come in before the timeout, in microseconds. -/
  receive : UInt32 → ε → Bytes × ε
  flush : ε → ε
  sleepMs : ℕ → ε → ε
  /-- `time_reached`, for the deadline that was set last. -/
  timeReached : ε → Bool

/-- The rate a UART can be clocked at, with its timing. -/
def Line.timing {ε : Type} (L : Line ε) (baudrate : UInt32) : Option HalfDuplexUartTiming :=
  (halfDuplexUartComputeTiming L.clockHz baudrate).filter halfDuplexUartTimingIsUsable

/-- `half_duplex_uart_config_t`; the direction pin is -1 for none. -/
structure HalfDuplexUartConfig where
  pin : UInt32
  directionPin : ℤ
  baudrate : UInt32
  echo : HalfDuplexUartEcho
deriving DecidableEq

/-- `half_duplex_uart_init`, or `none` where it refuses. `room` is whether the PIO has room for both
programs, and two state machines. -/
def halfDuplexUartInit {ε : Type} (L : Line ε) (config : HalfDuplexUartConfig) (room : Bool) :
    Option HalfDuplexUart :=
  if config.baudrate = 0 then none
  else if config.directionPin ≥ 0 ∧ config.directionPin = config.pin.toNat then none
  else
    match L.timing config.baudrate with
    | none => none
    | some timing =>
        if !room then none
        else some ⟨config.baudrate, config.echo, timing, true⟩

end Pico
