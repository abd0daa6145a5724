import Mathlib.Logic.Function.Basic
import PicoFramework.Spec.Basic

/-! `pwm_timing.c`: the divider and the wrap of a PWM slice for a frequency, and the levels for a
duty cycle or a pulse width. -/

namespace Pico

def PWM_DUTY_MAX : UInt32 := 65535
def PWM_TIMING_MIN_DIV16 : UInt64 := 16
def PWM_TIMING_MAX_DIV16 : UInt64 := 4095
def PWM_TIMING_MAX_PERIOD_COUNTS : UInt64 := 65535

structure PwmTiming where
  dividerInt : UInt8
  dividerFrac : UInt8
  wrap : UInt16
deriving DecidableEq

inductive PwmTimingResult where
  | ok
  | invalidArg
  | tooFast
  | tooSlow
deriving DecidableEq

def pwmTimingDiv16 (timing : PwmTiming) : UInt32 :=
  timing.dividerInt.toUInt32 * 16 + timing.dividerFrac.toUInt32

def divRound (a b : UInt64) : UInt64 := (a + b / 2) / b

/-- A timing comes with the result `ok`. -/
def pwmTimingForFrequency (clockHz targetHz : UInt32) : Except PwmTimingResult PwmTiming :=
  if clockHz = 0 ∨ targetHz = 0 then .error .invalidArg
  else
    let total := divRound (clockHz.toUInt64 * 16) targetHz.toUInt64
    if total < PWM_TIMING_MIN_DIV16 then .error .tooFast
    else
      let div16 := (total + PWM_TIMING_MAX_PERIOD_COUNTS - 1) / PWM_TIMING_MAX_PERIOD_COUNTS
      let div16 := if div16 < PWM_TIMING_MIN_DIV16 then PWM_TIMING_MIN_DIV16 else div16
      if div16 > PWM_TIMING_MAX_DIV16 then .error .tooSlow
      else
        let period := divRound total div16
        let period := if period < 1 then 1 else period
        let period :=
          if period > PWM_TIMING_MAX_PERIOD_COUNTS then PWM_TIMING_MAX_PERIOD_COUNTS else period
        .ok {
          dividerInt := (div16 / 16).toUInt8
          dividerFrac := (div16 % 16).toUInt8
          wrap := (period - 1).toUInt16 }

def pwmTimingLevelForDuty (timing : PwmTiming) (duty : UInt16) : UInt16 :=
  if duty = 0 then 0
  else
    let period := timing.wrap.toUInt32 + 1
    ((duty.toUInt32 * period + PWM_DUTY_MAX / 2) / PWM_DUTY_MAX).toUInt16

def pwmTimingLevelForPulseUs (clockHz : UInt32) (timing : PwmTiming) (pulseUs : UInt32) : UInt16 :=
  if clockHz = 0 ∨ pulseUs = 0 then 0
  else
    let div16 := (pwmTimingDiv16 timing).toUInt64
    if div16 = 0 then 0
    else
      let counts := divRound (pulseUs.toUInt64 * clockHz.toUInt64 * 16) (div16 * 1000000)
      let period := timing.wrap.toUInt32 + 1
      if counts ≥ period.toUInt64 then period.toUInt16 else counts.toUInt16

end Pico

/-! `pwm.c`: outputs on the slices of the PWM block. Two pins share a slice, with a level and a
polarity for each and one divider and one wrap between them. -/

namespace Pico

section hardware

inductive GpioFunction where
  | sio
  | pwm
  | other
deriving DecidableEq

/-- A channel of a slice, `PWM_CHAN_A` or `PWM_CHAN_B`. -/
inductive PwmChannel where
  | a
  | b
deriving DecidableEq

/-- The registers of a slice: `CSR.EN`, the two inversion bits of `CSR`, `DIV`, `TOP` and the two
halves of `CC`. -/
structure PwmSlice where
  en : Bool
  inv : PwmChannel → Bool
  div : UInt32
  top : UInt16
  cc : PwmChannel → UInt16

/-- The PWM block and the pins: what each is switched to, and what SIO drives on it. -/
structure PwmHw where
  slice : ℕ → PwmSlice
  function : ℕ → GpioFunction
  dirOut : ℕ → Bool
  put : ℕ → Bool

/-- How many pins there are, and the slice of each. -/
structure PwmBoard where
  numBank0Gpios : ℕ
  gpioToSliceNum : ℕ → ℕ

/-- An RP2040: pins sixteen apart are on the same slice. -/
def PwmBoard.rp2040 : PwmBoard where
  numBank0Gpios := 30
  gpioToSliceNum gpio := gpio / 2 % 8

def pwmGpioToChannel (gpio : ℕ) : PwmChannel := if gpio % 2 = 0 then .a else .b

def PwmHw.setSlice (n : ℕ) (f : PwmSlice → PwmSlice) (hw : PwmHw) : PwmHw :=
  { hw with slice := Function.update hw.slice n (f (hw.slice n)) }

def pwmSetClkdivIntFrac (n : ℕ) (int frac : UInt8) (hw : PwmHw) : PwmHw :=
  hw.setSlice n fun s => { s with div := int.toUInt32 <<< 4 ||| frac.toUInt32 }

def pwmSetWrap (n : ℕ) (wrap : UInt16) (hw : PwmHw) : PwmHw :=
  hw.setSlice n fun s => { s with top := wrap }

def pwmSetOutputPolarity (n : ℕ) (a b : Bool) (hw : PwmHw) : PwmHw :=
  hw.setSlice n fun s => { s with inv := fun | .a => a | .b => b }

def pwmSetChanLevel (n : ℕ) (channel : PwmChannel) (level : UInt16) (hw : PwmHw) : PwmHw :=
  hw.setSlice n fun s => { s with cc := Function.update s.cc channel level }

def pwmSetEnabled (n : ℕ) (enabled : Bool) (hw : PwmHw) : PwmHw :=
  hw.setSlice n fun s => { s with en := enabled }

def gpioSetFunction (gpio : ℕ) (function : GpioFunction) (hw : PwmHw) : PwmHw :=
  { hw with function := Function.update hw.function gpio function }

def gpioSetDirOut (gpio : ℕ) (hw : PwmHw) : PwmHw :=
  { hw with dirOut := Function.update hw.dirOut gpio true }

def gpioPut (gpio : ℕ) (value : Bool) (hw : PwmHw) : PwmHw :=
  { hw with put := Function.update hw.put gpio value }

end hardware

section outputs

inductive PwmResult where
  | ok
  | errInvalidArg
  | errFrequencyTooHigh
  | errFrequencyTooLow
  | errSliceBusy
deriving DecidableEq

structure PwmOutConfig where
  gpio : ℕ
  frequencyHz : UInt32
  duty : UInt16
  invert : Bool
  startEnabled : Bool

structure PwmOut where
  config : PwmOutConfig
  timing : PwmTiming
  clockHz : UInt32
  duty : UInt16
  slice : ℕ
  channel : PwmChannel
  enabled : Bool
  initialised : Bool

def resultForTiming : PwmTimingResult → PwmResult
  | .ok => .ok
  | .tooFast => .errFrequencyTooHigh
  | .tooSlow => .errFrequencyTooLow
  | .invalidArg => .errInvalidArg

/-- The DIV register's 8.4 layout. -/
def divRegisterValue (timing : PwmTiming) : UInt32 :=
  timing.dividerInt.toUInt32 <<< 4 ||| timing.dividerFrac.toUInt32

def sliceConflicts (n : ℕ) (timing : PwmTiming) (hw : PwmHw) : Bool :=
  (hw.slice n).en &&
    ((hw.slice n).top ≠ timing.wrap || (hw.slice n).div ≠ divRegisterValue timing)

def applyTiming (out : PwmOut) (hw : PwmHw) : PwmHw :=
  pwmSetWrap out.slice out.timing.wrap
    (pwmSetClkdivIntFrac out.slice out.timing.dividerInt out.timing.dividerFrac hw)

/-- Both inversions are written, the other channel's as it was read. -/
def applyPolarity (out : PwmOut) (invert : Bool) (hw : PwmHw) : PwmHw :=
  let invertA := (hw.slice out.slice).inv .a
  let invertB := (hw.slice out.slice).inv .b
  match out.channel with
  | .a => pwmSetOutputPolarity out.slice invert invertB hw
  | .b => pwmSetOutputPolarity out.slice invertA invert hw

def applyDuty (out : PwmOut) (hw : PwmHw) : PwmHw :=
  pwmSetChanLevel out.slice out.channel (pwmTimingLevelForDuty out.timing out.duty) hw

/-- The output as `pwm_out_init` fills it, before the slice is started. -/
def PwmOut.configured (board : PwmBoard) (clockHz : UInt32) (config : PwmOutConfig)
    (timing : PwmTiming) : PwmOut where
  config := config
  timing := timing
  clockHz := clockHz
  duty := config.duty
  slice := board.gpioToSliceNum config.gpio
  channel := pwmGpioToChannel config.gpio
  enabled := false
  initialised := true

def pwmOutInit (board : PwmBoard) (clockHz : UInt32) (config : PwmOutConfig) (out : PwmOut)
    (hw : PwmHw) : PwmResult × PwmOut × PwmHw :=
  if config.gpio ≥ board.numBank0Gpios then (.errInvalidArg, out, hw)
  else match pwmTimingForFrequency clockHz config.frequencyHz with
  | .error computed => (resultForTiming computed, out, hw)
  | .ok timing =>
    if sliceConflicts (board.gpioToSliceNum config.gpio) timing hw then (.errSliceBusy, out, hw)
    else
      let out := PwmOut.configured board clockHz config timing
      -- the level is there before the pin is
      let hw := gpioSetFunction config.gpio .pwm
        (applyDuty out (applyPolarity out config.invert (applyTiming out hw)))
      if config.startEnabled then (.ok, { out with enabled := true }, pwmSetEnabled out.slice true hw)
      else (.ok, out, hw)

/-- The other channel's pin is taken to be the one next to it. -/
def pwmOutDeinit (board : PwmBoard) (out : PwmOut) (hw : PwmHw) : PwmOut × PwmHw :=
  if !out.initialised then (out, hw)
  else
    let hw := pwmSetChanLevel out.slice out.channel 0 hw
    let otherGpio := out.config.gpio ^^^ 1
    let otherIsOurs := board.gpioToSliceNum otherGpio = out.slice ∧ hw.function otherGpio = .pwm
    let hw := if otherIsOurs then hw else pwmSetEnabled out.slice false hw
    let hw := gpioPut out.config.gpio false
      (gpioSetDirOut out.config.gpio (gpioSetFunction out.config.gpio .sio hw))
    ({ out with enabled := false, initialised := false }, hw)

def pwmOutSetDuty (duty : UInt16) (out : PwmOut) (hw : PwmHw) : PwmResult × PwmOut × PwmHw :=
  if !out.initialised then (.errInvalidArg, out, hw)
  else
    let out := { out with duty := duty }
    (.ok, out, applyDuty out hw)

def pwmOutSetDutyPercent (percent : UInt8) (out : PwmOut) (hw : PwmHw) :
    PwmResult × PwmOut × PwmHw :=
  if !out.initialised ∨ percent > 100 then (.errInvalidArg, out, hw)
  else pwmOutSetDuty (percent.toUInt32 * PWM_DUTY_MAX / 100).toUInt16 out hw

def pwmOutResolution (out : PwmOut) : UInt32 := out.timing.wrap.toUInt32 + 1

def pwmOutSetPulseUs (pulseUs : UInt32) (out : PwmOut) (hw : PwmHw) :
    PwmResult × PwmOut × PwmHw :=
  if !out.initialised then (.errInvalidArg, out, hw)
  else
    let level := pwmTimingLevelForPulseUs out.clockHz out.timing pulseUs
    let period := pwmOutResolution out
    (.ok, { out with duty := ((level.toUInt32 * PWM_DUTY_MAX + period / 2) / period).toUInt16 },
      pwmSetChanLevel out.slice out.channel level hw)

def pwmOutSetFrequency (frequencyHz : UInt32) (out : PwmOut) (hw : PwmHw) :
    PwmResult × PwmOut × PwmHw :=
  if !out.initialised then (.errInvalidArg, out, hw)
  else match pwmTimingForFrequency out.clockHz frequencyHz with
  | .error computed => (resultForTiming computed, out, hw)
  | .ok timing =>
    let out := { out with timing := timing, config := { out.config with frequencyHz } }
    (.ok, out, applyDuty out (applyTiming out hw))

def pwmOutEnable (enabled : Bool) (out : PwmOut) (hw : PwmHw) : PwmOut × PwmHw :=
  if !out.initialised then (out, hw)
  else ({ out with enabled := enabled }, pwmSetEnabled out.slice enabled hw)

end outputs

section calls

/-- A call on an output. `init` finds the system clock at some rate. -/
inductive PwmCall where
  | init (clockHz : UInt32) (config : PwmOutConfig)
  | deinit
  | setDuty (duty : UInt16)
  | setDutyPercent (percent : UInt8)
  | setPulseUs (pulseUs : UInt32)
  | setFrequency (frequencyHz : UInt32)
  | enable (enabled : Bool)

def PwmCall.apply (board : PwmBoard) (out : PwmOut) (hw : PwmHw) : PwmCall → PwmOut × PwmHw
  | .init clockHz config => (pwmOutInit board clockHz config out hw).2
  | .deinit => pwmOutDeinit board out hw
  | .setDuty duty => (pwmOutSetDuty duty out hw).2
  | .setDutyPercent percent => (pwmOutSetDutyPercent percent out hw).2
  | .setPulseUs pulseUs => (pwmOutSetPulseUs pulseUs out hw).2
  | .setFrequency frequencyHz => (pwmOutSetFrequency frequencyHz out hw).2
  | .enable enabled => pwmOutEnable enabled out hw

/-- The block, and the outputs that the application keeps. -/
structure PwmSystem (ι : Type) where
  out : ι → PwmOut
  hw : PwmHw

def PwmSystem.call {ι : Type} [DecidableEq ι] (board : PwmBoard) (s : PwmSystem ι)
    (c : ι × PwmCall) : PwmSystem ι where
  out := Function.update s.out c.1 (c.2.apply board (s.out c.1) s.hw).1
  hw := (c.2.apply board (s.out c.1) s.hw).2

end calls

end Pico
