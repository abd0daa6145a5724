import PicoFramework.Lib.Run
import PicoFramework.Proofs.PwmLevels
import PicoFramework.Spec.Pwm

/-! Outputs that share the slices of the PWM block. What a pin carries is what its output's record
says, and a running output is not moved by what is done with the others. -/

namespace Pico

open Lib.Run Lib.Rounding

section pulses

variable {timing : PwmTiming}

theorem level_le_period (clockHz : UInt32) (timing : PwmTiming) (pulseUs : UInt32) :
    (pwmTimingLevelForPulseUs clockHz timing pulseUs).toNat ≤ timing.period := by
  have hwrap := period_toNat timing
  unfold pwmTimingLevelForPulseUs
  dsimp only
  split_ifs with hzero hdiv hlong
  · exact Nat.zero_le _
  · exact Nat.zero_le _
  · rw [UInt32.toNat_toUInt16, hwrap]
    exact Nat.mod_le _ _
  · rw [ge_iff_le, UInt64.le_iff_toNat_le, UInt32.toNat_toUInt64, hwrap, not_le] at hlong
    rw [UInt64.toNat_toUInt16]
    exact (Nat.mod_le _ _).trans hlong.le

theorem levelForDuty_of_level (h : Timed timing) {level : UInt16}
    (hlevel : level.toNat ≤ timing.period) :
    pwmTimingLevelForDuty timing ((level.toUInt32 * PWM_DUTY_MAX +
      (timing.wrap.toUInt32 + 1) / 2) / (timing.wrap.toUInt32 + 1)).toUInt16 = level := by
  have hpos : 0 < timing.period := Nat.succ_pos _
  have hperiod := h.period_le
  have hmul : level.toNat * 65535 ≤ timing.period * 65535 := Nat.mul_le_mul_right _ hlevel
  have hmax : PWM_DUTY_MAX.toNat = 65535 := rfl
  have hduty : ((level.toUInt32 * PWM_DUTY_MAX + (timing.wrap.toUInt32 + 1) / 2) /
      (timing.wrap.toUInt32 + 1)).toUInt16.toNat = roundDiv (level.toNat * 65535) timing.period := by
    have hround : roundDiv (level.toNat * 65535) timing.period ≤ 65535 := by
      have hmono := roundDiv_mono hmul timing.period
      rwa [Nat.mul_comm timing.period, roundDiv_mul_self hpos] at hmono
    have hsum : (level.toUInt32 * PWM_DUTY_MAX + (timing.wrap.toUInt32 + 1) / 2).toNat =
        level.toNat * 65535 + timing.period / 2 := by
      rw [UInt32.toNat_add, UInt32.toNat_mul, UInt32.toNat_div, period_toNat, hmax,
        UInt16.toNat_toUInt32]
      have htwo : (2 : UInt32).toNat = 2 := rfl
      rw [htwo]
      omega
    rw [UInt32.toNat_toUInt16, UInt32.toNat_div, hsum, period_toNat]
    exact Nat.mod_eq_of_lt (Nat.lt_succ_of_le hround)
  apply UInt16.toNat_inj.mp
  rw [levelForDuty_toNat h, hduty]
  exact roundDiv_mul_roundDiv hpos hperiod level.toNat

end pulses

section slices

variable {hw : PwmHw} {n m : ℕ} {f : PwmSlice → PwmSlice}

@[simp] theorem setSlice_slice_self : (hw.setSlice n f).slice n = f (hw.slice n) :=
  Function.update_self _ _ _

theorem setSlice_slice_of_ne (h : m ≠ n) : (hw.setSlice n f).slice m = hw.slice m :=
  Function.update_of_ne h _ _

theorem channel_xor (gpio : ℕ) : pwmGpioToChannel (gpio ^^^ 1) ≠ pwmGpioToChannel gpio := by
  have hparity : (gpio ^^^ 1) % 2 ≠ gpio % 2 := by
    have hxor : (gpio ^^^ 1) % 2 = gpio % 2 ^^^ 1 := @Nat.xor_mod_two_pow gpio 1 1
    obtain h | h := Nat.mod_two_eq_zero_or_one gpio <;> rw [hxor, h] <;> decide
  unfold pwmGpioToChannel
  obtain h | h := Nat.mod_two_eq_zero_or_one gpio
  · rw [if_pos h, if_neg fun hxor => hparity (hxor.trans h.symm)]
    exact PwmChannel.noConfusion
  · have hxor : (gpio ^^^ 1) % 2 = 0 := by omega
    rw [if_pos hxor, if_neg fun hzero => hparity (hxor.trans hzero.symm)]
    exact PwmChannel.noConfusion

end slices

section channels

/-- A channel of a slice and a pin that are left as they were. -/
structure LeavesPin (n : ℕ) (channel : PwmChannel) (gpio : ℕ) (hw hw' : PwmHw) : Prop where
  level : (hw'.slice n).cc channel = (hw.slice n).cc channel
  polarity : (hw'.slice n).inv channel = (hw.slice n).inv channel
  function : hw'.function gpio = hw.function gpio

variable {n m : ℕ} {channel : PwmChannel} {gpio : ℕ} {hw hw' hw'' : PwmHw}

theorem LeavesPin.refl (hw : PwmHw) : LeavesPin n channel gpio hw hw := ⟨rfl, rfl, rfl⟩

theorem LeavesPin.trans (h : LeavesPin n channel gpio hw hw') (h' : LeavesPin n channel gpio hw' hw'') :
    LeavesPin n channel gpio hw hw'' :=
  ⟨h'.level.trans h.level, h'.polarity.trans h.polarity, h'.function.trans h.function⟩

theorem LeavesPin.setSlice {f : PwmSlice → PwmSlice}
    (h : m = n → (f (hw.slice n)).cc channel = (hw.slice n).cc channel ∧
      (f (hw.slice n)).inv channel = (hw.slice n).inv channel) :
    LeavesPin n channel gpio hw (hw.setSlice m f) := by
  by_cases hm : m = n
  · subst hm
    refine ⟨?_, ?_, rfl⟩
    · rw [setSlice_slice_self]
      exact (h rfl).1
    · rw [setSlice_slice_self]
      exact (h rfl).2
  · refine ⟨?_, ?_, rfl⟩ <;> rw [setSlice_slice_of_ne (Ne.symm hm)]

theorem leavesPin_setEnabled (enabled : Bool) :
    LeavesPin n channel gpio hw (pwmSetEnabled m enabled hw) := LeavesPin.setSlice fun _ => ⟨rfl, rfl⟩

theorem leavesPin_setClkdivIntFrac (int frac : UInt8) :
    LeavesPin n channel gpio hw (pwmSetClkdivIntFrac m int frac hw) :=
  LeavesPin.setSlice fun _ => ⟨rfl, rfl⟩

theorem leavesPin_setWrap (wrap : UInt16) : LeavesPin n channel gpio hw (pwmSetWrap m wrap hw) :=
  LeavesPin.setSlice fun _ => ⟨rfl, rfl⟩

theorem leavesPin_applyTiming (out : PwmOut) : LeavesPin n channel gpio hw (applyTiming out hw) :=
  (leavesPin_setClkdivIntFrac _ _).trans (leavesPin_setWrap _)

theorem leavesPin_setChanLevel {channel' : PwmChannel} {level : UInt16}
    (h : m = n → channel' ≠ channel) :
    LeavesPin n channel gpio hw (pwmSetChanLevel m channel' level hw) :=
  LeavesPin.setSlice fun hm => ⟨Function.update_of_ne (h hm).symm _ _, rfl⟩

theorem leavesPin_applyPolarity {out : PwmOut} {invert : Bool}
    (h : out.slice = n → out.channel ≠ channel) :
    LeavesPin n channel gpio hw (applyPolarity out invert hw) := by
  unfold applyPolarity
  dsimp only
  cases hout : out.channel with
  | a =>
    apply LeavesPin.setSlice
    intro hm
    cases channel with
    | a => exact absurd hout (h hm)
    | b => exact ⟨rfl, by rw [hm]⟩
  | b =>
    apply LeavesPin.setSlice
    intro hm
    cases channel with
    | a => exact ⟨rfl, by rw [hm]⟩
    | b => exact absurd hout (h hm)

theorem leavesPin_gpioSetFunction {gpio' : ℕ} {function : GpioFunction} (h : gpio ≠ gpio') :
    LeavesPin n channel gpio hw (gpioSetFunction gpio' function hw) :=
  ⟨rfl, rfl, Function.update_of_ne h _ _⟩

theorem leavesPin_toSio {gpio' : ℕ} (h : gpio ≠ gpio') :
    LeavesPin n channel gpio hw
      (gpioPut gpio' false (gpioSetDirOut gpio' (gpioSetFunction gpio' .sio hw))) :=
  ⟨rfl, rfl, Function.update_of_ne h _ _⟩

theorem polarity_applyPolarity (out : PwmOut) (invert : Bool) (hw : PwmHw) :
    ((applyPolarity out invert hw).slice out.slice).inv out.channel = invert := by
  unfold applyPolarity
  dsimp only
  cases hout : out.channel <;> exact congrFun (congrArg PwmSlice.inv setSlice_slice_self) _

theorem level_setChanLevel (n : ℕ) (channel : PwmChannel) (level : UInt16) (hw : PwmHw) :
    ((pwmSetChanLevel n channel level hw).slice n).cc channel = level := by
  unfold pwmSetChanLevel
  rw [setSlice_slice_self]
  exact Function.update_self _ _ _

theorem inv_setChanLevel (n m : ℕ) (channel : PwmChannel) (level : UInt16) (hw : PwmHw) :
    ((pwmSetChanLevel n channel level hw).slice m).inv = (hw.slice m).inv := by
  unfold pwmSetChanLevel
  by_cases hm : m = n
  · rw [hm, setSlice_slice_self]
  · rw [setSlice_slice_of_ne hm]

end channels

section calls

theorem ite_not_of_true {α : Type} {b : Bool} {x y : α} (h : b = true) :
    (if !b then x else y) = y := if_neg (by rw [h]; exact Bool.false_ne_true)

theorem ite_not_of_ne_true {α : Type} {b : Bool} {x y : α} (h : ¬b = true) :
    (if !b then x else y) = x := if_pos (by rw [Bool.not_eq_true] at h; rw [h]; rfl)

theorem timingError_ne_ok (clockHz targetHz : UInt32) :
    pwmTimingForFrequency clockHz targetHz ≠ .error .ok := by
  unfold pwmTimingForFrequency
  dsimp only
  split_ifs <;> simp

/-- The pin of an output is driven as its record says. -/
structure Drives (out : PwmOut) (hw : PwmHw) : Prop where
  timed : Timed out.timing
  function : hw.function out.config.gpio = .pwm
  level : (hw.slice out.slice).cc out.channel = pwmTimingLevelForDuty out.timing out.duty
  polarity : (hw.slice out.slice).inv out.channel = out.config.invert

variable {board : PwmBoard} {out : PwmOut} {hw : PwmHw}

theorem Drives.of_leaves {hw' : PwmHw} (h : Drives out hw)
    (hleaves : LeavesPin out.slice out.channel out.config.gpio hw hw') : Drives out hw' :=
  ⟨h.timed, hleaves.function.trans h.function, hleaves.level.trans h.level,
    hleaves.polarity.trans h.polarity⟩

theorem sliceConflicts_eq_false {n : ℕ} {timing : PwmTiming} :
    sliceConflicts n timing hw = false ↔ ((hw.slice n).en = true →
      (hw.slice n).top = timing.wrap ∧ (hw.slice n).div = divRegisterValue timing) := by
  unfold sliceConflicts
  simp

/-- What the block is left as by an `init` that is accepted. -/
def PwmOut.installed (out : PwmOut) (hw : PwmHw) : PwmHw :=
  if out.enabled then
    pwmSetEnabled out.slice true (gpioSetFunction out.config.gpio .pwm
      (applyDuty out (applyPolarity out out.config.invert (applyTiming out hw))))
  else gpioSetFunction out.config.gpio .pwm
    (applyDuty out (applyPolarity out out.config.invert (applyTiming out hw)))

/-- What `pwm_out_deinit` leaves of an output that was initialised. -/
def PwmOut.released (board : PwmBoard) (out : PwmOut) (hw : PwmHw) : PwmHw :=
  gpioPut out.config.gpio false (gpioSetDirOut out.config.gpio
    (gpioSetFunction out.config.gpio .sio
      (if board.gpioToSliceNum (out.config.gpio ^^^ 1) = out.slice ∧
          hw.function (out.config.gpio ^^^ 1) = .pwm then
        pwmSetChanLevel out.slice out.channel 0 hw
      else pwmSetEnabled out.slice false (pwmSetChanLevel out.slice out.channel 0 hw))))

/-- All that a call can do. -/
inductive PwmEffect (board : PwmBoard) (out : PwmOut) (hw : PwmHw) :
    PwmCall → PwmOut × PwmHw → Prop
  | unchanged (c : PwmCall) : PwmEffect board out hw c (out, hw)
  | installed {clockHz : UInt32} {config : PwmOutConfig} {timing : PwmTiming} {new : PwmOut}
      (htiming : pwmTimingForFrequency clockHz config.frequencyHz = .ok timing)
      (hfree : sliceConflicts (board.gpioToSliceNum config.gpio) timing hw = false)
      (hnew : new = { PwmOut.configured board clockHz config timing with
        enabled := config.startEnabled }) :
      PwmEffect board out hw (.init clockHz config) (new, new.installed hw)
  | released (hinit : out.initialised = true) :
      PwmEffect board out hw .deinit
        ({ out with enabled := false, initialised := false }, out.released board hw)
  | leveled {c : PwmCall} {duty level : UInt16} (hinit : out.initialised = true)
      (hlevel : Timed out.timing → level = pwmTimingLevelForDuty out.timing duty) :
      PwmEffect board out hw c
        ({ out with duty := duty }, pwmSetChanLevel out.slice out.channel level hw)
  | retimed {frequencyHz : UInt32} {timing : PwmTiming} {new : PwmOut}
      (hinit : out.initialised = true)
      (htiming : pwmTimingForFrequency out.clockHz frequencyHz = .ok timing)
      (hnew : new = { out with timing := timing, config := { out.config with frequencyHz } }) :
      PwmEffect board out hw (.setFrequency frequencyHz) (new, applyDuty new (applyTiming new hw))
  | switched {enabled : Bool} (hinit : out.initialised = true) :
      PwmEffect board out hw (.enable enabled)
        ({ out with enabled := enabled }, pwmSetEnabled out.slice enabled hw)

theorem initOk_or_unchanged (board : PwmBoard) (clockHz : UInt32) (config : PwmOutConfig)
    (out : PwmOut) (hw : PwmHw) :
    (pwmOutInit board clockHz config out hw).2 = (out, hw) ∧
        (pwmOutInit board clockHz config out hw).1 ≠ .ok ∨
      ∃ timing new, pwmTimingForFrequency clockHz config.frequencyHz = .ok timing ∧
        sliceConflicts (board.gpioToSliceNum config.gpio) timing hw = false ∧
        new = { PwmOut.configured board clockHz config timing with
          enabled := config.startEnabled } ∧
        pwmOutInit board clockHz config out hw = (.ok, new, new.installed hw) := by
  unfold pwmOutInit
  by_cases hgpio : config.gpio ≥ board.numBank0Gpios
  · rw [if_pos hgpio]
    exact Or.inl ⟨rfl, PwmResult.noConfusion⟩
  rw [if_neg hgpio]
  cases htiming : pwmTimingForFrequency clockHz config.frequencyHz with
  | error computed =>
    refine Or.inl ⟨rfl, ?_⟩
    cases computed with
    | ok => exact absurd htiming (timingError_ne_ok clockHz config.frequencyHz)
    | _ => exact PwmResult.noConfusion
  | ok timing =>
    dsimp only
    cases hbusy : sliceConflicts (board.gpioToSliceNum config.gpio) timing hw with
    | true => exact Or.inl ⟨rfl, PwmResult.noConfusion⟩
    | false =>
      refine Or.inr ⟨timing, _, rfl, hbusy, rfl, ?_⟩
      unfold PwmOut.installed
      cases hstart : config.startEnabled with
      | true => rfl
      | false =>
        rw [if_neg Bool.false_ne_true, if_neg Bool.false_ne_true]
        rfl

theorem effect_setDuty (c : PwmCall) (duty : UInt16) :
    PwmEffect board out hw c (pwmOutSetDuty duty out hw).2 := by
  unfold pwmOutSetDuty
  by_cases hinit : out.initialised = true
  · rw [ite_not_of_true hinit]
    exact .leveled hinit fun _ => rfl
  · rw [ite_not_of_ne_true hinit]
    exact .unchanged c

theorem call_effect (board : PwmBoard) (out : PwmOut) (hw : PwmHw) (c : PwmCall) :
    PwmEffect board out hw c (c.apply board out hw) := by
  cases c with
  | init clockHz config =>
    change PwmEffect board out hw _ (pwmOutInit board clockHz config out hw).2
    obtain ⟨hsame, -⟩ | ⟨timing, new, htiming, hfree, hnew, hdone⟩ :=
      initOk_or_unchanged board clockHz config out hw
    · rw [hsame]
      exact .unchanged _
    · rw [hdone]
      exact .installed htiming hfree hnew
  | deinit =>
    change PwmEffect board out hw _ (pwmOutDeinit board out hw)
    unfold pwmOutDeinit
    by_cases hinit : out.initialised = true
    · rw [ite_not_of_true hinit]
      exact .released hinit
    · rw [ite_not_of_ne_true hinit]
      exact .unchanged _
  | setDuty duty => exact effect_setDuty _ duty
  | setDutyPercent percent =>
    change PwmEffect board out hw _ (pwmOutSetDutyPercent percent out hw).2
    unfold pwmOutSetDutyPercent
    split
    · exact .unchanged _
    · exact effect_setDuty _ _
  | setPulseUs pulseUs =>
    change PwmEffect board out hw _ (pwmOutSetPulseUs pulseUs out hw).2
    unfold pwmOutSetPulseUs
    by_cases hinit : out.initialised = true
    · rw [ite_not_of_true hinit]
      exact .leveled hinit fun ht => (levelForDuty_of_level ht (level_le_period _ _ _)).symm
    · rw [ite_not_of_ne_true hinit]
      exact .unchanged _
  | setFrequency frequencyHz =>
    change PwmEffect board out hw _ (pwmOutSetFrequency frequencyHz out hw).2
    unfold pwmOutSetFrequency
    by_cases hinit : out.initialised = true
    · rw [ite_not_of_true hinit]
      cases htiming : pwmTimingForFrequency out.clockHz frequencyHz with
      | error computed => exact .unchanged _
      | ok timing => exact .retimed hinit htiming rfl
    · rw [ite_not_of_ne_true hinit]
      exact .unchanged _
  | enable enabled =>
    change PwmEffect board out hw _ (pwmOutEnable enabled out hw)
    unfold pwmOutEnable
    by_cases hinit : out.initialised = true
    · rw [ite_not_of_true hinit]
      exact .switched hinit
    · rw [ite_not_of_ne_true hinit]
      exact .unchanged _

/-- The slice and the channel of an output are its pin's. -/
def PwmOut.Placed (board : PwmBoard) (out : PwmOut) : Prop :=
  out.initialised = true → out.slice = board.gpioToSliceNum out.config.gpio ∧
    out.channel = pwmGpioToChannel out.config.gpio

/-- Two pins are not on one channel. -/
def PinsApart (board : PwmBoard) (gpio gpio' : ℕ) : Prop :=
  board.gpioToSliceNum gpio = board.gpioToSliceNum gpio' →
    pwmGpioToChannel gpio ≠ pwmGpioToChannel gpio'

theorem PinsApart.symm {gpio gpio' : ℕ} (h : PinsApart board gpio gpio') :
    PinsApart board gpio' gpio := fun hslice => (h hslice.symm).symm

theorem PinsApart.ne {gpio gpio' : ℕ} (h : PinsApart board gpio gpio') : gpio ≠ gpio' := by
  intro hgpio
  subst hgpio
  exact h rfl rfl

theorem installed_leaves {n : ℕ} {channel : PwmChannel} {gpio : ℕ}
    (h : out.slice = n → out.channel ≠ channel) (hgpio : gpio ≠ out.config.gpio) :
    LeavesPin n channel gpio hw (out.installed hw) := by
  have hset : LeavesPin n channel gpio hw (gpioSetFunction out.config.gpio .pwm
      (applyDuty out (applyPolarity out out.config.invert (applyTiming out hw)))) :=
    (((leavesPin_applyTiming out).trans (leavesPin_applyPolarity h)).trans
      (leavesPin_setChanLevel h)).trans (leavesPin_gpioSetFunction hgpio)
  unfold PwmOut.installed
  split
  · exact hset.trans (leavesPin_setEnabled true)
  · exact hset

theorem released_leaves {n : ℕ} {channel : PwmChannel} {gpio : ℕ}
    (h : out.slice = n → out.channel ≠ channel) (hgpio : gpio ≠ out.config.gpio) :
    LeavesPin n channel gpio hw (out.released board hw) := by
  have hlevel : LeavesPin n channel gpio hw (pwmSetChanLevel out.slice out.channel 0 hw) :=
    leavesPin_setChanLevel h
  unfold PwmOut.released
  split
  · exact hlevel.trans (leavesPin_toSio hgpio)
  · exact (hlevel.trans (leavesPin_setEnabled false)).trans (leavesPin_toSio hgpio)

theorem PwmEffect.leaves {c : PwmCall} {after : PwmOut × PwmHw} (he : PwmEffect board out hw c after)
    {gpio : ℕ} (hplaced : out.Placed board)
    (hbefore : out.initialised = true → PinsApart board out.config.gpio gpio)
    (hafter : after.1.initialised = true → PinsApart board after.1.config.gpio gpio) :
    LeavesPin (board.gpioToSliceNum gpio) (pwmGpioToChannel gpio) gpio hw after.2 := by
  have hown : out.initialised = true →
      (out.slice = board.gpioToSliceNum gpio → out.channel ≠ pwmGpioToChannel gpio) := by
    intro hinit hslice
    rw [(hplaced hinit).1] at hslice
    rw [(hplaced hinit).2]
    exact hbefore hinit hslice
  cases he with
  | unchanged => exact LeavesPin.refl hw
  | installed htiming hfree hnew =>
    subst hnew
    exact installed_leaves (hafter rfl) (hafter rfl).ne.symm
  | released hinit => exact released_leaves (hown hinit) (hbefore hinit).ne.symm
  | leveled hinit => exact leavesPin_setChanLevel (hown hinit)
  | retimed hinit htiming hnew =>
    subst hnew
    exact (leavesPin_applyTiming _).trans (leavesPin_setChanLevel (hown hinit))
  | switched => exact leavesPin_setEnabled _

theorem Drives.installed (ht : Timed out.timing) : Drives out (out.installed hw) := by
  have hset : Drives out (gpioSetFunction out.config.gpio .pwm
      (applyDuty out (applyPolarity out out.config.invert (applyTiming out hw)))) :=
    ⟨ht, Function.update_self _ _ _, level_setChanLevel _ _ _ _,
      (congrFun (inv_setChanLevel _ _ _ _ _) _).trans (polarity_applyPolarity _ _ _)⟩
  unfold PwmOut.installed
  split
  · exact hset.of_leaves (leavesPin_setEnabled true)
  · exact hset

/-- Whatever is called on an output, its pin is driven as the record says afterwards. -/
theorem PwmEffect.drives {c : PwmCall} {after : PwmOut × PwmHw} (he : PwmEffect board out hw c after)
    (hd : out.initialised = true → Drives out hw) :
    after.1.initialised = true → Drives after.1 after.2 := by
  intro hafter
  cases he with
  | unchanged => exact hd hafter
  | installed htiming hfree hnew =>
    subst hnew
    exact Drives.installed (timed_of_ok htiming)
  | released => exact absurd hafter Bool.false_ne_true
  | leveled hinit hlevel =>
    exact ⟨(hd hinit).timed, (hd hinit).function,
      (level_setChanLevel _ _ _ _).trans (hlevel (hd hinit).timed),
      (congrFun (inv_setChanLevel _ _ _ _ _) _).trans (hd hinit).polarity⟩
  | @retimed _ _ new hinit htiming hnew =>
    have hleaves : LeavesPin out.slice out.channel out.config.gpio hw (applyTiming new hw) :=
      leavesPin_applyTiming _
    subst hnew
    exact ⟨timed_of_ok htiming, (hd hinit).function, level_setChanLevel _ _ _ _,
      (congrFun (inv_setChanLevel _ _ _ _ _) _).trans (hleaves.polarity.trans (hd hinit).polarity)⟩
  | @switched enabled hinit =>
    have hkept : Drives out (pwmSetEnabled out.slice enabled hw) :=
      (hd hinit).of_leaves (leavesPin_setEnabled enabled)
    exact ⟨hkept.timed, hkept.function, hkept.level, hkept.polarity⟩

/-- The pin of an output that is initialised is the one it had, or an `init` has just moved it. -/
theorem PwmEffect.placed {c : PwmCall} {after : PwmOut × PwmHw} (he : PwmEffect board out hw c after)
    (hplaced : out.Placed board) : after.1.Placed board := by
  cases he with
  | unchanged => exact hplaced
  | installed htiming hfree hnew =>
    subst hnew
    exact fun _ => ⟨rfl, rfl⟩
  | released => exact fun h => absurd h Bool.false_ne_true
  | leveled hinit => exact fun _ => hplaced hinit
  | retimed hinit htiming hnew =>
    subst hnew
    exact fun _ => hplaced hinit
  | switched hinit => exact fun _ => hplaced hinit

theorem PwmEffect.gpio {c : PwmCall} {after : PwmOut × PwmHw} (he : PwmEffect board out hw c after)
    (hafter : after.1.initialised = true) :
    out.initialised = true ∧ after.1.config.gpio = out.config.gpio ∨
      ∃ clockHz config, c = .init clockHz config ∧ after.1.config.gpio = config.gpio := by
  cases he with
  | unchanged => exact Or.inl ⟨hafter, rfl⟩
  | @installed clockHz config _ _ _ _ hnew =>
    subst hnew
    exact Or.inr ⟨clockHz, config, rfl, rfl⟩
  | released => exact absurd hafter Bool.false_ne_true
  | leveled hinit => exact Or.inl ⟨hinit, rfl⟩
  | retimed hinit htiming hnew =>
    subst hnew
    exact Or.inl ⟨hinit, rfl⟩
  | switched hinit => exact Or.inl ⟨hinit, rfl⟩

/-- What a slice runs at is left as it was. -/
structure LeavesClock (n : ℕ) (hw hw' : PwmHw) : Prop where
  en : (hw'.slice n).en = (hw.slice n).en
  top : (hw'.slice n).top = (hw.slice n).top
  div : (hw'.slice n).div = (hw.slice n).div

/-- A slice runs, at a timing. -/
structure RunsAt (n : ℕ) (timing : PwmTiming) (hw : PwmHw) : Prop where
  en : (hw.slice n).en = true
  top : (hw.slice n).top = timing.wrap
  div : (hw.slice n).div = divRegisterValue timing

theorem RunsAt.of_leaves {n : ℕ} {timing : PwmTiming} {hw' : PwmHw} (h : RunsAt n timing hw)
    (hleaves : LeavesClock n hw hw') : RunsAt n timing hw' :=
  ⟨hleaves.en.trans h.en, hleaves.top.trans h.top, hleaves.div.trans h.div⟩

theorem LeavesClock.trans {n : ℕ} {hw' hw'' : PwmHw} (h : LeavesClock n hw hw')
    (h' : LeavesClock n hw' hw'') : LeavesClock n hw hw'' :=
  ⟨h'.en.trans h.en, h'.top.trans h.top, h'.div.trans h.div⟩

theorem LeavesClock.setSlice {n m : ℕ} {f : PwmSlice → PwmSlice}
    (h : m = n → (f (hw.slice n)).en = (hw.slice n).en ∧ (f (hw.slice n)).top = (hw.slice n).top ∧
      (f (hw.slice n)).div = (hw.slice n).div) : LeavesClock n hw (hw.setSlice m f) := by
  by_cases hm : m = n
  · subst hm
    constructor <;> rw [setSlice_slice_self]
    · exact (h rfl).1
    · exact (h rfl).2.1
    · exact (h rfl).2.2
  · constructor <;> rw [setSlice_slice_of_ne (Ne.symm hm)]

theorem leavesClock_setChanLevel (n m : ℕ) (channel : PwmChannel) (level : UInt16) :
    LeavesClock n hw (pwmSetChanLevel m channel level hw) :=
  .setSlice fun _ => ⟨rfl, rfl, rfl⟩

theorem leavesClock_setEnabled {n m : ℕ} {enabled : Bool}
    (h : m = n → enabled = (hw.slice n).en) : LeavesClock n hw (pwmSetEnabled m enabled hw) :=
  .setSlice fun hn => ⟨h hn, rfl, rfl⟩

theorem leavesClock_gpioSetFunction (n gpio : ℕ) (function : GpioFunction) :
    LeavesClock n hw (gpioSetFunction gpio function hw) := ⟨rfl, rfl, rfl⟩

theorem leavesClock_toSio (n gpio : ℕ) : LeavesClock n hw
    (gpioPut gpio false (gpioSetDirOut gpio (gpioSetFunction gpio .sio hw))) := ⟨rfl, rfl, rfl⟩

theorem leavesClock_applyPolarity (n : ℕ) (out : PwmOut) (invert : Bool) :
    LeavesClock n hw (applyPolarity out invert hw) := by
  unfold applyPolarity
  dsimp only
  cases out.channel <;> exact .setSlice fun _ => ⟨rfl, rfl, rfl⟩

theorem leavesClock_applyTiming {n : ℕ} (h : out.slice ≠ n) :
    LeavesClock n hw (applyTiming out hw) := by
  constructor <;> unfold applyTiming pwmSetWrap pwmSetClkdivIntFrac <;>
    rw [setSlice_slice_of_ne h.symm, setSlice_slice_of_ne h.symm]

theorem applyTiming_clock (out : PwmOut) (hw : PwmHw) :
    ((applyTiming out hw).slice out.slice).en = (hw.slice out.slice).en ∧
      ((applyTiming out hw).slice out.slice).top = out.timing.wrap ∧
      ((applyTiming out hw).slice out.slice).div = divRegisterValue out.timing := by
  unfold applyTiming pwmSetWrap pwmSetClkdivIntFrac
  rw [setSlice_slice_self, setSlice_slice_self]
  exact ⟨rfl, rfl, rfl⟩

theorem leavesClock_installed {n : ℕ} (h : out.slice ≠ n) :
    LeavesClock n hw (out.installed hw) := by
  have hset : LeavesClock n hw (gpioSetFunction out.config.gpio .pwm
      (applyDuty out (applyPolarity out out.config.invert (applyTiming out hw)))) :=
    (((leavesClock_applyTiming h).trans (leavesClock_applyPolarity n out _)).trans
      (leavesClock_setChanLevel n _ _ _)).trans (leavesClock_gpioSetFunction n _ _)
  unfold PwmOut.installed
  split
  · exact hset.trans (leavesClock_setEnabled fun hn => absurd hn h)
  · exact hset

theorem installed_runsAt (h : out.enabled = true ∨ (hw.slice out.slice).en = true) :
    RunsAt out.slice out.timing (out.installed hw) := by
  obtain ⟨hen, htop, hdiv⟩ := applyTiming_clock out hw
  have hset : LeavesClock out.slice (applyTiming out hw) (gpioSetFunction out.config.gpio .pwm
      (applyDuty out (applyPolarity out out.config.invert (applyTiming out hw)))) :=
    ((leavesClock_applyPolarity out.slice out _).trans
      (leavesClock_setChanLevel out.slice _ _ _)).trans (leavesClock_gpioSetFunction _ _ _)
  unfold PwmOut.installed
  by_cases henabled : out.enabled = true
  · rw [if_pos henabled]
    constructor <;> unfold pwmSetEnabled <;> rw [setSlice_slice_self]
    · exact hset.top.trans htop
    · exact hset.div.trans hdiv
  · rw [if_neg henabled]
    exact ⟨(hset.en.trans hen).trans (h.resolve_left henabled), hset.top.trans htop,
      hset.div.trans hdiv⟩

theorem retimed_runsAt (h : (hw.slice out.slice).en = true) :
    RunsAt out.slice out.timing (applyDuty out (applyTiming out hw)) := by
  obtain ⟨hen, htop, hdiv⟩ := applyTiming_clock out hw
  have hset : LeavesClock out.slice (applyTiming out hw) (applyDuty out (applyTiming out hw)) :=
    leavesClock_setChanLevel out.slice _ _ _
  exact ⟨hset.en.trans (hen.trans h), hset.top.trans htop, hset.div.trans hdiv⟩

theorem leavesClock_released {n : ℕ}
    (h : out.slice = n → board.gpioToSliceNum (out.config.gpio ^^^ 1) = n ∧
      hw.function (out.config.gpio ^^^ 1) = .pwm) :
    LeavesClock n hw (out.released board hw) := by
  have hlevel : LeavesClock n hw (pwmSetChanLevel out.slice out.channel 0 hw) :=
    leavesClock_setChanLevel n _ _ _
  unfold PwmOut.released
  split
  · exact hlevel.trans (leavesClock_toSio n _)
  · rename_i hother
    refine (hlevel.trans (leavesClock_setEnabled fun hn => absurd ⟨?_, (h hn).2⟩ hother)).trans
      (leavesClock_toSio n _)
    rw [hn]
    exact (h hn).1

/-- Any call leaves another output's slice running, unless it sets its frequency or stops it. -/
theorem PwmEffect.runsAt {c : PwmCall} {after : PwmOut × PwmHw} (he : PwmEffect board out hw c after)
    {n : ℕ} {timing : PwmTiming} (hruns : RunsAt n timing hw)
    (hretimed : ∀ frequencyHz, c = .setFrequency frequencyHz → out.initialised = true → out.slice ≠ n)
    (hstopped : c = .enable false → out.initialised = true → out.slice ≠ n)
    (hreleased : out.initialised = true → out.slice = n →
      board.gpioToSliceNum (out.config.gpio ^^^ 1) = n ∧
        hw.function (out.config.gpio ^^^ 1) = .pwm) : RunsAt n timing after.2 := by
  cases he with
  | unchanged => exact hruns
  | @installed _ config timing' new _ hfree hnew =>
    by_cases hn : board.gpioToSliceNum config.gpio = n
    · have hsame := sliceConflicts_eq_false.mp hfree
      rw [hn] at hsame
      obtain ⟨htop, hdiv⟩ := hsame hruns.en
      have hinstalled : RunsAt n timing' (new.installed hw) := by
        have hrun : RunsAt new.slice new.timing (new.installed hw) := by
          refine installed_runsAt (Or.inr ?_)
          subst hnew
          exact (congrArg (fun m => (hw.slice m).en) hn).trans hruns.en
        subst hnew
        rw [← hn]
        exact hrun
      exact ⟨hinstalled.en, hinstalled.top.trans (htop.symm.trans hruns.top),
        hinstalled.div.trans (hdiv.symm.trans hruns.div)⟩
    · refine hruns.of_leaves (leavesClock_installed ?_)
      subst hnew
      exact hn
  | released hinit => exact hruns.of_leaves (leavesClock_released (hreleased hinit))
  | leveled => exact hruns.of_leaves (leavesClock_setChanLevel n _ _ _)
  | @retimed frequencyHz _ new hinit _ hnew =>
    have hn : new.slice ≠ n := by
      subst hnew
      exact hretimed frequencyHz rfl hinit
    exact hruns.of_leaves ((leavesClock_applyTiming hn).trans (leavesClock_setChanLevel n _ _ _))
  | @switched enabled hinit =>
    cases enabled with
    | false =>
      exact hruns.of_leaves (leavesClock_setEnabled fun hn => absurd hn (hstopped rfl hinit))
    | true => exact hruns.of_leaves (leavesClock_setEnabled fun _ => hruns.en.symm)

end calls

section systems

variable {ι : Type} [DecidableEq ι] {board : PwmBoard} {s : PwmSystem ι}

/-- An output is put on a channel that no other output is on. -/
def PwmSystem.Wired (board : PwmBoard) (s : PwmSystem ι) : ι × PwmCall → Prop
  | (i, .init _ config) => ∀ j ≠ i, (s.out j).initialised = true →
      PinsApart board (s.out j).config.gpio config.gpio
  | _ => True

/-- What holds of all outputs at once. -/
structure PwmSystem.Kept (board : PwmBoard) (s : PwmSystem ι) : Prop where
  placed : ∀ i, (s.out i).Placed board
  apart : ∀ i j, i ≠ j → (s.out i).initialised = true → (s.out j).initialised = true →
    PinsApart board (s.out i).config.gpio (s.out j).config.gpio
  drives : ∀ i, (s.out i).initialised = true → Drives (s.out i) s.hw

theorem call_out_self (c : ι × PwmCall) :
    (s.call board c).out c.1 = (c.2.apply board (s.out c.1) s.hw).1 := Function.update_self _ _ _

theorem call_out_of_ne {c : ι × PwmCall} {j : ι} (h : j ≠ c.1) :
    (s.call board c).out j = s.out j := Function.update_of_ne h _ _

theorem PwmSystem.Kept.apart_call (h : s.Kept board) {c : ι × PwmCall} (hc : s.Wired board c)
    {j : ι} (hj : j ≠ c.1) (hafter : ((s.call board c).out c.1).initialised = true)
    (hinit : (s.out j).initialised = true) :
    PinsApart board ((s.call board c).out c.1).config.gpio (s.out j).config.gpio := by
  rw [call_out_self] at hafter ⊢
  obtain ⟨hbefore, hgpio⟩ | ⟨clockHz, config, hcall, hgpio⟩ :=
    (call_effect board (s.out c.1) s.hw c.2).gpio hafter
  · rw [hgpio]
    exact h.apart c.1 j (Ne.symm hj) hbefore hinit
  · rw [hgpio]
    obtain ⟨i, call⟩ := c
    subst hcall
    exact (hc j hj hinit).symm

theorem PwmSystem.Kept.call (h : s.Kept board) {c : ι × PwmCall} (hc : s.Wired board c) :
    (s.call board c).Kept board := by
  have heffect := call_effect board (s.out c.1) s.hw c.2
  refine ⟨fun i => ?_, fun i j hij => ?_, fun i => ?_⟩
  · by_cases hi : i = c.1
    · subst hi
      rw [call_out_self]
      exact heffect.placed (h.placed c.1)
    · rw [call_out_of_ne hi]
      exact h.placed i
  · intro hinit hinit'
    by_cases hi : i = c.1
    · subst hi
      have hj : j ≠ c.1 := Ne.symm hij
      rw [call_out_of_ne hj] at hinit' ⊢
      exact h.apart_call hc hj hinit hinit'
    · rw [call_out_of_ne hi] at hinit ⊢
      by_cases hj : j = c.1
      · subst hj
        exact (h.apart_call hc hi hinit' hinit).symm
      · rw [call_out_of_ne hj] at hinit' ⊢
        exact h.apart i j hij hinit hinit'
  · intro hinit
    by_cases hi : i = c.1
    · subst hi
      rw [call_out_self] at hinit ⊢
      exact heffect.drives (h.drives c.1) hinit
    · rw [call_out_of_ne hi] at hinit ⊢
      have hleaves := heffect.leaves (h.placed c.1)
        (fun hbefore => h.apart c.1 i (Ne.symm hi) hbefore hinit) fun hafter => by
          rw [← call_out_self] at hafter ⊢
          exact h.apart_call hc hi hafter hinit
      rw [← (h.placed i hinit).1, ← (h.placed i hinit).2] at hleaves
      exact (h.drives i hinit).of_leaves hleaves

/-- A board after a reset, with two outputs to set up. -/
def PwmSystem.reset : PwmSystem Bool where
  out _ := ⟨⟨0, 0, 0, false, false⟩, ⟨0, 0, 0⟩, 0, 0, 0, .a, false, false⟩
  hw := ⟨fun _ => ⟨false, fun _ => false, 16, 65535, fun _ => 0⟩, fun _ => .other,
    fun _ => false, fun _ => false⟩

def servoConfig (gpio : ℕ) : PwmOutConfig := ⟨gpio, 50, 0, false, true⟩

/-- However outputs are set up, driven and given up, as long as no two of them are on one channel,
each pin carries the duty cycle that its output reports, at its polarity. -/
theorem pwm_pins_follow_records (hreset : ∀ i, (s.out i).initialised = false)
    {calls : List (ι × PwmCall)}
    (hwired : Meets (PwmSystem.call board) (PwmSystem.Wired board) s calls) (i : ι)
    (hinit : ((calls.foldl (PwmSystem.call board) s).out i).initialised = true) :
    Drives ((calls.foldl (PwmSystem.call board) s).out i)
      (calls.foldl (PwmSystem.call board) s).hw := by
  have hnone : ∀ j, ¬(s.out j).initialised = true := by
    intro j hj
    rw [hreset j] at hj
    exact Bool.false_ne_true hj
  have hstart : s.Kept board :=
    ⟨fun j hj => absurd hj (hnone j), fun j k _ hj => absurd hj (hnone j),
      fun j hj => absurd hj (hnone j)⟩
  have hkept := hwired.invariant (fun _ _ hc hs => PwmSystem.Kept.call hs hc) hstart
  exact hkept.drives i hinit

theorem pwm_pins_follow_records_two :
    Drives (([(false, .init 125000000 (servoConfig 10)), (true, .init 125000000 (servoConfig 11)),
        (false, .setPulseUs 1500)].foldl (PwmSystem.call .rp2040) PwmSystem.reset).out false)
      ([(false, .init 125000000 (servoConfig 10)), (true, .init 125000000 (servoConfig 11)),
        (false, .setPulseUs 1500)].foldl (PwmSystem.call .rp2040) PwmSystem.reset).hw := by
  have hwired : Meets (PwmSystem.call .rp2040) (PwmSystem.Wired .rp2040) PwmSystem.reset
      [(false, .init 125000000 (servoConfig 10)), (true, .init 125000000 (servoConfig 11)),
        (false, .setPulseUs 1500)] := by
    refine ⟨fun j _ hj => absurd hj Bool.false_ne_true, fun j hj _ => ?_, trivial, trivial⟩
    cases j with
    | false =>
      intro _
      decide +kernel
    | true => exact absurd rfl hj
  exact pwm_pins_follow_records (fun _ => rfl) hwired false (by decide +kernel)

/-- A state that calls lead to from one where no output is initialised. -/
def PwmSystem.Reached (board : PwmBoard) (s : PwmSystem ι) : Prop :=
  ∃ (start : PwmSystem ι) (calls : List (ι × PwmCall)),
    (∀ i, (start.out i).initialised = false) ∧ s = calls.foldl (PwmSystem.call board) start

def PwmSystem.Placed (board : PwmBoard) (s : PwmSystem ι) : Prop := ∀ i, (s.out i).Placed board

theorem placed_call (h : s.Placed board) (c : ι × PwmCall) : (s.call board c).Placed board := by
  intro i
  by_cases hi : i = c.1
  · subst hi
    rw [call_out_self]
    exact (call_effect board (s.out c.1) s.hw c.2).placed (h c.1)
  · rw [call_out_of_ne hi]
    exact h i

theorem PwmSystem.Reached.placed (h : s.Reached board) : s.Placed board := by
  obtain ⟨start, calls, hreset, rfl⟩ := h
  have hstart : start.Placed board := by
    intro j hj
    rw [hreset j] at hj
    exact absurd hj Bool.false_ne_true
  exact @foldl_invariant _ _ _ (PwmSystem.Placed board) (fun _ c hs => placed_call hs c) _ calls
    hstart

/-- A call that is not meant to move output `i`: it is not given up, stopped or set up anew, no
other output sets the frequency of its slice or stops it, and what is put on its slice is put on
the pin next to its own. -/
def PwmSystem.Beside (board : PwmBoard) (i : ι) (s : PwmSystem ι) (c : ι × PwmCall) : Prop :=
  match c.2 with
  | .init _ config => c.1 ≠ i ∧ (board.gpioToSliceNum config.gpio = (s.out i).slice →
      config.gpio = (s.out i).config.gpio ^^^ 1)
  | .deinit => c.1 ≠ i
  | .setFrequency _ => c.1 ≠ i → (s.out c.1).initialised = true →
      (s.out c.1).slice ≠ (s.out i).slice
  | .enable enabled => enabled = false → (s.out c.1).initialised = true →
      (s.out c.1).slice ≠ (s.out i).slice
  | _ => True

/-- Output `i` runs: its pin carries its duty cycle, at its frequency. -/
structure PwmSystem.Runs (board : PwmBoard) (i : ι) (s : PwmSystem ι) : Prop where
  initialised : (s.out i).initialised = true
  drives : Drives (s.out i) s.hw
  runsAt : RunsAt (s.out i).slice (s.out i).timing s.hw
  placed : s.Placed board
  paired : ∀ j ≠ i, (s.out j).initialised = true → (s.out j).slice = (s.out i).slice →
    (s.out j).config.gpio = (s.out i).config.gpio ^^^ 1

theorem pinsApart_of_paired {gpio gpio' : ℕ}
    (h : board.gpioToSliceNum gpio = board.gpioToSliceNum gpio' → gpio = gpio' ^^^ 1) :
    PinsApart board gpio gpio' := by
  intro hslice
  rw [h hslice]
  exact channel_xor gpio'

theorem PwmSystem.Runs.call_other {i : ι} (h : s.Runs board i) {c : ι × PwmCall} (hi : i ≠ c.1)
    (hc : s.Beside board i c) : (s.call board c).Runs board i := by
  have heffect := call_effect board (s.out c.1) s.hw c.2
  have hpaired : ((s.call board c).out c.1).initialised = true →
      ((s.call board c).out c.1).slice = (s.out i).slice →
      ((s.call board c).out c.1).config.gpio = (s.out i).config.gpio ^^^ 1 := by
    intro hafter hslice
    rw [(placed_call h.placed c c.1 hafter).1] at hslice
    rw [call_out_self] at hafter hslice ⊢
    obtain ⟨hbefore, hgpio⟩ | ⟨clockHz, config, hcall, hgpio⟩ := heffect.gpio hafter
    · rw [hgpio, ← (h.placed c.1 hbefore).1] at hslice
      rw [hgpio]
      exact h.paired c.1 (Ne.symm hi) hbefore hslice
    · rw [hgpio] at hslice ⊢
      obtain ⟨j, call⟩ := c
      subst hcall
      exact hc.2 hslice
  have hout : (s.call board c).out i = s.out i := call_out_of_ne hi
  have hown := (h.placed i h.initialised)
  refine ⟨?_, ?_, ?_, placed_call h.placed c, ?_⟩
  · rw [hout]
    exact h.initialised
  · rw [hout]
    have hbefore : (s.out c.1).initialised = true →
        PinsApart board (s.out c.1).config.gpio (s.out i).config.gpio := by
      intro hinit
      apply pinsApart_of_paired
      rw [← (h.placed c.1 hinit).1, ← hown.1]
      exact h.paired c.1 (Ne.symm hi) hinit
    have hafter : (c.2.apply board (s.out c.1) s.hw).1.initialised = true →
        PinsApart board (c.2.apply board (s.out c.1) s.hw).1.config.gpio
          (s.out i).config.gpio := by
      rw [← call_out_self]
      intro hinit
      apply pinsApart_of_paired
      rw [← (placed_call h.placed c c.1 hinit).1, ← hown.1]
      exact hpaired hinit
    have hleaves := heffect.leaves (h.placed c.1) hbefore hafter
    rw [← hown.1, ← hown.2] at hleaves
    exact h.drives.of_leaves hleaves
  · rw [hout]
    refine heffect.runsAt h.runsAt ?_ ?_ ?_
    · intro frequencyHz hcall
      obtain ⟨j, call⟩ := c
      subst hcall
      exact hc (Ne.symm hi)
    · intro hcall
      obtain ⟨j, call⟩ := c
      subst hcall
      exact hc rfl
    · -- the pin next to it is output `i`'s own
      intro hinit hslice
      rw [h.paired c.1 (Ne.symm hi) hinit hslice, Nat.xor_assoc, Nat.xor_self,
        Nat.xor_zero]
      exact ⟨hown.1.symm, h.drives.function⟩
  · intro j hj hinit hslice
    rw [hout] at hslice ⊢
    by_cases hjc : j = c.1
    · subst hjc
      exact hpaired hinit hslice
    · rw [call_out_of_ne hjc] at hinit hslice ⊢
      exact h.paired j hj hinit hslice

/-- A call on output `i` itself. -/
theorem PwmSystem.Runs.call_self {i : ι} (h : s.Runs board i) {c : PwmCall}
    (hc : s.Beside board i (i, c)) : (s.call board (i, c)).Runs board i := by
  have heffect := call_effect board (s.out i) s.hw c
  have hout : (s.call board (i, c)).out i = (c.apply board (s.out i) s.hw).1 :=
    call_out_self (i, c)
  have hkept : (c.apply board (s.out i) s.hw).1.initialised = true ∧
      (c.apply board (s.out i) s.hw).1.slice = (s.out i).slice ∧
      (c.apply board (s.out i) s.hw).1.config.gpio = (s.out i).config.gpio ∧
      RunsAt (s.out i).slice (c.apply board (s.out i) s.hw).1.timing
        (c.apply board (s.out i) s.hw).2 := by
    generalize hafter : c.apply board (s.out i) s.hw = after at heffect ⊢
    cases heffect with
    | unchanged => exact ⟨h.initialised, rfl, rfl, h.runsAt⟩
    | installed => exact absurd rfl hc.1
    | released => exact absurd rfl hc
    | leveled =>
      exact ⟨h.initialised, rfl, rfl, h.runsAt.of_leaves (leavesClock_setChanLevel _ _ _ _)⟩
    | @retimed _ _ new _ _ hnew =>
      have hruns := @retimed_runsAt new s.hw (by rw [hnew]; exact h.runsAt.en)
      subst hnew
      exact ⟨h.initialised, rfl, rfl, hruns⟩
    | @switched enabled =>
      refine ⟨h.initialised, rfl, rfl, h.runsAt.of_leaves (leavesClock_setEnabled fun _ => ?_)⟩
      cases enabled with
      | false => exact absurd rfl (hc rfl h.initialised)
      | true => exact h.runsAt.en.symm
  obtain ⟨hinit, hslice, hgpio, hruns⟩ := hkept
  refine ⟨?_, ?_, ?_, placed_call h.placed _, ?_⟩
  · rw [hout]
    exact hinit
  · rw [hout]
    exact heffect.drives (fun _ => h.drives) hinit
  · rw [hout, hslice]
    exact hruns
  · intro j hj
    rw [hout, hslice, hgpio, call_out_of_ne (c := (i, c)) hj]
    exact h.paired j hj

theorem PwmSystem.Runs.call {i : ι} (h : s.Runs board i) {c : ι × PwmCall}
    (hc : s.Beside board i c) : (s.call board c).Runs board i := by
  by_cases hi : i = c.1
  · subst hi
    exact h.call_self hc
  · exact h.call_other hi hc

/-- Once an output is set up and started it runs on: its pin stays a PWM pin on a slice that
counts at the frequency of its record, with the duty cycle and the polarity of its record, whatever
is done with the outputs beside it. -/
theorem pwm_output_runs_on {i : ι} (hs : s.Reached board) {clockHz : UInt32}
    {config : PwmOutConfig} (hstart : config.startEnabled = true)
    (hinit : (pwmOutInit board clockHz config (s.out i) s.hw).1 = .ok)
    (hpaired : ∀ j ≠ i, (s.out j).initialised = true →
      (s.out j).slice = board.gpioToSliceNum config.gpio →
      (s.out j).config.gpio = config.gpio ^^^ 1) {calls : List (ι × PwmCall)}
    (hcalls : Meets (PwmSystem.call board) (PwmSystem.Beside board i)
      (s.call board (i, .init clockHz config)) calls) :
    (calls.foldl (PwmSystem.call board) (s.call board (i, .init clockHz config))).Runs
      board i := by
  have hout : (s.call board (i, .init clockHz config)).out i =
      (pwmOutInit board clockHz config (s.out i) s.hw).2.1 := call_out_self (i, _)
  have hhw : (s.call board (i, .init clockHz config)).hw =
      (pwmOutInit board clockHz config (s.out i) s.hw).2.2 := rfl
  obtain ⟨-, hrefused⟩ | ⟨timing, new, htiming, -, hnew, hdone⟩ :=
    initOk_or_unchanged board clockHz config (s.out i) s.hw
  · exact absurd hinit hrefused
  rw [hdone] at hout hhw
  have hfirst : (s.call board (i, .init clockHz config)).Runs board i := by
    refine ⟨?_, ?_, ?_, placed_call hs.placed _, ?_⟩
    · rw [hout, hnew]
      rfl
    · rw [hout, hhw]
      refine Drives.installed ?_
      rw [hnew]
      exact timed_of_ok htiming
    · rw [hout, hhw]
      refine installed_runsAt (Or.inl ?_)
      rw [hnew]
      exact hstart
    · intro j hj
      rw [hout, call_out_of_ne (c := (i, .init clockHz config)) hj, hnew]
      exact hpaired j hj
  exact hcalls.invariant (fun _ _ hc hs => PwmSystem.Runs.call hs hc) hfirst

theorem pwm_output_runs_on_two :
    ([(true, .init 125000000 (servoConfig 11)), (false, .setPulseUs 1500),
        (true, .deinit)].foldl (PwmSystem.call .rp2040)
      (PwmSystem.reset.call .rp2040 (false, .init 125000000 (servoConfig 10)))).Runs
        .rp2040 false := by
  refine pwm_output_runs_on ⟨PwmSystem.reset, [], fun _ => rfl, rfl⟩ rfl (by decide +kernel)
    (fun j _ hj => absurd hj Bool.false_ne_true) ⟨⟨by decide, fun _ => ?_⟩, trivial,
      fun h => Bool.noConfusion h, trivial⟩
  decide +kernel

end systems

end Pico
