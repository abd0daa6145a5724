import PicoFramework.Proofs.PwmTiming

/-! The levels for a duty cycle and for a pulse width. A duty cycle is scaled in 32 bits, where it
has room; the product of a pulse and a clock from 268 MHz on may have none in 64. -/

namespace Pico

open Lib.Rounding

section timings

/-- A divider and a period that the search can come to. -/
structure Timed (timing : PwmTiming) : Prop where
  div16_ge : 16 ≤ (pwmTimingDiv16 timing).toNat
  div16_le : (pwmTimingDiv16 timing).toNat ≤ 4095
  period_le : timing.period ≤ 65535

variable {clockHz targetHz : UInt32} {timing : PwmTiming}

theorem timed_of_ok (h : pwmTimingForFrequency clockHz targetHz = .ok timing) :
    Timed timing := by
  by_cases hzero : clockHz = 0 ∨ targetHz = 0
  · have hinvalid : pwmTimingForFrequency clockHz targetHz = .error .invalidArg := if_pos hzero
    rw [hinvalid] at h
    exact absurd h nofun
  rw [not_or] at hzero
  rw [pwmTimingForFrequency_eq hzero.1 hzero.2] at h
  by_cases hfast : totalOf clockHz.toNat targetHz.toNat < 16
  · rw [if_pos hfast] at h
    exact absurd h nofun
  rw [if_neg hfast] at h
  by_cases hslow : dividerFor (totalOf clockHz.toNat targetHz.toNat) > 4095
  · rw [if_pos hslow] at h
    exact absurd h nofun
  rw [if_neg hslow] at h
  obtain rfl := Except.ok.inj h
  have hdiv16 := timingFor_div16 (not_lt.mp hslow)
  refine ⟨?_, ?_, ?_⟩
  · rw [hdiv16]
    exact (dividerFor_isLeast _).1.1
  · rw [hdiv16]
    exact not_lt.mp hslow
  · rw [timingFor_period (not_lt.mp hfast)]
    exact (period_bounds (not_lt.mp hfast)).2

theorem period_toNat (timing : PwmTiming) : (timing.wrap.toUInt32 + 1).toNat = timing.period := by
  have hwrap := timing.wrap.toNat_lt
  rw [UInt32.toNat_add, UInt16.toNat_toUInt32, UInt32.toNat_one, Nat.mod_eq_of_lt (by omega)]
  rfl

end timings

section duties

variable {timing : PwmTiming}

theorem levelForDuty_toNat (h : Timed timing) (duty : UInt16) :
    (pwmTimingLevelForDuty timing duty).toNat = roundDiv (duty.toNat * timing.period) 65535 := by
  by_cases hzero : duty = 0
  · rw [pwmTimingLevelForDuty, if_pos hzero, hzero, UInt16.toNat_zero, Nat.zero_mul]
    rfl
  have hduty : duty.toNat ≤ 65535 := Nat.lt_succ_iff.mp duty.toNat_lt
  have hmul : duty.toNat * timing.period ≤ 65535 * 65535 := Nat.mul_le_mul hduty h.period_le
  have hmax : PWM_DUTY_MAX.toNat = 65535 := rfl
  have hhalf : (PWM_DUTY_MAX / 2).toNat = 32767 := rfl
  have hsum : (duty.toUInt32 * (timing.wrap.toUInt32 + 1) + PWM_DUTY_MAX / 2).toNat =
      duty.toNat * timing.period + 32767 := by
    rw [UInt32.toNat_add, UInt32.toNat_mul, period_toNat, UInt16.toNat_toUInt32, hhalf]
    omega
  rw [pwmTimingLevelForDuty, if_neg hzero]
  dsimp only
  rw [UInt32.toNat_toUInt16, UInt32.toNat_div, hsum, hmax]
  change _ = (duty.toNat * timing.period + 32767) / 65535
  omega

/-- What is promised of the levels of a duty cycle. -/
structure DutyExact (timing : PwmTiming) : Prop where
  exact : ∀ duty : UInt16, ((pwmTimingLevelForDuty timing duty).toNat : ℤ) =
    round ((duty.toNat * timing.period : ℚ) / PWM_DUTY_MAX.toNat)
  monotone : ∀ duty duty' : UInt16, duty ≤ duty' →
    pwmTimingLevelForDuty timing duty ≤ pwmTimingLevelForDuty timing duty'
  zero : pwmTimingLevelForDuty timing 0 = 0
  full : (pwmTimingLevelForDuty timing PWM_DUTY_MAX.toUInt16).toNat = timing.wrap.toNat + 1

theorem Timed.dutyExact (h : Timed timing) : DutyExact timing where
  exact duty := by
    have hround := round_div (K := ℚ) (a := duty.toNat * timing.period) (b := 65535) (by decide)
    push_cast at hround
    rw [levelForDuty_toNat h]
    exact hround.symm
  monotone duty duty' hle := by
    rw [UInt16.le_iff_toNat_le, levelForDuty_toNat h, levelForDuty_toNat h]
    exact roundDiv_mono (Nat.mul_le_mul_right _ (UInt16.le_iff_toNat_le.mp hle)) _
  zero := if_pos rfl
  full := by
    have hfull : PWM_DUTY_MAX.toUInt16.toNat = 65535 := rfl
    rw [levelForDuty_toNat h, hfull, Nat.mul_comm, roundDiv_mul_self (by decide)]
    rfl

end duties

section pulses

variable {timing : PwmTiming} {clockHz pulseUs : UInt32}

/-- The product that is divided, with what rounds the quotient. -/
def pulseProduct (clockHz : UInt32) (timing : PwmTiming) (pulseUs : UInt32) : ℕ :=
  pulseUs.toNat * clockHz.toNat * 16 + (pwmTimingDiv16 timing).toNat * 1000000 / 2

/-- The product fits 64 bits, or what is left of it is still a whole period or more. -/
def PulseFits (clockHz : UInt32) (timing : PwmTiming) (pulseUs : UInt32) : Prop :=
  pulseProduct clockHz timing pulseUs < 2 ^ 64 ∨
    timing.period * ((pwmTimingDiv16 timing).toNat * 1000000) ≤
      pulseProduct clockHz timing pulseUs % 2 ^ 64

/-- The level of a pulse is exact, rounded and clamped. -/
def PulseExact (clockHz : UInt32) (timing : PwmTiming) (pulseUs : UInt32) : Prop :=
  ((pwmTimingLevelForPulseUs clockHz timing pulseUs).toNat : ℤ) =
    min (round ((pulseUs.toNat * clockHz.toNat * 16 : ℚ) /
      ((pwmTimingDiv16 timing).toNat * 1000000))) timing.period

theorem divider_toNat (timing : PwmTiming) :
    ((pwmTimingDiv16 timing).toUInt64 * 1000000).toNat =
      (pwmTimingDiv16 timing).toNat * 1000000 :=
  toUInt64_mul_toNat _ (by decide)

theorem counts_toNat :
    (divRound (pulseUs.toUInt64 * clockHz.toUInt64 * 16)
      ((pwmTimingDiv16 timing).toUInt64 * 1000000)).toNat =
      pulseProduct clockHz timing pulseUs % 2 ^ 64 / ((pwmTimingDiv16 timing).toNat * 1000000) := by
  have hdivider := divider_toNat timing
  unfold divRound
  rw [UInt64.toNat_div, UInt64.toNat_add, UInt64.toNat_div, UInt64.toNat_mul, UInt64.toNat_mul,
    hdivider, UInt32.toNat_toUInt64, UInt32.toNat_toUInt64]
  change (pulseUs.toNat * clockHz.toNat % 2 ^ 64 * 16 % 2 ^ 64 +
    (pwmTimingDiv16 timing).toNat * 1000000 / 2) % 2 ^ 64 / _ = _
  rw [pulseProduct, Nat.mod_mul_mod, Nat.mod_add_mod]

theorem levelForPulse_toNat (h : Timed timing) :
    (pwmTimingLevelForPulseUs clockHz timing pulseUs).toNat =
      min (pulseProduct clockHz timing pulseUs % 2 ^ 64 /
        ((pwmTimingDiv16 timing).toNat * 1000000)) timing.period := by
  obtain ⟨hge, hle, hperiod⟩ := h
  by_cases hzero : clockHz = 0 ∨ pulseUs = 0
  · have hnothing : pulseUs.toNat * clockHz.toNat * 16 = 0 := by
      rcases hzero with rfl | rfl <;> simp
    rw [pwmTimingLevelForPulseUs, if_pos hzero, pulseProduct, hnothing, Nat.zero_add,
      Nat.mod_eq_of_lt (by omega), Nat.div_eq_of_lt (by omega), Nat.zero_min]
    rfl
  have hdiv16 : ¬ (pwmTimingDiv16 timing).toUInt64 = 0 := by
    intro h
    have htoNat := congrArg UInt64.toNat h
    rw [UInt32.toNat_toUInt64, UInt64.toNat_zero] at htoNat
    omega
  have hcounts := @counts_toNat timing clockHz pulseUs
  have hperiod' : (timing.wrap.toUInt32 + 1).toUInt64.toNat = timing.period := by
    rw [UInt32.toNat_toUInt64, period_toNat]
  rw [pwmTimingLevelForPulseUs, if_neg hzero]
  dsimp only
  rw [if_neg hdiv16, ← hcounts]
  split
  · rename_i hlong
    rw [ge_iff_le, UInt64.le_iff_toNat_le, hperiod'] at hlong
    rw [min_eq_right hlong, UInt32.toNat_toUInt16, period_toNat, Nat.mod_eq_of_lt (by omega)]
  · rename_i hshort
    rw [ge_iff_le, UInt64.le_iff_toNat_le, hperiod', not_le] at hshort
    rw [min_eq_left hshort.le, UInt64.toNat_toUInt16, Nat.mod_eq_of_lt (by omega)]

theorem pulseExact_iff (h : Timed timing) :
    PulseExact clockHz timing pulseUs ↔
      (pwmTimingLevelForPulseUs clockHz timing pulseUs).toNat =
        min (pulseProduct clockHz timing pulseUs / ((pwmTimingDiv16 timing).toNat * 1000000))
          timing.period := by
  have hge := h.div16_ge
  have hround := round_div (K := ℚ) (a := pulseUs.toNat * clockHz.toNat * 16)
    (b := (pwmTimingDiv16 timing).toNat * 1000000) (by omega)
  push_cast at hround
  rw [PulseExact, hround]
  exact_mod_cast Iff.rfl

theorem pulseExact_iff_fits (h : Timed timing) :
    PulseExact clockHz timing pulseUs ↔ PulseFits clockHz timing pulseUs := by
  obtain ⟨hge, hle, hperiod⟩ := h
  rw [pulseExact_iff ⟨hge, hle, hperiod⟩, levelForPulse_toNat ⟨hge, hle, hperiod⟩, PulseFits]
  have hpos : 0 < (pwmTimingDiv16 timing).toNat * 1000000 := by omega
  have hwhole : timing.period * ((pwmTimingDiv16 timing).toNat * 1000000) ≤
      65535 * (4095 * 1000000) :=
    Nat.mul_le_mul hperiod (Nat.mul_le_mul_right _ hle)
  by_cases hfits : pulseProduct clockHz timing pulseUs < 2 ^ 64
  · rw [Nat.mod_eq_of_lt hfits]
    exact iff_of_true rfl (.inl hfits)
  · have hlong : timing.period ≤
        pulseProduct clockHz timing pulseUs / ((pwmTimingDiv16 timing).toNat * 1000000) := by
      rw [Nat.le_div_iff_mul_le hpos]
      omega
    rw [or_iff_right hfits, min_eq_right hlong, min_eq_right_iff, Nat.le_div_iff_mul_le hpos]

theorem pulse_monotone (h : Timed timing) {pulseUs' : UInt32}
    (hexact : PulseExact clockHz timing pulseUs) (hexact' : PulseExact clockHz timing pulseUs')
    (hle : pulseUs ≤ pulseUs') :
    pwmTimingLevelForPulseUs clockHz timing pulseUs ≤
      pwmTimingLevelForPulseUs clockHz timing pulseUs' := by
  rw [pulseExact_iff h] at hexact hexact'
  rw [UInt16.le_iff_toNat_le, hexact, hexact']
  apply min_le_min_right
  apply Nat.div_le_div_right
  apply Nat.add_le_add_right
  exact Nat.mul_le_mul_right _ (Nat.mul_le_mul_right _ (UInt32.le_iff_toNat_le.mp hle))

/-- Of a timing that the search has come to: the level of a pulse is exact just where its product
fits, the pulses that are exact keep their order, and the levels of a duty cycle are exact. -/
theorem pwm_levels_exact_iff {clockHz targetHz : UInt32} {timing : PwmTiming}
    (htiming : pwmTimingForFrequency clockHz targetHz = .ok timing) (clock : UInt32) :
    (∀ pulseUs, PulseExact clock timing pulseUs ↔ PulseFits clock timing pulseUs) ∧
    (∀ pulseUs pulseUs', PulseExact clock timing pulseUs → PulseExact clock timing pulseUs' →
      pulseUs ≤ pulseUs' → pwmTimingLevelForPulseUs clock timing pulseUs ≤
        pwmTimingLevelForPulseUs clock timing pulseUs') ∧
    DutyExact timing := by
  have htimed := timed_of_ok htiming
  exact ⟨fun _ => pulseExact_iff_fits htimed, fun _ _ => pulse_monotone htimed, htimed.dutyExact⟩

/-- The timing of a servo at 125 MHz. -/
def servoTiming : PwmTiming := ⟨38, 3, 65465⟩

/-- A pulse of 1500 us. -/
theorem pwm_levels_exact_servo : PulseExact 125000000 servoTiming 1500 ∧ DutyExact servoTiming := by
  have htiming : pwmTimingForFrequency 125000000 50 = .ok servoTiming := by decide
  obtain ⟨hpulse, -, hduty⟩ := pwm_levels_exact_iff htiming 125000000
  exact ⟨(hpulse 1500).mpr (.inl (by decide)), hduty⟩

/-- At 300 MHz a pulse of more than an hour, which is to be a solid line, comes out as three counts
of a period of 65529. -/
theorem pwm_pulse_wraps :
    pwmTimingForFrequency 300000000 50 = .ok ⟨91, 9, 65528⟩ ∧
      pwmTimingLevelForPulseUs 300000000 ⟨91, 9, 65528⟩ 3843071683 = 3 ∧
      ¬ PulseExact 300000000 ⟨91, 9, 65528⟩ 3843071683 := by
  have htiming : pwmTimingForFrequency 300000000 50 = .ok ⟨91, 9, 65528⟩ := by decide
  have hlevel : pwmTimingLevelForPulseUs 300000000 ⟨91, 9, 65528⟩ 3843071683 = 3 := by decide
  refine ⟨htiming, hlevel, fun h => ?_⟩
  rw [pulseExact_iff (timed_of_ok htiming), hlevel] at h
  exact absurd h (by decide)

end pulses

end Pico
