import PicoFramework.Lib.Nearest
import PicoFramework.Lib.Rounding
import PicoFramework.Spec.Pwm

/-! The timing that is picked for a frequency. The period is rounded to whole counts, and so the
boundary between two periods is not the midpoint of their frequencies. -/

namespace Pico

open Lib.Nearest Lib.Rounding

section words

variable {a b : UInt64}

theorem divRound_toNat (h : a.toNat + b.toNat / 2 < 2 ^ 64) :
    (divRound a b).toNat = roundDiv a.toNat b.toNat := by
  unfold divRound roundDiv
  rw [UInt64.toNat_div, UInt64.toNat_add, UInt64.toNat_div]
  exact congrArg (· / b.toNat) (Nat.mod_eq_of_lt h)

theorem toUInt64_mul_toNat (x : UInt32) {c : UInt64} (hc : c.toNat ≤ 2 ^ 32) :
    (x.toUInt64 * c).toNat = x.toNat * c.toNat := by
  have hmul : x.toNat * c.toNat < 2 ^ 32 * 2 ^ 32 :=
    Nat.mul_lt_mul_of_lt_of_le x.toNat_lt hc (by decide)
  change _ < 2 ^ 64 at hmul
  rw [UInt64.toNat_mul, UInt32.toNat_toUInt64, Nat.mod_eq_of_lt hmul]

end words

section search

variable {total : ℕ}

/-- The divider for a total of sixteenths. -/
def dividerFor (total : ℕ) : ℕ := max 16 ((total + 65534) / 65535)

theorem dividerFor_isLeast (total : ℕ) :
    IsLeast {d | 16 ≤ d ∧ total ≤ 65535 * d} (dividerFor total) := by
  unfold dividerFor
  constructor
  · change 16 ≤ _ ∧ total ≤ 65535 * _
    omega
  · rintro d ⟨hmin, hholds⟩
    omega

/-- The timing for a total of sixteenths. -/
def timingFor (total : ℕ) : PwmTiming where
  dividerInt := UInt8.ofNat (dividerFor total / 16)
  dividerFrac := UInt8.ofNat (dividerFor total % 16)
  wrap := UInt16.ofNat (roundDiv total (dividerFor total) - 1)

theorem period_bounds (h : 16 ≤ total) :
    1 ≤ roundDiv total (dividerFor total) ∧ roundDiv total (dividerFor total) ≤ 65535 := by
  obtain ⟨⟨hmin, hholds⟩, hleast⟩ := dividerFor_isLeast total
  have hpos : 0 < dividerFor total := by omega
  constructor
  · rw [le_roundDiv_iff hpos, Nat.one_mul]
    have hsmall : dividerFor total ≤ total := hleast ⟨h, by omega⟩
    omega
  · rw [← Nat.lt_succ_iff, roundDiv_lt_iff hpos, Nat.succ_mul]
    omega

theorem divider_word {total : UInt64} (h : total.toNat < 2 ^ 37) :
    (if (total + PWM_TIMING_MAX_PERIOD_COUNTS - 1) / PWM_TIMING_MAX_PERIOD_COUNTS <
        PWM_TIMING_MIN_DIV16 then PWM_TIMING_MIN_DIV16
      else (total + PWM_TIMING_MAX_PERIOD_COUNTS - 1) / PWM_TIMING_MAX_PERIOD_COUNTS).toNat =
      dividerFor total.toNat := by
  have hmax : PWM_TIMING_MAX_PERIOD_COUNTS.toNat = 65535 := rfl
  have hmin : PWM_TIMING_MIN_DIV16.toNat = 16 := rfl
  have hsum : (total + PWM_TIMING_MAX_PERIOD_COUNTS).toNat = total.toNat + 65535 := by
    rw [UInt64.toNat_add, hmax, Nat.mod_eq_of_lt (by omega)]
  have hone : (1 : UInt64) ≤ total + PWM_TIMING_MAX_PERIOD_COUNTS := by
    rw [UInt64.le_iff_toNat_le, hsum, UInt64.toNat_one]
    omega
  have hquotient : ((total + PWM_TIMING_MAX_PERIOD_COUNTS - 1) /
      PWM_TIMING_MAX_PERIOD_COUNTS).toNat = (total.toNat + 65534) / 65535 := by
    rw [UInt64.toNat_div, UInt64.toNat_sub_of_le _ _ hone, hsum, hmax, UInt64.toNat_one]
    rfl
  unfold dividerFor
  split
  · rename_i hlt
    rw [UInt64.lt_iff_toNat_lt, hquotient, hmin] at hlt
    rw [hmin, max_eq_left hlt.le]
  · rename_i hge
    rw [UInt64.lt_iff_toNat_lt, hquotient, hmin, not_lt] at hge
    rw [hquotient, max_eq_right hge]

theorem period_word {period : UInt64} (hmin : 1 ≤ period.toNat) (hmax : period.toNat ≤ 65535) :
    ((if (if period < 1 then 1 else period) > PWM_TIMING_MAX_PERIOD_COUNTS then
        PWM_TIMING_MAX_PERIOD_COUNTS
      else if period < 1 then 1 else period) - 1).toUInt16 = UInt16.ofNat (period.toNat - 1) := by
  have hlow : ¬ period < 1 := by
    rw [UInt64.lt_iff_toNat_lt, UInt64.toNat_one]
    omega
  have hhigh : ¬ period > PWM_TIMING_MAX_PERIOD_COUNTS := by
    rw [gt_iff_lt, UInt64.lt_iff_toNat_lt, not_lt]
    exact hmax
  have hone : (1 : UInt64) ≤ period := by
    rw [UInt64.le_iff_toNat_le]
    exact hmin
  rw [if_neg hlow, if_neg hhigh]
  apply UInt16.toNat_inj.mp
  rw [UInt64.toNat_toUInt16, UInt64.toNat_sub_of_le _ _ hone, UInt16.toNat_ofNat']
  rfl

variable {clockHz targetHz : UInt32}

/-- The period of the target, in sixteenths of a tick, as the code rounds it. -/
def totalOf (clock target : ℕ) : ℕ := roundDiv (clock * 16) target

theorem total_word (htarget : targetHz ≠ 0) :
    (divRound (clockHz.toUInt64 * 16) targetHz.toUInt64).toNat =
        totalOf clockHz.toNat targetHz.toNat ∧
      totalOf clockHz.toNat targetHz.toNat < 2 ^ 37 := by
  have hclockLt := clockHz.toNat_lt
  have htargetLt := targetHz.toNat_lt
  have hpos : 0 < targetHz.toNat := Nat.pos_of_ne_zero fun h => htarget (UInt32.toNat_inj.mp h)
  have hnumerator : (clockHz.toUInt64 * 16).toNat = clockHz.toNat * 16 :=
    toUInt64_mul_toNat clockHz (by decide)
  constructor
  · rw [divRound_toNat, hnumerator, UInt32.toNat_toUInt64]
    · rfl
    · rw [hnumerator, UInt32.toNat_toUInt64]
      omega
  · rw [totalOf, roundDiv_lt_iff hpos]
    have hmul : 2 ^ 37 * 1 ≤ 2 ^ 37 * targetHz.toNat := Nat.mul_le_mul_left _ hpos
    omega

theorem pwmTimingForFrequency_eq (hclock : clockHz ≠ 0) (htarget : targetHz ≠ 0) :
    pwmTimingForFrequency clockHz targetHz =
      if totalOf clockHz.toNat targetHz.toNat < 16 then .error .tooFast
      else if dividerFor (totalOf clockHz.toNat targetHz.toNat) > 4095 then .error .tooSlow
      else .ok (timingFor (totalOf clockHz.toNat targetHz.toNat)) := by
  obtain ⟨htotal, hsmall⟩ := @total_word clockHz targetHz htarget
  unfold pwmTimingForFrequency
  rw [if_neg (not_or.mpr ⟨hclock, htarget⟩)]
  generalize divRound (clockHz.toUInt64 * 16) targetHz.toUInt64 = word at htotal
  rw [← htotal] at hsmall ⊢
  have hdivider := divider_word hsmall
  dsimp only
  generalize (if (word + PWM_TIMING_MAX_PERIOD_COUNTS - 1) / PWM_TIMING_MAX_PERIOD_COUNTS <
      PWM_TIMING_MIN_DIV16 then PWM_TIMING_MIN_DIV16
    else (word + PWM_TIMING_MAX_PERIOD_COUNTS - 1) / PWM_TIMING_MAX_PERIOD_COUNTS) = divider
    at hdivider ⊢
  have hfast : word < PWM_TIMING_MIN_DIV16 ↔ word.toNat < 16 := UInt64.lt_iff_toNat_lt
  have hslow : divider > PWM_TIMING_MAX_DIV16 ↔ dividerFor word.toNat > 4095 := by
    rw [gt_iff_lt, UInt64.lt_iff_toNat_lt, hdivider]
    rfl
  by_cases hlow : word.toNat < 16
  · rw [if_pos hlow, if_pos (hfast.mpr hlow)]
  rw [if_neg hlow, if_neg (mt hfast.mp hlow)]
  by_cases hhigh : dividerFor word.toNat > 4095
  · rw [if_pos hhigh, if_pos (hslow.mpr hhigh)]
  rw [if_neg hhigh, if_neg (mt hslow.mp hhigh)]
  obtain ⟨hmin, hmax⟩ := period_bounds (not_lt.mp hlow)
  have hperiod : (divRound word divider).toNat = roundDiv word.toNat (dividerFor word.toNat) := by
    rw [divRound_toNat, hdivider]
    rw [hdivider]
    omega
  rw [← hperiod] at hmin hmax
  rw [period_word hmin hmax, hperiod]
  have hint : (divider / 16).toUInt8 = UInt8.ofNat (dividerFor word.toNat / 16) := by
    apply UInt8.toNat_inj.mp
    rw [UInt64.toNat_toUInt8, UInt64.toNat_div, hdivider, UInt8.toNat_ofNat']
    rfl
  have hfrac : (divider % 16).toUInt8 = UInt8.ofNat (dividerFor word.toNat % 16) := by
    apply UInt8.toNat_inj.mp
    rw [UInt64.toNat_toUInt8, UInt64.toNat_mod, hdivider, UInt8.toNat_ofNat']
    rfl
  rw [hint, hfrac]
  rfl

end search

section fields

def PwmTiming.period (timing : PwmTiming) : ℕ := timing.wrap.toNat + 1

variable {total : ℕ}

theorem timingFor_div16 (hmax : dividerFor total ≤ 4095) :
    (pwmTimingDiv16 (timingFor total)).toNat = dividerFor total := by
  have hint : (UInt8.ofNat (dividerFor total / 16)).toNat = dividerFor total / 16 := by
    rw [UInt8.toNat_ofNat']
    omega
  have hfrac : (UInt8.ofNat (dividerFor total % 16)).toNat = dividerFor total % 16 := by
    rw [UInt8.toNat_ofNat']
    omega
  unfold pwmTimingDiv16 timingFor
  dsimp only
  rw [UInt32.toNat_add, UInt32.toNat_mul, UInt8.toNat_toUInt32, UInt8.toNat_toUInt32, hint, hfrac]
  change (dividerFor total / 16 * 16 % 2 ^ 32 + dividerFor total % 16) % 2 ^ 32 = _
  omega

theorem timingFor_period (h : 16 ≤ total) :
    (timingFor total).period = roundDiv total (dividerFor total) := by
  obtain ⟨hmin, hmax⟩ := period_bounds h
  unfold PwmTiming.period timingFor
  dsimp only
  rw [UInt16.toNat_ofNat']
  omega

end fields

section frequencies

variable {clock target d k : ℕ}

/-- The length of a period of the target, in sixteenths of a tick. -/
def sixteenths (clock target : ℕ) : ℚ := clock * 16 / target

/-- What a period of so many counts gives. -/
def frequency (clock d p : ℕ) : ℚ := clock * 16 / (d * p)

theorem totalOf_le_iff (htarget : 0 < target) {n : ℕ} :
    totalOf clock target ≤ n ↔ sixteenths clock target < n + 1 / 2 := by
  rw [totalOf, roundDiv_le_iff (K := ℚ) htarget, sixteenths]
  push_cast
  rfl

theorem frequency_strictAntiOn (hclock : 0 < clock) (hd : 0 < d) {a b : ℕ} (ha : 0 < a) :
    StrictAntiOn (frequency clock d) (Set.Icc a b) := by
  rintro u ⟨hau, -⟩ v - huv
  have hclock' : (0 : ℚ) < clock * 16 := by positivity
  have hu : (0 : ℚ) < d * u := by
    have hpos : 0 < u := by omega
    positivity
  have huv' : (u : ℚ) < v := Nat.cast_lt.mpr huv
  have hd' : (0 : ℚ) < d := Nat.cast_pos.mpr hd
  exact div_lt_div_of_pos_left hclock' hu (mul_lt_mul_of_pos_left huv' hd')

theorem frequency_add (hd : 0 < d) (hk : 0 < k) :
    frequency clock d k + frequency clock d (k + 1) =
      clock * 16 * (2 * k + 1) / (d * (k * (k + 1))) := by
  have hd' : (d : ℚ) ≠ 0 := Nat.cast_ne_zero.mpr hd.ne'
  have hk' : (k : ℚ) ≠ 0 := Nat.cast_ne_zero.mpr hk.ne'
  have hk'' : (k : ℚ) + 1 ≠ 0 := by positivity
  unfold frequency
  push_cast
  field_simp
  ring

/-- Where the period is that is as far from one as from the other, in frequency. -/
def middlePeriod (d k : ℕ) : ℚ := d * (2 * k * (k + 1)) / (2 * k + 1)

/-- And where the one that is rounded up to the longer one begins. -/
def roundedPeriod (d k : ℕ) : ℚ := (k + 1) * d - (d / 2 : ℕ) - 1 / 2

theorem frequency_add_le_iff (hd : 0 < d) (hk : 0 < k) (htarget : 0 < target) :
    (frequency clock d k + frequency clock d (k + 1) ≤ 2 * target ↔
      sixteenths clock target ≤ middlePeriod d k) ∧
    (2 * target ≤ frequency clock d k + frequency clock d (k + 1) ↔
      middlePeriod d k ≤ sixteenths clock target) := by
  have hden : (0 : ℚ) < d * (k * (k + 1)) := by positivity
  have htarget' : (0 : ℚ) < target := Nat.cast_pos.mpr htarget
  have hodd : (0 : ℚ) < 2 * k + 1 := by positivity
  have hprod : (2 : ℚ) * target * (d * (k * (k + 1))) = d * (2 * k * (k + 1)) * target := by ring
  rw [frequency_add hd hk, div_le_iff₀ hden, le_div_iff₀ hden, sixteenths, middlePeriod,
    div_le_div_iff₀ htarget' hodd, div_le_div_iff₀ hodd htarget', hprod]
  exact ⟨Iff.rfl, Iff.rfl⟩

theorem roundDiv_total_le_iff (hd : 0 < d) (htarget : 0 < target) :
    roundDiv (totalOf clock target) d ≤ k ↔ sixteenths clock target < roundedPeriod d k := by
  have hbound : totalOf clock target + d / 2 < (k + 1) * d ↔
      totalOf clock target ≤ (k + 1) * d - d / 2 - 1 := by
    rw [Nat.add_mul]
    omega
  have hle : d / 2 + 1 ≤ (k + 1) * d := by
    rw [Nat.add_mul]
    omega
  rw [← Nat.lt_succ_iff, roundDiv_lt_iff hd, hbound, totalOf_le_iff htarget, Nat.sub_sub,
    Nat.cast_sub hle, roundedPeriod]
  push_cast
  constructor <;> intro h <;> linarith

end frequencies

section closest

variable {clock target d : ℕ}

/-- The divider is the least one that holds the period, and no other period is closer. -/
structure ClosestTiming (clock target : ℕ) (timing : PwmTiming) : Prop where
  divider : (pwmTimingDiv16 timing).toNat ∈ Set.Icc 16 4095
  period : timing.period ∈ Set.Icc 1 65535
  least : ∀ d, 16 ≤ d → d < (pwmTimingDiv16 timing).toNat → 65535 < sixteenths clock target / d
  nearest : ∀ p ∈ Set.Icc 1 65535,
    |frequency clock (pwmTimingDiv16 timing).toNat timing.period - target| ≤
      |frequency clock (pwmTimingDiv16 timing).toNat p - target|

/-- What is promised of the outcome. -/
def TimesClosest (clockHz targetHz : UInt32) : Prop :=
  match pwmTimingForFrequency clockHz targetHz with
  | .ok timing => ClosestTiming clockHz.toNat targetHz.toNat timing
  | .error .tooFast => clockHz.toNat < targetHz.toNat
  | .error .tooSlow => targetHz.toNat < frequency clockHz.toNat 4095 65535
  | .error .invalidArg => clockHz = 0 ∨ targetHz = 0
  | .error .ok => False

/-- A divider of the slice whose longest period is long enough, to the nearest sixteenth. -/
def HoldsPeriod (clock target d : ℕ) : Prop :=
  16 ≤ d ∧ d ≤ 4095 ∧ sixteenths clock target < 65535 * d + 1 / 2

/-- At the least such divider the target is on the same side of the middle of every two neighbouring
periods as of the place where the one is rounded up to the other. -/
def PeriodsAgree (clock target : ℕ) : Prop :=
  ∀ d, IsLeast {d | HoldsPeriod clock target d} d → ∀ k, 1 ≤ k → k < 65535 →
    (sixteenths clock target < roundedPeriod d k → sixteenths clock target ≤ middlePeriod d k) ∧
    (roundedPeriod d k ≤ sixteenths clock target → middlePeriod d k ≤ sixteenths clock target)

theorem holdsPeriod_iff (htarget : 0 < target) :
    HoldsPeriod clock target d ↔ 16 ≤ d ∧ d ≤ 4095 ∧ totalOf clock target ≤ 65535 * d := by
  rw [totalOf_le_iff htarget, HoldsPeriod]
  push_cast
  rfl

/-- The nearest period is the one that is rounded to just where the boundaries agree. -/
theorem nearest_iff_periodsAgree (hclock : 0 < clock) (htarget : 0 < target) (hd : 0 < d)
    (hperiod : roundDiv (totalOf clock target) d ∈ Set.Icc 1 65535) :
    (∀ p ∈ Set.Icc 1 65535, |frequency clock d (roundDiv (totalOf clock target) d) - target| ≤
      |frequency clock d p - target|) ↔ ∀ k, 1 ≤ k → k < 65535 →
        (sixteenths clock target < roundedPeriod d k →
          sixteenths clock target ≤ middlePeriod d k) ∧
        (roundedPeriod d k ≤ sixteenths clock target →
          middlePeriod d k ≤ sixteenths clock target) := by
  rw [nearest_iff (frequency_strictAntiOn hclock hd one_pos) hperiod]
  refine forall_congr' fun k => forall_congr' fun hk => forall_congr' fun _ => ?_
  obtain ⟨hbelow, habove⟩ := @frequency_add_le_iff clock target d k hd hk htarget
  have hcode := @roundDiv_total_le_iff clock target d k hd htarget
  have hlonger : k < roundDiv (totalOf clock target) d ↔
      roundedPeriod d k ≤ sixteenths clock target := by
    rw [← not_le, hcode, not_lt]
  rw [hbelow, habove, hcode, hlonger]

/-- A target above the clock is no matter: what is less than sixteen sixteenths is nearest to one
count. -/
theorem periodsAgree_of_short (h : sixteenths clock target < 31 / 2) : PeriodsAgree clock target := by
  rintro d ⟨⟨hmin, -, -⟩, -⟩ k hk -
  have hmin' : (16 : ℚ) ≤ d := by exact_mod_cast hmin
  have hk' : (1 : ℚ) ≤ k := by exact_mod_cast hk
  constructor
  · intro _
    rw [middlePeriod, le_div_iff₀ (by positivity)]
    have hmul : 16 * (2 * (k : ℚ) * (k + 1)) ≤ d * (2 * k * (k + 1)) := by gcongr
    nlinarith
  · intro hrounded
    have hhalf : ((d / 2 : ℕ) : ℚ) ≤ d / 2 := by
      have hdiv : d / 2 * 2 ≤ d := Nat.div_mul_le_self d 2
      have hdiv' : ((d / 2 : ℕ) : ℚ) * 2 ≤ d := by exact_mod_cast hdiv
      linarith
    have hmul : 2 * (d : ℚ) ≤ (k + 1) * d := by gcongr; linarith
    rw [roundedPeriod] at hrounded
    linarith

theorem closestTiming_iff (hclock : 0 < clock) (htarget : 0 < target)
    (hfast : 16 ≤ totalOf clock target) (hslow : dividerFor (totalOf clock target) ≤ 4095) :
    ClosestTiming clock target (timingFor (totalOf clock target)) ↔ PeriodsAgree clock target := by
  obtain ⟨⟨hmin, hholds⟩, hleast⟩ := dividerFor_isLeast (totalOf clock target)
  have hdiv16 := timingFor_div16 hslow
  have hperiod := timingFor_period hfast
  have hrange := period_bounds hfast
  have hnearest := nearest_iff_periodsAgree hclock htarget (by omega) hrange
  have hpicked : IsLeast {d | HoldsPeriod clock target d} (dividerFor (totalOf clock target)) := by
    refine ⟨(holdsPeriod_iff htarget).mpr ⟨hmin, hslow, hholds⟩, fun d hd => ?_⟩
    obtain ⟨hd16, -, hdholds⟩ := (holdsPeriod_iff htarget).mp hd
    exact hleast ⟨hd16, hdholds⟩
  constructor
  · intro h d hd
    obtain rfl := hd.unique hpicked
    have hall := h.nearest
    rw [hdiv16, hperiod] at hall
    exact hnearest.mp hall
  · intro h
    refine ⟨?_, ?_, fun d hd16 hd => ?_, ?_⟩
    · rw [hdiv16]
      exact ⟨hmin, hslow⟩
    · rw [hperiod]
      exact hrange
    · rw [hdiv16] at hd
      have hnot : ¬ totalOf clock target ≤ 65535 * d := fun hle =>
        absurd (hleast ⟨hd16, hle⟩) (not_le.mpr hd)
      rw [totalOf_le_iff htarget, not_lt] at hnot
      push_cast at hnot
      have hd' : (0 : ℚ) < d := by
        have hpos : 0 < d := by omega
        exact_mod_cast hpos
      rw [lt_div_iff₀ hd']
      linarith
    · rw [hdiv16, hperiod]
      exact hnearest.mpr (h _ hpicked)

/-- The timing is the closest there is just where the boundaries of the periods agree; all else
holds throughout. -/
theorem pwm_timing_closest_iff (clockHz targetHz : UInt32) :
    TimesClosest clockHz targetHz ↔ PeriodsAgree clockHz.toNat targetHz.toNat := by
  unfold TimesClosest
  by_cases hzero : clockHz = 0 ∨ targetHz = 0
  · have hinvalid : pwmTimingForFrequency clockHz targetHz = .error .invalidArg := if_pos hzero
    have hnothing : sixteenths clockHz.toNat targetHz.toNat = 0 := by
      unfold sixteenths
      rcases hzero with rfl | rfl <;> simp
    rw [hinvalid]
    refine iff_of_true hzero (periodsAgree_of_short ?_)
    rw [hnothing]
    norm_num
  rw [not_or] at hzero
  have hclock : 0 < clockHz.toNat := Nat.pos_of_ne_zero fun h => hzero.1 (UInt32.toNat_inj.mp h)
  have htarget : 0 < targetHz.toNat := Nat.pos_of_ne_zero fun h => hzero.2 (UInt32.toNat_inj.mp h)
  have htarget' : (0 : ℚ) < targetHz.toNat := Nat.cast_pos.mpr htarget
  rw [pwmTimingForFrequency_eq hzero.1 hzero.2]
  by_cases hfast : totalOf clockHz.toNat targetHz.toNat < 16
  · rw [if_pos hfast]
    have hshort : sixteenths clockHz.toNat targetHz.toNat < 31 / 2 := by
      have hle := (totalOf_le_iff htarget).mp (Nat.lt_succ_iff.mp hfast)
      norm_num at hle
      exact hle
    refine iff_of_true ?_ (periodsAgree_of_short hshort)
    rw [sixteenths, div_lt_iff₀ htarget'] at hshort
    have hlt : (clockHz.toNat : ℚ) < targetHz.toNat := by linarith
    exact_mod_cast hlt
  rw [if_neg hfast]
  by_cases hslow : dividerFor (totalOf clockHz.toNat targetHz.toNat) > 4095
  · rw [if_pos hslow]
    have hnone : ∀ d ≤ 4095, 16 ≤ d → ¬ totalOf clockHz.toNat targetHz.toNat ≤ 65535 * d :=
      fun d hd hmin hholds => absurd ((dividerFor_isLeast _).2 ⟨hmin, hholds⟩) (by omega)
    refine iff_of_true ?_ fun d hd => ?_
    · have hnot := hnone 4095 le_rfl (by decide)
      rw [totalOf_le_iff htarget, not_lt, sixteenths, le_div_iff₀ htarget'] at hnot
      change (targetHz.toNat : ℚ) < frequency clockHz.toNat 4095 65535
      rw [frequency, lt_div_iff₀ (by norm_num)]
      norm_num at hnot ⊢
      linarith
    · obtain ⟨hmin, hmax, hholds⟩ := (holdsPeriod_iff htarget).mp hd.1
      exact absurd hholds (hnone d hmax hmin)
  · rw [if_neg hslow]
    exact closestTiming_iff hclock htarget (not_lt.mp hfast) (not_lt.mp hslow)

/-- For 87 MHz the undivided clock of 125 MHz is picked; every other tick would give 62.5 MHz. -/
theorem pwm_timing_not_closest :
    pwmTimingForFrequency 125000000 87000000 = .ok ⟨1, 0, 0⟩ ∧
      ¬ TimesClosest 125000000 87000000 := by
  have hpicked : pwmTimingForFrequency 125000000 87000000 = .ok ⟨1, 0, 0⟩ := by decide
  refine ⟨hpicked, fun h => ?_⟩
  unfold TimesClosest at h
  rw [hpicked] at h
  have hnearer := ClosestTiming.nearest h 2 ⟨by norm_num, by norm_num⟩
  change |frequency 125000000 16 1 - (87000000 : ℕ)| ≤ |frequency 125000000 16 2 - (87000000 : ℕ)|
    at hnearer
  norm_num [frequency, abs_of_pos, abs_of_neg] at hnearer

end closest

end Pico
