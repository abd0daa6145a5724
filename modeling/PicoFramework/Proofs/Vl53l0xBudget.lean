import PicoFramework.Lib.Rounding
import PicoFramework.Proofs.Vl53l0xTimeout

/-! The timing budget that is programmed. What is left of a budget for the final range is turned into
nanoseconds in 32 bits, which hold a little over four seconds. -/

namespace Pico

open Lib.Rounding Lib.Truncation

section reading

variable {ε α β : Type} {device : I2cRegisters ε} {s t : ε}

theorem reads_bind {x : I2cReads ε α} {f : α → I2cReads ε β} {b : β}
    (h : (x >>= f).run.run s = (some b, t)) :
    ∃ a u, x.run.run s = (some a, u) ∧ (f a).run.run u = (some b, t) := by
  have hbind : (x >>= f).run.run s =
      match x.run.run s with
      | (none, u) => (none, u)
      | (some a, u) => (f a).run.run u := by
    change (OptionT.bind x f).run.run s = _
    unfold OptionT.bind OptionT.mk OptionT.run
    rw [StateT.run_bind]
    generalize StateT.run x s = read
    rcases read with ⟨_ | a, u⟩ <;> rfl
  rw [hbind] at h
  match hx : x.run.run s, h with
  | (some a, u), h => exact ⟨a, u, rfl, h⟩

theorem mclksToUs_le (mclks : UInt16) (period : UInt8) :
    (vl53l0xTimeoutMclksToUs mclks period).toNat ≤ 4294967 := by
  unfold vl53l0xTimeoutMclksToUs
  dsimp only
  rw [UInt32.toNat_div]
  have hlt := (mclks.toUInt32 * vl53l0xMacroPeriodNs period + 500).toNat_lt
  change _ / 1000 ≤ _
  omega

/-- A microsecond takes up a thousandth of what 32 bits hold. -/
structure Measured (timeouts : Vl53l0xSequenceTimeouts) : Prop where
  msrc_le : timeouts.msrcDssTccUs.toNat ≤ 4294967
  pre_le : timeouts.preRangeUs.toNat ≤ 4294967

theorem readSequenceTimeouts_measured {timeouts : Vl53l0xSequenceTimeouts}
    (h : (readSequenceTimeouts device).run.run s = (some timeouts, t)) : Measured timeouts := by
  unfold readSequenceTimeouts at h
  obtain ⟨_, _, -, h⟩ := reads_bind h
  obtain ⟨_, _, -, h⟩ := reads_bind h
  obtain ⟨_, _, -, h⟩ := reads_bind h
  obtain ⟨_, _, -, h⟩ := reads_bind h
  obtain ⟨_, _, -, h⟩ := reads_bind h
  obtain ⟨_, _, -, h⟩ := reads_bind h
  obtain rfl := Option.some.inj (congrArg Prod.fst h)
  exact ⟨mclksToUs_le _ _, mclksToUs_le _ _⟩

theorem readSequence_measured {timeouts : Vl53l0xSequenceTimeouts} {steps : Vl53l0xSequenceSteps}
    (h : (readSequence device).run.run s = (some (timeouts, steps), t)) : Measured timeouts := by
  unfold readSequence at h
  obtain ⟨read, _, hread, h⟩ := reads_bind h
  obtain ⟨_, _, -, h⟩ := reads_bind h
  have hpair : (read, _) = (timeouts, steps) := Option.some.inj (congrArg Prod.fst h)
  rw [← (Prod.mk.inj hpair).1]
  exact readSequenceTimeouts_measured hread

end reading

section spending

variable {timeouts : Vl53l0xSequenceTimeouts} {steps : Vl53l0xSequenceSteps} {budgetUs : UInt32}

/-- All that a budget is spent on besides the final range. -/
def othersUs (steps : Vl53l0xSequenceSteps) (timeouts : Vl53l0xSequenceTimeouts) : ℕ :=
  1910 + 960 + (if steps.tcc then timeouts.msrcDssTccUs.toNat + 590 else 0) +
    (if steps.dss then 2 * (timeouts.msrcDssTccUs.toNat + 690)
      else if steps.msrc then timeouts.msrcDssTccUs.toNat + 660 else 0) +
    (if steps.preRange then timeouts.preRangeUs.toNat + 660 else 0) + 550

/-- What is left of it. -/
def finalShare (steps : Vl53l0xSequenceSteps) (timeouts : Vl53l0xSequenceTimeouts)
    (budgetUs : UInt32) : ℕ := budgetUs.toNat - othersUs steps timeouts

theorem used_toNat (h : Measured timeouts) {withoutFinal : Vl53l0xSequenceTimeouts}
    (hmsrc : withoutFinal.msrcDssTccUs = timeouts.msrcDssTccUs)
    (hpre : withoutFinal.preRangeUs = timeouts.preRangeUs) :
    (vl53l0xBudgetUsedUs { steps with finalRange := false } withoutFinal +
      VL53L0X_FINAL_RANGE_OVERHEAD_US).toNat = othersUs steps timeouts := by
  obtain ⟨hmsrcLe, hpreLe⟩ := h
  unfold vl53l0xBudgetUsedUs othersUs
  dsimp only
  rw [hmsrc, hpre]
  generalize timeouts.msrcDssTccUs = msrc at hmsrcLe
  generalize timeouts.preRangeUs = pre at hpreLe
  simp only [VL53L0X_START_OVERHEAD_US, VL53L0X_END_OVERHEAD_US, VL53L0X_TCC_OVERHEAD_US,
    VL53L0X_DSS_OVERHEAD_US, VL53L0X_MSRC_OVERHEAD_US, VL53L0X_PRE_RANGE_OVERHEAD_US,
    VL53L0X_FINAL_RANGE_OVERHEAD_US, Bool.false_eq_true, if_false]
  cases steps.tcc <;> cases steps.dss <;> cases steps.msrc <;> cases steps.preRange <;>
    simp only [Bool.false_eq_true, if_false, if_true, UInt32.toNat_add, UInt32.toNat_mul,
      UInt32.reduceToNat] <;>
    omega

theorem finalRangeTimeout_toNat (h : Measured timeouts) (hfinal : steps.finalRange = true)
    {finalRangeUs : UInt32}
    (hsome : vl53l0xFinalRangeTimeoutUs steps timeouts budgetUs = some finalRangeUs) :
    finalRangeUs.toNat = finalShare steps timeouts budgetUs := by
  unfold vl53l0xFinalRangeTimeoutUs at hsome
  rw [hfinal] at hsome
  dsimp only at hsome
  split at hsome
  · exact absurd hsome nofun
  rw [Bool.not_true, if_neg Bool.false_ne_true] at hsome
  split at hsome
  · exact absurd hsome nofun
  · rename_i hleft
    obtain rfl := Option.some.inj hsome
    rw [UInt32.toNat_sub_of_le _ _ (UInt32.le_of_lt (UInt32.not_le.mp hleft))]
    exact congrArg (budgetUs.toNat - ·) (used_toNat h rfl rfl)

end spending

section programming

/-- What the register stands for is not more than asked for, nor much less. -/
structure WithinShare (mclks : ℚ) (decoded : ℕ) : Prop where
  le : (decoded : ℚ) ≤ max (mclks + 1 / 2) 1
  gt : mclks * (1 - 1 / 128) - 1 < decoded

variable {share macroNs pre : ℕ}

/-- The macro periods that are written, before they are encoded. -/
def writtenMclks (share macroNs pre : ℕ) : ℕ := (share * 1000 + macroNs / 2) % 2 ^ 32 / macroNs + pre

/-- And those that were meant. -/
def meantMclks (share macroNs pre : ℕ) : ℚ := share * 1000 / macroNs + pre

theorem kept_bounds (mclks : ℕ) :
    let kept := truncate 8 (mclks - 1) + 1
    kept ≤ max mclks 1 ∧ 127 * mclks < 128 * kept := by
  have hle := truncate_le 8 (mclks - 1)
  have herror := truncate_error (by decide : 0 < 8) (mclks - 1)
  norm_num at herror
  dsimp only
  omega

/-- Without a wrap the rounding and the encoding are all that is lost. -/
theorem programmed_of_fits (hclock : 0 < macroNs)
    (hfits : share * 1000 + macroNs / 2 < 2 ^ 32) :
    WithinShare (meantMclks share macroNs pre)
      (truncate 8 (writtenMclks share macroNs pre - 1) + 1) := by
  obtain ⟨hle, hgt⟩ := kept_bounds (writtenMclks share macroNs pre)
  have hwritten : writtenMclks share macroNs pre = roundDiv (share * 1000) macroNs + pre := by
    rw [writtenMclks, Nat.mod_eq_of_lt hfits, roundDiv]
  have hround := abs_sub_round ((share : ℚ) * 1000 / macroNs)
  have hrounded : round ((share : ℚ) * 1000 / macroNs) = (roundDiv (share * 1000) macroNs : ℤ) := by
    rw [← round_div (K := ℚ) hclock]
    push_cast
    rfl
  rw [hrounded, Int.cast_natCast, abs_le] at hround
  have hmeant : (writtenMclks share macroNs pre : ℚ) ≤ meantMclks share macroNs pre + 1 / 2 ∧
      meantMclks share macroNs pre - 1 / 2 ≤ writtenMclks share macroNs pre := by
    rw [hwritten, meantMclks]
    push_cast
    constructor <;> linarith
  generalize writtenMclks share macroNs pre = written at hle hgt hmeant ⊢
  generalize truncate 8 (written - 1) + 1 = kept at hle hgt ⊢
  constructor
  · have hle' : (kept : ℚ) ≤ max (written : ℚ) 1 := by exact_mod_cast hle
    exact hle'.trans (max_le_max_right 1 hmeant.1)
  · have hgt' : (127 : ℚ) * written < 128 * kept := by exact_mod_cast hgt
    linarith

theorem not_programmed_of_wraps (hclock : 0 < macroNs) (hclockLe : macroNs ≤ 972346)
    (hpre : pre < 65536) (hwraps : 2 ^ 32 ≤ share * 1000 + macroNs / 2) :
    ¬ WithinShare (meantMclks share macroNs pre)
      (truncate 8 (writtenMclks share macroNs pre - 1) + 1) := by
  intro h
  obtain ⟨hle, -⟩ := kept_bounds (writtenMclks share macroNs pre)
  have hgt := h.gt
  have hclock' : (0 : ℚ) < macroNs := Nat.cast_pos.mpr hclock
  -- all in nanoseconds
  have hkept : (truncate 8 (writtenMclks share macroNs pre - 1) + 1) * macroNs ≤
      (share * 1000 + macroNs / 2) % 2 ^ 32 + pre * macroNs + macroNs := by
    have hmul : (share * 1000 + macroNs / 2) % 2 ^ 32 / macroNs * macroNs ≤
        (share * 1000 + macroNs / 2) % 2 ^ 32 := Nat.div_mul_le_self _ _
    calc (truncate 8 (writtenMclks share macroNs pre - 1) + 1) * macroNs
        ≤ (writtenMclks share macroNs pre + 1) * macroNs := Nat.mul_le_mul_right _ (by omega)
      _ = (share * 1000 + macroNs / 2) % 2 ^ 32 / macroNs * macroNs + pre * macroNs + macroNs := by
        rw [writtenMclks]
        ring
      _ ≤ _ := by omega
  have hpreMacro : pre * macroNs ≤ 65535 * 972346 :=
    Nat.mul_le_mul (Nat.le_of_lt_succ hpre) hclockLe
  generalize truncate 8 (writtenMclks share macroNs pre - 1) + 1 = kept at hgt hkept
  have hshort : 128 * (kept * macroNs) + 128 * macroNs ≤ 127 * (share * 1000 + pre * macroNs) := by
    omega
  have hshort' : (128 : ℚ) * (kept * macroNs) + 128 * macroNs ≤
      127 * (share * 1000 + pre * macroNs) := by exact_mod_cast hshort
  have hmeant : meantMclks share macroNs pre * macroNs = share * 1000 + pre * macroNs := by
    rw [meantMclks, add_mul, div_mul_cancel₀ _ hclock'.ne']
  have hscaled : (meantMclks share macroNs pre * (1 - 1 / 128) - 1) * macroNs < kept * macroNs :=
    mul_lt_mul_of_pos_right hgt hclock'
  have hexpand : (meantMclks share macroNs pre * (1 - 1 / 128) - 1) * macroNs =
      127 / 128 * (meantMclks share macroNs pre * macroNs) - macroNs := by ring
  rw [hexpand, hmeant] at hscaled
  linarith

theorem macroPeriod_bounds {period : UInt8} (h : period ≠ 0) :
    3813 ≤ (vl53l0xMacroPeriodNs period).toNat ∧ (vl53l0xMacroPeriodNs period).toNat ≤ 972346 := by
  have hlt := period.toNat_lt
  have hpos : 0 < period.toNat := Nat.pos_of_ne_zero fun hzero => h (UInt8.toNat_inj.mp hzero)
  have hvalue : (vl53l0xMacroPeriodNs period).toNat = (2304 * period.toNat * 1655 + 500) / 1000 := by
    unfold vl53l0xMacroPeriodNs
    simp only [UInt32.toNat_div, UInt32.toNat_add, UInt32.toNat_mul, UInt8.toNat_toUInt32,
      UInt32.reduceToNat]
    omega
  rw [hvalue]
  omega

theorem usToMclks_toNat (timeoutUs : UInt32) {period : UInt8} (h : period ≠ 0) :
    (vl53l0xTimeoutUsToMclks timeoutUs period).toNat =
      (timeoutUs.toNat * 1000 + (vl53l0xMacroPeriodNs period).toNat / 2) % 2 ^ 32 /
        (vl53l0xMacroPeriodNs period).toNat := by
  have hpos := (macroPeriod_bounds h).1
  have hne : vl53l0xMacroPeriodNs period ≠ 0 := by
    intro hzero
    rw [hzero] at hpos
    exact absurd hpos (by decide)
  unfold vl53l0xTimeoutUsToMclks
  dsimp only
  rw [if_neg hne, UInt32.toNat_div, UInt32.toNat_add, UInt32.toNat_mul, UInt32.toNat_div]
  change (timeoutUs.toNat * 1000 % 2 ^ 32 + _ / 2) % 2 ^ 32 / _ = _
  rw [Nat.mod_add_mod]

end programming

section setting

variable {timeouts : Vl53l0xSequenceTimeouts} {steps : Vl53l0xSequenceSteps} {budgetUs : UInt32}

def macroNsOf (timeouts : Vl53l0xSequenceTimeouts) : ℕ :=
  (vl53l0xMacroPeriodNs timeouts.finalRangeVcselPeriodPclks).toNat

/-- The macro periods of the pre-range, where it is one of the steps. -/
def preMclks (steps : Vl53l0xSequenceSteps) (timeouts : Vl53l0xSequenceTimeouts) : ℕ :=
  if steps.preRange then timeouts.preRangeMclks.toNat else 0

/-- The value that is written to the final range's register. -/
def registerOf (steps : Vl53l0xSequenceSteps) (timeouts : Vl53l0xSequenceTimeouts)
    (finalRangeUs : UInt32) : UInt16 :=
  let mclks := vl53l0xTimeoutUsToMclks finalRangeUs timeouts.finalRangeVcselPeriodPclks
  vl53l0xEncodeTimeout
    (if steps.preRange then mclks + timeouts.preRangeMclks.toUInt32 else mclks)

theorem decode_registerOf (hperiod : timeouts.finalRangeVcselPeriodPclks ≠ 0)
    (finalRangeUs : UInt32) :
    (vl53l0xDecodeTimeout (registerOf steps timeouts finalRangeUs)).toNat =
      truncate 8 (writtenMclks finalRangeUs.toNat (macroNsOf timeouts) (preMclks steps timeouts) - 1)
        + 1 := by
  have hmclks := usToMclks_toNat finalRangeUs hperiod
  obtain ⟨hlarge, -⟩ := macroPeriod_bounds hperiod
  have hpre := timeouts.preRangeMclks.toNat_lt
  have hsmall : (vl53l0xTimeoutUsToMclks finalRangeUs
      timeouts.finalRangeVcselPeriodPclks).toNat < 2 ^ 32 - 2 ^ 16 := by
    rw [hmclks]
    have hdiv : ∀ y, y % 2 ^ 32 / macroNsOf timeouts ≤ y % 2 ^ 32 / 3813 := fun y =>
      Nat.div_le_div_left hlarge (by decide)
    exact (hdiv _).trans_lt (by omega)
  unfold registerOf
  dsimp only
  rw [decode_encode_toNat]
  congr 3
  unfold writtenMclks preMclks
  cases steps.preRange with
  | false => exact hmclks
  | true =>
    rw [if_pos rfl, if_pos rfl, UInt32.toNat_add, UInt16.toNat_toUInt32, Nat.mod_eq_of_lt (by omega),
      hmclks]
    rfl

variable {ε α β : Type} {device : I2cRegisters ε} {sensor sensor' : Vl53l0x} {s mid t : ε}

theorem run_bind_of {x : StateM ε α} {f : α → StateM ε β} {a : α} (h : x.run s = (a, t)) :
    (x >>= f).run s = (f a).run t := by
  rw [StateT.run_bind, h]
  rfl

theorem setTimingBudget_ok
    (hreads : (readSequence device).run.run s = (some (timeouts, steps), mid))
    (hfinal : steps.finalRange = true)
    (hok : (vl53l0xSetTimingBudget device sensor budgetUs).run s = ((.ok, sensor'), t)) :
    ∃ finalRangeUs, vl53l0xFinalRangeTimeoutUs steps timeouts budgetUs = some finalRangeUs ∧
      device.writeValue REG_FINAL_RANGE_CONFIG_TIMEOUT_MACROP_HI 2
        (registerOf steps timeouts finalRangeUs).toUInt32 mid = (true, t) ∧
      sensor' = { sensor with timingBudgetUs := budgetUs } := by
  unfold vl53l0xSetTimingBudget at hok
  cases hinit : sensor.initialised with
  | false =>
    rw [hinit] at hok
    exact absurd (congrArg (fun r => r.1.1) hok) nofun
  | true =>
    rw [hinit] at hok
    rw [Bool.not_true, if_neg Bool.false_ne_true, run_bind_of hreads] at hok
    dsimp only at hok
    cases hsome : vl53l0xFinalRangeTimeoutUs steps timeouts budgetUs with
    | none =>
      rw [hsome] at hok
      exact absurd (congrArg (fun r => r.1.1) hok) nofun
    | some finalRangeUs =>
      rw [hsome, hfinal] at hok
      dsimp only at hok
      rw [Bool.not_true, if_neg Bool.false_ne_true] at hok
      match hwrite : (write16 device REG_FINAL_RANGE_CONFIG_TIMEOUT_MACROP_HI
          (registerOf steps timeouts finalRangeUs)).run mid with
      | (false, u) =>
        have hfail := (run_bind_of hwrite).symm.trans hok
        exact absurd (congrArg (fun r => r.1.1) hfail) nofun
      | (true, u) =>
        have hdone := (run_bind_of hwrite).symm.trans hok
        obtain ⟨hresult, rfl⟩ := Prod.mk.inj hdone
        exact ⟨finalRangeUs, rfl, hwrite, (Prod.mk.inj hresult).2.symm⟩

/-- The budget is programmed just where what is left of it for the final range fits 32 bits in
nanoseconds. -/
theorem vl53l0x_budget_programmed_iff
    (hreads : (readSequence device).run.run s = (some (timeouts, steps), mid))
    (hfinal : steps.finalRange = true) (hperiod : timeouts.finalRangeVcselPeriodPclks ≠ 0)
    (hok : (vl53l0xSetTimingBudget device sensor budgetUs).run s = ((.ok, sensor'), t)) :
    ∃ register : UInt16,
      device.writeValue REG_FINAL_RANGE_CONFIG_TIMEOUT_MACROP_HI 2 register.toUInt32 mid = (true, t) ∧
      sensor'.timingBudgetUs = budgetUs ∧
      (WithinShare (meantMclks (finalShare steps timeouts budgetUs) (macroNsOf timeouts)
          (preMclks steps timeouts)) (vl53l0xDecodeTimeout register).toNat ↔
        finalShare steps timeouts budgetUs * 1000 + macroNsOf timeouts / 2 < 2 ^ 32) := by
  obtain ⟨finalRangeUs, hsome, hwrite, hsensor⟩ := setTimingBudget_ok hreads hfinal hok
  have hshare := finalRangeTimeout_toNat (readSequence_measured hreads) hfinal hsome
  have hpre : preMclks steps timeouts < 65536 := by
    unfold preMclks
    split
    · exact timeouts.preRangeMclks.toNat_lt
    · decide
  obtain ⟨hlarge, hsmall⟩ := macroPeriod_bounds hperiod
  have hpos : 0 < macroNsOf timeouts := Nat.lt_of_lt_of_le (by decide) hlarge
  refine ⟨registerOf steps timeouts finalRangeUs, hwrite, by rw [hsensor], ?_⟩
  rw [decode_registerOf hperiod, hshare]
  constructor
  · intro hprogrammed
    by_contra hwraps
    exact not_programmed_of_wraps hpos hsmall hpre (not_lt.mp hwraps) hprogrammed
  · exact programmed_of_fits hpos

end setting

section defaults

/-- A sensor that holds its registers. -/
def registerMap : I2cRegisters (UInt8 → UInt32) where
  readValue reg _ registers := (some (registers reg), registers)
  writeValue reg _ value registers := (true, Function.update registers reg value)

/-- The registers a sensor starts with. -/
def startRegisters (reg : UInt8) : UInt32 :=
  if reg = REG_SYSTEM_SEQUENCE_CONFIG then 0xE8
  else if reg = REG_MSRC_CONFIG_TIMEOUT_MACROP then 37
  else if reg = REG_PRE_RANGE_CONFIG_VCSEL_PERIOD then 6
  else if reg = REG_PRE_RANGE_CONFIG_TIMEOUT_MACROP_HI then 0x0096
  else if reg = REG_FINAL_RANGE_CONFIG_VCSEL_PERIOD then 4
  else if reg = REG_FINAL_RANGE_CONFIG_TIMEOUT_MACROP_HI then 0x01FE
  else 0

def startTimeouts : Vl53l0xSequenceTimeouts where
  preRangeVcselPeriodPclks := 14
  finalRangeVcselPeriodPclks := 10
  msrcDssTccMclks := 38
  preRangeMclks := 151
  finalRangeMclks := 358
  msrcDssTccUs := 2029
  preRangeUs := 8061
  finalRangeUs := 13651

def startSteps : Vl53l0xSequenceSteps := vl53l0xDecodeSequenceSteps 0xE8

theorem readSequence_start :
    (readSequence registerMap).run.run startRegisters =
      (some (startTimeouts, startSteps), startRegisters) :=
  Prod.ext (by decide) rfl

/-- Setting a budget on that sensor. -/
def startBudget (budgetUs : UInt32) : (Vl53l0xResult × Vl53l0x) × (UInt8 → UInt32) :=
  (vl53l0xSetTimingBudget registerMap ⟨0, true⟩ budgetUs).run startRegisters

theorem vl53l0x_budget_programmed_default :
    (startBudget 33000).1 = (.ok, ⟨33000, true⟩) ∧
    ∃ register : UInt16,
      registerMap.writeValue REG_FINAL_RANGE_CONFIG_TIMEOUT_MACROP_HI 2 register.toUInt32
        startRegisters = (true, (startBudget 33000).2) ∧
      (WithinShare (meantMclks 15421 38131 151) (vl53l0xDecodeTimeout register).toNat ↔
        15421 * 1000 + 38131 / 2 < 2 ^ 32) := by
  have hok : startBudget 33000 = ((.ok, ⟨33000, true⟩), (startBudget 33000).2) :=
    Prod.ext (by decide) rfl
  obtain ⟨register, hwrite, -, hprogrammed⟩ :=
    vl53l0x_budget_programmed_iff readSequence_start rfl (by decide) hok
  exact ⟨by decide, register, hwrite, hprogrammed⟩

/-- Five seconds are accepted, and programmed as less than one. -/
theorem vl53l0x_budget_wraps :
    (startBudget 5000000).1 = (.ok, ⟨5000000, true⟩) ∧
    ∃ register : UInt16,
      registerMap.writeValue REG_FINAL_RANGE_CONFIG_TIMEOUT_MACROP_HI 2 register.toUInt32
        startRegisters = (true, (startBudget 5000000).2) ∧
      (vl53l0xDecodeTimeout register).toNat = 18177 ∧
      ¬ WithinShare (meantMclks 4982421 38131 151) 18177 := by
  have hok : startBudget 5000000 = ((.ok, ⟨5000000, true⟩), (startBudget 5000000).2) :=
    Prod.ext (by decide) rfl
  obtain ⟨finalRangeUs, hsome, hwrite, -⟩ := setTimingBudget_ok readSequence_start rfl hok
  have hshare : finalRangeUs.toNat = 4982421 :=
    (finalRangeTimeout_toNat (readSequence_measured readSequence_start) rfl hsome).trans (by decide)
  have hwritten : writtenMclks 4982421 (macroNsOf startTimeouts) (preMclks startSteps startTimeouts)
      - 1 = 18179 := by decide
  have hexponent : Lib.Truncation.exponent 8 18179 = 7 :=
    exponent_eq (by decide) (by norm_num) (by norm_num)
  have hkept : truncate 8 18179 = 18176 := by
    rw [truncate, significand, hexponent]
    norm_num
  have hdecoded : (vl53l0xDecodeTimeout
      (registerOf startSteps startTimeouts finalRangeUs)).toNat = 18177 := by
    rw [decode_registerOf (by decide), hshare, hwritten, hkept]
  refine ⟨by decide, _, hwrite, hdecoded, fun hprogrammed => ?_⟩
  have hgt := hprogrammed.gt
  norm_num [meantMclks] at hgt

end defaults

end Pico
