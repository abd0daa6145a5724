import PicoFramework.Spec.Basic

/-! `vl53l0x_timing.c`, and the timing budget and the choice of SPADs of `vl53l0x.c`. The sensor and
the bus it is on are `I2cRegisters`: values are read and written, and either may fail. -/

namespace Pico

def VL53L0X_START_OVERHEAD_US : UInt32 := 1910
def VL53L0X_END_OVERHEAD_US : UInt32 := 960
def VL53L0X_MSRC_OVERHEAD_US : UInt32 := 660
def VL53L0X_TCC_OVERHEAD_US : UInt32 := 590
def VL53L0X_DSS_OVERHEAD_US : UInt32 := 690
def VL53L0X_PRE_RANGE_OVERHEAD_US : UInt32 := 660
def VL53L0X_FINAL_RANGE_OVERHEAD_US : UInt32 := 550
def VL53L0X_MIN_TIMING_BUDGET_US : UInt32 := 20000

structure Vl53l0xSequenceSteps where
  tcc : Bool
  dss : Bool
  msrc : Bool
  preRange : Bool
  finalRange : Bool
deriving DecidableEq

structure Vl53l0xSequenceTimeouts where
  preRangeVcselPeriodPclks : UInt8
  finalRangeVcselPeriodPclks : UInt8
  msrcDssTccMclks : UInt16
  preRangeMclks : UInt16
  finalRangeMclks : UInt16
  msrcDssTccUs : UInt32
  preRangeUs : UInt32
  finalRangeUs : UInt32
deriving DecidableEq

section timing

def vl53l0xDecodeVcselPeriod (registerValue : UInt8) : UInt8 :=
  ((registerValue.toUInt32 + 1) <<< 1).toUInt8

def vl53l0xMacroPeriodNs (vcselPeriodPclks : UInt8) : UInt32 :=
  (2304 * vcselPeriodPclks.toUInt32 * 1655 + 500) / 1000

def vl53l0xTimeoutMclksToUs (timeoutMclks : UInt16) (vcselPeriodPclks : UInt8) : UInt32 :=
  let macroNs := vl53l0xMacroPeriodNs vcselPeriodPclks
  (timeoutMclks.toUInt32 * macroNs + 500) / 1000

def vl53l0xTimeoutUsToMclks (timeoutUs : UInt32) (vcselPeriodPclks : UInt8) : UInt32 :=
  let macroNs := vl53l0xMacroPeriodNs vcselPeriodPclks
  if macroNs = 0 then 0 else (timeoutUs * 1000 + macroNs / 2) / macroNs

/-- The loop of `vl53l0x_encode_timeout`, from a mantissa and an exponent on. -/
def fitMantissa (mantissa : UInt32) (exponent : UInt8) : UInt32 × UInt8 :=
  if mantissa &&& 0xFFFFFF00 ≠ 0 then fitMantissa (mantissa >>> 1) (exponent + 1)
  else (mantissa, exponent)
termination_by mantissa.toNat
decreasing_by
  rename_i hhigh
  have hpos : mantissa.toNat ≠ 0 := by
    intro hzero
    obtain rfl : mantissa = 0 := UInt32.toNat_inj.mp hzero
    exact hhigh (UInt32.zero_and)
  rw [UInt32.toNat_shiftRight]
  exact Nat.div_lt_self (Nat.pos_of_ne_zero hpos) one_lt_two

def vl53l0xEncodeTimeout (timeoutMclks : UInt32) : UInt16 :=
  if timeoutMclks = 0 then 0
  else
    let (mantissa, exponent) := fitMantissa (timeoutMclks - 1) 0
    (exponent.toUInt16 <<< 8) ||| (mantissa &&& 0xFF).toUInt16

/-- C leaves a shift by 32 or more open; here it is taken modulo 32. -/
def vl53l0xDecodeTimeout (registerValue : UInt16) : UInt32 :=
  let mantissa := (registerValue &&& 0x00FF).toUInt32
  let exponent := ((registerValue &&& 0xFF00) >>> 8).toUInt32
  (mantissa <<< exponent) + 1

def vl53l0xDecodeSequenceSteps (registerValue : UInt8) : Vl53l0xSequenceSteps where
  tcc := registerValue &&& 0x10 ≠ 0
  dss := registerValue &&& 0x08 ≠ 0
  msrc := registerValue &&& 0x04 ≠ 0
  preRange := registerValue &&& 0x40 ≠ 0
  finalRange := registerValue &&& 0x80 ≠ 0

def vl53l0xBudgetUsedUs (steps : Vl53l0xSequenceSteps) (timeouts : Vl53l0xSequenceTimeouts) :
    UInt32 :=
  let used := VL53L0X_START_OVERHEAD_US + VL53L0X_END_OVERHEAD_US
  let used := if steps.tcc then used + (timeouts.msrcDssTccUs + VL53L0X_TCC_OVERHEAD_US) else used
  let used :=
    if steps.dss then used + 2 * (timeouts.msrcDssTccUs + VL53L0X_DSS_OVERHEAD_US)
    else if steps.msrc then used + (timeouts.msrcDssTccUs + VL53L0X_MSRC_OVERHEAD_US)
    else used
  let used :=
    if steps.preRange then used + (timeouts.preRangeUs + VL53L0X_PRE_RANGE_OVERHEAD_US) else used
  if steps.finalRange then used + (timeouts.finalRangeUs + VL53L0X_FINAL_RANGE_OVERHEAD_US)
  else used

/-- The final range's timeout, or `none` where the budget does not allow for one. -/
def vl53l0xFinalRangeTimeoutUs (steps : Vl53l0xSequenceSteps) (timeouts : Vl53l0xSequenceTimeouts)
    (budgetUs : UInt32) : Option UInt32 :=
  if budgetUs < VL53L0X_MIN_TIMING_BUDGET_US then none
  else if !steps.finalRange then some 0
  else
    let withoutFinal : Vl53l0xSequenceTimeouts := {
      preRangeVcselPeriodPclks := 0
      finalRangeVcselPeriodPclks := 0
      msrcDssTccMclks := 0
      preRangeMclks := 0
      finalRangeMclks := 0
      msrcDssTccUs := timeouts.msrcDssTccUs
      preRangeUs := timeouts.preRangeUs
      finalRangeUs := 0 }
    let others := { steps with finalRange := false }
    let used := vl53l0xBudgetUsedUs others withoutFinal + VL53L0X_FINAL_RANGE_OVERHEAD_US
    if used ≥ budgetUs then none else some (budgetUs - used)

end timing

section driver

def REG_SYSTEM_SEQUENCE_CONFIG : UInt8 := 0x01
def REG_MSRC_CONFIG_TIMEOUT_MACROP : UInt8 := 0x46
def REG_PRE_RANGE_CONFIG_VCSEL_PERIOD : UInt8 := 0x50
def REG_PRE_RANGE_CONFIG_TIMEOUT_MACROP_HI : UInt8 := 0x51
def REG_FINAL_RANGE_CONFIG_VCSEL_PERIOD : UInt8 := 0x70
def REG_FINAL_RANGE_CONFIG_TIMEOUT_MACROP_HI : UInt8 := 0x71

inductive Vl53l0xResult where
  | ok
  | errInvalidArg
  | errNoDevice
  | errWrongModel
  | errI2c
  | errTimeout
  | errBudget
  | errNotReady
  | errOutOfRange
  | errBadMeasurement
deriving DecidableEq

/-- `vl53l0x_t`, of which `device` is the bus. -/
structure Vl53l0x where
  timingBudgetUs : UInt32
  initialised : Bool
deriving DecidableEq

/-- `i2c_device_read_value` and `i2c_device_write_value`, of a number of bytes: what was read, if
anything, and whether it was written. -/
structure I2cRegisters (ε : Type) where
  readValue : UInt8 → ℕ → ε → Option UInt32 × ε
  writeValue : UInt8 → ℕ → UInt32 → ε → Bool × ε

/-- Reads, of which the first that fails is the last. -/
abbrev I2cReads (ε : Type) := OptionT (StateM ε)

variable {ε : Type} (device : I2cRegisters ε)

def read8 (reg : UInt8) : I2cReads ε UInt8 := do
  let raw ← OptionT.mk (device.readValue reg 1)
  pure raw.toUInt8

def read16 (reg : UInt8) : I2cReads ε UInt16 := do
  let raw ← OptionT.mk (device.readValue reg 2)
  pure raw.toUInt16

def write16 (reg : UInt8) (value : UInt16) : StateM ε Bool :=
  device.writeValue reg 2 value.toUInt32

def readSequenceTimeouts : I2cReads ε Vl53l0xSequenceTimeouts := do
  let encoded ← read8 device REG_PRE_RANGE_CONFIG_VCSEL_PERIOD
  let preRangePeriod := vl53l0xDecodeVcselPeriod encoded
  let msrcEncoded ← read8 device REG_MSRC_CONFIG_TIMEOUT_MACROP
  let msrcMclks := (msrcEncoded.toUInt32 + 1).toUInt16
  let preRangeEncoded ← read16 device REG_PRE_RANGE_CONFIG_TIMEOUT_MACROP_HI
  let preRangeMclks := (vl53l0xDecodeTimeout preRangeEncoded).toUInt16
  let encoded ← read8 device REG_FINAL_RANGE_CONFIG_VCSEL_PERIOD
  let finalRangePeriod := vl53l0xDecodeVcselPeriod encoded
  let finalRangeEncoded ← read16 device REG_FINAL_RANGE_CONFIG_TIMEOUT_MACROP_HI
  let finalRangeMclks := (vl53l0xDecodeTimeout finalRangeEncoded).toUInt16
  let sequenceConfig ← read8 device REG_SYSTEM_SEQUENCE_CONFIG
  let finalRangeMclks :=
    if (vl53l0xDecodeSequenceSteps sequenceConfig).preRange ∧ finalRangeMclks > preRangeMclks then
      finalRangeMclks - preRangeMclks
    else finalRangeMclks
  pure {
    preRangeVcselPeriodPclks := preRangePeriod
    finalRangeVcselPeriodPclks := finalRangePeriod
    msrcDssTccMclks := msrcMclks
    preRangeMclks := preRangeMclks
    finalRangeMclks := finalRangeMclks
    msrcDssTccUs := vl53l0xTimeoutMclksToUs msrcMclks preRangePeriod
    preRangeUs := vl53l0xTimeoutMclksToUs preRangeMclks preRangePeriod
    finalRangeUs := vl53l0xTimeoutMclksToUs finalRangeMclks finalRangePeriod }

/-- The timeouts and the steps that `vl53l0x_set_timing_budget` goes by. -/
def readSequence : I2cReads ε (Vl53l0xSequenceTimeouts × Vl53l0xSequenceSteps) := do
  let timeouts ← readSequenceTimeouts device
  let sequenceConfig ← read8 device REG_SYSTEM_SEQUENCE_CONFIG
  pure (timeouts, vl53l0xDecodeSequenceSteps sequenceConfig)

def vl53l0xSetTimingBudget (sensor : Vl53l0x) (budgetUs : UInt32) :
    StateM ε (Vl53l0xResult × Vl53l0x) := do
  if !sensor.initialised then return (.errInvalidArg, sensor)
  match ← (readSequence device).run with
  | none => return (.errI2c, sensor)
  | some (timeouts, steps) =>
      match vl53l0xFinalRangeTimeoutUs steps timeouts budgetUs with
      | none => return (.errBudget, sensor)
      | some finalRangeUs =>
          if !steps.finalRange then return (.ok, { sensor with timingBudgetUs := budgetUs })
          let mclks := vl53l0xTimeoutUsToMclks finalRangeUs timeouts.finalRangeVcselPeriodPclks
          let mclks := if steps.preRange then mclks + timeouts.preRangeMclks.toUInt32 else mclks
          let written ← write16 device REG_FINAL_RANGE_CONFIG_TIMEOUT_MACROP_HI
            (vl53l0xEncodeTimeout mclks)
          if !written then return (.errI2c, sensor)
          return (.ok, { sensor with timingBudgetUs := budgetUs })

end driver

section spads

def SPAD_MAP_BYTES : ℕ := 6
/-- The reference SPADs, one bit each. -/
def SPADS : ℕ := 48

def spadIsEnabled (map : Bytes) (spad : ℕ) : Bool :=
  map.getD (spad / 8) 0 &&& 1 <<< UInt8.ofNat (spad % 8) ≠ 0

def disableSpad (map : Bytes) (spad : ℕ) : Bytes :=
  map.set (spad / 8) (map.getD (spad / 8) 0 &&& ~~~(1 <<< UInt8.ofNat (spad % 8)))

/-- The aperture parts must not use the first twelve. -/
def firstSpad (isAperture : Bool) : ℕ := if isAperture then 12 else 0

/-- A round of the loop of `vl53l0x_init`, over the map and `enabled`. -/
def chooseSpad (first : ℕ) (count : UInt8) (acc : Bytes × UInt8) (spad : ℕ) : Bytes × UInt8 :=
  if spad < first ∨ acc.2 = count then (disableSpad acc.1 spad, acc.2)
  else if spadIsEnabled acc.1 spad then (acc.1, acc.2 + 1)
  else acc

def chooseSpads (isAperture : Bool) (count : UInt8) (map : Bytes) : Bytes :=
  ((List.range SPADS).foldl (chooseSpad (firstSpad isAperture) count) (map, 0)).1

end spads

end Pico
