import PicoFramework.Lib.Rounding
import PicoFramework.Spec.HalfDuplexUart

/-! The rate that a UART is clocked at. The divider is rounded to its 256ths, the rate that it gives
to whole bauds, and the error to thousandths; what is left of all three is within the tolerance. -/

namespace Pico

open Lib.Rounding

section arithmetic

variable {clock baud : ℕ}

/-- The divider in 256ths, for eight cycles a bit. -/
def divider256 (clock baud : ℕ) : ℕ := roundDiv (clock * 256) (baud * 8)

theorem rate_close (hbaud : 0 < baud) (hdivider : 256 ≤ divider256 clock baud) :
    |(clock : ℚ) * 256 / (divider256 clock baud * 8) - baud| ≤ baud / 512 := by
  have hoff := abs_roundDiv_mul_sub (a := clock * 256) (b := baud * 8) (by omega)
  change 2 * |(divider256 clock baud * ((baud * 8 : ℕ) : ℤ)) - ((clock * 256 : ℕ) : ℤ)| ≤ _ at hoff
  generalize divider256 clock baud = divider at hoff hdivider ⊢
  have hdivider' : (256 : ℚ) ≤ divider := by exact_mod_cast hdivider
  have hpos : (0 : ℚ) < divider * 8 := by linarith
  have hbaud' : (0 : ℚ) < baud := Nat.cast_pos.mpr hbaud
  have hoff' : 2 * |(divider : ℚ) * (baud * 8) - clock * 256| ≤ baud * 8 := by exact_mod_cast hoff
  have hdiff : (clock : ℚ) * 256 / (divider * 8) - baud =
      -(divider * (baud * 8) - clock * 256) / (divider * 8) := by
    field_simp
    ring
  rw [hdiff, abs_div, abs_neg, abs_of_pos hpos, div_le_iff₀ hpos]
  calc |(divider : ℚ) * (baud * 8) - clock * 256|
      ≤ baud / 512 * (256 * 8) := by linarith
    _ ≤ baud / 512 * (divider * 8) := by gcongr

theorem actual_close (hbaud : 0 < baud) (hdivider : 256 ≤ divider256 clock baud) :
    1024 * |(roundDiv (clock * 256) (divider256 clock baud * 8) : ℤ) - baud| ≤ 2 * baud + 512 := by
  have hrate := rate_close hbaud hdivider
  have hpos : 0 < divider256 clock baud * 8 := by omega
  have hround := abs_sub_round ((clock : ℚ) * 256 / (divider256 clock baud * 8))
  have hcast : (clock : ℚ) * 256 / (divider256 clock baud * 8) =
      ((clock * 256 : ℕ) : ℚ) / ((divider256 clock baud * 8 : ℕ) : ℚ) := by push_cast; rfl
  rw [hcast] at hrate hround
  rw [round_div hpos] at hround
  generalize ((clock * 256 : ℕ) : ℚ) / ((divider256 clock baud * 8 : ℕ) : ℚ) = rate at hrate hround
  generalize roundDiv (clock * 256) (divider256 clock baud * 8) = actual at hround ⊢
  have htotal : |((actual : ℤ) : ℚ) - baud| ≤ 1 / 2 + baud / 512 := by
    have htriangle := abs_sub_le ((actual : ℤ) : ℚ) rate baud
    rw [abs_sub_comm ((actual : ℤ) : ℚ) rate] at htriangle
    linarith
  have hscaled : (1024 : ℚ) * |((actual : ℤ) : ℚ) - baud| ≤ 2 * baud + 512 := by linarith
  exact_mod_cast hscaled

theorem permille_close {actual : ℤ} (hclose : 1024 * |actual - baud| ≤ 2 * baud + 512) :
    |((actual - baud) * 1000).tdiv baud| ≤ 20 := by
  rw [← Int.natCast_natAbs, Int.natAbs_tdiv, Int.natAbs_mul, Int.natAbs_natCast]
  rw [← Int.natCast_natAbs] at hclose
  have hle : (actual - baud).natAbs * 1000 ≤ 20 * baud := by omega
  exact_mod_cast Nat.div_le_of_le_mul (by omega)

end arithmetic

section timing

/-- The divider that the two fields encode. -/
def HalfDuplexUartTiming.divider (timing : HalfDuplexUartTiming) : ℚ :=
  let int : ℕ := if timing.dividerInt = 0 then 65536 else timing.dividerInt.toNat
  int + timing.dividerFrac.toNat / 256

/-- The divider is the nearest there is, and the rate that it gives is reported and close. -/
structure Reproduces (clock baud : ℕ) (timing : HalfDuplexUartTiming) : Prop where
  divider : timing.divider = round (256 * ((clock : ℚ) / (baud * HALF_DUPLEX_UART_CYCLES_PER_BIT))) / 256
  actual : (timing.actualBaudrate.toNat : ℤ) =
    round ((clock : ℚ) / (timing.divider * HALF_DUPLEX_UART_CYCLES_PER_BIT))
  close : |(clock : ℚ) / (timing.divider * HALF_DUPLEX_UART_CYCLES_PER_BIT) - baud| ≤ baud / 512
  usable : halfDuplexUartTimingIsUsable timing = true

theorem round_divider {clock baud : ℕ} (hbaud : 0 < baud) :
    round (256 * ((clock : ℚ) / (baud * HALF_DUPLEX_UART_CYCLES_PER_BIT))) =
      (divider256 clock baud : ℤ) := by
  have hdiv := round_div (K := ℚ) (a := clock * 256) (b := baud * 8) (by omega)
  rw [divider256, ← hdiv, HALF_DUPLEX_UART_CYCLES_PER_BIT]
  push_cast
  ring_nf

theorem divider_fields {divider : ℕ} (hle : divider ≤ 65536 * 256) (hge : 256 ≤ divider)
    (actual : UInt32) (error : ℤ) :
    HalfDuplexUartTiming.divider
      ⟨UInt16.ofNat (divider / 256), UInt8.ofNat (divider % 256), actual, error⟩ = divider / 256 := by
  have hfrac : (UInt8.ofNat (divider % 256)).toNat = divider % 256 := by
    rw [UInt8.toNat_ofNat']
    omega
  have hint : (if UInt16.ofNat (divider / 256) = 0 then 65536
      else (UInt16.ofNat (divider / 256)).toNat) = divider / 256 := by
    by_cases hwhole : divider / 256 = 65536
    · rw [hwhole, if_pos (by decide)]
    · have htoNat : (UInt16.ofNat (divider / 256)).toNat = divider / 256 := by
        rw [UInt16.toNat_ofNat']
        omega
      have hne : UInt16.ofNat (divider / 256) ≠ 0 := by
        intro h
        rw [h] at htoNat
        change 0 = divider / 256 at htoNat
        omega
      rw [if_neg hne, htoNat]
  have hsplit : ((divider / 256 * 256 + divider % 256 : ℕ) : ℚ) = divider := by
    rw [Nat.div_add_mod']
  unfold HalfDuplexUartTiming.divider
  dsimp only
  rw [hfrac, hint]
  push_cast at hsplit ⊢
  linarith

/-- Without a clock or without a rate the divider counts as zero. -/
theorem divider256_zero {clock baud : ℕ} (hzero : clock = 0 ∨ baud = 0) :
    round (256 * ((clock : ℚ) / (baud * HALF_DUPLEX_UART_CYCLES_PER_BIT))) = 0 := by
  have hquotient : (clock : ℚ) / (baud * HALF_DUPLEX_UART_CYCLES_PER_BIT) = 0 := by
    rcases hzero with rfl | rfl <;> simp
  rw [hquotient, mul_zero, round_zero]

theorem actual_lt {clock divider : ℕ} (hclock : clock < 2 ^ 32) (hdivider : 256 ≤ divider) :
    roundDiv (clock * 256) (divider * 8) < 2 ^ 32 := by
  rw [roundDiv_lt_iff (by omega)]
  have hmul : 2 ^ 32 * 2048 ≤ 2 ^ 32 * (divider * 8) := Nat.mul_le_mul_left _ (by omega)
  omega

/-- The timing of a divider. -/
def timingOf (clock baud : ℕ) : HalfDuplexUartTiming :=
  let divider := divider256 clock baud
  let actual := roundDiv (clock * 256) (divider * 8)
  ⟨UInt16.ofNat (divider / 256), UInt8.ofNat (divider % 256), UInt32.ofNat actual,
    (((actual : ℤ) - baud) * 1000).tdiv baud⟩

theorem timingOf_reproduces {clock baud : ℕ} (hclock : clock < 2 ^ 32) (hbaud : 0 < baud)
    (hge : 256 ≤ divider256 clock baud) (hle : divider256 clock baud ≤ 65536 * 256) :
    Reproduces clock baud (timingOf clock baud) := by
  have hdivider : (timingOf clock baud).divider = divider256 clock baud / 256 :=
    divider_fields hle hge _ _
  have hrate : (clock : ℚ) / (divider256 clock baud / 256 * HALF_DUPLEX_UART_CYCLES_PER_BIT) =
      clock * 256 / (divider256 clock baud * 8) := by
    rw [HALF_DUPLEX_UART_CYCLES_PER_BIT]
    field_simp
    norm_num
  refine ⟨?_, ?_, ?_, ?_⟩
  · rw [hdivider, round_divider hbaud]
    rfl
  · have hactual := actual_lt hclock hge
    have hdiv := round_div (K := ℚ) (a := clock * 256) (b := divider256 clock baud * 8) (by omega)
    push_cast at hdiv
    rw [hdivider, hrate, hdiv]
    unfold timingOf
    dsimp only
    rw [UInt32.toNat_ofNat', Nat.mod_eq_of_lt hactual]
  · rw [hdivider, hrate]
    exact rate_close hbaud hge
  · exact decide_eq_true (permille_close (actual_close hbaud hge))

theorem computeTiming_eq {sysClockHz baudrate : UInt32} (h : ¬ (sysClockHz = 0 ∨ baudrate = 0)) :
    halfDuplexUartComputeTiming sysClockHz baudrate =
      if divider256 sysClockHz.toNat baudrate.toNat < 256 ∨
        divider256 sysClockHz.toNat baudrate.toNat > 65536 * 256 then none
      else some (timingOf sysClockHz.toNat baudrate.toNat) := if_neg h

/-- A timing is computed when the rounded divider is one that there is, and then it reproduces the
rate; whatever the tolerance asks for is met. -/
theorem half_duplex_uart_timing_exact (sysClockHz baudrate : UInt32) :
    ((halfDuplexUartComputeTiming sysClockHz baudrate).isSome = true ↔
      (round (256 * ((sysClockHz.toNat : ℚ) /
        (baudrate.toNat * HALF_DUPLEX_UART_CYCLES_PER_BIT))) : ℚ) / 256 ∈ Set.Icc 1 65536) ∧
    ∀ timing ∈ halfDuplexUartComputeTiming sysClockHz baudrate,
      Reproduces sysClockHz.toNat baudrate.toNat timing := by
  by_cases hzero : sysClockHz = 0 ∨ baudrate = 0
  · have hnone : halfDuplexUartComputeTiming sysClockHz baudrate = none := if_pos hzero
    rw [hnone, divider256_zero (hzero.imp (congrArg UInt32.toNat) (congrArg UInt32.toNat))]
    refine ⟨iff_of_false nofun fun h => ?_, nofun⟩
    have hone : (1 : ℚ) ≤ ((0 : ℤ) : ℚ) / 256 := h.1
    norm_num at hone
  have hbaud : 0 < baudrate.toNat :=
    Nat.pos_of_ne_zero fun h => hzero (.inr (UInt32.toNat_inj.mp h))
  have hrange : (((divider256 sysClockHz.toNat baudrate.toNat : ℤ) : ℚ) / 256 ∈ Set.Icc 1 65536) ↔
      256 ≤ divider256 sysClockHz.toNat baudrate.toNat ∧
        divider256 sysClockHz.toNat baudrate.toNat ≤ 65536 * 256 := by
    rw [Set.mem_Icc, le_div_iff₀ (by norm_num), div_le_iff₀ (by norm_num), one_mul,
      Int.cast_natCast]
    exact and_congr (by norm_cast) (by norm_cast)
  rw [round_divider hbaud, hrange, computeTiming_eq hzero]
  by_cases hout : divider256 sysClockHz.toNat baudrate.toNat < 256 ∨
      divider256 sysClockHz.toNat baudrate.toNat > 65536 * 256
  · rw [if_pos hout]
    exact ⟨iff_of_false nofun fun h => by omega, nofun⟩
  · rw [if_neg hout]
    rw [not_or, not_lt, not_lt] at hout
    refine ⟨iff_of_true rfl hout, fun timing htiming => ?_⟩
    obtain rfl := Option.some.inj htiming
    exact timingOf_reproduces sysClockHz.toNat_lt hbaud hout.1 hout.2

end timing

end Pico
