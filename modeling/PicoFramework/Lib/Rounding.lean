import Mathlib.Algebra.Order.Round
import Mathlib.Tactic

/-! Quotients of natural numbers rounded to the nearest, the way it is done with a division that
truncates: half the divisor is added first. -/

namespace Lib.Rounding

def roundDiv (a b : ℕ) : ℕ := (a + b / 2) / b

variable {a b n : ℕ}

theorem le_roundDiv_iff (hb : 0 < b) : n ≤ roundDiv a b ↔ n * b ≤ a + b / 2 :=
  Nat.le_div_iff_mul_le hb

theorem roundDiv_lt_iff (hb : 0 < b) : roundDiv a b < n ↔ a + b / 2 < n * b :=
  Nat.div_lt_iff_lt_mul hb

theorem roundDiv_mul_le (a b : ℕ) : roundDiv a b * b ≤ a + b / 2 := Nat.div_mul_le_self _ _

theorem lt_roundDiv_mul (hb : 0 < b) : a + b / 2 < (roundDiv a b + 1) * b :=
  (roundDiv_lt_iff hb).mp (Nat.lt_succ_self _)

theorem roundDiv_mono {a' : ℕ} (h : a ≤ a') (b : ℕ) : roundDiv a b ≤ roundDiv a' b :=
  Nat.div_le_div_right (Nat.add_le_add_right h _)

theorem roundDiv_mul_self (hb : 0 < b) (n : ℕ) : roundDiv (n * b) b = n := by
  unfold roundDiv
  rw [Nat.add_comm, Nat.add_mul_div_right _ _ hb, Nat.div_eq_of_lt (Nat.div_lt_self hb one_lt_two),
    Nat.zero_add]

theorem abs_roundDiv_mul_sub (hb : 0 < b) : 2 * |(roundDiv a b * b : ℤ) - a| ≤ b := by
  have hle := roundDiv_mul_le a b
  have hlt := lt_roundDiv_mul (a := a) hb
  rw [Nat.add_mul, Nat.one_mul] at hlt
  zify at hle hlt
  rw [← abs_of_pos (a := (2 : ℤ)) two_pos, ← abs_mul, abs_le]
  omega

theorem roundDiv_mul_roundDiv {c : ℕ} (hb : 0 < b) (hbc : b ≤ c) (n : ℕ) :
    roundDiv (roundDiv (n * c) b * b) c = n := by
  obtain rfl | hlt := hbc.eq_or_lt
  · rw [roundDiv_mul_self hb, roundDiv_mul_self hb]
  have hle := roundDiv_mul_le (n * c) b
  have hgt := lt_roundDiv_mul (a := n * c) hb
  rw [Nat.add_mul, Nat.one_mul] at hgt
  have hc : 0 < c := hb.trans hlt
  apply le_antisymm
  · rw [← Nat.lt_succ_iff, roundDiv_lt_iff hc, Nat.succ_mul]
    omega
  · rw [le_roundDiv_iff hc]
    omega

variable {K : Type*} [Field K] [LinearOrder K] [IsStrictOrderedRing K] [FloorRing K]

theorem roundDiv_le_iff (hb : 0 < b) : roundDiv a b ≤ n ↔ (a : K) / b < n + 1 / 2 := by
  have hpos : (0 : K) < b := Nat.cast_pos.mpr hb
  have hdouble : a + b / 2 < (n + 1) * b ↔ 2 * a < (2 * n + 1) * b := by
    rw [Nat.add_mul, Nat.add_mul, Nat.mul_assoc]
    omega
  rw [← Nat.lt_succ_iff, roundDiv_lt_iff hb, hdouble, div_lt_iff₀ hpos]
  have hcast : 2 * a < (2 * n + 1) * b ↔ (2 : K) * a < (2 * n + 1) * b := by norm_cast
  rw [hcast]
  constructor <;> intro h <;> linarith

/-- Of the halves it takes the upper one, as `round` does. -/
theorem round_div (hb : 0 < b) : round ((a : K) / b) = (roundDiv a b : ℤ) := by
  have hle := roundDiv_mul_le a b
  have hlt := lt_roundDiv_mul (a := a) hb
  have hpos : (0 : K) < b := Nat.cast_pos.mpr hb
  have hlow : 2 * (roundDiv a b * b) ≤ 2 * a + b := by omega
  have hhigh : 2 * a + b < 2 * ((roundDiv a b + 1) * b) := by omega
  have hlow' : (2 : K) * (roundDiv a b * b) ≤ 2 * a + b := by exact_mod_cast hlow
  have hhigh' : (2 : K) * a + b < 2 * ((roundDiv a b + 1) * b) := by exact_mod_cast hhigh
  rw [round_eq_iff, Int.cast_natCast]
  constructor
  · rw [le_div_iff₀ hpos]
    linarith
  · rw [div_lt_iff₀ hpos]
    linarith

end Lib.Rounding
