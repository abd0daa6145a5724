import Mathlib.Order.Interval.Set.UnorderedInterval
import Mathlib.Tactic

/-! Moving from one integer to another by fractions of the way, of which `one` is the whole. -/

namespace Lib.Easing

/-- Smoothstep, of fractions: three of the square and less two of the cube. -/
def smooth (one t : ℕ) : ℕ := (3 * (t * t) * one - 2 * (t * t) * t) / (one * one)

/-- So much of the way from the source to the target, cut off towards the source. -/
def toward (source target : ℤ) (one eased : ℕ) : ℤ :=
  source + ((target - source) * eased).tdiv one

variable {one s t : ℕ}

section easing

theorem smooth_zero (one : ℕ) : smooth one 0 = 0 := by simp [smooth]

theorem smooth_self (hone : 0 < one) : smooth one one = one := by
  have hcube : 3 * (one * one) * one - 2 * (one * one) * one = one * (one * one) := by
    rw [← Nat.sub_mul, ← Nat.sub_mul, Nat.one_mul, Nat.mul_comm]
  rw [smooth, hcube, Nat.mul_div_cancel _ (Nat.mul_pos hone hone)]

theorem smooth_mono (hst : s ≤ t) (ht : t ≤ one) : smooth one s ≤ smooth one t := by
  have hcross : 3 * (s * s) * one + 2 * (t * t) * t ≤ 3 * (t * t) * one + 2 * (s * s) * s := by
    obtain ⟨d, rfl⟩ := Nat.exists_eq_add_of_le hst
    obtain ⟨e, rfl⟩ := Nat.exists_eq_add_of_le ht
    nlinarith [Nat.zero_le (d * d * s), Nat.zero_le (d * d * d), Nat.zero_le (d * s * e),
      Nat.zero_le (d * d * e)]
  exact Nat.div_le_div_right (by omega)

theorem smooth_le (hone : 0 < one) (ht : t ≤ one) : smooth one t ≤ one := by
  calc smooth one t ≤ smooth one one := smooth_mono ht le_rfl
    _ = one := smooth_self hone

end easing

section moving

variable {source target : ℤ}

@[simp] theorem toward_zero (source target : ℤ) (one : ℕ) : toward source target one 0 = source := by
  simp [toward]

theorem toward_self (hone : 0 < one) : toward source target one one = target := by
  have hne : (one : ℤ) ≠ 0 := Int.natCast_ne_zero.mpr hone.ne'
  rw [toward, Int.mul_tdiv_cancel _ hne]
  exact add_sub_cancel source target

theorem toward_mono (hone : 0 < one) (hup : source ≤ target) (hst : s ≤ t) :
    toward source target one s ≤ toward source target one t := by
  have hone' : (0 : ℤ) < one := Int.natCast_pos.mpr hone
  have hmul : (target - source) * s ≤ (target - source) * t :=
    mul_le_mul_of_nonneg_left (Int.ofNat_le.mpr hst) (sub_nonneg.mpr hup)
  exact add_le_add_right (Int.tdiv_le_tdiv hone' hmul) source

theorem toward_anti (hone : 0 < one) (hdown : target ≤ source) (hst : s ≤ t) :
    toward source target one t ≤ toward source target one s := by
  have hone' : (0 : ℤ) < one := Int.natCast_pos.mpr hone
  have hmul : (target - source) * t ≤ (target - source) * s :=
    mul_le_mul_of_nonpos_left (Int.ofNat_le.mpr hst) (sub_nonpos.mpr hdown)
  exact add_le_add_right (Int.tdiv_le_tdiv hone' hmul) source

theorem toward_mem (hone : 0 < one) (hst : s ≤ t) (ht : t ≤ one) :
    toward source target one t ∈ Set.uIcc (toward source target one s) target := by
  rw [Set.mem_uIcc]
  rcases le_total source target with hup | hdown
  · refine Or.inl ⟨toward_mono hone hup hst, ?_⟩
    calc toward source target one t ≤ toward source target one one := toward_mono hone hup ht
      _ = target := toward_self hone
  · refine Or.inr ⟨?_, toward_anti hone hdown hst⟩
    calc target = toward source target one one := (toward_self hone).symm
      _ ≤ toward source target one t := toward_anti hone hdown ht

end moving

end Lib.Easing
