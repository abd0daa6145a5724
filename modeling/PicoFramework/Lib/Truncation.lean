import Mathlib.Data.Nat.Size
import Mathlib.Tactic

/-! Numbers cut off after their first so many binary digits, as a significand and an exponent. -/

namespace Lib.Truncation

variable {w m n e : ℕ}

/-- How many of the digits are cut off. -/
def exponent (w m : ℕ) : ℕ := m.size - w

/-- The digits that are left. -/
def significand (w m : ℕ) : ℕ := m / 2 ^ exponent w m

/-- The number that they stand for. -/
def truncate (w m : ℕ) : ℕ := significand w m * 2 ^ exponent w m

section digits

theorem exponent_eq_zero (h : m < 2 ^ w) : exponent w m = 0 :=
  Nat.sub_eq_zero_of_le (Nat.size_le.mpr h)

theorem exponent_pos (h : 2 ^ w ≤ m) : 0 < exponent w m := Nat.sub_pos_of_lt (Nat.lt_size.mpr h)

theorem lt_two_pow (w m : ℕ) : m < 2 ^ (w + exponent w m) := by
  refine m.lt_size_self.trans_le (Nat.pow_le_pow_right two_pos ?_)
  unfold exponent
  omega

theorem two_pow_le (hw : 0 < w) (h : 2 ^ w ≤ m) : 2 ^ (w - 1 + exponent w m) ≤ m := by
  have hpos := exponent_pos h
  refine Nat.lt_size.mp ?_
  unfold exponent at hpos ⊢
  omega

theorem exponent_eq (hw : 0 < w) (hge : 2 ^ (w - 1 + e) ≤ m) (hlt : m < 2 ^ (w + e)) :
    exponent w m = e := by
  have hhigh := Nat.size_le.mpr hlt
  have hlow := Nat.lt_size.mpr hge
  unfold exponent
  omega

theorem significand_lt (w m : ℕ) : significand w m < 2 ^ w := by
  refine Nat.div_lt_of_lt_mul ?_
  rw [← pow_add, Nat.add_comm]
  exact lt_two_pow w m

theorem le_significand (hw : 0 < w) (h : 2 ^ w ≤ m) : 2 ^ (w - 1) ≤ significand w m := by
  refine (Nat.le_div_iff_mul_le (Nat.two_pow_pos _)).mpr ?_
  rw [← pow_add]
  exact two_pow_le hw h

theorem parts_scaled (hw : 0 < w) (hge : 2 ^ (w - 1) ≤ n) (hlt : n < 2 ^ w) :
    exponent w (n * 2 ^ e) = e ∧ significand w (n * 2 ^ e) = n := by
  have hexponent : exponent w (n * 2 ^ e) = e := by
    apply exponent_eq hw
    · rw [pow_add]
      exact Nat.mul_le_mul_right _ hge
    · rw [pow_add]
      exact Nat.mul_lt_mul_of_pos_right hlt (Nat.two_pow_pos e)
  refine ⟨hexponent, ?_⟩
  rw [significand, hexponent]
  exact Nat.mul_div_cancel n (Nat.two_pow_pos e)

theorem parts_small (h : m < 2 ^ w) : exponent w m = 0 ∧ significand w m = m := by
  have hexponent := exponent_eq_zero h
  refine ⟨hexponent, ?_⟩
  rw [significand, hexponent, pow_zero, Nat.div_one]

theorem parts_half (hw : 0 < w) (h : 2 ^ w ≤ m) :
    exponent w m = exponent w (m / 2) + 1 ∧ significand w (m / 2) = significand w m := by
  have hpos := exponent_pos h
  obtain ⟨e, he⟩ := Nat.exists_eq_succ_of_ne_zero hpos.ne'
  have hge := two_pow_le hw h
  have hlt := lt_two_pow w m
  rw [he, Nat.succ_eq_add_one, ← Nat.add_assoc, pow_succ] at hge hlt
  have hhalf : exponent w (m / 2) = e := exponent_eq hw (by omega) (by omega)
  refine ⟨by omega, ?_⟩
  rw [significand, significand, hhalf, he, Nat.div_div_eq_div_mul, pow_succ, Nat.mul_comm]

end digits

section truncation

theorem truncate_le (w m : ℕ) : truncate w m ≤ m := Nat.div_mul_le_self _ _

theorem lt_truncate_add (w m : ℕ) : m < truncate w m + 2 ^ exponent w m :=
  Nat.lt_div_mul_add (Nat.two_pow_pos _)

theorem truncate_eq_self (h : m < 2 ^ w) : truncate w m = m := by
  obtain ⟨hexponent, hsignificand⟩ := parts_small h
  rw [truncate, hexponent, hsignificand, pow_zero, Nat.mul_one]

/-- What is cut off is less than one part in `2 ^ (w - 1)`. -/
theorem truncate_error (hw : 0 < w) (m : ℕ) : (m - truncate w m) * 2 ^ (w - 1) ≤ m := by
  by_cases h : m < 2 ^ w
  · rw [truncate_eq_self h, Nat.sub_self, Nat.zero_mul]
    exact Nat.zero_le m
  · have hrest : m - truncate w m ≤ 2 ^ exponent w m :=
      Nat.sub_le_iff_le_add'.mpr (lt_truncate_add w m).le
    calc (m - truncate w m) * 2 ^ (w - 1)
        ≤ 2 ^ exponent w m * 2 ^ (w - 1) := Nat.mul_le_mul_right _ hrest
      _ = 2 ^ (w - 1 + exponent w m) := by rw [← pow_add, Nat.add_comm]
      _ ≤ m := two_pow_le hw (not_lt.mp h)

theorem truncate_mono (hw : 0 < w) (h : m ≤ n) : truncate w m ≤ truncate w n := by
  have hexponents : exponent w m ≤ exponent w n := Nat.sub_le_sub_right (Nat.size_le_size h) w
  rcases hexponents.eq_or_lt with heq | hlt
  · unfold truncate significand
    rw [heq]
    exact Nat.mul_le_mul_right _ (Nat.div_le_div_right h)
  · -- a number of a lower octave is below every significand of the higher one
    have hlarge : 2 ^ w ≤ n := by
      by_contra hsmall
      rw [exponent_eq_zero (not_le.mp hsmall)] at hlt
      exact Nat.not_lt_zero _ hlt
    calc truncate w m ≤ m := truncate_le w m
      _ ≤ 2 ^ (w + exponent w m) := (lt_two_pow w m).le
      _ ≤ 2 ^ (w - 1 + exponent w n) := Nat.pow_le_pow_right two_pos (by omega)
      _ ≤ truncate w n := by
        rw [pow_add]
        exact Nat.mul_le_mul_right _ (le_significand hw hlarge)

end truncation

end Lib.Truncation
