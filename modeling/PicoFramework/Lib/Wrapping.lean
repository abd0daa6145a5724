import Mathlib.Tactic

/-! A counter that is kept modulo one number and read modulo another. -/

namespace Lib.Wrapping

variable {kept read : ℕ}

theorem mod_mod_eq_iff (kept read n : ℕ) :
    n % kept % read = n % read ↔ read ∣ kept * (n / kept) := by
  have hlost : n - n % kept = kept * (n / kept) := by
    have hsplit := Nat.div_add_mod n kept
    omega
  rw [← hlost]
  exact Nat.modEq_iff_dvd' (Nat.mod_le n kept)

/-- Places at equal distances are all read right when the last of them is not beyond the counter: the
first that is beyond it has lost one round. -/
theorem places_mod_mod_iff {start step length : ℕ} (hstart : start < kept) (hstep : step ≤ kept)
    (hodd : ¬ read ∣ kept) (hlength : 0 < length) :
    (∀ i < length, (start + step * i) % kept % read = (start + step * i) % read) ↔
      start + step * (length - 1) < kept := by
  constructor
  · intro hall
    by_contra hbeyond
    have hexists : ∃ i, kept ≤ start + step * i := ⟨length - 1, not_lt.mp hbeyond⟩
    let first := Nat.find hexists
    have hfirst : kept ≤ start + step * first := Nat.find_spec hexists
    have hle : first ≤ length - 1 := Nat.find_min' hexists (not_lt.mp hbeyond)
    obtain ⟨before, hbefore⟩ : ∃ before, first = before + 1 := by
      apply Nat.exists_eq_succ_of_ne_zero
      intro hzero
      rw [hzero, Nat.mul_zero, Nat.add_zero] at hfirst
      omega
    have hwithin : start + step * before < kept :=
      not_le.mp (Nat.find_min hexists (show before < first by omega))
    have hround : (start + step * first) / kept = 1 := by
      rw [hbefore, Nat.mul_add, Nat.mul_one] at hfirst ⊢
      exact Nat.div_eq_of_lt_le (by omega) (by omega)
    have hread := (mod_mod_eq_iff kept read _).mp (hall first (by omega))
    rw [hround, Nat.mul_one] at hread
    exact hodd hread
  · intro hwithin i hi
    have hmono : step * i ≤ step * (length - 1) := Nat.mul_le_mul_left step (by omega)
    rw [Nat.mod_eq_of_lt (by omega : start + step * i < kept)]

end Lib.Wrapping
