import Mathlib.Tactic

/-! Which of the values of a decreasing sequence is nearest to a point: the midpoints between
neighbours decide it. -/

namespace Lib.Nearest

variable {R : Type*} [CommRing R] [LinearOrder R] [IsStrictOrderedRing R]

section midpoint

variable {x y : R}

theorem abs_sub_le_abs_sub (h : x < y) (r : R) : |x - r| ≤ |y - r| ↔ 2 * r ≤ x + y := by
  have hfactor : (y - r) ^ 2 - (x - r) ^ 2 = (y - x) * (x + y - 2 * r) := by ring
  rw [← sq_le_sq, ← sub_nonneg, hfactor, mul_nonneg_iff_of_pos_left (sub_pos.mpr h), sub_nonneg]

theorem abs_sub_le_abs_sub' (h : x < y) (r : R) : |y - r| ≤ |x - r| ↔ x + y ≤ 2 * r := by
  have hfactor : (x - r) ^ 2 - (y - r) ^ 2 = (y - x) * (2 * r - (x + y)) := by ring
  rw [← sq_le_sq, ← sub_nonneg, hfactor, mul_nonneg_iff_of_pos_left (sub_pos.mpr h), sub_nonneg]

end midpoint

variable {f : ℕ → R} {a b v : ℕ}

theorem nearest_iff (hf : StrictAntiOn f (Set.Icc a b)) (hv : v ∈ Set.Icc a b) (r : R) :
    (∀ u ∈ Set.Icc a b, |f v - r| ≤ |f u - r|) ↔
      ∀ k, a ≤ k → k < b →
        (v ≤ k → f k + f (k + 1) ≤ 2 * r) ∧ (k < v → 2 * r ≤ f k + f (k + 1)) := by
  obtain ⟨hav, hvb⟩ := hv
  have hle : ∀ {i j : ℕ}, a ≤ i → i ≤ j → j ≤ b → f j ≤ f i := fun hi hij hj =>
    hf.antitoneOn ⟨hi, hij.trans hj⟩ ⟨hi.trans hij, hj⟩ hij
  have hlt : ∀ {i j : ℕ}, a ≤ i → i < j → j ≤ b → f j < f i := fun hi hij hj =>
    hf ⟨hi, hij.le.trans hj⟩ ⟨hi.trans hij.le, hj⟩ hij
  constructor
  · intro hnear k hak hkb
    refine ⟨fun hvk => ?_, fun hkv => ?_⟩
    · have hmid := (abs_sub_le_abs_sub' (hlt hav (Nat.lt_succ_of_le hvk) hkb) r).mp
        (hnear (k + 1) ⟨Nat.le_succ_of_le hak, hkb⟩)
      linarith [hle hav hvk hkb.le]
    · have hmid := (abs_sub_le_abs_sub (hlt hak hkv hvb) r).mp (hnear k ⟨hak, hkb.le⟩)
      linarith [hle (Nat.le_succ_of_le hak) hkv hvb]
  · rintro hmid u ⟨hau, hub⟩
    rcases lt_trichotomy u v with huv | rfl | hvu
    · obtain ⟨k, rfl⟩ := Nat.exists_eq_succ_of_ne_zero (Nat.ne_of_gt (Nat.zero_lt_of_lt huv))
      have hbefore := (hmid k (hau.trans (Nat.le_of_lt_succ huv)) hvb).2 (Nat.lt_succ_self k)
      refine (abs_sub_le_abs_sub (hlt hau huv hvb) r).mpr ?_
      linarith [hle hau (Nat.le_of_lt_succ huv) (Nat.le_of_succ_le hvb)]
    · exact le_rfl
    · have hafter := (hmid v hav (hvu.trans_le hub)).1 le_rfl
      refine (abs_sub_le_abs_sub' (hlt hav hvu hub) r).mpr ?_
      linarith [hle (Nat.le_succ_of_le hav) hvu hub]

end Lib.Nearest
