import Mathlib.Tactic

/-! A sequence kept in a circular store: position `i` of the sequence is in cell `i % n` of
the `n` cells, and as many positions as there are cells are told apart. -/

namespace Lib.Circular

variable {α : Type*}

/-- The cells hold the sequence from position `from_` on. -/
def Stores (cells xs : List α) (from_ : ℕ) : Prop :=
  ∀ i, from_ ≤ i → i < xs.length → cells[i % cells.length]? = xs[i]?

theorem mod_ne {n i j : ℕ} (hlt : i < j) (hwindow : j < i + n) : i % n ≠ j % n := by
  intro h
  obtain ⟨k, hk⟩ := (Nat.modEq_iff_dvd' hlt.le).mp h
  rcases Nat.eq_zero_or_pos k with rfl | hpos
  · omega
  · have := Nat.le_mul_of_pos_right n hpos
    omega

theorem distance_eq {n i j : ℕ} (hle : i ≤ j) (hwindow : j < i + n) :
    (if j % n ≥ i % n then j % n - i % n else n - i % n + j % n) = j - i := by
  have hn : 0 < n := by omega
  have hi := Nat.div_add_mod i n
  have hj := Nat.div_add_mod j n
  have hilt := Nat.mod_lt i hn
  have hjlt := Nat.mod_lt j hn
  generalize hq : i / n = q at hi
  generalize hp : j / n = p at hj
  have hqp : p = q ∨ p = q + 1 := by
    have hle' : q ≤ p := hq ▸ hp ▸ Nat.div_le_div_right hle
    have hlt : p < q + 2 := by
      rw [← hp, Nat.div_lt_iff_lt_mul hn, Nat.add_mul, Nat.mul_comm q n]
      omega
    omega
  rcases hqp with rfl | rfl
  · rw [if_pos (by omega)]
    omega
  · rw [Nat.mul_add, Nat.mul_one] at hj
    rw [if_neg (by omega)]
    omega

theorem mod_wrap {n : ℕ} (hn : 0 < n) (i : ℕ) : (i + (n - i % n)) % n = 0 := by
  have hi := Nat.div_add_mod i n
  have hlt := Nat.mod_lt i hn
  have hsum : i + (n - i % n) = n * (i / n + 1) := by
    rw [Nat.mul_add, Nat.mul_one]
    omega
  rw [hsum, Nat.mul_mod_right]

section stores

variable {cells xs : List α} {from_ : ℕ}

theorem Stores.later (h : Stores cells xs from_) {from' : ℕ} (hle : from_ ≤ from') :
    Stores cells xs from' :=
  fun i hi hlt => h i (hle.trans hi) hlt

theorem Stores.of_append {ys : List α} (h : Stores cells (xs ++ ys) from_) :
    Stores cells xs from_ := by
  intro i hi hlt
  rw [h i hi (by rw [List.length_append]; omega), List.getElem?_append_left hlt]

theorem Stores.set (h : Stores cells xs from_) (x : α) (hroom : xs.length < from_ + cells.length) :
    Stores (cells.set (xs.length % cells.length) x) (xs ++ [x]) from_ := by
  intro i hi hlt
  rw [List.length_append, List.length_singleton] at hlt
  rw [List.length_set]
  rcases Nat.lt_or_ge i xs.length with hin | hend
  · rw [List.getElem?_append_left hin, List.getElem?_set_ne (mod_ne hin (by omega)).symm]
    exact h i hi hin
  · obtain rfl : i = xs.length := by omega
    have hn : 0 < cells.length := by omega
    rw [List.getElem?_set_self (Nat.mod_lt _ hn), List.getElem?_append_right le_rfl, Nat.sub_self]
    rfl

end stores

end Lib.Circular
