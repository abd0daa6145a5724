import Mathlib.Tactic

/-! Positional numerals: the number that a string of digits stands for, what a loop of fixed width
makes of it, and decimal fractions cut to an integer. -/

namespace Lib.Numeral

section positional

variable {base bound v : ℕ} {digits : List ℕ}

/-- The digits taken in one after another, from `v` on. -/
def value (base v : ℕ) (digits : List ℕ) : ℕ := digits.foldl (fun v d => v * base + d) v

@[simp] theorem value_nil (base v : ℕ) : value base v [] = v := rfl

@[simp] theorem value_cons (base v d : ℕ) (digits : List ℕ) :
    value base v (d :: digits) = value base (v * base + d) digits := rfl

theorem value_append (base v : ℕ) (xs ys : List ℕ) :
    value base v (xs ++ ys) = value base (value base v xs) ys := List.foldl_append

theorem value_eq (base v : ℕ) (digits : List ℕ) :
    value base v digits = v * base ^ digits.length + value base 0 digits := by
  induction digits generalizing v with
  | nil => simp
  | cons d digits ih =>
    rw [value_cons, value_cons, ih, ih (0 * base + d), List.length_cons, pow_succ]
    ring

theorem le_value (hbase : 0 < base) (v : ℕ) (digits : List ℕ) : v ≤ value base v digits := by
  rw [value_eq]
  have := Nat.le_mul_of_pos_right v (Nat.pow_pos (n := digits.length) hbase)
  omega

theorem value_lt (h : ∀ d ∈ digits, d < base) : value base 0 digits < base ^ digits.length := by
  induction digits with
  | nil => simp
  | cons d digits ih =>
    have hd : d + 1 ≤ base := h d List.mem_cons_self
    have hrest := ih fun e he => h e (List.mem_cons_of_mem _ he)
    have hscale := Nat.mul_le_mul_right (base ^ digits.length) hd
    rw [value_cons, value_eq, List.length_cons, pow_succ]
    nlinarith

theorem foldl_mod (base m v : ℕ) (digits : List ℕ) :
    digits.foldl (fun v d => (v * base + d) % m) (v % m) = value base v digits % m := by
  induction digits generalizing v with
  | nil => rfl
  | cons d digits ih =>
    have hstep : (v % m * base + d) % m = (v * base + d) % m := by
      simp [Nat.add_mod, Nat.mul_mod]
    rw [List.foldl_cons, hstep, ih, value_cons]

theorem value_mod (base m v : ℕ) (digits : List ℕ) :
    value base (v % m) digits % m = value base v digits % m := by
  rw [← foldl_mod, ← foldl_mod, Nat.mod_mod]

/-- A loop that gives up once its value passes a bound. -/
def bounded (base bound : ℕ) : ℕ → List ℕ → Option ℕ
  | v, [] => some v
  | v, d :: digits => if v * base + d > bound then none else bounded base bound (v * base + d) digits

/-- It gives up exactly when the whole value is past the bound. -/
theorem bounded_eq (hbase : 0 < base) (hv : v ≤ bound) :
    bounded base bound v digits =
      if value base v digits ≤ bound then some (value base v digits) else none := by
  induction digits generalizing v with
  | nil => rw [value_nil, if_pos hv, bounded]
  | cons d digits ih =>
    rw [bounded, value_cons]
    by_cases hnext : v * base + d > bound
    · have hle := le_value hbase (v * base + d) digits
      rw [if_pos hnext, if_neg (by omega)]
    · rw [if_neg hnext, ih (by omega)]

/-- A numeral as it is written: some digits of the base, and no zero in front of others. -/
structure Plain (base : ℕ) (digits : List ℕ) : Prop where
  ne_nil : digits ≠ []
  lt : ∀ d ∈ digits, d < base
  front : digits.head? = some 0 → digits.length = 1

theorem value_eq_ofDigits (base : ℕ) (digits : List ℕ) :
    value base 0 digits = Nat.ofDigits base digits.reverse := by
  induction digits using List.reverseRecOn with
  | nil => rfl
  | append_singleton digits d ih =>
    rw [value_append, ih, List.reverse_append, List.reverse_singleton, List.singleton_append,
      Nat.ofDigits_cons, value_cons, value_nil]
    ring

namespace Plain

theorem reverse_eq (hbase : 1 < base) (h : Plain base digits) (hvalue : value base 0 digits ≠ 0) :
    digits.reverse = Nat.digits base (value base 0 digits) := by
  rw [value_eq_ofDigits, Nat.digits_ofDigits base hbase digits.reverse]
  · intro d hd
    exact h.lt d (List.mem_reverse.mp hd)
  · intro hne hzero
    obtain ⟨d, rest, rfl⟩ := List.exists_cons_of_ne_nil h.ne_nil
    obtain rfl : d = 0 := by simpa using hzero
    obtain rfl : rest = [] := by simpa using h.front rfl
    simp at hvalue

theorem eq_zero (hbase : 0 < base) (h : Plain base digits) (hvalue : value base 0 digits = 0) :
    digits = [0] := by
  obtain ⟨d, rest, rfl⟩ := List.exists_cons_of_ne_nil h.ne_nil
  have hle := le_value hbase (0 * base + d) rest
  rw [value_cons] at hvalue
  obtain rfl : d = 0 := by omega
  obtain rfl : rest = [] := by simpa using h.front rfl
  rfl

theorem eq_of_value {xs ys : List ℕ} (hbase : 1 < base) (hx : Plain base xs) (hy : Plain base ys)
    (h : value base 0 xs = value base 0 ys) : xs = ys := by
  by_cases hzero : value base 0 xs = 0
  · rw [hx.eq_zero (by omega) hzero, hy.eq_zero (by omega) (h ▸ hzero)]
  · apply List.reverse_injective
    rw [hx.reverse_eq hbase hzero, hy.reverse_eq hbase (h ▸ hzero), h]

theorem pow_le (h : Plain base digits) (hlength : 1 < digits.length) :
    base ^ (digits.length - 1) ≤ value base 0 digits := by
  obtain ⟨d, rest, rfl⟩ := List.exists_cons_of_ne_nil h.ne_nil
  have hpos : 0 < d := by
    apply Nat.pos_of_ne_zero
    intro hd
    have := h.front (by rw [hd]; rfl)
    omega
  have hscale := Nat.le_mul_of_pos_left (base ^ rest.length) hpos
  rw [value_cons, value_eq, List.length_cons, Nat.add_sub_cancel, zero_mul, zero_add]
  exact hscale.trans (Nat.le_add_right _ _)

end Plain

end positional

section decimals

/-- The integer next to a rational on the side of zero. -/
def towardZero (q : ℚ) : ℤ := if 0 ≤ q then ⌊q⌋ else ⌈q⌉

theorem towardZero_neg (q : ℚ) : towardZero (-q) = -towardZero q := by
  unfold towardZero
  rcases lt_trichotomy q 0 with h | h | h
  · rw [if_pos (by linarith), if_neg (by linarith), Int.floor_neg]
  · simp [h]
  · rw [if_neg (by linarith), if_pos h.le, Int.ceil_neg]

/-- A decimal numeral with a fraction and a power of ten. -/
structure Decimal where
  negative : Bool
  whole : List ℕ
  fraction : List ℕ
  exponent : ℤ

/-- The rational number it stands for. -/
def Decimal.toRat (d : Decimal) : ℚ :=
  (if d.negative then -1 else 1) * value 10 0 (d.whole ++ d.fraction) *
    10 ^ (d.exponent - d.fraction.length)

/-- Without a power of ten, only the whole digits are left of it towards zero. -/
theorem Decimal.towardZero_toRat {d : Decimal} (hfraction : ∀ digit ∈ d.fraction, digit < 10)
    (hexponent : d.exponent = 0) :
    towardZero d.toRat = if d.negative then -(value 10 0 d.whole : ℤ) else value 10 0 d.whole := by
  have hlt := value_lt hfraction
  have hpos : (0 : ℚ) < 10 ^ d.fraction.length := by positivity
  have hmagnitude : towardZero ((value 10 0 (d.whole ++ d.fraction) : ℚ) *
      10 ^ (d.exponent - d.fraction.length)) = value 10 0 d.whole := by
    have hsplit : (value 10 0 (d.whole ++ d.fraction) : ℚ) * 10 ^ (d.exponent - d.fraction.length) =
        value 10 0 d.whole + value 10 0 d.fraction / 10 ^ d.fraction.length := by
      rw [hexponent, zero_sub, zpow_neg, zpow_natCast, value_append, value_eq]
      push_cast
      field_simp
    have hsmall : (value 10 0 d.fraction : ℚ) / 10 ^ d.fraction.length < 1 := by
      rw [div_lt_one hpos]
      exact_mod_cast hlt
    have hnonneg : (0 : ℚ) ≤ value 10 0 d.fraction / 10 ^ d.fraction.length := by positivity
    rw [hsplit, towardZero, if_pos (by positivity), Int.floor_eq_iff]
    push_cast
    constructor
    · linarith
    · linarith
  unfold Decimal.toRat
  split
  · rw [mul_assoc, neg_one_mul, towardZero_neg, hmagnitude]
  · rw [one_mul, hmagnitude]

end decimals

end Lib.Numeral
