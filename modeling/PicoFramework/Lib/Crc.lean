import Mathlib.Algebra.Polynomial.Div
import Mathlib.Algebra.Polynomial.RingDivision
import Mathlib.Data.List.GetD
import Mathlib.Data.ZMod.Basic
import Mathlib.RingTheory.Coprime.Lemmas
import Mathlib.Tactic

/-! Cyclic redundancy checks: remainders of polynomials over the field of two elements, the shift
register that computes them, and why no short burst goes unnoticed. -/

namespace Lib.Crc

open Polynomial

section polynomials

/-- The polynomial with the first `w` of some bits for coefficients. -/
noncomputable def ofBits (w : ℕ) (bit : ℕ → Bool) : (ZMod 2)[X] :=
  ∑ i ∈ Finset.range w, if bit i then X ^ i else 0

/-- A message, its first bit being the coefficient of the highest degree. -/
noncomputable def message (bits : List Bool) : (ZMod 2)[X] :=
  ofBits bits.length fun i => bits.reverse.getD i false

variable {w n : ℕ} {bit bit' : ℕ → Bool}

theorem coeff_ofBits (w : ℕ) (bit : ℕ → Bool) (n : ℕ) :
    (ofBits w bit).coeff n = if n < w ∧ bit n then 1 else 0 := by
  have hterm : ∀ i, (if bit i then X ^ i else 0 : (ZMod 2)[X]).coeff n =
      if i = n then (if bit n then 1 else 0) else 0 := by
    intro i
    by_cases hin : i = n
    · subst hin
      cases bit i <;> simp
    · cases bit i <;> simp [coeff_X_pow, hin, Ne.symm hin]
  simp only [ofBits, finsetSum_coeff, hterm, Finset.sum_ite_eq', Finset.mem_range]
  by_cases hn : n < w <;> simp [hn]

theorem degree_ofBits_lt (w : ℕ) (bit : ℕ → Bool) : (ofBits w bit).degree < w := by
  rw [degree_lt_iff_coeff_zero]
  intro n hn
  rw [coeff_ofBits, if_neg (by omega)]

theorem ofBits_xor (w : ℕ) (bit bit' : ℕ → Bool) :
    ofBits w (fun i => xor (bit i) (bit' i)) = ofBits w bit + ofBits w bit' := by
  ext n
  rw [coeff_add, coeff_ofBits, coeff_ofBits, coeff_ofBits]
  by_cases hn : n < w
  · have hone : (1 : ZMod 2) + 1 = 0 := by decide
    cases bit n <;> cases bit' n <;> simp [hn, hone]
  · simp [hn]

theorem ofBits_congr (h : ∀ n < w, bit n = bit' n) : ofBits w bit = ofBits w bit' := by
  ext n
  rw [coeff_ofBits, coeff_ofBits]
  by_cases hn : n < w
  · rw [h n hn]
  · simp [hn]

@[simp] theorem message_nil : message [] = 0 := rfl

theorem message_append (bits more : List Bool) :
    message (bits ++ more) = message bits * X ^ more.length + message more := by
  ext n
  rw [coeff_add, coeff_mul_X_pow', message, message, message, coeff_ofBits, coeff_ofBits,
    coeff_ofBits, List.reverse_append, List.length_append]
  by_cases hn : more.length ≤ n
  · rw [List.getD_append_right _ _ _ _ (by simpa using hn), List.length_reverse]
    have hless : n < bits.length + more.length ↔ n - more.length < bits.length := by omega
    have hout : ¬n < more.length := by omega
    simp [hn, hless, hout]
  · rw [List.getD_append _ _ _ _ (by simpa using hn)]
    have hlow : n < more.length := by omega
    have hall : n < bits.length + more.length := by omega
    simp [hn, hlow, hall]

end polynomials

section registers

variable {w : ℕ} {poly : ℕ → Bool} {g : (ZMod 2)[X]}

/-- The generator of a register of `w` bits, without its leading coefficient given. -/
noncomputable def generator (w : ℕ) (poly : ℕ → Bool) : (ZMod 2)[X] := X ^ w + ofBits w poly

theorem monic_generator (w : ℕ) (poly : ℕ → Bool) : (generator w poly).Monic :=
  monic_X_pow_add (degree_ofBits_lt w poly)

theorem degree_generator (w : ℕ) (poly : ℕ → Bool) : (generator w poly).degree = w := by
  rw [generator, degree_add_eq_left_of_degree_lt, degree_X_pow]
  rw [degree_X_pow]
  exact degree_ofBits_lt w poly

theorem ofBits_mod (bit : ℕ → Bool) : ofBits w bit %ₘ generator w poly = ofBits w bit := by
  rw [modByMonic_eq_self_iff (monic_generator w poly), degree_generator]
  exact degree_ofBits_lt w bit

theorem add_mod_mul_mod (hg : g.Monic) (a b c : (ZMod 2)[X]) :
    (a + b %ₘ g * c) %ₘ g = (a + b * c) %ₘ g := by
  apply modByMonic_eq_of_dvd_sub hg
  rw [show a + b %ₘ g * c - (a + b * c) = (b %ₘ g - b) * c by ring]
  exact Dvd.dvd.mul_right (dvd_modByMonic_sub b g) c

theorem coeff_generator (w : ℕ) (poly : ℕ → Bool) (n : ℕ) : (generator w poly).coeff n =
    if n = w then 1 else if n < w ∧ poly n then 1 else 0 := by
  rw [generator, coeff_add, coeff_X_pow, coeff_ofBits]
  by_cases hn : n = w
  · simp [hn]
  · simp [hn]

/-- One shift of the register multiplies by `X`: what falls out at the top is taken off again as a
multiple of the generator. -/
theorem ofBits_shift {bit shifted : ℕ → Bool} (hw : 0 < w)
    (hshift : ∀ n < w, shifted n = xor (decide (0 < n) && bit (n - 1)) (bit (w - 1) && poly n)) :
    ofBits w shifted = ofBits w bit * X %ₘ generator w poly := by
  have htop : ofBits w shifted + generator w poly * (if bit (w - 1) then 1 else 0) =
      ofBits w bit * X := by
    have hone : (1 : ZMod 2) + 1 = 0 := by decide
    ext n
    cases n with
    | zero =>
      rw [coeff_add, mul_coeff_zero, mul_coeff_zero, coeff_X_zero, mul_zero, coeff_ofBits,
        coeff_generator, hshift 0 hw]
      cases bit (w - 1) <;> cases poly 0 <;> simp [hw, hw.ne, hone]
    | succ n =>
      have hcoeff : (generator w poly * (if bit (w - 1) then 1 else 0)).coeff (n + 1) =
          if bit (w - 1) then (generator w poly).coeff (n + 1) else 0 := by
        cases bit (w - 1) <;> simp
      rw [coeff_add, hcoeff, coeff_mul_X, coeff_ofBits, coeff_ofBits, coeff_generator]
      rcases lt_trichotomy (n + 1) w with hlt | rfl | hlt
      · rw [hshift (n + 1) hlt]
        cases hbit : bit n <;> cases bit (w - 1) <;> cases poly (n + 1) <;>
          simp [hbit, hlt, hlt.ne, Nat.lt_of_succ_lt hlt, hone]
      · rw [Nat.add_sub_cancel]
        cases bit n <;> simp
      · have hout : ¬n < w := by omega
        simp [hout, hlt.ne', not_lt.mpr hlt.le]
  exact (div_modByMonic_unique _ _ (monic_generator w poly)
    ⟨htop, by rw [degree_generator]; exact degree_ofBits_lt w shifted⟩).2.symm

variable {σ : Type*} {bit : σ → ℕ → Bool} {shift : σ → σ}

theorem ofBits_shifts (hshift : ∀ s, ofBits w (bit (shift s)) =
      ofBits w (bit s) * X %ₘ generator w poly) (k : ℕ) (s : σ) :
    ofBits w (bit (shift^[k] s)) = ofBits w (bit s) * X ^ k %ₘ generator w poly := by
  induction k generalizing s with
  | zero => rw [Function.iterate_zero_apply, pow_zero, mul_one, ofBits_mod]
  | succ k ih =>
    have hreduce := add_mod_mul_mod (monic_generator w poly) 0 (ofBits w (bit s) * X) (X ^ k)
    rw [zero_add, zero_add] at hreduce
    rw [Function.iterate_succ_apply, ih, hshift, hreduce, mul_assoc, ← pow_succ']

/-- Bits that are added at the top, and shifted through: they count as a message behind what was
there. -/
theorem ofBits_shifts_entered (hshift : ∀ s, ofBits w (bit (shift s)) =
      ofBits w (bit s) * X %ₘ generator w poly) {bits : List Bool} (hbits : bits.length ≤ w) {s entered : σ}
    (hentered : ∀ n < w, bit entered n = xor (bit s n)
      (decide (w - bits.length ≤ n) && bits.reverse.getD (n - (w - bits.length)) false)) :
    ofBits w (bit (shift^[bits.length] entered)) =
      (ofBits w (bit s) * X ^ bits.length + message bits * X ^ w) %ₘ generator w poly := by
  have hadded : ofBits w (fun n => decide (w - bits.length ≤ n) &&
      bits.reverse.getD (n - (w - bits.length)) false) = message bits * X ^ (w - bits.length) := by
    ext n
    rw [message, coeff_ofBits, coeff_mul_X_pow', coeff_ofBits]
    by_cases hn : w - bits.length ≤ n
    · have hlt : n < w ↔ n - (w - bits.length) < bits.length := by omega
      simp [hn, hlt]
    · simp [hn]
  rw [ofBits_shifts hshift, ofBits_congr hentered, ofBits_xor, hadded, add_mul, mul_assoc, ← pow_add,
    Nat.sub_add_cancel hbits]

/-- What a register makes of some symbols, if it takes in one at a time: their remainder behind
what it held. -/
theorem ofBits_foldl {β : Type*} {step : σ → β → σ} {bits : β → List Bool}
    (hstep : ∀ s b, ofBits w (bit (step s b)) =
      (ofBits w (bit s) * X ^ (bits b).length + message (bits b) * X ^ w) %ₘ generator w poly)
    (s : σ) (data : List β) :
    ofBits w (bit (data.foldl step s)) =
      (ofBits w (bit s) * X ^ (data.flatMap bits).length + message (data.flatMap bits) * X ^ w) %ₘ
        generator w poly := by
  induction data generalizing s with
  | nil => simp [ofBits_mod]
  | cons b data ih =>
    have hreduce := add_mod_mul_mod (monic_generator w poly) (message (data.flatMap bits) * X ^ w)
      (ofBits w (bit s) * X ^ (bits b).length + message (bits b) * X ^ w)
      (X ^ (data.flatMap bits).length)
    rw [List.foldl_cons, ih, hstep, add_comm, hreduce, List.flatMap_cons, List.length_append,
      message_append]
    congr 1
    ring

end registers

section bursts

variable {w : ℕ} {poly : ℕ → Bool}

theorem coprime_generator (hw : 0 < w) (hpoly : poly 0 = true) (k : ℕ) :
    IsCoprime (generator w poly) (X ^ k) := by
  apply IsCoprime.pow_right
  refine ⟨1, -divX (generator w poly), ?_⟩
  have hzero : (generator w poly).coeff 0 = 1 := by
    rw [coeff_generator, if_neg hw.ne, if_pos ⟨hw, hpoly⟩]
  have hsplit := divX_mul_X_add (generator w poly)
  rw [hzero, map_one] at hsplit
  linear_combination -hsplit

theorem not_dvd_burst (hw : 0 < w) (hpoly : poly 0 = true) {d : (ZMod 2)[X]} (hd : d ≠ 0) {j : ℕ}
    (hburst : ∀ n, d.coeff n ≠ 0 → j ≤ n ∧ n < j + w) (k : ℕ) :
    ¬generator w poly ∣ d * X ^ k := by
  intro hdvd
  obtain ⟨b, rfl⟩ : X ^ j ∣ d := by
    rw [X_pow_dvd_iff]
    intro n hn
    by_contra hne
    exact absurd (hburst n hne).1 (by omega)
  have hb : b ≠ 0 := right_ne_zero_of_mul hd
  have hdegree : b.degree < (generator w poly).degree := by
    rw [degree_generator, degree_lt_iff_coeff_zero]
    intro n hn
    by_contra hne
    have hcoeff : (X ^ j * b).coeff (n + j) ≠ 0 := by rwa [coeff_X_pow_mul]
    exact absurd (hburst _ hcoeff).2 (by omega)
  refine (monic_generator w poly).not_dvd_of_degree_lt hb hdegree ?_
  have hcoprime := coprime_generator hw hpoly
  exact (hcoprime j).dvd_of_dvd_mul_left ((hcoprime k).dvd_of_dvd_mul_right hdvd)

/-- Two messages of one length that differ, within as many bits as the register has at most. -/
def Burst (w : ℕ) (bits bits' : List Bool) : Prop :=
  bits.length = bits'.length ∧ bits ≠ bits' ∧
    ∃ k, ∀ i, bits[i]? ≠ bits'[i]? → k ≤ i ∧ i < k + w

theorem coeff_message (bits : List Bool) {n : ℕ} (hn : n < bits.length) :
    (message bits).coeff n = if bits[bits.length - 1 - n]? = some true then 1 else 0 := by
  rw [message, coeff_ofBits, List.getD_eq_getElem?_getD, List.getElem?_reverse hn,
    List.getElem?_eq_getElem (by omega)]
  simp [hn]

theorem message_injective {bits bits' : List Bool} (hlength : bits.length = bits'.length)
    (h : message bits = message bits') : bits = bits' := by
  refine List.ext_getElem hlength fun i hi hi' => ?_
  have hcoeff := congrArg (fun p => p.coeff (bits.length - 1 - i)) h
  have hplace : bits.length - 1 - (bits.length - 1 - i) = i := by omega
  simp only [coeff_message bits (show bits.length - 1 - i < bits.length by omega),
    coeff_message bits' (show bits.length - 1 - i < bits'.length by omega), ← hlength, hplace,
    List.getElem?_eq_getElem hi, List.getElem?_eq_getElem hi', Option.some.injEq] at hcoeff
  cases hbit : bits[i] <;> cases hbit' : bits'[i] <;> simp [hbit, hbit'] at hcoeff ⊢

theorem Burst.coeff {bits bits' : List Bool} (h : Burst w bits bits') :
    message bits - message bits' ≠ 0 ∧
      ∃ j, ∀ n, (message bits - message bits').coeff n ≠ 0 → j ≤ n ∧ n < j + w := by
  obtain ⟨hlength, hne, k, hwindow⟩ := h
  have hdiffers : ∀ n, (message bits - message bits').coeff n ≠ 0 →
      n < bits.length ∧ bits[bits.length - 1 - n]? ≠ bits'[bits.length - 1 - n]? := by
    intro n hn
    by_cases hlt : n < bits.length
    · refine ⟨hlt, fun heq => hn ?_⟩
      rw [coeff_sub, coeff_message bits hlt, coeff_message bits' (hlength ▸ hlt), ← hlength, heq,
        sub_self]
    · exfalso
      apply hn
      rw [coeff_sub, message, message, coeff_ofBits, coeff_ofBits, if_neg (by omega),
        if_neg (by omega), sub_self]
  refine ⟨fun hzero => hne ?_, bits.length - (k + w), fun n hn => ?_⟩
  · exact message_injective hlength (sub_eq_zero.mp hzero)
  · obtain ⟨hlt, hdiffer⟩ := hdiffers n hn
    have hinside := hwindow _ hdiffer
    omega

end bursts

section parameters

/-- The parameters that a check is known by. The initial value and the generator are given with
the coefficient of the highest degree at the top; a reflected check takes in the lowest bit of a
byte first, and gives its remainder the other way round. -/
structure Parameters where
  width : ℕ
  poly : ℕ
  init : ℕ
  reflected : Bool
  xorOut : ℕ

namespace Parameters

variable (p : Parameters)

/-- The bits of a byte in the order in which they are taken in. -/
def byteBits (b : UInt8) : List Bool :=
  (List.range 8).map fun i => b.toNat.testBit (if p.reflected then i else 7 - i)

def bits (data : List UInt8) : List Bool := data.flatMap p.byteBits

/-- Which bit of the value a coefficient goes to, and comes from. -/
def place (i : ℕ) : ℕ := if p.reflected then p.width - 1 - i else i

/-- The message behind the initial value, reduced by the generator. -/
noncomputable def remainder (data : List UInt8) : (ZMod 2)[X] :=
  (ofBits p.width p.init.testBit * X ^ (p.bits data).length + message (p.bits data) * X ^ p.width) %ₘ
    generator p.width p.poly.testBit

/-- Bit `i` of the check value. -/
noncomputable def bit (data : List UInt8) (i : ℕ) : Bool :=
  xor (decide ((p.remainder data).coeff (p.place i) = 1)) (p.xorOut.testBit i)

variable {p}

theorem length_byteBits (b : UInt8) : (p.byteBits b).length = 8 := by simp [byteBits]

theorem degree_remainder_lt (data : List UInt8) : (p.remainder data).degree < p.width := by
  rw [← degree_generator p.width p.poly.testBit]
  exact degree_modByMonic_lt _ (monic_generator p.width p.poly.testBit)

theorem remainder_burst (hw : 0 < p.width) (hpoly : p.poly.testBit 0 = true) {data data' : List UInt8}
    (h : Burst p.width (p.bits data) (p.bits data')) : p.remainder data ≠ p.remainder data' := by
  intro heq
  obtain ⟨hdiffer, j, hburst⟩ := h.coeff
  refine not_dvd_burst hw hpoly hdiffer hburst p.width ?_
  rw [remainder, remainder, ← h.1, ← sub_eq_zero, ← sub_modByMonic,
    modByMonic_eq_zero_iff_dvd (monic_generator p.width p.poly.testBit)] at heq
  rw [sub_mul]
  convert heq using 1
  ring

theorem place_lt {n : ℕ} (hn : n < p.width) : p.place n < p.width := by
  unfold place
  split_ifs <;> omega

theorem place_place {n : ℕ} (hn : n < p.width) : p.place (p.place n) = n := by
  unfold place
  split_ifs
  · omega
  · rfl

theorem remainder_eq_of_bits {data data' : List UInt8}
    (h : ∀ i < p.width, p.bit data i = p.bit data' i) : p.remainder data = p.remainder data' := by
  ext n
  by_cases hn : n < p.width
  · have hbit := h (p.place n) (place_lt hn)
    rw [bit, bit, place_place hn, Bool.xor_left_inj, decide_eq_decide] at hbit
    generalize (p.remainder data).coeff n = a at hbit
    generalize (p.remainder data').coeff n = b at hbit
    revert a b
    decide
  · have hout := fun data => coeff_eq_zero_of_degree_lt
      (lt_of_lt_of_le (degree_remainder_lt data) (Nat.cast_le.mpr (not_lt.mp hn)))
    rw [hout, hout]

end Parameters

end parameters

end Lib.Crc
