import Mathlib.Data.Nat.Bitwise
import PicoFramework.Lib.Crc
import PicoFramework.Spec.Crc

/-! Both checks are those that their parameters name, however the data come in pieces. -/

namespace Pico

open Lib.Crc Polynomial

section law

/-- What a running check with these parameters does. -/
structure CrcLaw {σ : Type} (p : Parameters) (value : σ → ℕ) (start : σ) (update : σ → Bytes → σ)
    (finish : σ → σ) : Prop where
  /-- A state goes over any pieces as over the whole. -/
  piecewise : ∀ (state : σ) (pieces : List Bytes),
    pieces.foldl update state = update state pieces.flatten
  /-- The value is the remainder of the message by the generator. -/
  remainder : ∀ data, ∀ i < p.width,
    (value (finish (update start data))).testBit i = p.bit data i
  bursts : ∀ data data', Burst p.width (p.bits data) (p.bits data') →
    finish (update start data) ≠ finish (update start data')

variable {σ : Type} {p : Parameters} {value : σ → ℕ} {start : σ} {enter : σ → UInt8 → σ}
  {shift finish : σ → σ}

/-- A register that takes in bytes as the parameters say: the byte is added at the top, and eight
shifts reduce it. -/
theorem crcLaw_of_register (hw : 8 ≤ p.width) (hpoly : p.poly.testBit 0 = true)
    (hstart : ∀ i < p.width, (value start).testBit (p.place i) = p.init.testBit i)
    (hfinish : ∀ s, ∀ i < p.width,
      (value (finish s)).testBit i = xor ((value s).testBit i) (p.xorOut.testBit i))
    (hshift : ∀ s, ∀ n < p.width, (value (shift s)).testBit (p.place n) =
      xor (decide (0 < n) && (value s).testBit (p.place (n - 1)))
        ((value s).testBit (p.place (p.width - 1)) && p.poly.testBit n))
    (henter : ∀ s b, ∀ n < p.width, (value (enter s b)).testBit (p.place n) =
      xor ((value s).testBit (p.place n)) (decide (p.width - 8 ≤ n) &&
        (p.byteBits b).reverse.getD (n - (p.width - 8)) false)) :
    CrcLaw p value start (fun state data => data.foldl (fun s b => shift^[8] (enter s b)) state)
      finish := by
  have hmultiplied : ∀ s, ofBits p.width (fun i => (value (shift s)).testBit (p.place i)) =
      ofBits p.width (fun i => (value s).testBit (p.place i)) * X %ₘ
        generator p.width p.poly.testBit := fun s =>
    ofBits_shift (by omega) (hshift s)
  have hstep : ∀ s b,
      ofBits p.width (fun i => (value (shift^[8] (enter s b))).testBit (p.place i)) =
      (ofBits p.width (fun i => (value s).testBit (p.place i)) * X ^ (p.byteBits b).length +
        message (p.byteBits b) * X ^ p.width) %ₘ generator p.width p.poly.testBit := by
    intro s b
    have hlength : (p.byteBits b).length = 8 := Parameters.length_byteBits b
    have hentered := henter s b
    rw [← hlength] at hentered ⊢
    exact @ofBits_shifts_entered _ _ _ (fun s i => (value s).testBit (p.place i)) _ hmultiplied _
      (hlength ▸ hw) _ _ hentered
  have hrun : ∀ data : Bytes,
      ofBits p.width (fun i => (value (data.foldl (fun s b => shift^[8] (enter s b)) start)).testBit
        (p.place i)) =
        p.remainder data := by
    intro data
    have hinit : ofBits p.width (fun i => (value start).testBit (p.place i)) =
        ofBits p.width p.init.testBit := ofBits_congr hstart
    rw [Parameters.remainder, Parameters.bits, ← hinit]
    exact @ofBits_foldl _ _ _ (fun s i => (value s).testBit (p.place i)) _ _ _ hstep start data
  have hremainder : ∀ data : Bytes, ∀ i < p.width,
      (value (finish (data.foldl (fun s b => shift^[8] (enter s b)) start))).testBit i =
        p.bit data i := by
    intro data i hi
    have hcoeff : (p.remainder data).coeff (p.place i) =
        if (value (data.foldl (fun s b => shift^[8] (enter s b)) start)).testBit i then 1 else 0 := by
      rw [← hrun, coeff_ofBits, Parameters.place_place hi]
      simp [Parameters.place_lt hi]
    rw [hfinish _ i hi, Parameters.bit, hcoeff]
    cases (value (data.foldl (fun s b => shift^[8] (enter s b)) start)).testBit i <;> rfl
  refine ⟨fun state pieces => List.foldl_flatten.symm, hremainder, fun data data' hburst heq => ?_⟩
  refine Parameters.remainder_burst (by omega) hpoly hburst (Parameters.remainder_eq_of_bits fun i hi => ?_)
  rw [← hremainder data i hi, ← hremainder data' i hi, heq]

end law

section crc32

/-- IEEE 802.3. -/
def crc32Parameters : Parameters := ⟨32, 0x04C11DB7, 0xFFFFFFFF, true, 0xFFFFFFFF⟩

theorem crc32_poly : ∀ n < 32, (0xEDB88320 : ℕ).testBit (31 - n) = (0x04C11DB7 : ℕ).testBit n := by
  decide

theorem and_one_ne_zero (s : UInt32) : s &&& 1 ≠ 0 ↔ s.toNat.testBit 0 = true := by
  rw [ne_eq, ← UInt32.toNat_inj, UInt32.toNat_and, Nat.testBit_zero, decide_eq_true_eq]
  change ¬s.toNat &&& 1 = 0 ↔ _
  rw [Nat.and_one_is_mod]
  omega

theorem crc32Bit_testBit (s : UInt32) {n : ℕ} (hn : n < 32) :
    (crc32Bit s).toNat.testBit (31 - n) =
      xor (decide (0 < n) && s.toNat.testBit (31 - (n - 1)))
        (s.toNat.testBit 0 && (0x04C11DB7 : ℕ).testBit n) := by
  have hshift : (s >>> 1).toNat.testBit (31 - n) =
      (decide (0 < n) && s.toNat.testBit (31 - (n - 1))) := by
    rw [UInt32.toNat_shiftRight]
    change (s.toNat >>> 1).testBit (31 - n) = _
    rw [Nat.testBit_shiftRight]
    rcases Nat.eq_zero_or_pos n with rfl | hpos
    · exact Nat.testBit_lt_two_pow s.toNat_lt
    · rw [show 1 + (31 - n) = 31 - (n - 1) by omega, decide_eq_true hpos, Bool.true_and]
  unfold crc32Bit
  by_cases hlow : s &&& 1 ≠ 0
  · rw [if_pos hlow, UInt32.toNat_xor, Nat.testBit_xor, hshift, (and_one_ne_zero s).mp hlow,
      Bool.true_and, ← crc32_poly n hn]
    rfl
  · have hclear : s.toNat.testBit 0 = false := by
      rwa [and_one_ne_zero, Bool.not_eq_true] at hlow
    rw [if_neg hlow, hshift, hclear, Bool.false_and, Bool.xor_false]

theorem getD_byteBits (p : Parameters) (b : UInt8) {m : ℕ} (hm : m < 8) :
    (p.byteBits b).reverse.getD m false =
      b.toNat.testBit (if p.reflected then 7 - m else m) := by
  rw [List.getD_eq_getElem?_getD, List.getElem?_reverse (by rwa [Parameters.length_byteBits]),
    Parameters.length_byteBits, Parameters.byteBits, List.getElem?_map,
    List.getElem?_range (by omega)]
  dsimp only [Option.map_some, Option.getD_some]
  split_ifs
  · rfl
  · congr 1
    omega

theorem crc32_law : CrcLaw crc32Parameters UInt32.toNat crc32Begin crc32Update crc32End := by
  refine @crcLaw_of_register _ _ _ _ (fun s b => s ^^^ b.toUInt32) crc32Bit _ (by decide)
    (by decide) ?_ ?_ ?_ ?_
  · decide
  · intro s i hi
    rw [crc32End, UInt32.toNat_xor, Nat.testBit_xor]
    rfl
  · intro s n hn
    exact crc32Bit_testBit s hn
  · intro s b n hn
    rw [UInt32.toNat_xor, Nat.testBit_xor, UInt8.toNat_toUInt32]
    congr 1
    change b.toNat.testBit (31 - n) = (decide (24 ≤ n) &&
      (crc32Parameters.byteBits b).reverse.getD (n - 24) false)
    have hn : n < 32 := hn
    by_cases htop : 24 ≤ n
    · rw [getD_byteBits _ _ (by omega), decide_eq_true htop, Bool.true_and]
      change _ = b.toNat.testBit (7 - (n - 24))
      rw [show 7 - (n - 24) = 31 - n by omega]
    · rw [decide_eq_false htop, Bool.false_and]
      exact Nat.testBit_lt_two_pow (lt_of_lt_of_le b.toNat_lt (Nat.pow_le_pow_right (by decide) (by omega)))

end crc32

section crc16

/-- CRC-16/CCITT-FALSE. -/
def crc16CcittParameters : Parameters := ⟨16, 0x1021, 0xFFFF, false, 0⟩

theorem and_high_ne_zero (s : UInt16) : s &&& 0x8000 ≠ 0 ↔ s.toNat.testBit 15 = true := by
  have hlt := s.toNat_lt
  rw [ne_eq, ← UInt16.toNat_inj, UInt16.toNat_and]
  change ¬s.toNat &&& 2 ^ 15 = 0 ↔ _
  rw [Nat.and_two_pow]
  cases s.toNat.testBit 15 <;> simp

theorem crc16CcittBit_testBit (s : UInt16) {n : ℕ} (hn : n < 16) :
    (crc16CcittBit s).toNat.testBit n =
      xor (decide (0 < n) && s.toNat.testBit (n - 1))
        (s.toNat.testBit 15 && (0x1021 : ℕ).testBit n) := by
  have hshift : (s <<< 1).toNat.testBit n = (decide (0 < n) && s.toNat.testBit (n - 1)) := by
    rw [UInt16.toNat_shiftLeft]
    change (s.toNat <<< 1 % 2 ^ 16).testBit n = _
    rw [Nat.testBit_mod_two_pow, decide_eq_true hn, Bool.true_and, Nat.testBit_shiftLeft]
    rfl
  unfold crc16CcittBit
  by_cases hhigh : s &&& 0x8000 ≠ 0
  · rw [if_pos hhigh, UInt16.toNat_xor, Nat.testBit_xor, hshift, (and_high_ne_zero s).mp hhigh,
      Bool.true_and]
    rfl
  · have hclear : s.toNat.testBit 15 = false := by
      rwa [and_high_ne_zero, Bool.not_eq_true] at hhigh
    rw [if_neg hhigh, hshift, hclear, Bool.false_and, Bool.xor_false]

theorem crc16_law : CrcLaw crc16CcittParameters UInt16.toNat crc16CcittBegin crc16CcittUpdate
    crc16CcittEnd := by
  refine @crcLaw_of_register _ _ _ _ (fun s b => s ^^^ (b.toUInt16 <<< 8)) crc16CcittBit _ (by decide)
    (by decide) ?_ ?_ ?_ ?_
  · decide
  · intro s i hi
    rw [crc16CcittEnd, show crc16CcittParameters.xorOut = 0 from rfl, Nat.zero_testBit,
      Bool.xor_false]
  · intro s n hn
    exact crc16CcittBit_testBit s hn
  · intro s b n hn
    rw [UInt16.toNat_xor, Nat.testBit_xor]
    congr 1
    have hb := b.toNat_lt
    have hn : n < 16 := hn
    have hplaced : (b.toUInt16 <<< 8).toNat = b.toNat <<< 8 := by
      rw [UInt16.toNat_shiftLeft, UInt8.toNat_toUInt16]
      change b.toNat <<< 8 % 2 ^ 16 = _
      rw [Nat.shiftLeft_eq, Nat.mod_eq_of_lt (by omega)]
    rw [hplaced, Nat.testBit_shiftLeft]
    change (decide (n ≥ 8) && b.toNat.testBit (n - 8)) = (decide (8 ≤ n) &&
      (crc16CcittParameters.byteBits b).reverse.getD (n - 8) false)
    by_cases htop : 8 ≤ n
    · rw [getD_byteBits _ _ (by omega)]
      rfl
    · rw [decide_eq_false htop, Bool.false_and]
      rfl

end crc16

/-- Both checks: over any pieces as over the whole, the remainder that their parameters name, and
no burst of as many bits as the check has goes unnoticed. -/
theorem crc_polynomial :
    CrcLaw crc32Parameters UInt32.toNat crc32Begin crc32Update crc32End ∧
    (∀ data, crc32 data = crc32End (crc32Update crc32Begin data)) ∧
    CrcLaw crc16CcittParameters UInt16.toNat crc16CcittBegin crc16CcittUpdate crc16CcittEnd ∧
    ∀ data, crc16Ccitt data = crc16CcittEnd (crc16CcittUpdate crc16CcittBegin data) :=
  ⟨crc32_law, fun _ => rfl, crc16_law, fun _ => rfl⟩

end Pico
