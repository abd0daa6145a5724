import Mathlib.Data.Nat.Bitwise
import Mathlib.Tactic

/-! Words taken apart by masks: what a mask keeps of a combination of words, and fields of a word
as numbers. -/

namespace Lib.Bits

theorem forall_byte {P : UInt8 → Prop}
    (h : ∀ high < 16, ∀ low < 16, P (UInt8.ofNat (16 * high + low))) (c : UInt8) : P c := by
  have hlt := c.toNat_lt
  have hc := h (c.toNat / 16) (by omega) (c.toNat % 16) (by omega)
  rwa [Nat.div_add_mod, UInt8.ofNat_toNat] at hc

section masks

variable (x y a b m : UInt32)

theorem and_or : x &&& (a ||| b) = (x &&& a) ||| (x &&& b) := by
  apply UInt32.toBitVec_inj.mp
  exact BitVec.and_or_distrib_left

theorem or_and : (x ||| y) &&& m = (x &&& m) ||| (y &&& m) := by
  apply UInt32.toBitVec_inj.mp
  exact BitVec.and_or_distrib_right

theorem xor_and : (x ^^^ y) &&& m = (x &&& m) ^^^ (y &&& m) := by
  apply UInt32.toBitVec_inj.mp
  ext i hi
  simp only [UInt32.toBitVec_and, UInt32.toBitVec_xor, BitVec.getElem_and, BitVec.getElem_xor,
    Bool.and_xor_distrib_right]

theorem xor_masked : (x ^^^ (y &&& b)) &&& (m &&& b) = ((x ^^^ y) &&& m) &&& b := by
  apply UInt32.toBitVec_inj.mp
  ext i hi
  simp only [UInt32.toBitVec_and, UInt32.toBitVec_xor, BitVec.getElem_and, BitVec.getElem_xor]
  cases x.toBitVec[i] <;> cases y.toBitVec[i] <;> cases m.toBitVec[i] <;>
    cases b.toBitVec[i] <;> rfl

theorem and_masked : (x &&& b) &&& (m &&& b) = (x &&& m) &&& b := by
  rw [UInt32.and_assoc x b, UInt32.and_comm b, UInt32.and_assoc m b b, UInt32.and_self,
    UInt32.and_assoc]

variable {x y a b m}

theorem masked_eq_iff : x &&& m = y &&& m ↔ (x ^^^ y) &&& m = 0 := by
  rw [xor_and, UInt32.xor_eq_zero_iff]

theorem eq_zero_iff_parts (h : a ||| b = -1) : x = 0 ↔ x &&& a = 0 ∧ x &&& b = 0 := by
  rw [← UInt32.or_eq_zero_iff, ← and_or, h, UInt32.and_neg_one]

theorem masked_congr {c : UInt32} (h : x &&& b = y &&& b) :
    ((x ^^^ c) &&& m) &&& b = ((y ^^^ c) &&& m) &&& b := by
  have hxor : (x ^^^ c) &&& b = (y ^^^ c) &&& b := by rw [xor_and, xor_and, h]
  rw [UInt32.and_assoc, UInt32.and_comm m, ← UInt32.and_assoc, hxor, UInt32.and_assoc,
    UInt32.and_comm b, ← UInt32.and_assoc]

theorem and_bit (x : UInt32) {b : UInt32} (k : ℕ) (hb : b.toNat = 2 ^ k) :
    x &&& b = 0 ∨ x &&& b = b := by
  rw [← UInt32.toNat_inj, ← UInt32.toNat_inj, UInt32.toNat_and, hb, Nat.and_two_pow]
  cases x.toNat.testBit k with
  | false => exact .inl (Nat.zero_mul _)
  | true => exact .inr (Nat.one_mul _)

end masks

section bytes

variable {x bits field : UInt8}

theorem set_apart (h : bits &&& field = 0) : (x ||| bits) &&& field = x &&& field := by
  have hor : (x ||| bits) &&& field = (x &&& field) ||| (bits &&& field) :=
    UInt8.toBitVec_inj.mp BitVec.and_or_distrib_right
  rw [hor, h, UInt8.or_zero]

theorem clear_apart (h : bits &&& field = 0) :
    (x &&& ~~~bits ||| (0 &&& bits)) &&& field = x &&& field := by
  have hall : (bits ||| ~~~bits) &&& field = (bits &&& field) ||| (~~~bits &&& field) :=
    UInt8.toBitVec_inj.mp BitVec.and_or_distrib_right
  rw [UInt8.or_not_self, UInt8.neg_one_and, h, UInt8.zero_or] at hall
  rw [UInt8.zero_and, UInt8.or_zero, UInt8.and_assoc, ← hall]

end bytes

section fields

theorem or_eq_add {a b : ℕ} (k : ℕ) (ha : 2 ^ k ∣ a) (hb : b < 2 ^ k) : a ||| b = a + b := by
  obtain ⟨c, rfl⟩ := ha
  exact (Nat.two_pow_add_eq_or_of_lt hb c).symm

theorem toNat_and_low (x : UInt32) {m : UInt32} (k : ℕ) (hm : m.toNat = 2 ^ k - 1) :
    (x &&& m).toNat = x.toNat % 2 ^ k := by
  rw [UInt32.toNat_and, hm, Nat.and_two_pow_sub_one_eq_mod]

theorem and_low_of_lt {x m : UInt32} (k : ℕ) (hm : m.toNat = 2 ^ k - 1) (hx : x.toNat < 2 ^ k) :
    x &&& m = x := by
  apply UInt32.toNat_inj.mp
  rw [toNat_and_low x k hm, Nat.mod_eq_of_lt hx]

/-- The bits of a word from the `n`-th on. -/
theorem toNat_shiftRight (x : UInt32) {k : UInt32} (n : ℕ) (hk : k.toNat % 32 = n) :
    (x >>> k).toNat = x.toNat / 2 ^ n := by
  rw [UInt32.toNat_shiftRight, hk, Nat.shiftRight_eq_div_pow]

theorem toNat_join {x y k : UInt32} (n : ℕ) (hk : k.toNat % 32 = n)
    (hx : x.toNat * 2 ^ n < 2 ^ 32) (hy : y.toNat < 2 ^ n) :
    ((x <<< k) ||| y).toNat = x.toNat * 2 ^ n + y.toNat := by
  rw [UInt32.toNat_or, UInt32.toNat_shiftLeft, hk, Nat.shiftLeft_eq, Nat.mod_eq_of_lt hx,
    or_eq_add n (Nat.dvd_mul_left _ _) hy]

end fields

end Lib.Bits
