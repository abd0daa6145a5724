import PicoFramework.Lib.Bits
import PicoFramework.Lib.Truncation
import PicoFramework.Spec.Vl53l0x

/-! The timeout registers: one less than the timeout, cut off after its first eight digits. -/

namespace Pico

open Lib.Bits Lib.Truncation

section encoding

theorem and_high_eq_zero_iff (mantissa : UInt32) :
    mantissa &&& 0xFFFFFF00 = 0 ↔ mantissa.toNat < 256 := by
  constructor
  · intro hhigh
    have hall : mantissa &&& (0xFFFFFF00 ||| 0xFF) =
        (mantissa &&& 0xFFFFFF00) ||| (mantissa &&& 0xFF) := and_or _ _ _
    have hlow : mantissa = mantissa &&& 0xFF := by
      rw [hhigh, UInt32.zero_or] at hall
      exact UInt32.and_neg_one.symm.trans hall
    rw [hlow, toNat_and_low mantissa 8 rfl]
    exact Nat.mod_lt _ (by decide)
  · intro hsmall
    have hlow : mantissa &&& 0xFF = mantissa := and_low_of_lt 8 rfl hsmall
    rw [← hlow, UInt32.and_assoc]
    exact UInt32.and_zero

theorem fitMantissa_eq (mantissa : UInt32) (exponent : UInt8) :
    (fitMantissa mantissa exponent).1.toNat = significand 8 mantissa.toNat ∧
      (fitMantissa mantissa exponent).2 =
        exponent + UInt8.ofNat (Lib.Truncation.exponent 8 mantissa.toNat) := by
  induction mantissa, exponent using fitMantissa.induct with
  | case1 mantissa exponent hhigh ih =>
    have hlarge : 2 ^ 8 ≤ mantissa.toNat := not_lt.mp (mt (and_high_eq_zero_iff mantissa).mpr hhigh)
    obtain ⟨hexponent, hsignificand⟩ := parts_half (by decide : 0 < 8) hlarge
    have hhalf : (mantissa >>> 1).toNat = mantissa.toNat / 2 := toNat_shiftRight mantissa 1 rfl
    rw [hhalf] at ih
    rw [fitMantissa, if_pos hhigh]
    refine ⟨ih.1.trans hsignificand, ?_⟩
    rw [ih.2, hexponent, UInt8.ofNat_add, UInt8.add_assoc, UInt8.add_comm 1]
    rfl
  | case2 mantissa exponent hhigh =>
    have hsmall : mantissa.toNat < 2 ^ 8 := (and_high_eq_zero_iff mantissa).mp (not_not.mp hhigh)
    obtain ⟨hexponent, hsignificand⟩ := parts_small hsmall
    rw [fitMantissa, if_neg hhigh, hexponent, hsignificand]
    exact ⟨rfl, (UInt8.add_zero exponent).symm⟩

variable {timeout : UInt32} {register : UInt16}

theorem register_parts (mantissa : UInt32) (exponent : UInt8) (h : mantissa.toNat < 256) :
    ((exponent.toUInt16 <<< 8) ||| (mantissa &&& 0xFF).toUInt16).toNat =
      exponent.toNat * 256 + mantissa.toNat := by
  have hlow : mantissa &&& 0xFF = mantissa := and_low_of_lt 8 rfl h
  have hexponent := exponent.toNat_lt
  have hshift : (exponent.toUInt16 <<< 8).toNat = exponent.toNat * 2 ^ 8 := by
    rw [UInt16.toNat_shiftLeft, UInt8.toNat_toUInt16, Nat.shiftLeft_eq]
    change exponent.toNat * 2 ^ 8 % 2 ^ 16 = _
    omega
  have hmantissa : mantissa.toUInt16.toNat = mantissa.toNat := by
    rw [UInt32.toNat_toUInt16]
    omega
  rw [hlow, UInt16.toNat_or, hshift, hmantissa]
  exact or_eq_add 8 (Nat.dvd_mul_left _ _) h

theorem exponent_le {m : ℕ} (h : m < 2 ^ 32) : Lib.Truncation.exponent 8 m ≤ 24 := by
  have hsize := Nat.size_le.mpr h
  unfold Lib.Truncation.exponent
  omega

theorem encodeTimeout_toNat (h : timeout ≠ 0) :
    (vl53l0xEncodeTimeout timeout).toNat =
      Lib.Truncation.exponent 8 (timeout.toNat - 1) * 256 + significand 8 (timeout.toNat - 1) := by
  have hone : (1 : UInt32) ≤ timeout := by
    rw [UInt32.le_iff_toNat_le]
    exact Nat.pos_of_ne_zero fun hzero => h (UInt32.toNat_inj.mp hzero)
  have hless : (timeout - 1).toNat = timeout.toNat - 1 := UInt32.toNat_sub_of_le _ _ hone
  obtain ⟨hmantissa, hexponent⟩ := fitMantissa_eq (timeout - 1) 0
  have hsmall := significand_lt 8 (timeout - 1).toNat
  have hle := exponent_le (timeout - 1).toNat_lt
  rw [vl53l0xEncodeTimeout, if_neg h]
  dsimp only
  rw [register_parts _ _ (hmantissa ▸ hsmall), hmantissa, hexponent, UInt8.zero_add,
    UInt8.toNat_ofNat', Nat.mod_eq_of_lt (by omega), hless]

theorem decodeTimeout_toNat (hexponent : register.toNat / 256 ≤ 24) :
    (vl53l0xDecodeTimeout register).toNat =
      register.toNat % 256 * 2 ^ (register.toNat / 256) + 1 := by
  have hlt := register.toNat_lt
  have hlow : (register &&& 0x00FF).toUInt32.toNat = register.toNat % 256 := by
    rw [UInt16.toNat_toUInt32, UInt16.toNat_and]
    exact Nat.and_two_pow_sub_one_eq_mod _ 8
  have hhigh : ((register &&& 0xFF00) >>> 8).toUInt32.toNat = register.toNat / 256 := by
    rw [UInt16.toNat_toUInt32, UInt16.toNat_shiftRight, UInt16.toNat_and]
    change (register.toNat &&& 0xFF00) >>> 8 = _
    rw [Nat.shiftRight_and_distrib]
    change register.toNat >>> 8 &&& 2 ^ 8 - 1 = _
    rw [Nat.and_two_pow_sub_one_eq_mod, Nat.shiftRight_eq_div_pow]
    omega
  have hmax : register.toNat % 256 * 2 ^ (register.toNat / 256) ≤ 255 * 2 ^ 24 :=
    Nat.mul_le_mul (by omega) (Nat.pow_le_pow_right two_pos hexponent)
  unfold vl53l0xDecodeTimeout
  dsimp only
  rw [UInt32.toNat_add, UInt32.toNat_shiftLeft, hlow, hhigh, UInt32.toNat_one, Nat.shiftLeft_eq,
    Nat.mod_eq_of_lt (by omega : register.toNat / 256 < 32)]
  omega

end encoding

section roundtrip

theorem decode_encode_toNat (timeout : UInt32) :
    (vl53l0xDecodeTimeout (vl53l0xEncodeTimeout timeout)).toNat =
      truncate 8 (timeout.toNat - 1) + 1 := by
  by_cases hzero : timeout = 0
  · rw [hzero, vl53l0xEncodeTimeout, if_pos rfl]
    rfl
  have hregister := encodeTimeout_toNat hzero
  have hsmall := significand_lt 8 (timeout.toNat - 1)
  have hle : Lib.Truncation.exponent 8 (timeout.toNat - 1) ≤ 24 :=
    exponent_le ((Nat.sub_le _ _).trans_lt timeout.toNat_lt)
  have hhigh : (vl53l0xEncodeTimeout timeout).toNat / 256 =
      Lib.Truncation.exponent 8 (timeout.toNat - 1) := by omega
  have hlow : (vl53l0xEncodeTimeout timeout).toNat % 256 = significand 8 (timeout.toNat - 1) := by
    omega
  rw [decodeTimeout_toNat (by omega), hhigh, hlow]
  rfl

/-- The first digit of a register's mantissa is set, or it needs no exponent. -/
def Canonical (register : UInt16) : Prop :=
  128 ≤ register.toNat % 256 ∨ register.toNat / 256 = 0

theorem encode_decode {register : UInt16} (hcanonical : Canonical register)
    (hexponent : register.toNat / 256 ≤ 24) :
    vl53l0xEncodeTimeout (vl53l0xDecodeTimeout register) = register := by
  have hdecoded := decodeTimeout_toNat hexponent
  have hne : vl53l0xDecodeTimeout register ≠ 0 := by
    intro hzero
    rw [hzero, UInt32.toNat_zero] at hdecoded
    exact absurd hdecoded (Nat.succ_ne_zero _).symm
  have hparts : Lib.Truncation.exponent 8 (register.toNat % 256 * 2 ^ (register.toNat / 256)) =
        register.toNat / 256 ∧
      significand 8 (register.toNat % 256 * 2 ^ (register.toNat / 256)) = register.toNat % 256 := by
    have hlt : register.toNat % 256 < 2 ^ 8 := Nat.mod_lt _ (by decide)
    rcases hcanonical with hfirst | hwhole
    · exact parts_scaled (by decide) hfirst hlt
    · rw [hwhole, pow_zero, Nat.mul_one]
      exact parts_small hlt
  apply UInt16.toNat_inj.mp
  rw [encodeTimeout_toNat hne, hdecoded, Nat.add_sub_cancel, hparts.1, hparts.2]
  exact Nat.div_add_mod' _ _

/-- A timeout comes back as no more than it is, and less by under a 128th; encoding keeps the order;
and the registers that encoding yields come back as they are. -/
theorem vl53l0x_timeout_roundtrip :
    (∀ timeout : UInt32, 1 ≤ timeout →
      let decoded := vl53l0xDecodeTimeout (vl53l0xEncodeTimeout timeout)
      decoded ≤ timeout ∧ 128 * (timeout.toNat - decoded.toNat) < timeout.toNat ∧
        (timeout ≤ 256 → decoded = timeout)) ∧
    (∀ x y : UInt32, x ≤ y →
      vl53l0xDecodeTimeout (vl53l0xEncodeTimeout x) ≤
        vl53l0xDecodeTimeout (vl53l0xEncodeTimeout y)) ∧
    ∀ register : UInt16, Canonical register → register.toNat / 256 ≤ 24 →
      vl53l0xEncodeTimeout (vl53l0xDecodeTimeout register) = register := by
  refine ⟨fun timeout hone => ?_, fun x y hxy => ?_, fun _ => encode_decode⟩
  · have hdecoded := decode_encode_toNat timeout
    have hle := truncate_le 8 (timeout.toNat - 1)
    have herror := truncate_error (by decide : 0 < 8) (timeout.toNat - 1)
    rw [UInt32.le_iff_toNat_le, UInt32.toNat_one] at hone
    refine ⟨?_, ?_, fun hsmall => ?_⟩
    · rw [UInt32.le_iff_toNat_le, hdecoded]
      omega
    · rw [hdecoded]
      norm_num at herror
      omega
    · rw [UInt32.le_iff_toNat_le] at hsmall
      change timeout.toNat ≤ 256 at hsmall
      apply UInt32.toNat_inj.mp
      rw [hdecoded, truncate_eq_self (by omega : timeout.toNat - 1 < 2 ^ 8)]
      omega
  · rw [UInt32.le_iff_toNat_le] at hxy
    rw [UInt32.le_iff_toNat_le, decode_encode_toNat, decode_encode_toNat]
    exact Nat.succ_le_succ (truncate_mono (by decide) (Nat.sub_le_sub_right hxy 1))

end roundtrip

end Pico
