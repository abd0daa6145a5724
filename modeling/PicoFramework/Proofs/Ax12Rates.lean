import PicoFramework.Lib.Nearest
import PicoFramework.Lib.Rounding
import PicoFramework.Spec.Ax12

/-! Which register value is picked for a rate. The divisor is rounded, so that the boundary between
two values is not the midpoint of their rates. -/

namespace Pico

open Lib.Nearest Lib.Rounding

section rates

variable {value : UInt8} {rate : UInt32}

/-- A value that the register takes. -/
def IsBaudValue (value : UInt8) : Prop :=
  AX12_BAUD_VALUE_MIN ≤ value.toNat ∧ value.toNat ≤ AX12_BAUD_VALUE_MAX

/-- How far the rate of a value is from the one asked for. -/
def rateError (value : UInt8) (rate : UInt32) : ℤ :=
  |((ax12BaudValueToRate value).toNat : ℤ) - rate.toNat|

def WithinTolerance (value : UInt8) (rate : UInt32) : Prop :=
  rateError value rate * 100 ≤ rate.toNat * 3

/-- The rate that a divisor of the clock gives. -/
def exactRate (value : ℕ) : ℕ := AX12_BAUD_CLOCK / (value + 1)

theorem baudValueToRate_toNat (h : IsBaudValue value) :
    (ax12BaudValueToRate value).toNat = exactRate value.toNat := by
  have hlt : AX12_BAUD_CLOCK / (value.toNat + 1) < 2 ^ 32 :=
    (Nat.div_le_self _ _).trans_lt (by decide)
  rw [ax12BaudValueToRate, if_neg (not_lt.mpr h.1), if_neg (not_lt.mpr h.2), UInt32.toNat_ofNat',
    Nat.mod_eq_of_lt hlt, exactRate]

theorem exactRate_ge {value : ℕ} (h : value ≤ AX12_BAUD_VALUE_MAX) : 7843 ≤ exactRate value := by
  have hle : AX12_BAUD_CLOCK / (AX12_BAUD_VALUE_MAX + 1) ≤ AX12_BAUD_CLOCK / (value + 1) :=
    Nat.div_le_div_left (Nat.add_le_add_right h 1) (Nat.succ_pos value)
  exact le_trans (by decide) hle

theorem exactRate_le {value : ℕ} (h : AX12_BAUD_VALUE_MIN ≤ value) : exactRate value ≤ 1000000 := by
  have hle : AX12_BAUD_CLOCK / (value + 1) ≤ AX12_BAUD_CLOCK / (AX12_BAUD_VALUE_MIN + 1) :=
    Nat.div_le_div_left (Nat.add_le_add_right h 1) (Nat.succ_pos _)
  exact hle.trans (by decide)

theorem exactRate_strictAntiOn :
    StrictAntiOn (fun value => (exactRate value : ℤ))
      (Set.Icc AX12_BAUD_VALUE_MIN AX12_BAUD_VALUE_MAX) := by
  rintro u ⟨-, hu⟩ v ⟨-, hv⟩ huv
  have hlarge := exactRate_ge hv
  have hmul : exactRate v * (v + 1) ≤ AX12_BAUD_CLOCK := Nat.div_mul_le_self _ _
  have hnext : exactRate v * (u + 1) + exactRate v ≤ exactRate v * (v + 1) := by
    rw [← Nat.mul_succ]
    exact Nat.mul_le_mul_left _ (Nat.succ_le_succ huv)
  have hlt : exactRate v < exactRate u := by
    refine (Nat.le_div_iff_mul_le (Nat.succ_pos u)).mpr ?_
    rw [Nat.succ_mul, Nat.succ_eq_add_one]
    rw [AX12_BAUD_VALUE_MAX] at hu
    omega
  exact Nat.cast_lt.mpr hlt

end rates

section picking

variable {rate : UInt32}

/-- The divisor, which is rounded to the nearest. -/
def baudDivisor (rate : UInt32) : ℕ := (AX12_BAUD_CLOCK + rate.toNat / 2) / rate.toNat

theorem wrap32_dividend (rate : UInt32) :
    wrap32 (AX12_BAUD_CLOCK + rate.toNat / 2) = AX12_BAUD_CLOCK + rate.toNat / 2 := by
  have hrate := rate.toNat_lt
  refine Nat.mod_eq_of_lt ?_
  rw [AX12_BAUD_CLOCK]
  omega

theorem difference_toNat (actual rate : UInt32) :
    ((if actual > rate then actual - rate else rate - actual).toNat : ℤ) =
      |(actual.toNat : ℤ) - rate.toNat| := by
  split
  · rename_i h
    have hlt : rate.toNat < actual.toNat := h
    rw [UInt32.toNat_sub_of_le _ _ hlt.le, Nat.cast_sub hlt.le, abs_of_pos]
    omega
  · rename_i h
    have hle : actual.toNat ≤ rate.toNat := not_lt.mp h
    rw [UInt32.toNat_sub_of_le _ _ hle, Nat.cast_sub hle, abs_of_nonpos]
    · ring
    · omega

theorem rateToBaudValue_eq_some (hrate : rate ≠ 0) (value : UInt8) :
    ax12RateToBaudValue rate = some value ↔
      IsBaudValue value ∧ baudDivisor rate = value.toNat + 1 ∧ WithinTolerance value rate := by
  unfold ax12RateToBaudValue
  rw [if_neg hrate, wrap32_dividend]
  change (if baudDivisor rate < AX12_BAUD_VALUE_MIN + 1 ∨ baudDivisor rate > AX12_BAUD_VALUE_MAX + 1
    then none
    else if (if ax12BaudValueToRate (UInt8.ofNat (baudDivisor rate - 1)) > rate
        then ax12BaudValueToRate (UInt8.ofNat (baudDivisor rate - 1)) - rate
        else rate - ax12BaudValueToRate (UInt8.ofNat (baudDivisor rate - 1))).toNat * 100 >
        rate.toNat * 3
      then none else some (UInt8.ofNat (baudDivisor rate - 1))) = some value ↔ _
  by_cases hrange : baudDivisor rate < AX12_BAUD_VALUE_MIN + 1 ∨
      baudDivisor rate > AX12_BAUD_VALUE_MAX + 1
  · rw [if_pos hrange]
    refine iff_of_false nofun ?_
    rintro ⟨⟨hmin, hmax⟩, hdivisor, -⟩
    omega
  have hcandidate : (UInt8.ofNat (baudDivisor rate - 1)).toNat = baudDivisor rate - 1 := by
    rw [UInt8.toNat_ofNat', Nat.mod_eq_of_lt]
    rw [AX12_BAUD_VALUE_MIN, AX12_BAUD_VALUE_MAX] at hrange
    omega
  rw [not_or, not_lt, not_lt] at hrange
  rw [if_neg (not_or.mpr ⟨not_lt.mpr hrange.1, not_lt.mpr hrange.2⟩)]
  have hnear : ∀ candidate : UInt8,
      (if ax12BaudValueToRate candidate > rate then ax12BaudValueToRate candidate - rate
        else rate - ax12BaudValueToRate candidate).toNat * 100 > rate.toNat * 3 ↔
      ¬ WithinTolerance candidate rate := by
    intro candidate
    rw [WithinTolerance, rateError, ← difference_toNat, not_le]
    exact_mod_cast Iff.rfl
  by_cases hclose : WithinTolerance (UInt8.ofNat (baudDivisor rate - 1)) rate
  · rw [if_neg fun hfar => (hnear _).mp hfar hclose]
    constructor
    · intro h
      obtain rfl := Option.some.inj h
      rw [IsBaudValue, hcandidate]
      exact ⟨⟨Nat.le_sub_one_of_lt hrange.1, by omega⟩, by omega, hclose⟩
    · rintro ⟨-, hdivisor, -⟩
      rw [hdivisor, Nat.add_sub_cancel, UInt8.ofNat_toNat]
  · rw [if_pos ((hnear _).mpr hclose)]
    refine iff_of_false nofun ?_
    rintro ⟨-, hdivisor, hwithin⟩
    rw [hdivisor, Nat.add_sub_cancel, UInt8.ofNat_toNat] at hclose
    exact hclose hwithin

theorem baudDivisor_le_iff (hrate : rate ≠ 0) (value : ℕ) :
    baudDivisor rate ≤ value + 1 ↔
      AX12_BAUD_CLOCK + rate.toNat / 2 < (value + 2) * rate.toNat := by
  have hpos : 0 < rate.toNat := Nat.pos_of_ne_zero fun h => hrate (UInt32.toNat_inj.mp h)
  rw [← Nat.lt_succ_iff]
  exact roundDiv_lt_iff hpos

end picking

section closest

variable {rate : UInt32}

/-- There is a value just where some rate is near enough, and then none is nearer than its rate. -/
def PicksClosest (rate : UInt32) : Prop :=
  ((ax12RateToBaudValue rate).isSome = true ↔
    ∃ value, IsBaudValue value ∧ WithinTolerance value rate) ∧
  ∀ value, ax12RateToBaudValue rate = some value →
    IsBaudValue value ∧ ∀ other, IsBaudValue other → rateError value rate ≤ rateError other rate

/-- The rate is on the same side of the midpoint of every two neighbouring rates as of the boundary
between their divisors. -/
def SidesAgree (rate : UInt32) : Prop :=
  ∀ value, AX12_BAUD_VALUE_MIN ≤ value → value < AX12_BAUD_VALUE_MAX →
    (AX12_BAUD_CLOCK + rate.toNat / 2 < (value + 2) * rate.toNat →
      exactRate value + exactRate (value + 1) ≤ 2 * rate.toNat) ∧
    ((value + 2) * rate.toNat ≤ AX12_BAUD_CLOCK + rate.toNat / 2 →
      2 * rate.toNat ≤ exactRate value + exactRate (value + 1))

theorem rateError_eq {value : UInt8} (h : IsBaudValue value) (rate : UInt32) :
    rateError value rate = |(exactRate value.toNat : ℤ) - rate.toNat| := by
  rw [rateError, baudValueToRate_toNat h]

theorem nearest_iff_sidesAgree (hrate : rate ≠ 0) {value : UInt8} (hvalue : IsBaudValue value)
    (hdivisor : baudDivisor rate = value.toNat + 1) :
    (∀ other, IsBaudValue other → rateError value rate ≤ rateError other rate) ↔
      SidesAgree rate := by
  have hbytes : (∀ other, IsBaudValue other → rateError value rate ≤ rateError other rate) ↔
      ∀ other ∈ Set.Icc AX12_BAUD_VALUE_MIN AX12_BAUD_VALUE_MAX,
        |(exactRate value.toNat : ℤ) - rate.toNat| ≤ |(exactRate other : ℤ) - rate.toNat| := by
    rw [rateError_eq hvalue]
    constructor
    · intro h other hother
      have hbyte : (UInt8.ofNat other).toNat = other := by
        rw [UInt8.toNat_ofNat', Nat.mod_eq_of_lt (lt_of_le_of_lt hother.2 (by decide))]
      have hother' : IsBaudValue (UInt8.ofNat other) := by
        rw [IsBaudValue, hbyte]
        exact hother
      have hle := h _ hother'
      rw [rateError_eq hother', hbyte] at hle
      exact hle
    · intro h other hother
      rw [rateError_eq hother]
      exact h other.toNat hother
  rw [hbytes, nearest_iff exactRate_strictAntiOn hvalue]
  refine forall_congr' fun k => forall_congr' fun _ => forall_congr' fun _ => ?_
  have hside := baudDivisor_le_iff hrate k
  rw [hdivisor, Nat.add_le_add_iff_right] at hside
  have hother : k < value.toNat ↔ (k + 2) * rate.toNat ≤ AX12_BAUD_CLOCK + rate.toNat / 2 := by
    rw [← not_le, hside, not_lt]
  rw [hside, hother]
  norm_cast

theorem not_within_fast (hrate : rate ≠ 0) (hdivisor : baudDivisor rate ≤ 1) {value : UInt8}
    (h : IsBaudValue value) : ¬ WithinTolerance value rate := by
  have hfast := (baudDivisor_le_iff hrate 0).mp hdivisor
  have hsmall := exactRate_le h.1
  rw [AX12_BAUD_CLOCK] at hfast
  rw [WithinTolerance, rateError_eq h, abs_of_nonpos]
  · omega
  · omega

theorem ax12RateToBaudValue_within {value : UInt8} (h : ax12RateToBaudValue rate = some value) :
    rate ≠ 0 ∧ IsBaudValue value ∧ baudDivisor rate = value.toNat + 1 ∧
      WithinTolerance value rate := by
  have hrate : rate ≠ 0 := by
    rintro rfl
    cases h
  exact ⟨hrate, (rateToBaudValue_eq_some hrate value).mp h⟩

theorem picksClosest_of_none (hnone : ¬ ∃ value, IsBaudValue value ∧ WithinTolerance value rate) :
    PicksClosest rate := by
  have hrefused : ∀ value, ax12RateToBaudValue rate ≠ some value := by
    intro value h
    obtain ⟨-, hvalue, -, hwithin⟩ := ax12RateToBaudValue_within h
    exact hnone ⟨value, hvalue, hwithin⟩
  refine ⟨iff_of_false ?_ hnone, fun value h => absurd h (hrefused value)⟩
  rw [Option.isSome_iff_exists]
  rintro ⟨value, h⟩
  exact hrefused value h

theorem picksClosest_of_nearest (hrate : rate ≠ 0) {value : UInt8} (hvalue : IsBaudValue value)
    (hdivisor : baudDivisor rate = value.toNat + 1)
    (hnearest : ∀ other, IsBaudValue other → rateError value rate ≤ rateError other rate) :
    PicksClosest rate := by
  by_cases hwithin : WithinTolerance value rate
  · have hpicked := (rateToBaudValue_eq_some hrate value).mpr ⟨hvalue, hdivisor, hwithin⟩
    rw [PicksClosest, hpicked]
    refine ⟨iff_of_true rfl ⟨value, hvalue, hwithin⟩, fun other h => ?_⟩
    obtain rfl := Option.some.inj h
    exact ⟨hvalue, hnearest⟩
  · refine picksClosest_of_none ?_
    rintro ⟨other, hother, hclose⟩
    refine hwithin (le_trans ?_ hclose)
    exact mul_le_mul_of_nonneg_right (hnearest other hother) (by norm_num)

/-- The closest rate is picked just where none is near enough, or where the divisor of the rate is
one of a value and every midpoint of neighbouring rates lies on the side of the rate that the
boundary of their divisors does. -/
theorem ax12_closest_rate_iff (rate : UInt32) :
    PicksClosest rate ↔
      (¬ ∃ value, IsBaudValue value ∧ WithinTolerance value rate) ∨
      (AX12_BAUD_CLOCK + rate.toNat / 2 < (AX12_BAUD_VALUE_MAX + 2) * rate.toNat ∧
        SidesAgree rate) := by
  constructor
  · rintro ⟨hiff, hclosest⟩
    by_cases hsome : ∃ value, IsBaudValue value ∧ WithinTolerance value rate
    · obtain ⟨value, hpicked⟩ := Option.isSome_iff_exists.mp (hiff.mpr hsome)
      obtain ⟨hrate, hvalue, hdivisor, -⟩ := ax12RateToBaudValue_within hpicked
      refine Or.inr ⟨(baudDivisor_le_iff hrate _).mp ?_, ?_⟩
      · exact hdivisor.trans_le (Nat.add_le_add_right hvalue.2 1)
      · exact (nearest_iff_sidesAgree hrate hvalue hdivisor).mp (hclosest value hpicked).2
    · exact Or.inl hsome
  · rintro (hnone | ⟨hlast, hsides⟩)
    · exact picksClosest_of_none hnone
    have hrate : rate ≠ 0 := by
      rintro rfl
      exact absurd hlast (by decide)
    have hmax := (baudDivisor_le_iff hrate _).mpr hlast
    rcases Nat.lt_or_ge 1 (baudDivisor rate) with hmin | hfast
    · have hbyte : (UInt8.ofNat (baudDivisor rate - 1)).toNat = baudDivisor rate - 1 := by
        rw [UInt8.toNat_ofNat', Nat.mod_eq_of_lt]
        rw [AX12_BAUD_VALUE_MAX] at hmax
        omega
      have hvalue : IsBaudValue (UInt8.ofNat (baudDivisor rate - 1)) := by
        rw [IsBaudValue, hbyte]
        exact ⟨Nat.le_sub_one_of_lt hmin, Nat.sub_le_of_le_add hmax⟩
      have hdivisor : baudDivisor rate = (UInt8.ofNat (baudDivisor rate - 1)).toNat + 1 := by
        rw [hbyte, Nat.sub_add_cancel hmin.le]
      refine picksClosest_of_nearest hrate hvalue hdivisor ?_
      exact (nearest_iff_sidesAgree hrate hvalue hdivisor).mpr hsides
    · refine picksClosest_of_none ?_
      rintro ⟨value, hvalue, hwithin⟩
      exact not_within_fast hrate hfast hvalue hwithin

/-- A value is picked though the next one is nearer, and none is though the last one is near
enough. -/
theorem ax12_closest_rate_missed :
    (ax12RateToBaudValue 114378 = some 16 ∧ rateError 17 114378 < rateError 16 114378) ∧
    (ax12RateToBaudValue 7615 = none ∧ WithinTolerance 254 7615) ∧
    ¬ PicksClosest 114378 ∧ ¬ PicksClosest 7615 := by
  have hpicked : ax12RateToBaudValue 114378 = some 16 := by decide
  have hrefused : ax12RateToBaudValue 7615 = none := by decide
  have hnearer : rateError 17 114378 < rateError 16 114378 := by decide
  have hwithin : WithinTolerance 254 7615 := by
    unfold WithinTolerance
    decide
  have hseventeen : IsBaudValue 17 := by
    unfold IsBaudValue
    decide
  have hlast : IsBaudValue 254 := by
    unfold IsBaudValue
    decide
  refine ⟨⟨hpicked, hnearer⟩, ⟨hrefused, hwithin⟩, ?_, ?_⟩
  · intro h
    exact absurd ((h.2 16 hpicked).2 17 hseventeen) (not_le.mpr hnearer)
  · intro h
    have hsome := h.1.mpr ⟨254, hlast, hwithin⟩
    rw [hrefused] at hsome
    exact Bool.false_ne_true hsome

end closest

end Pico
