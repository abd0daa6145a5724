import Mathlib.Data.List.MinMax
import PicoFramework.Lib.Bits
import PicoFramework.Spec.Mcp2515Timing

/-! The bit timing that is computed is exact, and it is found whenever there is one. -/

namespace Pico

open Lib.Bits

section registers

/-- What the three registers tell the controller, in quanta. -/
structure BitSettings where
  brp : ℕ
  sjw : ℕ
  /-- `BTLMODE`: the length of `PHSEG2` is the one of `CNF3`. -/
  btlmode : Bool
  prseg : ℕ
  phseg1 : ℕ
  phseg2 : ℕ
deriving DecidableEq

def Mcp2515BitTiming.settings (timing : Mcp2515BitTiming) : BitSettings where
  brp := timing.cnf1.toNat % 64
  sjw := timing.cnf1.toNat / 64 + 1
  btlmode := timing.cnf2 &&& 0x80 ≠ 0
  prseg := timing.cnf2.toNat % 8 + 1
  phseg1 := timing.cnf2.toNat / 8 % 8 + 1
  phseg2 := timing.cnf3.toNat % 8 + 1

/-- The quanta of a bit: one of synchronisation, and the segments. -/
def BitSettings.ntq (settings : BitSettings) : ℕ :=
  1 + settings.prseg + settings.phseg1 + settings.phseg2

/-- The bits come out at exactly the rate. -/
structure ExactTiming (oscillator bitrate ntq brp : ℕ) : Prop where
  ntq_ge : 8 ≤ ntq
  ntq_le : ntq ≤ 25
  brp_le : brp ≤ 63
  exact : ntq * (brp + 1) * 2 * bitrate = oscillator

theorem cnf1_read : ∀ brp ≤ MAX_BRP,
    (UInt8.ofNat (((1 - 1) <<< 6) ||| brp)).toNat % 64 = brp ∧
      (UInt8.ofNat (((1 - 1) <<< 6) ||| brp)).toNat / 64 = 0 := by
  decide

theorem cnf2_read : ∀ prseg < 8, ∀ phseg1 < 8,
    (UInt8.ofNat (0x80 ||| (phseg1 <<< 3) ||| prseg) &&& 0x80 ≠ 0) ∧
      (UInt8.ofNat (0x80 ||| (phseg1 <<< 3) ||| prseg)).toNat % 8 = prseg ∧
      (UInt8.ofNat (0x80 ||| (phseg1 <<< 3) ||| prseg)).toNat / 8 % 8 = phseg1 := by
  decide

end registers

section splitting

/-- The segments fill the bit, and each is as long as its register can say. -/
structure Fits (ntq : ℕ) (split : Mcp2515Segments) : Prop where
  prseg_pos : 1 ≤ split.prseg
  prseg_le : split.prseg ≤ 8
  phseg1_pos : 1 ≤ split.phseg1
  phseg1_le : split.phseg1 ≤ 8
  phseg2_ge : 2 ≤ split.phseg2
  phseg2_le : split.phseg2 ≤ 8
  sum_eq : 1 + split.prseg + split.phseg1 + split.phseg2 = ntq

theorem splitSegments_fits {ntq : ℕ} (hge : MIN_TQ_PER_BIT ≤ ntq) (hle : ntq ≤ MAX_TQ_PER_BIT) :
    Fits ntq (splitSegments ntq) := by
  unfold MIN_TQ_PER_BIT at hge
  unfold MAX_TQ_PER_BIT at hle
  unfold splitSegments MIN_PHSEG2 MAX_PHSEG2 MAX_PROP_PHSEG1_SUM
  interval_cases ntq <;> exact ⟨by decide, by decide, by decide, by decide, by decide, by decide, rfl⟩

end splitting

section search

variable {target ntq : ℕ}

/-- What the loop looks at when it gets to `ntq`. -/
def candidate (target ntq : ℕ) : Option NtqAndBrp :=
  if target % ntq = 0 ∧ 0 < target / ntq ∧ target / ntq ≤ MAX_BRP + 1 then
    some ⟨ntq, target / ntq - 1, if ntq > 16 then ntq - 16 else 16 - ntq⟩
  else none

theorem tryNtq_eq (best : Option NtqAndBrp) : tryNtq target best ntq =
    match candidate target ntq with
    | none => best
    | some found => List.argAux (fun b c => b.distance < c.distance) best found := by
  unfold tryNtq candidate
  generalize target / ntq = quotient
  by_cases hdvd : target % ntq = 0
  · by_cases hbrp : quotient = 0 ∨ quotient > MAX_BRP + 1
    · have hno : ¬ (target % ntq = 0 ∧ 0 < quotient ∧ quotient ≤ MAX_BRP + 1) := by omega
      rw [if_neg (not_not.mpr hdvd), if_pos hbrp, if_neg hno]
    · have hyes : target % ntq = 0 ∧ 0 < quotient ∧ quotient ≤ MAX_BRP + 1 := by omega
      rw [if_neg (not_not.mpr hdvd), if_neg hbrp, if_pos hyes]
      cases best <;> rfl
  · rw [if_pos hdvd, if_neg fun h => hdvd h.1]

theorem foldl_tryNtq (ntqs : List ℕ) : ntqs.foldl (tryNtq target) none =
    (ntqs.filterMap (candidate target)).argmin NtqAndBrp.distance := by
  unfold List.argmin
  rw [List.foldl_filterMap]
  congr 1
  funext best ntq
  rw [tryNtq_eq]
  cases candidate target ntq <;> rfl

theorem candidate_eq_some_iff (hntq : 0 < ntq) {found : NtqAndBrp} :
    candidate target ntq = some found ↔
      found.ntq = ntq ∧ found.ntq * (found.brp + 1) = target ∧ found.brp ≤ MAX_BRP ∧
        (found.distance : ℤ) = |(found.ntq : ℤ) - 16| := by
  have hdistance : ((if ntq > 16 then ntq - 16 else 16 - ntq : ℕ) : ℤ) = |(ntq : ℤ) - 16| := by
    split
    · rw [abs_of_nonneg (by omega)]
      omega
    · rw [abs_of_nonpos (by omega)]
      omega
  unfold candidate
  constructor
  · intro h
    split at h
    · rename_i hfound
      obtain ⟨hdvd, hpos, hle⟩ := hfound
      obtain rfl := Option.some.inj h
      have hmul : ntq * (target / ntq) = target := Nat.mul_div_cancel' (Nat.dvd_of_mod_eq_zero hdvd)
      refine ⟨rfl, ?_, by dsimp only; omega, hdistance⟩
      dsimp only
      rwa [Nat.sub_add_cancel hpos]
    · exact absurd h nofun
  · rintro ⟨rfl, rfl, hbrp, hfound⟩
    have hquotient : found.ntq * (found.brp + 1) / found.ntq = found.brp + 1 :=
      Nat.mul_div_cancel_left _ hntq
    rw [hquotient, if_pos ⟨Nat.mul_mod_right _ _, Nat.succ_pos _, Nat.succ_le_succ hbrp⟩]
    have hsame : (if found.ntq > 16 then found.ntq - 16 else 16 - found.ntq) = found.distance :=
      Int.ofNat_inj.mp (hdistance.trans hfound.symm)
    rw [hsame]
    rfl

theorem mem_candidates_iff {found : NtqAndBrp} :
    found ∈ (List.range' MIN_TQ_PER_BIT (MAX_TQ_PER_BIT + 1 - MIN_TQ_PER_BIT)).filterMap
        (candidate target) ↔
      ExactTiming (target * 2) 1 found.ntq found.brp ∧
        (found.distance : ℤ) = |(found.ntq : ℤ) - 16| := by
  have hrange : ∀ n, n ∈ List.range' MIN_TQ_PER_BIT (MAX_TQ_PER_BIT + 1 - MIN_TQ_PER_BIT) ↔
      8 ≤ n ∧ n ≤ 25 := by
    intro n
    rw [List.mem_range'_1]
    exact and_congr_right fun _ => Nat.lt_succ_iff
  rw [List.mem_filterMap]
  constructor
  · rintro ⟨n, hn, hfound⟩
    obtain ⟨hge, hle⟩ := (hrange n).mp hn
    obtain ⟨rfl, htarget, hbrp, hdistance⟩ := (candidate_eq_some_iff (by omega)).mp hfound
    exact ⟨⟨hge, hle, hbrp, by rw [htarget, Nat.mul_one]⟩, hdistance⟩
  · rintro ⟨hexact, hdistance⟩
    refine ⟨found.ntq, (hrange _).mpr ⟨hexact.ntq_ge, hexact.ntq_le⟩, ?_⟩
    have htarget := hexact.exact
    rw [Nat.mul_one] at htarget
    exact (candidate_eq_some_iff (Nat.lt_of_lt_of_le (by decide) hexact.ntq_ge)).mpr
      ⟨rfl, Nat.mul_right_cancel (by decide) htarget, hexact.brp_le, hdistance⟩

theorem exactTiming_iff {oscillator bitrate ntq brp : ℕ} (hrate : 0 < bitrate) :
    ExactTiming oscillator bitrate ntq brp ↔
      oscillator % (2 * bitrate) = 0 ∧ ExactTiming (oscillator / (2 * bitrate) * 2) 1 ntq brp := by
  have hcomm : ntq * (brp + 1) * 2 * bitrate = ntq * (brp + 1) * (2 * bitrate) := Nat.mul_assoc _ _ _
  have hpos : 0 < 2 * bitrate := Nat.mul_pos (by decide) hrate
  constructor
  · rintro ⟨hge, hle, hbrp, rfl⟩
    rw [hcomm]
    refine ⟨Nat.mul_mod_left _ _, hge, hle, hbrp, ?_⟩
    rw [Nat.mul_div_cancel _ hpos, Nat.mul_one]
  · rintro ⟨hdvd, hge, hle, hbrp, hexact⟩
    refine ⟨hge, hle, hbrp, ?_⟩
    rw [Nat.mul_one] at hexact
    rw [hcomm, Nat.mul_right_cancel (by decide) hexact]
    exact Nat.div_mul_cancel (Nat.dvd_of_mod_eq_zero hdvd)

variable {oscillatorHz bitrate : UInt32}

theorem findNtqAndBrp_spec (hrate : bitrate ≠ 0) :
    match findNtqAndBrp oscillatorHz bitrate with
    | none => ∀ ntq brp, ¬ ExactTiming oscillatorHz.toNat bitrate.toNat ntq brp
    | some found => ExactTiming oscillatorHz.toNat bitrate.toNat found.ntq found.brp ∧
        ∀ ntq brp, ExactTiming oscillatorHz.toNat bitrate.toNat ntq brp →
          |(found.ntq : ℤ) - 16| ≤ |(ntq : ℤ) - 16| := by
  have hpos : 0 < bitrate.toNat := Nat.pos_of_ne_zero fun h => hrate (UInt32.toNat_inj.mp h)
  simp only [exactTiming_iff hpos]
  unfold findNtqAndBrp
  dsimp only
  by_cases hdvd : oscillatorHz.toNat % (2 * bitrate.toNat) = 0
  · rw [if_neg (by omega), foldl_tryNtq]
    generalize oscillatorHz.toNat / (2 * bitrate.toNat) = target
    -- every exact pair is a candidate, with its distance
    have hoffered : ∀ ntq brp, ExactTiming (target * 2) 1 ntq brp → ∃ other : NtqAndBrp,
        other ∈ (List.range' MIN_TQ_PER_BIT (MAX_TQ_PER_BIT + 1 - MIN_TQ_PER_BIT)).filterMap
          (candidate target) ∧ (other.distance : ℤ) = |(ntq : ℤ) - 16| := by
      intro ntq brp hexact
      have hdistance : (((ntq : ℤ) - 16).natAbs : ℤ) = |(ntq : ℤ) - 16| := Int.natCast_natAbs _
      exact ⟨⟨ntq, brp, _⟩, mem_candidates_iff.mpr ⟨hexact, hdistance⟩, hdistance⟩
    split
    · rename_i hnone
      rintro ntq brp ⟨-, hexact⟩
      obtain ⟨other, hother, -⟩ := hoffered ntq brp hexact
      rw [List.argmin_eq_none] at hnone
      rw [hnone] at hother
      exact List.not_mem_nil hother
    · rename_i found hfound
      obtain ⟨hexact, hdistance⟩ := mem_candidates_iff.mp (List.argmin_mem hfound)
      refine ⟨⟨hdvd, hexact⟩, fun ntq brp hother => ?_⟩
      obtain ⟨other, hoffer, hfar⟩ := hoffered ntq brp hother.2
      rw [← hdistance, ← hfar]
      exact Int.ofNat_le.mpr (List.le_of_mem_argmin hoffer hfound)
  · rw [if_pos (.inr hdvd)]
    rintro ntq brp ⟨hyes, -⟩
    exact hdvd hyes

end search

section timing

variable {oscillatorHz bitrate : UInt32}

/-- What the registers are to say. -/
structure TimedExactly (oscillator bitrate : ℕ) (settings : BitSettings) : Prop where
  exact : ExactTiming oscillator bitrate settings.ntq settings.brp
  nearest : ∀ ntq brp, ExactTiming oscillator bitrate ntq brp →
    |(settings.ntq : ℤ) - 16| ≤ |(ntq : ℤ) - 16|
  prseg : settings.prseg ∈ Set.Icc 1 8
  phseg1 : settings.phseg1 ∈ Set.Icc 1 8
  phseg2 : settings.phseg2 ∈ Set.Icc 2 8
  sjw : settings.sjw = 1
  btlmode : settings.btlmode = true

theorem settings_eq {ntq brp : ℕ} {split : Mcp2515Segments} (hfits : Fits ntq split)
    (hbrp : brp ≤ MAX_BRP) :
    Mcp2515BitTiming.settings {
      cnf1 := UInt8.ofNat (((1 - 1) <<< 6) ||| brp)
      cnf2 := UInt8.ofNat (0x80 ||| ((split.phseg1 - 1) <<< 3) ||| (split.prseg - 1))
      cnf3 := UInt8.ofNat (split.phseg2 - 1) } =
    ⟨brp, 1, true, split.prseg, split.phseg1, split.phseg2⟩ := by
  obtain ⟨hp, hp', hs, hs', hq, hq', -⟩ := hfits
  obtain ⟨hbrp, hsjw⟩ := cnf1_read brp hbrp
  obtain ⟨hmode, hprseg, hphseg1⟩ := cnf2_read (split.prseg - 1) (by omega) (split.phseg1 - 1)
    (by omega)
  have hphseg2 : (UInt8.ofNat (split.phseg2 - 1)).toNat % 8 = split.phseg2 - 1 := by
    rw [UInt8.toNat_ofNat']
    omega
  unfold Mcp2515BitTiming.settings
  dsimp only
  rw [hbrp, hsjw, hprseg, hphseg1, hphseg2, decide_eq_true hmode, Nat.sub_add_cancel hp,
    Nat.sub_add_cancel hs, Nat.sub_add_cancel (by omega)]

/-- A timing is computed when there is an exact one, of frequencies above zero, and then it is
one nearest to sixteen quanta. -/
theorem mcp2515_timing_exact (oscillatorHz bitrate : UInt32) :
    ((mcp2515ComputeBitTiming oscillatorHz bitrate).isSome = true ↔
      oscillatorHz ≠ 0 ∧ bitrate ≠ 0 ∧
        ∃ ntq brp, ExactTiming oscillatorHz.toNat bitrate.toNat ntq brp) ∧
    ∀ timing ∈ mcp2515ComputeBitTiming oscillatorHz bitrate,
      TimedExactly oscillatorHz.toNat bitrate.toNat timing.settings := by
  unfold mcp2515ComputeBitTiming
  by_cases hzero : oscillatorHz = 0 ∨ bitrate = 0
  · rw [if_pos hzero]
    refine ⟨iff_of_false nofun fun h => ?_, nofun⟩
    rcases hzero with hzero | hzero
    · exact h.1 hzero
    · exact h.2.1 hzero
  rw [if_neg hzero]
  rw [not_or] at hzero
  have hspec := @findNtqAndBrp_spec oscillatorHz bitrate hzero.2
  cases hfind : findNtqAndBrp oscillatorHz bitrate with
  | none =>
    rw [hfind] at hspec
    exact ⟨iff_of_false nofun fun h => h.2.2.elim fun ntq h => h.elim (hspec ntq), nofun⟩
  | some found =>
    rw [hfind] at hspec
    obtain ⟨hexact, hnearest⟩ := hspec
    have hfits := splitSegments_fits hexact.ntq_ge hexact.ntq_le
    refine ⟨iff_of_true rfl ⟨hzero.1, hzero.2, found.ntq, found.brp, hexact⟩, ?_⟩
    intro timing htiming
    obtain rfl := Option.some.inj htiming
    rw [settings_eq hfits hexact.brp_le]
    have hntq : 1 + (splitSegments found.ntq).prseg + (splitSegments found.ntq).phseg1 +
        (splitSegments found.ntq).phseg2 = found.ntq := hfits.sum_eq
    refine ⟨?_, ?_, ⟨hfits.prseg_pos, hfits.prseg_le⟩, ⟨hfits.phseg1_pos, hfits.phseg1_le⟩,
      ⟨hfits.phseg2_ge, hfits.phseg2_le⟩, rfl, rfl⟩
    · unfold BitSettings.ntq
      rwa [hntq]
    · unfold BitSettings.ntq
      rwa [hntq]

/-- Without a frequency and without a rate every pair is exact, and none is given. -/
theorem mcp2515_timing_refuses_zero :
    ExactTiming (0 : UInt32).toNat (0 : UInt32).toNat 16 0 ∧ mcp2515ComputeBitTiming 0 0 = none :=
  ⟨⟨by decide, by decide, by decide, rfl⟩, rfl⟩

end timing

end Pico
