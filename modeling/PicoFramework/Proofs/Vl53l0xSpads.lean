import Mathlib.Data.Nat.Bitwise
import Mathlib.Data.Nat.Count
import Mathlib.Tactic
import PicoFramework.Spec.Vl53l0x

/-! Which of the reference SPADs `vl53l0x_init` leaves enabled. -/

namespace Pico

section bits

theorem toNat_spadMask {bit : ℕ} (h : bit < 8) : ((1 : UInt8) <<< UInt8.ofNat bit).toNat = 2 ^ bit := by
  interval_cases bit <;> rfl

theorem spadIsEnabled_iff (map : Bytes) (spad : ℕ) :
    spadIsEnabled map spad = true ↔ (map.getD (spad / 8) 0).toNat.testBit (spad % 8) = true := by
  have hmask := toNat_spadMask (Nat.mod_lt spad (by decide : 0 < 8))
  unfold spadIsEnabled
  rw [decide_eq_true_eq, ne_eq, ← UInt8.toNat_inj, UInt8.toNat_and, hmask, Nat.and_two_pow]
  cases (map.getD (spad / 8) 0).toNat.testBit (spad % 8) <;> simp

theorem testBit_disabled (byte : UInt8) {i j : ℕ} (hi : i < 8) (hj : j < 8) :
    (byte &&& ~~~((1 : UInt8) <<< UInt8.ofNat i)).toNat.testBit j = true ↔
      j ≠ i ∧ byte.toNat.testBit j = true := by
  have hlt : 2 ^ i < 2 ^ 8 := Nat.pow_lt_pow_right (by decide) hi
  have hnot : (~~~((1 : UInt8) <<< UInt8.ofNat i)).toNat = 2 ^ 8 - (2 ^ i + 1) := by
    rw [UInt8.toNat_not, toNat_spadMask hi]
    change 2 ^ 8 - 1 - 2 ^ i = _
    omega
  rw [UInt8.toNat_and, hnot, Nat.testBit_and, Nat.testBit_two_pow_sub_succ hlt, Nat.testBit_two_pow,
    decide_eq_true hj, Bool.true_and, Bool.and_eq_true, Bool.not_eq_true', decide_eq_false_iff_not,
    and_comm]
  exact and_congr_left fun _ => ne_comm

theorem spadIsEnabled_disableSpad {map : Bytes} (hlen : map.length = SPAD_MAP_BYTES) {i : ℕ}
    (hi : i < SPADS) (j : ℕ) :
    spadIsEnabled (disableSpad map i) j = true ↔ j ≠ i ∧ spadIsEnabled map j = true := by
  have hbyte : i / 8 < map.length := by
    rw [hlen]
    exact Nat.div_lt_of_lt_mul hi
  rw [spadIsEnabled_iff, spadIsEnabled_iff]
  unfold disableSpad
  rw [List.getD_eq_getElem?_getD, List.getElem?_set, List.getD_eq_getElem?_getD]
  by_cases hsame : i / 8 = j / 8
  · rw [if_pos hsame, if_pos hbyte, Option.getD_some, ← hsame]
    rw [testBit_disabled _ (Nat.mod_lt i (by decide)) (Nat.mod_lt j (by decide))]
    refine and_congr_left fun _ => not_congr ?_
    omega
  · rw [if_neg hsame]
    refine (and_iff_right ?_).symm
    rintro rfl
    exact hsame rfl

end bits

section count

/-- Of what comes up, the first `c` are as many as there are, up to `c`. -/
theorem count_first (p : ℕ → Prop) [DecidablePred p] (c n : ℕ) :
    Nat.count (fun i => p i ∧ Nat.count p i < c) n = min c (Nat.count p n) := by
  induction n with
  | zero => simp
  | succ n ih =>
    rw [Nat.count_succ, ih, Nat.count_succ]
    by_cases hp : p n
    · by_cases hc : Nat.count p n < c
      · rw [if_pos ⟨hp, hc⟩, if_pos hp]
        omega
      · rw [if_neg (fun h => hc h.2), if_pos hp]
        omega
    · rw [if_neg (fun h => hp h.1), if_neg hp]
      rfl

end count

/-- A SPAD that may be used: the sensor has it, and it is of the right kind. -/
def SpadUsable (first : ℕ) (map : Bytes) (spad : ℕ) : Prop :=
  first ≤ spad ∧ spadIsEnabled map spad = true

instance (first : ℕ) (map : Bytes) : DecidablePred (SpadUsable first map) :=
  fun _ => inferInstanceAs (Decidable (_ ∧ _))

/-- The SPADs before `n` have been gone over. -/
structure SpadsChosen (first : ℕ) (count : UInt8) (map : Bytes) (n : ℕ) (acc : Bytes × UInt8) :
    Prop where
  length : acc.1.length = SPAD_MAP_BYTES
  enabled : acc.2.toNat = min count.toNat (Nat.count (SpadUsable first map) n)
  spads : ∀ spad, spadIsEnabled acc.1 spad = true ↔ spadIsEnabled map spad = true ∧
    (spad < n → first ≤ spad ∧ Nat.count (SpadUsable first map) spad < count.toNat)

theorem SpadsChosen.choose {first : ℕ} {count : UInt8} {map : Bytes} {n : ℕ} {acc : Bytes × UInt8}
    (h : SpadsChosen first count map n acc) (hn : n < SPADS) :
    SpadsChosen first count map (n + 1) (chooseSpad first count acc n) := by
  have hsucc := Nat.count_succ (SpadUsable first map) n
  have henabled := h.enabled
  -- the spad of this round, and all others
  have hsplit : ∀ spad, spad < n + 1 ↔ spad < n ∨ spad = n := fun spad => by omega
  unfold chooseSpad
  split
  · next hskip =>
    have hnot : ¬(first ≤ n ∧ Nat.count (SpadUsable first map) n < count.toNat) := by
      rintro ⟨hfirst, hroom⟩
      obtain hlow | hfull := hskip
      · omega
      · rw [hfull] at henabled
        omega
    refine ⟨?_, ?_, fun spad => ?_⟩
    · rw [← h.length]
      exact List.length_set
    · dsimp only
      rw [henabled, hsucc]
      split
      · next husable =>
        have hfull := hskip.resolve_left (not_lt.mpr husable.1)
        rw [hfull] at henabled
        omega
      · rfl
    · rw [spadIsEnabled_disableSpad h.length hn, h.spads, hsplit]
      by_cases hspad : spad = n
      · subst hspad
        exact ⟨fun hcontra => absurd rfl hcontra.1, fun hall => absurd (hall.2 (Or.inr rfl)) hnot⟩
      · simp [hspad]
  · next hgo =>
    rw [not_or, not_lt] at hgo
    have hne : acc.2.toNat ≠ count.toNat := fun heq => hgo.2 (UInt8.toNat_inj.mp heq)
    have hroom : Nat.count (SpadUsable first map) n < count.toNat := by omega
    have hcurrent : spadIsEnabled acc.1 n = true ↔ spadIsEnabled map n = true := by
      rw [h.spads]
      simp
    have hspads : ∀ spad, spadIsEnabled acc.1 spad = true ↔ spadIsEnabled map spad = true ∧
        (spad < n + 1 → first ≤ spad ∧ Nat.count (SpadUsable first map) spad < count.toNat) := by
      intro spad
      rw [h.spads, hsplit]
      by_cases hspad : spad = n
      · subst hspad
        simp [hgo.1, hroom]
      · simp [hspad]
    split
    · next hon =>
      refine ⟨h.length, ?_, hspads⟩
      have hle : (acc.2 + 1).toNat = acc.2.toNat + 1 := by
        have hlt := count.toNat_lt
        rw [UInt8.toNat_add]
        exact Nat.mod_eq_of_lt (show acc.2.toNat + 1 < 2 ^ 8 by omega)
      rw [hle, hsucc, if_pos ⟨hgo.1, hcurrent.mp hon⟩]
      omega
    · next hoff =>
      refine ⟨h.length, ?_, hspads⟩
      rw [hsucc, if_neg fun husable => hoff (hcurrent.mpr husable.2)]
      exact henabled

theorem chosen_range (first : ℕ) (count : UInt8) {map : Bytes} (hlen : map.length = SPAD_MAP_BYTES)
    {n : ℕ} (hn : n ≤ SPADS) :
    SpadsChosen first count map n ((List.range n).foldl (chooseSpad first count) (map, 0)) := by
  induction n with
  | zero => exact ⟨hlen, by simp, fun spad => by simp⟩
  | succ n ih =>
    rw [List.range_succ, List.foldl_append]
    exact (ih (Nat.le_of_succ_le hn)).choose hn

/-- Exactly the first `count` of the SPADs that may be used stay enabled, or all of them if there
are no more. -/
theorem spads_chosen (isAperture : Bool) (count : UInt8) (map : Bytes)
    (hlen : map.length = SPAD_MAP_BYTES) :
    (∀ spad < SPADS, spadIsEnabled (chooseSpads isAperture count map) spad = true ↔
      SpadUsable (firstSpad isAperture) map spad ∧
        Nat.count (SpadUsable (firstSpad isAperture) map) spad < count.toNat) ∧
    Nat.count (fun spad => spadIsEnabled (chooseSpads isAperture count map) spad = true) SPADS =
      min count.toNat (Nat.count (SpadUsable (firstSpad isAperture) map) SPADS) := by
  have hchosen := chosen_range (firstSpad isAperture) count hlen (le_refl SPADS)
  have hspads : ∀ spad < SPADS, spadIsEnabled (chooseSpads isAperture count map) spad = true ↔
      SpadUsable (firstSpad isAperture) map spad ∧
        Nat.count (SpadUsable (firstSpad isAperture) map) spad < count.toNat := by
    intro spad hspad
    refine (hchosen.spads spad).trans ?_
    unfold SpadUsable
    tauto
  refine ⟨hspads, ?_⟩
  rw [← count_first, Nat.count_eq_card_filter_range, Nat.count_eq_card_filter_range]
  refine congrArg Finset.card (Finset.filter_congr fun spad hspad => ?_)
  exact hspads spad (Finset.mem_range.mp hspad)

/-- Four in every second byte, of which an aperture part may not use the first. -/
theorem spads_chosen_three :
    chooseSpads true 3 (List.replicate 6 0xF0) = [0, 0x70, 0, 0, 0, 0] ∧
      Nat.count (fun spad =>
        spadIsEnabled (chooseSpads true 3 (List.replicate 6 0xF0)) spad = true) SPADS = 3 :=
  ⟨by decide +kernel,
    (spads_chosen true 3 (List.replicate 6 0xF0) rfl).2.trans (by decide +kernel)⟩

end Pico
