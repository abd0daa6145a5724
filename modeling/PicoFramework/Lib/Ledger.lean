import Mathlib

/-! What is claimed, and who holds it. Everything that is claimed is held by one holder, and by
no other. -/

namespace Lib.Ledger

section balance

variable {ρ κ : Type*}

structure Balanced (claims : Finset ρ) (holds : κ → Finset ρ) : Prop where
  claimed : ∀ r, r ∈ claims ↔ ∃ k, r ∈ holds k
  apart : ∀ j k, j ≠ k → Disjoint (holds j) (holds k)

variable {claims : Finset ρ} {holds : κ → Finset ρ} {j k : κ}

theorem Balanced.subset (h : Balanced claims holds) (k : κ) : holds k ⊆ claims :=
  fun r hr => (h.claimed r).mpr ⟨k, hr⟩

theorem Balanced.holder (h : Balanced claims holds) {r : ρ} (hj : r ∈ holds j) (hk : r ∈ holds k) :
    j = k := by
  by_contra hne
  exact Finset.disjoint_left.mp (h.apart j k hne) hj hk

theorem Balanced.only (h : Balanced claims holds) (hothers : ∀ j, j ≠ k → holds j = ∅) :
    claims = holds k := by
  apply Finset.Subset.antisymm
  · intro r hr
    obtain ⟨j, hj⟩ := (h.claimed r).mp hr
    by_cases hjk : j = k
    · exact hjk ▸ hj
    · rw [hothers j hjk] at hj
      exact absurd hj (Finset.notMem_empty r)
  · exact h.subset k

end balance

section moves

variable {ρ κ : Type*} [DecidableEq ρ] {claims : Finset ρ} {holds holds' : κ → Finset ρ}
  {rs : Finset ρ} {j k : κ}

theorem Balanced.take (h : Balanced claims holds) (hfree : Disjoint rs claims)
    (hk : holds' k = holds k ∪ rs) (hothers : ∀ j, j ≠ k → holds' j = holds j) :
    Balanced (claims ∪ rs) holds' where
  claimed r := by
    rw [Finset.mem_union, h.claimed]
    constructor
    · rintro (⟨j, hj⟩ | hr)
      · by_cases hjk : j = k
        · exact ⟨k, by rw [hk]; exact Finset.mem_union_left _ (hjk ▸ hj)⟩
        · exact ⟨j, by rw [hothers j hjk]; exact hj⟩
      · exact ⟨k, by rw [hk]; exact Finset.mem_union_right _ hr⟩
    · rintro ⟨j, hj⟩
      by_cases hjk : j = k
      · rw [hjk, hk] at hj
        rcases Finset.mem_union.mp hj with hold | hnew
        · exact .inl ⟨k, hold⟩
        · exact .inr hnew
      · rw [hothers j hjk] at hj
        exact .inl ⟨j, hj⟩
  apart := by
    have hnew : ∀ j, Disjoint (holds j) rs := fun j => hfree.symm.mono_left (h.subset j)
    intro i j hij
    by_cases hi : i = k
    · have hj : j ≠ k := fun hjk => hij (hi.trans hjk.symm)
      rw [hi, hk, hothers j hj]
      exact Finset.disjoint_union_left.mpr ⟨h.apart k j hj.symm, (hnew j).symm⟩
    · rw [hothers i hi]
      by_cases hj : j = k
      · rw [hj, hk]
        exact Finset.disjoint_union_right.mpr ⟨h.apart i k hi, hnew i⟩
      · rw [hothers j hj]
        exact h.apart i j hij

theorem Balanced.release (h : Balanced claims holds) (hrs : rs ⊆ holds k)
    (hk : holds' k = holds k \ rs) (hothers : ∀ j, j ≠ k → holds' j = holds j) :
    Balanced (claims \ rs) holds' where
  claimed r := by
    rw [Finset.mem_sdiff, h.claimed]
    constructor
    · rintro ⟨⟨j, hj⟩, hr⟩
      by_cases hjk : j = k
      · exact ⟨k, by rw [hk]; exact Finset.mem_sdiff.mpr ⟨hjk ▸ hj, hr⟩⟩
      · exact ⟨j, by rw [hothers j hjk]; exact hj⟩
    · rintro ⟨j, hj⟩
      by_cases hjk : j = k
      · rw [hjk, hk] at hj
        obtain ⟨hj, hr⟩ := Finset.mem_sdiff.mp hj
        exact ⟨⟨k, hj⟩, hr⟩
      · rw [hothers j hjk] at hj
        exact ⟨⟨j, hj⟩, fun hr => hjk (h.holder hj (hrs hr))⟩
  apart i j hij := by
    have hless : ∀ i, holds' i ⊆ holds i := by
      intro i
      by_cases hi : i = k
      · rw [hi, hk]
        exact Finset.sdiff_subset
      · rw [hothers i hi]
    exact (h.apart i j hij).mono (hless i) (hless j)

theorem Balanced.release_all (h : Balanced claims holds) (hk : holds' k = ∅)
    (hothers : ∀ j, j ≠ k → holds' j = holds j) : Balanced (claims \ holds k) holds' :=
  h.release (Finset.Subset.refl _) (by rw [hk, Finset.sdiff_self]) hothers

theorem Balanced.pass (h : Balanced claims holds) (hne : j ≠ k) (hj : holds' j = ∅)
    (hk : holds' k = holds k ∪ holds j) (hothers : ∀ i, i ≠ j → i ≠ k → holds' i = holds i) :
    Balanced claims holds' := by
  classical
  have hdrop : Balanced (claims \ holds j) (Function.update holds j ∅) :=
    h.release_all (Function.update_self _ _ _) fun i hi => Function.update_of_ne hi _ _
  have hk' : holds' k = Function.update holds j ∅ k ∪ holds j := by
    rw [Function.update_of_ne hne.symm]
    exact hk
  have htake : Balanced (claims \ holds j ∪ holds j) holds' := by
    refine hdrop.take Finset.disjoint_sdiff hk' fun i hi => ?_
    by_cases hij : i = j
    · rw [hij, Function.update_self]
      exact hj
    · rw [Function.update_of_ne hij]
      exact hothers i hij hi
  rwa [Finset.sdiff_union_of_subset (h.subset j)] at htake

end moves

end Lib.Ledger
