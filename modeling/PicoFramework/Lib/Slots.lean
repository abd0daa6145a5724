import Mathlib.Data.List.Perm.Basic
import Mathlib.Tactic

/-! Items that pass through a few slots, each of which holds one of them at a time. The items are
numbered as they come. -/

namespace Lib.Slots

variable {κ : Type*}

/-- The slots that the items came to, and what became of them since. -/
@[ext] structure Bays (κ : Type*) where
  origins : List κ
  held : κ → Option ℕ
  taken : List ℕ
  lost : List ℕ

namespace Bays

section operations

variable [DecidableEq κ]

/-- The next item comes to a slot. -/
def put (k : κ) (s : Bays κ) : Bays κ :=
  { s with
    origins := s.origins ++ [k]
    held := Function.update s.held k (some s.origins.length) }

/-- The item of a slot is taken. -/
def take (k : κ) (s : Bays κ) : Bays κ :=
  { s with
    held := Function.update s.held k none
    taken := s.taken ++ (s.held k).toList }

/-- The item of a slot is thrown away. -/
def drop (k : κ) (s : Bays κ) : Bays κ :=
  { s with
    held := Function.update s.held k none
    lost := s.lost ++ (s.held k).toList }

variable (s : Bays κ) (k : κ)

@[simp] theorem put_held_self : (s.put k).held k = some s.origins.length :=
  Function.update_self ..

@[simp] theorem take_held_self : (s.take k).held k = none := Function.update_self ..

@[simp] theorem drop_held_self : (s.drop k).held k = none := Function.update_self ..

variable {k} {k' : κ}

theorem put_held_of_ne (h : k' ≠ k) : (s.put k).held k' = s.held k' := Function.update_of_ne h ..

theorem take_held_of_ne (h : k' ≠ k) : (s.take k).held k' = s.held k' := Function.update_of_ne h ..

theorem drop_held_of_ne (h : k' ≠ k) : (s.drop k).held k' = s.held k' := Function.update_of_ne h ..

theorem take_of_none (h : s.held k = none) : s.take k = s := by
  have hheld : Function.update s.held k none = s.held := by
    rw [← h]
    exact Function.update_eq_self k s.held
  unfold take
  rw [hheld, h, Option.toList_none, List.append_nil]

theorem drop_of_none (h : s.held k = none) : s.drop k = s := by
  have hheld : Function.update s.held k none = s.held := by
    rw [← h]
    exact Function.update_eq_self k s.held
  unfold drop
  rw [hheld, h, Option.toList_none, List.append_nil]

end operations

/-- A slot that may be ahead of another has the one item, and the other slot the other. -/
def Overtakes (ahead : κ → κ → Prop) (s : Bays κ) (a b : ℕ) : Prop :=
  ∃ k k', s.origins[a]? = some k ∧ s.origins[b]? = some k' ∧ ahead k k'

end Bays

section accounts

/-- Every item is in one slot, or was taken, or was lost. -/
structure Accounted (s : Bays κ) : Prop where
  origin : ∀ k n, s.held k = some n → s.origins[n]? = some k
  gone : ∀ n ∈ s.taken ++ s.lost, n < s.origins.length ∧ ∀ k, s.held k ≠ some n
  nodup : (s.taken ++ s.lost).Nodup
  all : ∀ n < s.origins.length, n ∈ s.taken ++ s.lost ∨ ∃ k, s.held k = some n

variable {s : Bays κ} {k : κ}

theorem Accounted.lt (h : Accounted s) {n : ℕ} (hn : s.held k = some n) : n < s.origins.length :=
  (List.getElem?_eq_some_iff.mp (h.origin k n hn)).1

theorem Accounted.slot_unique (h : Accounted s) {k' : κ} {n : ℕ} (hn : s.held k = some n)
    (hn' : s.held k' = some n) : k = k' :=
  Option.some.inj ((h.origin k n hn).symm.trans (h.origin k' n hn'))

theorem Accounted.empty (hheld : ∀ k, s.held k = none) (horigins : s.origins = [])
    (htaken : s.taken = []) (hlost : s.lost = []) : Accounted s where
  origin k n hn := absurd hn (by simp [hheld])
  gone n hn := absurd hn (by simp [htaken, hlost])
  nodup := by simp [htaken, hlost]
  all n hn := absurd hn (by simp [horigins])

variable [DecidableEq κ]

theorem Accounted.put (h : Accounted s) (hk : s.held k = none) : Accounted (s.put k) where
  origin k' n hn := by
    by_cases hsame : k' = k
    · subst hsame
      rw [Bays.put_held_self] at hn
      rw [← Option.some.inj hn]
      exact List.getElem?_concat_length
    · rw [Bays.put_held_of_ne s hsame] at hn
      exact (List.getElem?_append_left (h.lt hn)).trans (h.origin k' n hn)
  gone n hn := by
    obtain ⟨hlt, hnot⟩ := h.gone n hn
    refine ⟨?_, fun k' hk' => ?_⟩
    · simp only [Bays.put, List.length_append]
      omega
    · by_cases hsame : k' = k
      · subst hsame
        rw [Bays.put_held_self] at hk'
        exact absurd (Option.some.inj hk') (Nat.ne_of_gt hlt)
      · rw [Bays.put_held_of_ne s hsame] at hk'
        exact hnot k' hk'
  nodup := h.nodup
  all n hn := by
    rw [Bays.put, List.length_append, List.length_singleton] at hn
    rcases Nat.lt_succ_iff_lt_or_eq.mp hn with hlt | rfl
    · refine (h.all n hlt).imp_right fun ⟨k', hk'⟩ => ⟨k', ?_⟩
      have hother : k' ≠ k := by
        rintro rfl
        simp [hk] at hk'
      rwa [Bays.put_held_of_ne s hother]
    · exact .inr ⟨k, Function.update_self ..⟩

theorem Accounted.empties (h : Accounted s) {t : Bays κ} {n : ℕ} (hn : s.held k = some n)
    (horigins : t.origins = s.origins) (hheld : t.held = Function.update s.held k none)
    (hgone : (t.taken ++ t.lost).Perm (n :: (s.taken ++ s.lost))) : Accounted t where
  origin k' m hm := by
    rw [hheld] at hm
    by_cases hsame : k' = k
    · simp [hsame] at hm
    · rw [Function.update_of_ne hsame] at hm
      exact horigins ▸ h.origin k' m hm
  gone m hm := by
    rw [horigins, hheld]
    rcases List.mem_cons.mp (hgone.subset hm) with rfl | hold
    · refine ⟨h.lt hn, fun k' hk' => ?_⟩
      by_cases hsame : k' = k
      · simp [hsame] at hk'
      · rw [Function.update_of_ne hsame] at hk'
        exact hsame (h.slot_unique hk' hn)
    · obtain ⟨hlt, hnot⟩ := h.gone m hold
      refine ⟨hlt, fun k' hk' => ?_⟩
      by_cases hsame : k' = k
      · simp [hsame] at hk'
      · rw [Function.update_of_ne hsame] at hk'
        exact hnot k' hk'
  nodup := by
    rw [hgone.nodup_iff, List.nodup_cons]
    exact ⟨fun hmem => (h.gone n hmem).2 k hn, h.nodup⟩
  all m hm := by
    rw [horigins] at hm
    rw [hgone.mem_iff, hheld, List.mem_cons]
    by_cases hsame : m = n
    · exact .inl (.inl hsame)
    · rcases h.all m hm with hold | ⟨k', hk'⟩
      · exact .inl (.inr hold)
      · refine .inr ⟨k', ?_⟩
        have hother : k' ≠ k := by
          rintro rfl
          exact hsame (Option.some.inj (hk'.symm.trans hn))
        rwa [Function.update_of_ne hother]

theorem Accounted.take (h : Accounted s) (k : κ) : Accounted (s.take k) := by
  cases hk : s.held k with
  | none => rwa [Bays.take_of_none s hk]
  | some n =>
    refine h.empties (t := s.take k) hk rfl rfl ?_
    simp only [Bays.take, hk, Option.toList_some, List.append_assoc, List.singleton_append]
    exact List.perm_middle

theorem Accounted.drop (h : Accounted s) (k : κ) : Accounted (s.drop k) := by
  cases hk : s.held k with
  | none => rwa [Bays.drop_of_none s hk]
  | some n =>
    refine h.empties (t := s.drop k) hk rfl rfl ?_
    simp only [Bays.drop, hk, Option.toList_some, ← List.append_assoc]
    exact List.perm_append_singleton ..

omit [DecidableEq κ] in
/-- Nothing is lost if and only if each item was taken once or is still there. -/
theorem Accounted.all_iff (h : Accounted s) {slots : List κ} (hslots : slots.Nodup)
    (hmem : ∀ k, k ∈ slots) :
    (s.taken ++ slots.filterMap s.held).Perm (List.range s.origins.length) ↔ s.lost = [] := by
  have hheld : ∀ n, n ∈ slots.filterMap s.held ↔ ∃ k, s.held k = some n := fun n =>
    List.mem_filterMap.trans (exists_congr fun k => and_iff_right (hmem k))
  have hdisjoint : ∀ n ∈ s.taken ++ s.lost, n ∉ slots.filterMap s.held := fun n hn hwaits => by
    obtain ⟨k, hk⟩ := (hheld n).mp hwaits
    exact (h.gone n hn).2 k hk
  constructor
  · intro hperm
    apply List.eq_nil_iff_forall_not_mem.mpr
    intro n hlost
    have hgone : n ∈ s.taken ++ s.lost := List.mem_append_right _ hlost
    rcases List.mem_append.mp (hperm.mem_iff.mpr (List.mem_range.mpr (h.gone n hgone).1)) with
      htaken | hwaits
    · exact (List.nodup_append.mp h.nodup).2.2 n htaken n hlost rfl
    · exact hdisjoint n hgone hwaits
  · intro hlost
    have hnodup := h.nodup
    have hall := h.all
    rw [hlost, List.append_nil] at hnodup hdisjoint
    rw [List.perm_ext_iff_of_nodup _ List.nodup_range]
    · intro n
      rw [List.mem_append, hheld, List.mem_range]
      constructor
      · rintro (htaken | ⟨k, hk⟩)
        · exact (h.gone n (List.mem_append_left _ htaken)).1
        · exact h.lt hk
      · intro hn
        simpa [hlost] using hall n hn
    · rw [List.nodup_append]
      refine ⟨hnodup, ?_, fun n htaken m hwaits heq => hdisjoint n htaken (heq ▸ hwaits)⟩
      apply hslots.filterMap
      intro k k' n hn hn'
      exact h.slot_unique hn hn'

end accounts

section order

variable {s : Bays κ} {ahead : κ → κ → Prop}

/-- The items were taken in the order in which they came, but for those that a slot ahead of theirs
has let past; and none that is still there was let past otherwise. -/
structure Ordered (ahead : κ → κ → Prop) (s : Bays κ) : Prop where
  taken : s.taken.Pairwise fun a b => a < b ∨ s.Overtakes ahead a b
  held : ∀ a ∈ s.taken, ∀ k b, s.held k = some b → a < b ∨ s.Overtakes ahead a b

theorem Bays.Overtakes.append {t : Bays κ} {a b : ℕ} (h : s.Overtakes ahead a b)
    (horigins : s.origins <+: t.origins) : t.Overtakes ahead a b := by
  obtain ⟨k, k', hk, hk', hpast⟩ := h
  have hkeep : ∀ {n : ℕ} {k : κ}, s.origins[n]? = some k → t.origins[n]? = some k := by
    intro n k hn
    obtain ⟨rest, hrest⟩ := horigins
    obtain ⟨hlt, -⟩ := List.getElem?_eq_some_iff.mp hn
    rw [← hrest, List.getElem?_append_left hlt, hn]
  exact ⟨k, k', hkeep hk, hkeep hk', hpast⟩

theorem Ordered.empty (htaken : s.taken = []) : Ordered ahead s where
  taken := htaken ▸ List.Pairwise.nil
  held a ha := absurd ha (by simp [htaken])

variable [DecidableEq κ]

theorem Ordered.put (h : Ordered ahead s) (ha : Accounted s) (k : κ) : Ordered ahead (s.put k) where
  taken := h.taken.imp fun hab => hab.imp_right fun hpast => hpast.append (List.prefix_append _ _)
  held a hmem k' b hb := by
    by_cases hsame : k' = k
    · subst hsame
      rw [Bays.put_held_self] at hb
      rw [← Option.some.inj hb]
      exact .inl (ha.gone a (List.mem_append_left _ hmem)).1
    · rw [Bays.put_held_of_ne s hsame] at hb
      exact (h.held a hmem k' b hb).imp_right fun hpast => hpast.append (List.prefix_append _ _)

/-- An item may be taken before the older ones of the slots that its own is ahead of. -/
theorem Ordered.take (h : Ordered ahead s) (ha : Accounted s) {k : κ}
    (hahead : ∀ n, s.held k = some n → ∀ k' m, k' ≠ k → s.held k' = some m → n < m ∨ ahead k k') :
    Ordered ahead (s.take k) where
  taken := by
    refine List.pairwise_append.mpr ⟨h.taken, ?_, fun a hmem b hb => ?_⟩
    · cases s.held k with
      | none => exact List.Pairwise.nil
      | some n => exact List.pairwise_singleton ..
    · exact h.held a hmem k b (Option.mem_toList.mp hb)
  held a hmem k' b hb := by
    have hother : k' ≠ k := by
      rintro rfl
      simp at hb
    rw [Bays.take_held_of_ne s hother] at hb
    rcases List.mem_append.mp hmem with hold | hnew
    · exact h.held a hold k' b hb
    · have hk := Option.mem_toList.mp hnew
      refine (hahead a hk k' b hother hb).imp_right fun hpast => ?_
      exact ⟨k, k', ha.origin k a hk, ha.origin k' b hb, hpast⟩

theorem Ordered.drop (h : Ordered ahead s) (k : κ) : Ordered ahead (s.drop k) where
  taken := h.taken
  held a hmem k' b hb := by
    have hother : k' ≠ k := by
      rintro rfl
      simp at hb
    rw [Bays.drop_held_of_ne s hother] at hb
    exact h.held a hmem k' b hb

end order

section passing

/-- Items only came. -/
structure Filled (s t : Bays κ) : Prop where
  origins : s.origins <+: t.origins
  held : ∀ k n, s.held k = some n → t.held k = some n
  fresh : ∀ k n, t.held k = some n → s.held k = some n ∨ s.origins.length ≤ n
  taken : t.taken = s.taken
  lost : t.lost = s.lost

theorem Filled.refl (s : Bays κ) : Filled s s :=
  ⟨List.prefix_refl _, fun _ _ h => h, fun _ _ h => .inl h, rfl, rfl⟩

theorem Filled.trans {s t u : Bays κ} (h : Filled s t) (h' : Filled t u) : Filled s u where
  origins := h.origins.trans h'.origins
  held k n hn := h'.held k n (h.held k n hn)
  fresh k n hn := by
    rcases h'.fresh k n hn with hold | hnew
    · exact h.fresh k n hold
    · exact .inr (h.origins.length_le.trans hnew)
  taken := h'.taken.trans h.taken
  lost := h'.lost.trans h.lost

theorem Filled.put [DecidableEq κ] {s : Bays κ} {k : κ} (hk : s.held k = none) :
    Filled s (s.put k) where
  origins := List.prefix_append _ _
  held k' n hn := by
    have hother : k' ≠ k := by
      rintro rfl
      simp [hk] at hn
    rwa [Bays.put_held_of_ne s hother]
  fresh k' n hn := by
    by_cases hsame : k' = k
    · subst hsame
      rw [Bays.put_held_self] at hn
      exact .inr (Option.some.inj hn).le
    · rw [Bays.put_held_of_ne s hsame] at hn
      exact .inl hn
  taken := rfl
  lost := rfl

end passing

end Lib.Slots
