import PicoFramework.Lib.Hoare

/-! Rounds of a stateful computation, one after the other, until one of them settles it or as many as
there may be have been run. Each round is told its number and what the one before came to. -/

namespace Lib.Retry

open Lib.Hoare

universe u

variable {σ α : Type u} (round : ℕ → α → StateM σ α) (settled : α → Bool)

/-- The rounds from this one on, with `left` that may still be run. -/
def loop : (number left : ℕ) → α → StateM σ α
  | _, 0, last => pure last
  | number, left + 1, last => do
      let outcome ← round number last
      if settled outcome then pure outcome else loop (number + 1) left outcome

/-- What each of the rounds comes to. -/
def outcomes : (number left : ℕ) → α → σ → List α
  | _, 0, _, _ => []
  | number, left + 1, last, s =>
      let (outcome, s') := (round number last).run s
      outcome :: if settled outcome then [] else outcomes (number + 1) left outcome s'

section shape

variable {round settled} (number left : ℕ) (last : α) (s : σ)

theorem loop_succ :
    (loop round settled number (left + 1) last).run s =
      (if settled ((round number last).run s).1 then pure ((round number last).run s).1
        else loop round settled (number + 1) left ((round number last).run s).1).run
          ((round number last).run s).2 := rfl

theorem outcomes_succ :
    outcomes round settled number (left + 1) last s =
      ((round number last).run s).1 :: if settled ((round number last).run s).1 then []
        else outcomes round settled (number + 1) left ((round number last).run s).1
          ((round number last).run s).2 := rfl

theorem length_outcomes_le : (outcomes round settled number left last s).length ≤ left := by
  induction left generalizing number last s with
  | zero => exact le_rfl
  | succ left ih =>
    rw [outcomes_succ, List.length_cons, Nat.add_le_add_iff_right]
    split
    · exact Nat.zero_le _
    · exact ih _ _ _

theorem outcomes_ne_nil : outcomes round settled number (left + 1) last s ≠ [] :=
  List.cons_ne_nil _ _

theorem length_outcomes_le_one_iff :
    (outcomes round settled number (left + 1) last s).length ≤ 1 ↔
      settled ((round number last).run s).1 = true ∨ left = 0 := by
  rw [outcomes_succ, List.length_cons, Nat.succ_le_succ_iff, Nat.le_zero, List.length_eq_zero_iff]
  split
  · rename_i hsettled
    exact iff_of_true rfl (.inl hsettled)
  · rename_i hunsettled
    rw [or_iff_right hunsettled]
    cases left with
    | zero => exact iff_of_true rfl rfl
    | succ left => exact iff_of_false (outcomes_ne_nil _ _ _ _) (Nat.succ_ne_zero left)

theorem getLastD_outcomes :
    (outcomes round settled number left last s).getLastD last =
      ((loop round settled number left last).run s).1 := by
  induction left generalizing number last s with
  | zero => rfl
  | succ left ih =>
    rw [loop_succ, outcomes_succ, List.getLastD_cons]
    split
    · rfl
    · exact ih _ _ _

theorem getLast?_outcomes :
    (outcomes round settled number (left + 1) last s).getLast? =
      some ((loop round settled number (left + 1) last).run s).1 := by
  rw [← getLastD_outcomes, List.getLastD_eq_getLast?,
    List.getLast?_eq_some_getLast (outcomes_ne_nil number left last s), Option.getD_some]

theorem unsettled_before_last :
    ∀ outcome ∈ (outcomes round settled number left last s).dropLast, settled outcome = false := by
  induction left generalizing number last s with
  | zero => exact fun _ h => absurd h List.not_mem_nil
  | succ left ih =>
    intro outcome houtcome
    rw [outcomes_succ] at houtcome
    split at houtcome
    · exact absurd houtcome List.not_mem_nil
    · rename_i hunsettled
      rcases hrest : outcomes round settled (number + 1) left ((round number last).run s).1
          ((round number last).run s).2 with _ | ⟨next, rest⟩
      · rw [hrest] at houtcome
        exact absurd houtcome List.not_mem_nil
      · rw [hrest, List.dropLast_cons_cons, List.mem_cons] at houtcome
        rcases houtcome with rfl | houtcome
        · exact Bool.eq_false_iff.mpr hunsettled
        · rw [← hrest] at houtcome
          exact ih _ _ _ _ houtcome

end shape

section rule

variable {round settled} {inv : List α → α → σ → Prop}

/-- What every round keeps of its history holds of the whole one. -/
theorem loop_keeps
    (hround : ∀ history last, settled last = false →
      Ensures (inv history last) (round history.length last) fun outcome s =>
        inv (history ++ [outcome]) outcome s)
    (history : List α) (left : ℕ) {last : α} (hlast : settled last = false) {s : σ}
    (h : inv history last s) :
    inv (history ++ outcomes round settled history.length left last s)
      ((loop round settled history.length left last).run s).1
      ((loop round settled history.length left last).run s).2 := by
  induction left generalizing history last s with
  | zero =>
    rw [outcomes, List.append_nil]
    exact h
  | succ left ih =>
    have hnext := hround history last hlast s h
    rw [loop_succ, outcomes_succ]
    by_cases hsettled : settled ((round history.length last).run s).1 = true
    · rw [if_pos hsettled, if_pos hsettled]
      exact hnext
    · rw [if_neg hsettled, if_neg hsettled]
      have hrest := ih (history ++ [((round history.length last).run s).1])
        (Bool.eq_false_iff.mpr hsettled) hnext
      rw [List.length_append, List.length_singleton, List.append_assoc,
        List.singleton_append] at hrest
      exact hrest

end rule

end Lib.Retry
