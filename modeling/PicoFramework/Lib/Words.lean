import Mathlib.Data.List.DropRight
import Mathlib.Data.List.TakeWhile
import Mathlib.Tactic

/-! The words of a text: its maximal runs without a separator, in order, and what is left of the
text from one of them on. -/

namespace Lib.Words

variable {α : Type*} {sep : α → Bool}

/-- The runs between separators that are not empty. -/
def words (sep : α → Bool) (text : List α) : List (List α) :=
  (text.splitOnP sep).filter fun word => !word.isEmpty

/-- The text from its `k`-th word on. -/
def fromWord (sep : α → Bool) (text : List α) : ℕ → List α
  | 0 => text.dropWhile sep
  | k + 1 => fromWord sep ((text.dropWhile sep).dropWhile fun c => !sep c) k

theorem words_separator {c : α} (hc : sep c = true) (text : List α) :
    words sep (c :: text) = words sep text := by
  simp [words, List.splitOnP_cons_eq_if_modifyHead, hc]

theorem words_dropWhile (text : List α) : words sep (text.dropWhile sep) = words sep text := by
  induction text with
  | nil => rfl
  | cons c text ih =>
    by_cases hc : sep c = true
    · rw [List.dropWhile_cons_of_pos hc, ih, words_separator hc]
    · rw [List.dropWhile_cons_of_neg hc]

theorem words_cons {c : α} (hc : sep c = false) (text : List α) :
    words sep (c :: text) = (c :: text).takeWhile (fun c => !sep c) ::
      words sep ((c :: text).dropWhile fun c => !sep c) := by
  have hword : ∀ d ∈ (c :: text).takeWhile (fun c => !sep c), sep d = false := fun d hd => by
    simpa using List.mem_takeWhile_imp hd
  have hne : (c :: text).takeWhile (fun c => !sep c) ≠ [] := by
    rw [List.takeWhile_cons_of_pos (by simp [hc])]
    exact List.cons_ne_nil _ _
  have hrest : ∀ d rest, ((c :: text).dropWhile fun c => !sep c) = d :: rest → sep d = true := by
    intro d rest heq
    have hne : ((c :: text).dropWhile fun c => !sep c) ≠ [] := by simp [heq]
    have := List.head_dropWhile_not (fun c => !sep c) hne
    simpa [heq] using this
  conv_lhs => rw [← List.takeWhile_append_dropWhile (p := fun c => !sep c) (l := c :: text)]
  generalize (c :: text).takeWhile (fun c => !sep c) = word at hword hne ⊢
  cases htail : (c :: text).dropWhile fun c => !sep c with
  | nil =>
    rw [List.append_nil, words, List.splitOnP_eq_singleton hword]
    simp [words, hne]
  | cons d rest =>
    have hd := hrest d rest htail
    rw [words, List.splitOnP_append_cons_of_forall_mem hword d hd, words_separator hd]
    simp [words, hne]

theorem words_eq (text : List α) : words sep text =
    if text.dropWhile sep = [] then []
    else (text.dropWhile sep).takeWhile (fun c => !sep c) ::
      words sep ((text.dropWhile sep).dropWhile fun c => !sep c) := by
  rw [← words_dropWhile]
  cases hstart : text.dropWhile sep with
  | nil => rfl
  | cons c rest =>
    have hc : sep c = false := by
      have hne : text.dropWhile sep ≠ [] := by simp [hstart]
      have := List.head_dropWhile_not sep hne
      simpa [hstart] using this
    rw [words_cons hc, if_neg (by simp)]

theorem fromWord_succ (text : List α) (k : ℕ) : fromWord sep text (k + 1) =
    ((fromWord sep text k).dropWhile fun c => !sep c).dropWhile sep := by
  induction k generalizing text with
  | zero => rfl
  | succ k ih => exact ih _

theorem words_fromWord (text : List α) (k : ℕ) :
    words sep (fromWord sep text k) = (words sep text).drop k := by
  induction k generalizing text with
  | zero => exact words_dropWhile text
  | succ k ih =>
    rw [fromWord, ih, words_eq text]
    by_cases hend : text.dropWhile sep = []
    · simp [hend, words]
    · simp [hend]

theorem dropWhile_fromWord (text : List α) (k : ℕ) :
    (fromWord sep text k).dropWhile sep = fromWord sep text k := by
  cases k with
  | zero => exact List.dropWhile_idempotent _ text
  | succ k =>
    rw [fromWord_succ]
    exact List.dropWhile_idempotent _ _

theorem getElem?_words (text : List α) (k : ℕ) : (words sep text)[k]? =
    if fromWord sep text k = [] then none
    else some ((fromWord sep text k).takeWhile fun c => !sep c) := by
  have hhead : (words sep text)[k]? = (words sep (fromWord sep text k)).head? := by
    rw [words_fromWord, List.head?_drop]
  rw [hhead, words_eq, dropWhile_fromWord]
  split_ifs <;> rfl

theorem fromWord_eq_nil_iff (text : List α) (k : ℕ) :
    fromWord sep text k = [] ↔ (words sep text).length ≤ k := by
  rw [← List.getElem?_eq_none_iff, getElem?_words]
  split_ifs with hend
  · simp [hend]
  · simp [hend]

end Lib.Words
