import Mathlib.Data.List.DropRight
import PicoFramework.Lib.Queue

/-! What a log keeps of its output: the newest elements of what nobody has read, as many as it has
room for. -/

namespace Lib.Newest

open Lib.Queue

variable {α : Type*}

inductive Call (α : Type*) where
  | write (xs : List α)
  | read (n : ℕ)
  | clear

/-- A log of which it is remembered what has been written since the last element that was read, or
since it was cleared. What is read are the oldest elements that are kept, with their number. -/
def answer (capacity : ℕ) (unread : List α) : Call α → (List α × ℕ) × List α
  | .write xs => (([], 0), unread ++ xs)
  | .read n =>
      let kept := unread.rtake capacity
      ((kept.take n, min n kept.length), if n = 0 then unread else kept.drop n)
  | .clear => (([], 0), [])

section newest

variable {n : ℕ} {xs ys : List α}

theorem length_rtake (n : ℕ) (xs : List α) : (xs.rtake n).length = min n xs.length := by
  unfold List.rtake
  rw [List.length_drop]
  omega

theorem rtake_of_length_le (h : xs.length ≤ n) : xs.rtake n = xs := by
  unfold List.rtake
  rw [Nat.sub_eq_zero_of_le h, List.drop_zero]

theorem rtake_append (n : ℕ) (xs ys : List α) :
    (xs ++ ys).rtake n = xs.rtake (n - ys.length) ++ ys.rtake n := by
  have hlater : xs.length + ys.length - n - xs.length = ys.length - n := by omega
  unfold List.rtake
  rw [List.length_append, List.drop_append, hlater]
  rcases le_total ys.length n with hle | hge
  · have hearlier : xs.length + ys.length - n = xs.length - (n - ys.length) := by omega
    rw [hearlier]
  · have hnone : xs.drop (xs.length + ys.length - n) = [] := List.drop_eq_nil_of_le (by omega)
    rw [hnone, Nat.sub_eq_zero_of_le hge, Nat.sub_zero, List.drop_length]

theorem rtake_rtake (m n : ℕ) (xs : List α) : (xs.rtake n).rtake m = xs.rtake (min m n) := by
  have hlength := length_rtake n xs
  unfold List.rtake at hlength ⊢
  rw [hlength, List.drop_drop]
  congr 1
  omega

theorem rtake_append_rtake (n : ℕ) (xs ys : List α) :
    (xs.rtake n ++ ys).rtake n = (xs ++ ys).rtake n := by
  rw [rtake_append, rtake_append, rtake_rtake, Nat.min_eq_left (Nat.sub_le _ _)]

/-- A write that is cut leaves the newest elements exactly when it ends with what it begins with. -/
theorem rtake_append_take_iff :
    (xs.rtake n ++ ys.take n).rtake n = (xs ++ ys).rtake n ↔ ys.take n = ys.rtake n := by
  rw [rtake_append_rtake]
  rcases le_total ys.length n with hle | hge
  · rw [List.take_of_length_le hle, rtake_of_length_le hle]
    exact iff_of_true rfl rfl
  · have htaken : (ys.take n).length = n := by rw [List.length_take, Nat.min_eq_left hge]
    rw [rtake_append, rtake_append, htaken, Nat.sub_self, Nat.sub_eq_zero_of_le hge, List.rtake_zero,
      List.nil_append, List.nil_append, rtake_of_length_le htaken.le]

end newest

section queues

/-- The oldest elements go until there is room, and then as much is written as there is room for. -/
def makeRoomAndWrite (q : Fifo α) (xs : List α) : Fifo α :=
  (q.discard (xs.length - q.free)).write xs

theorem content_makeRoomAndWrite (q : Fifo α) (xs : List α) :
    (makeRoomAndWrite q xs).content = (q.content ++ xs.take q.capacity).rtake q.capacity := by
  obtain ⟨capacity, content, hfits⟩ := q
  unfold makeRoomAndWrite Fifo.discard Fifo.write Fifo.free
  dsimp only
  rcases le_total xs.length capacity with hle | hge
  · have hdropped : content.drop (xs.length - (capacity - content.length)) =
        content.rtake (capacity - xs.length) := by
      unfold List.rtake
      congr 1
      omega
    have hroom : xs.length ≤ capacity - (content.rtake (capacity - xs.length)).length := by
      rw [length_rtake]
      omega
    rw [List.take_of_length_le hle, rtake_append, rtake_of_length_le hle, hdropped,
      List.take_of_length_le hroom]
  · have htaken : (xs.take capacity).length = capacity := by
      rw [List.length_take, Nat.min_eq_left hge]
    rw [rtake_append, htaken, Nat.sub_self, List.rtake_zero, rtake_of_length_le htaken.le,
      List.drop_eq_nil_of_le (by omega), List.length_nil, Nat.sub_zero]

end queues

end Lib.Newest
