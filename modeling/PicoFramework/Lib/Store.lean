import PicoFramework.Lib.Splice

/-! Writes to a buffer that fault when they are outside it, and the loops that fill a span of the
buffer from either end. -/

namespace Lib.Store

open Lib.Splice

variable {α : Type*}

/-- One element written, if the position is in the buffer. -/
def store (buf : List α) (pos : ℕ) (x : α) : Option (List α) :=
  if pos < buf.length then some (buf.set pos x) else none

/-- Elements written one behind the other. -/
def storeAll (buf : List α) (pos : ℕ) : List α → Option (List α)
  | [] => some buf
  | x :: xs => do
      let buf ← store buf pos x
      storeAll buf (pos + 1) xs

theorem store_eq {buf : List α} {pos : ℕ} (h : pos < buf.length) (x : α) :
    store buf pos x = some (overwrite buf pos [x]) := by
  rw [store, if_pos h, set_eq_overwrite buf pos x h]

theorem store_behind (buf xs : List α) {pos : ℕ} (h : pos + xs.length < buf.length) (x : α) :
    store (overwrite buf pos xs) (pos + xs.length) x = some (overwrite buf pos (xs ++ [x])) := by
  rw [store_eq (by rwa [length_overwrite _ _ _ h.le]), overwrite_overwrite _ _ _ _ (by omega)]

theorem store_next (buf xs : List α) (h : xs.length < buf.length) (x : α) :
    store (overwrite buf 0 xs) xs.length x = some (overwrite buf 0 (xs ++ [x])) := by
  have hnext := store_behind buf xs (by rwa [Nat.zero_add]) x
  rwa [Nat.zero_add] at hnext

theorem store_before (buf xs : List α) (pos : ℕ) (h : pos + 1 + xs.length ≤ buf.length) (x : α) :
    store (overwrite buf (pos + 1) xs) pos x = some (overwrite buf pos (x :: xs)) := by
  have htake : (overwrite buf (pos + 1) xs).take pos = buf.take pos := by
    rw [overwrite, List.append_assoc, List.take_append_of_le_length (by simp; omega), List.take_take,
      Nat.min_eq_left (Nat.le_succ pos)]
  have hdrop : (overwrite buf (pos + 1) xs).drop (pos + 1) = xs ++ buf.drop (pos + 1 + xs.length) :=
    drop_overwrite_start _ _ _ (by omega)
  have hend : pos + 1 + xs.length = pos + (x :: xs).length := by
    rw [List.length_cons]
    omega
  rw [store_eq (by rw [length_overwrite _ _ _ h]; omega), overwrite, htake, List.length_singleton,
    hdrop, overwrite, hend]
  simp

theorem storeAll_eq (buf : List α) (pos : ℕ) (xs : List α) (h : pos + xs.length ≤ buf.length) :
    storeAll buf pos xs = some (overwrite buf pos xs) := by
  induction xs generalizing buf pos with
  | nil => rw [storeAll, overwrite_nil]
  | cons x xs ih =>
    rw [List.length_cons] at h
    have hlength : (overwrite buf pos [x]).length = buf.length :=
      length_overwrite _ _ _ (by rw [List.length_singleton]; omega)
    have hrest := overwrite_overwrite buf pos [x] xs (by omega)
    rw [storeAll, store_eq (by omega)]
    change storeAll (overwrite buf pos [x]) (pos + 1) xs = _
    rw [ih _ _ (by rw [hlength]; omega)]
    exact congrArg some hrest

theorem foldlM_up (buf : List α) (pos n : ℕ) (f : ℕ → α) (h : pos + n ≤ buf.length) :
    (List.range n).foldlM (fun buf i => store buf (pos + i) (f i)) buf =
      some (overwrite buf pos ((List.range n).map f)) := by
  induction n with
  | zero => exact congrArg some (overwrite_nil buf pos).symm
  | succ n ih =>
    have hroom : pos + ((List.range n).map f).length < buf.length := by
      rw [List.length_map, List.length_range]
      omega
    have hnext := store_behind buf _ hroom (f n)
    rw [List.length_map, List.length_range] at hnext
    rw [List.range_succ, List.foldlM_append, ih (by omega)]
    simp [hnext]

theorem foldlM_down_part (buf : List α) (pos n k : ℕ) (f : ℕ → α) (h : pos + n ≤ buf.length)
    (hk : k ≤ n) : (List.range k).foldlM (fun buf i => store buf (pos + (n - 1 - i)) (f i)) buf =
      some (overwrite buf (pos + (n - k)) ((List.range k).map f).reverse) := by
  induction k with
  | zero => exact congrArg some (overwrite_nil buf _).symm
  | succ k ih =>
    have hnext := store_before buf ((List.range k).map f).reverse (pos + (n - (k + 1)))
      (by simp; omega) (f k)
    have hat : pos + (n - (k + 1)) + 1 = pos + (n - k) := by omega
    have hpos : pos + (n - 1 - k) = pos + (n - (k + 1)) := by omega
    rw [hat] at hnext
    rw [List.range_succ, List.foldlM_append, ih (by omega)]
    simp [hpos, hnext]

theorem foldlM_down (buf : List α) (pos n : ℕ) (f : ℕ → α) (h : pos + n ≤ buf.length) :
    (List.range n).foldlM (fun buf i => store buf (pos + (n - 1 - i)) (f i)) buf =
      some (overwrite buf pos ((List.range n).map f).reverse) := by
  rw [foldlM_down_part buf pos n n f h le_rfl, Nat.sub_self, Nat.add_zero]

end Lib.Store
