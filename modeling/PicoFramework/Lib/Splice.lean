import Mathlib.Tactic

/-! Spans of a buffer: what a copy into the middle of a list leaves before, inside
and after the bytes it wrote. -/

namespace Lib.Splice

variable {α : Type*}

/-- `n` elements from position `pos` on. -/
def span (buf : List α) (pos n : ℕ) : List α := (buf.drop pos).take n

/-- `xs` written over `buf` from position `pos` on. -/
def overwrite (buf : List α) (pos : ℕ) (xs : List α) : List α :=
  buf.take pos ++ xs ++ buf.drop (pos + xs.length)

/-- `n` elements moved from `src` to `dst`; the two spans may overlap. -/
def move (buf : List α) (dst src n : ℕ) : List α := overwrite buf dst (span buf src n)

theorem length_span (buf : List α) (pos n : ℕ) (h : pos + n ≤ buf.length) :
    (span buf pos n).length = n := by
  simp only [span, List.length_take, List.length_drop]
  omega

@[simp] theorem length_overwrite (buf : List α) (pos : ℕ) (xs : List α)
    (h : pos + xs.length ≤ buf.length) : (overwrite buf pos xs).length = buf.length := by
  simp only [overwrite, List.length_append, List.length_take, List.length_drop]
  omega

@[simp] theorem overwrite_nil (buf : List α) (pos : ℕ) : overwrite buf pos [] = buf := by
  simp [overwrite]

theorem take_overwrite (buf : List α) (pos : ℕ) (xs : List α) (h : pos ≤ buf.length) :
    (overwrite buf pos xs).take pos = buf.take pos := by
  rw [overwrite, List.append_assoc, List.take_left' (by simpa using h)]

theorem drop_overwrite (buf : List α) (pos : ℕ) (xs : List α) (h : pos ≤ buf.length) :
    (overwrite buf pos xs).drop (pos + xs.length) = buf.drop (pos + xs.length) := by
  rw [overwrite, List.drop_left' (by simp [h])]

theorem span_overwrite (buf : List α) (pos : ℕ) (xs : List α) (h : pos ≤ buf.length) :
    span (overwrite buf pos xs) pos xs.length = xs := by
  rw [span, overwrite, List.append_assoc, List.drop_left' (by simpa using h), List.take_left]

theorem overwrite_overwrite (buf : List α) (pos : ℕ) (xs ys : List α) (h : pos ≤ buf.length) :
    overwrite (overwrite buf pos xs) (pos + xs.length) ys = overwrite buf pos (xs ++ ys) := by
  have htake : (overwrite buf pos xs).take (pos + xs.length) = buf.take pos ++ xs := by
    rw [overwrite, List.take_left' (by simp [h])]
  have hdrop : (overwrite buf pos xs).drop (pos + xs.length + ys.length) =
      buf.drop (pos + (xs ++ ys).length) := by
    rw [← List.drop_drop, drop_overwrite buf pos xs h, List.drop_drop, List.length_append,
      Nat.add_assoc]
  rw [overwrite, htake, hdrop, overwrite]
  simp only [List.append_assoc]

theorem span_overwrite_of_disjoint (buf : List α) (pos : ℕ) (xs : List α) (q n : ℕ)
    (h : pos + xs.length ≤ buf.length) (hq : q + n ≤ pos ∨ pos + xs.length ≤ q) :
    span (overwrite buf pos xs) q n = span buf q n := by
  rcases hq with hq | hq
  · have hsplit (l : List α) : (l.drop q).take n = ((l.take pos).drop q).take n := by
      rw [List.drop_take, List.take_take, Nat.min_eq_left (by omega)]
    rw [span, hsplit, take_overwrite buf pos xs (by omega), ← hsplit, span]
  · obtain ⟨d, rfl⟩ := Nat.exists_eq_add_of_le hq
    rw [span, ← List.drop_drop, drop_overwrite buf pos xs (by omega), List.drop_drop, span]

theorem set_eq_overwrite (buf : List α) (pos : ℕ) (x : α) (h : pos < buf.length) :
    buf.set pos x = overwrite buf pos [x] := by
  rw [List.set_eq_take_append_cons_drop, if_pos h, overwrite, List.append_assoc]
  rfl

theorem drop_overwrite_start (buf : List α) (pos : ℕ) (xs : List α) (h : pos ≤ buf.length) :
    (overwrite buf pos xs).drop pos = xs ++ buf.drop (pos + xs.length) := by
  rw [overwrite, List.append_assoc, List.drop_left' (by simpa using h)]

theorem take_eq_take_append_span (buf : List α) (p n : ℕ) :
    buf.take (p + n) = buf.take p ++ span buf p n := by
  rw [span, List.take_add]

theorem span_eq_take (buf : List α) (n : ℕ) : span buf 0 n = buf.take n := by
  rw [span, List.drop_zero]

theorem length_move (buf : List α) (dst src n : ℕ) (hdst : dst + n ≤ buf.length)
    (hsrc : src + n ≤ buf.length) : (move buf dst src n).length = buf.length := by
  rw [move, length_overwrite _ _ _ (by rwa [length_span _ _ _ hsrc])]

/-- Room for `xs` made or closed by moving the tail, then `xs` written into it: the
prefix stays, `xs` follows, and the old tail ends the run. -/
theorem take_replace (buf : List α) (pos old tail : ℕ) (xs : List α)
    (hold : pos + old + tail ≤ buf.length) (hnew : pos + xs.length + tail ≤ buf.length) :
    (overwrite (move buf (pos + xs.length) (pos + old) tail) pos xs).take
      (pos + xs.length + tail) = buf.take pos ++ xs ++ span buf (pos + old) tail := by
  have htail : (span buf (pos + old) tail).length = tail := length_span _ _ _ hold
  have hlen := length_move buf (pos + xs.length) (pos + old) tail hnew hold
  have hmoved : span (move buf (pos + xs.length) (pos + old) tail) (pos + xs.length) tail =
      span buf (pos + old) tail := by
    have := span_overwrite buf (pos + xs.length) (span buf (pos + old) tail) (by omega)
    rwa [htail] at this
  have hkept : (move buf (pos + xs.length) (pos + old) tail).take pos = buf.take pos := by
    rw [← span_eq_take, move, span_overwrite_of_disjoint _ _ _ _ _ (by omega) (Or.inl (by omega)),
      span_eq_take]
  rw [take_eq_take_append_span, take_eq_take_append_span,
    take_overwrite _ _ _ (by omega), span_overwrite _ _ _ (by omega),
    span_overwrite_of_disjoint _ _ _ _ _ (by omega) (Or.inr le_rfl), hmoved, hkept]

end Lib.Splice
