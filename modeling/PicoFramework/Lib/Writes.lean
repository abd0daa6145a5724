import Mathlib.Tactic

/-! What a list of writes to addressed cells leaves behind: the last write to a cell
wins, and a cell that no write reached keeps the default. -/

namespace Lib.Writes

variable {α : Type*}

/-- The cell at `a` after the writes, in order. -/
def stored (d : α) (ws : List (ℕ × α)) (a : ℕ) : α :=
  ws.foldl (fun v w => if w.1 = a then w.2 else v) d

/-- One past the highest address written, zero when nothing was. -/
def extent (ws : List (ℕ × α)) : ℕ := ws.foldl (fun n w => max n (w.1 + 1)) 0

@[simp] theorem stored_nil (d : α) (a : ℕ) : stored d [] a = d := rfl

@[simp] theorem extent_nil : extent ([] : List (ℕ × α)) = 0 := rfl

theorem stored_snoc (d : α) (ws : List (ℕ × α)) (w : ℕ × α) (a : ℕ) :
    stored d (ws ++ [w]) a = if w.1 = a then w.2 else stored d ws a := by
  simp [stored]

theorem extent_snoc (ws : List (ℕ × α)) (w : ℕ × α) :
    extent (ws ++ [w]) = max (extent ws) (w.1 + 1) := by
  simp [extent]

theorem stored_of_not_mem (d : α) {ws : List (ℕ × α)} {a : ℕ} (h : ∀ w ∈ ws, w.1 ≠ a) :
    stored d ws a = d := by
  induction ws using List.reverseRecOn with
  | nil => rfl
  | append_singleton ws w ih =>
    rw [stored_snoc, if_neg (h w (by simp)), ih fun x hx => h x (by simp [hx])]

theorem extent_le_iff (ws : List (ℕ × α)) (n : ℕ) : extent ws ≤ n ↔ ∀ w ∈ ws, w.1 < n := by
  induction ws using List.reverseRecOn with
  | nil => simp
  | append_singleton ws w ih =>
    rw [extent_snoc, max_le_iff, ih, Nat.succ_le_iff]
    constructor
    · rintro ⟨hws, hw⟩ x hx
      rcases List.mem_append.mp hx with hx | hx
      · exact hws x hx
      · rw [List.mem_singleton.mp hx]
        exact hw
    · intro h
      exact ⟨fun x hx => h x (by simp [hx]), h w (by simp)⟩

theorem extent_append (ws vs : List (ℕ × α)) :
    extent (ws ++ vs) = max (extent ws) (extent vs) := by
  apply le_antisymm
  · rw [extent_le_iff]
    intro w hw
    rcases List.mem_append.mp hw with hw | hw
    · exact lt_of_lt_of_le ((extent_le_iff ws _).mp le_rfl w hw) (le_max_left _ _)
    · exact lt_of_lt_of_le ((extent_le_iff vs _).mp le_rfl w hw) (le_max_right _ _)
  · rw [max_le_iff, extent_le_iff, extent_le_iff]
    constructor
    · intro w hw
      exact (extent_le_iff (ws ++ vs) _).mp le_rfl w (by simp [hw])
    · intro w hw
      exact (extent_le_iff (ws ++ vs) _).mp le_rfl w (by simp [hw])

/-- Cells that are written once hold what was written, in whatever order. -/
theorem stored_of_mem (d : α) {ws : List (ℕ × α)} (hnodup : (ws.map Prod.fst).Nodup) {w : ℕ × α}
    (h : w ∈ ws) : stored d ws w.1 = w.2 := by
  induction ws using List.reverseRecOn with
  | nil => simp at h
  | append_singleton ws v ih =>
    rw [List.map_append, List.nodup_append] at hnodup
    obtain ⟨hinit, -, hdisjoint⟩ := hnodup
    rw [stored_snoc]
    rcases List.mem_append.mp h with hw | hw
    · rw [if_neg, ih hinit hw]
      intro heq
      exact hdisjoint w.1 (List.mem_map_of_mem hw) v.1 (by simp) heq.symm
    · rw [List.mem_singleton.mp hw, if_pos rfl]

theorem stored_perm (d : α) {ws vs : List (ℕ × α)} (h : ws.Perm vs)
    (hnodup : (ws.map Prod.fst).Nodup) (a : ℕ) : stored d ws a = stored d vs a := by
  by_cases ha : ∃ w ∈ ws, w.1 = a
  · obtain ⟨w, hw, rfl⟩ := ha
    rw [stored_of_mem d hnodup hw,
      stored_of_mem d ((h.map Prod.fst).nodup_iff.mp hnodup) (h.mem_iff.mp hw)]
  · push Not at ha
    rw [stored_of_not_mem d ha, stored_of_not_mem d fun w hw => ha w (h.mem_iff.mpr hw)]

theorem extent_perm {ws vs : List (ℕ × α)} (h : ws.Perm vs) : extent ws = extent vs := by
  apply le_antisymm
  · rw [extent_le_iff]
    exact fun w hw => (extent_le_iff vs _).mp le_rfl w (h.mem_iff.mp hw)
  · rw [extent_le_iff]
    exact fun w hw => (extent_le_iff ws _).mp le_rfl w (h.mem_iff.mpr hw)

/-- A dictionary: the value of a key replaced in its place, or a new key at the end. -/
def assign (ws : List (ℕ × α)) (a : ℕ) (v : α) : List (ℕ × α) :=
  if a ∈ ws.map Prod.fst then ws.map fun w => if w.1 = a then (a, v) else w else ws ++ [(a, v)]

theorem keys_replaced (ws : List (ℕ × α)) (a : ℕ) (v : α) :
    (ws.map fun w => if w.1 = a then (a, v) else w).map Prod.fst = ws.map Prod.fst := by
  rw [List.map_map]
  apply List.map_congr_left
  intro w _
  simp only [Function.comp_apply]
  split_ifs with h
  · exact h.symm
  · rfl

theorem nodup_assign {ws : List (ℕ × α)} (h : (ws.map Prod.fst).Nodup) (a : ℕ) (v : α) :
    ((assign ws a v).map Prod.fst).Nodup := by
  unfold assign
  split_ifs with hmem
  · rwa [keys_replaced]
  · rw [List.map_append, List.map_singleton, ← List.concat_eq_append]
    exact h.concat hmem

theorem stored_assign (d : α) {ws : List (ℕ × α)} (h : (ws.map Prod.fst).Nodup) (a : ℕ) (v : α)
    (b : ℕ) : stored d (assign ws a v) b = if a = b then v else stored d ws b := by
  have hnodup := nodup_assign h a v
  unfold assign at hnodup ⊢
  split_ifs at hnodup ⊢ with hmem hab hab
  · subst hab
    obtain ⟨w, hw, rfl⟩ := List.mem_map.mp hmem
    exact stored_of_mem d hnodup (List.mem_map.mpr ⟨w, hw, if_pos rfl⟩)
  · by_cases hb : ∃ w ∈ ws, w.1 = b
    · obtain ⟨w, hw, rfl⟩ := hb
      rw [stored_of_mem d h hw]
      exact stored_of_mem d hnodup (List.mem_map.mpr ⟨w, hw, if_neg fun heq => hab heq.symm⟩)
    · push Not at hb
      rw [stored_of_not_mem d hb]
      apply stored_of_not_mem
      intro x hx
      obtain ⟨w, hw, rfl⟩ := List.mem_map.mp hx
      split_ifs with hwa
      · exact hab
      · exact hb w hw
  · rw [stored_snoc, if_pos hab]
  · rw [stored_snoc, if_neg hab]

theorem foldl_set_eq (d : α) (ws : List (ℕ × α)) (n : ℕ) :
    ws.foldl (fun cells w => cells.set w.1 w.2) (List.replicate n d) =
      (List.range n).map (stored d ws) := by
  induction ws using List.reverseRecOn with
  | nil =>
    rw [List.foldl_nil]
    exact List.ext_getElem (by simp) (by simp)
  | append_singleton ws w ih =>
    rw [List.foldl_append, List.foldl_cons, List.foldl_nil, ih]
    apply List.ext_getElem
    · simp
    · intro i hi hi'
      rw [List.getElem_set, List.getElem_map, List.getElem_map, List.getElem_range, stored_snoc]

end Lib.Writes
