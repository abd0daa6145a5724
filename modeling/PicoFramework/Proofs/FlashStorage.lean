import PicoFramework.Spec.FlashStorage

/-! What an operation of `flash_storage.c` can have done to the chip when it returns,
and when power goes while it runs. -/

namespace Pico

open Lib.Nor Lib.Power Lib.Splice

theorem length_padPage (bytes : Bytes) (h : bytes.length ≤ 256) : (padPage bytes).length = 256 := by
  rw [padPage, length_overwrite]
  · exact List.length_replicate
  · rw [List.length_replicate, Nat.zero_add]
    exact h

theorem getD_padPage (bytes : Bytes) (j : ℕ) :
    (padPage bytes).getD j erased = bytes.getD j erased := by
  simp only [padPage, overwrite, List.take_zero, List.nil_append, Nat.zero_add,
    List.getD_eq_getElem?_getD]
  rcases lt_or_ge j bytes.length with hj | hj
  · rw [List.getElem?_append_left hj]
  · rw [List.getElem?_append_right hj, List.getElem?_eq_none hj, List.drop_replicate,
      List.getElem?_replicate]
    split_ifs
    · rfl
    · rfl

def FlashOp.start : FlashOp → ℕ
  | .erase offset _ => offset
  | .program offset _ => offset

def FlashOp.size : FlashOp → ℕ
  | .erase _ size => size
  | .program _ data => data.length

/-- Two memories that agree outside the span of an operation. -/
def FlashOp.Frames (op : FlashOp) (mem mem' : Mem) : Prop :=
  ∀ a, a < op.start ∨ op.start + op.size ≤ a → mem' a = mem a

theorem FlashOp.frames_apply (op : FlashOp) (mem : Mem) : op.Frames mem (op.apply mem) := by
  intro a ha
  cases op with
  | erase offset size => exact erase_outside ha
  | program offset data => exact program_outside ha

theorem FlashOp.frames_garble (op : FlashOp) (bytes mem : Mem) :
    op.Frames mem (op.garble bytes mem) := by
  intro a ha
  cases op with
  | erase offset size => exact scribble_outside ha
  | program offset data => exact scribble_outside ha

/-- No operation to come is reported as done after having been done badly. -/
def FlashWorld.NoWear (w : FlashWorld) : Prop := ∀ bytes, FlashFault.worn bytes ∉ w.faults

/-- The chip is as it was, and less may go wrong than before. -/
structure Untouched (w t : FlashWorld) : Prop where
  mem : t.mem = w.mem
  trace : t.trace = w.trace
  noWear : w.NoWear → t.NoWear

structure Carried (op : FlashOp) (w t : FlashWorld) : Prop where
  mem : t.mem = op.apply w.mem
  trace : t.trace = w.trace ++ [.carried op]
  noWear : w.NoWear → t.NoWear

structure Torn (op : FlashOp) (w t : FlashWorld) : Prop where
  frames : op.Frames w.mem t.mem
  trace : t.trace = w.trace ++ [.torn op]
  noWear : w.NoWear → t.NoWear

/-- An operation that was asked for and ran: done, or done badly by a worn chip. -/
def Ran (op : FlashOp) (w t : FlashWorld) : Prop :=
  Carried op w t ∨ (Torn op w t ∧ ¬ w.NoWear)

/-- The states in which power can go during one operation. -/
def Cut (op : FlashOp) (w t : FlashWorld) : Prop :=
  Untouched w t ∨ Carried op w t ∨ Torn op w t

theorem Untouched.refl (w : FlashWorld) : Untouched w w := ⟨rfl, rfl, id⟩

theorem Ran.carried {op : FlashOp} {w t : FlashWorld} (h : Ran op w t) (hw : w.NoWear) :
    Carried op w t := by
  rcases h with h | ⟨-, h⟩
  · exact h
  · exact absurd hw h

theorem Cut.frames {op : FlashOp} {w t : FlashWorld} (h : Cut op w t) :
    op.Frames w.mem t.mem := by
  rcases h with h | h | h
  · exact fun a _ => by rw [h.mem]
  · rw [h.mem]
    exact op.frames_apply w.mem
  · exact h.frames

theorem Ran.frames {op : FlashOp} {w t : FlashWorld} (h : Ran op w t) :
    op.Frames w.mem t.mem := by
  rcases h with h | ⟨h, -⟩
  · exact Cut.frames (Or.inr (Or.inl h))
  · exact h.frames

theorem wp_flashSafeExecute (op : FlashOp) (w : FlashWorld) :
    wp (flashSafeExecute op)
      (fun ran t => (ran = true ∧ Ran op w t) ∨ (ran = false ∧ Untouched w t)) (Cut op w) w := by
  have htail : w.NoWear → ∀ bytes, FlashFault.worn bytes ∉ w.faults.tail :=
    fun h bytes hb => h bytes (List.mem_of_mem_tail hb)
  have hcarried : Carried op w ⟨op.apply w.mem, w.faults.tail, w.trace ++ [.carried op]⟩ :=
    ⟨rfl, rfl, htail⟩
  have huntouched : Untouched w { w with faults := w.faults.tail } := ⟨rfl, rfl, htail⟩
  have htorn (bytes : Mem) :
      Torn op w ⟨op.garble bytes w.mem, w.faults.tail, w.trace ++ [.torn op]⟩ :=
    ⟨op.frames_garble bytes w.mem, rfl, htail⟩
  have hrun : (flashSafeExecute op).run.run w = flashSafeExecute op w := rfl
  cases hfault : w.faults.headD .done with
  | done =>
    simp only [flashSafeExecute, hfault] at hrun
    exact (wp_returned hrun).mpr (Or.inl ⟨rfl, Or.inl hcarried⟩)
  | refused =>
    simp only [flashSafeExecute, hfault] at hrun
    exact (wp_returned hrun).mpr (Or.inr ⟨rfl, huntouched⟩)
  | worn bytes =>
    have hwear : ¬ w.NoWear := by
      intro h
      refine h bytes ?_
      rw [← hfault]
      cases hw : w.faults with
      | nil => simp [hw] at hfault
      | cons f fs => simp
    simp only [flashSafeExecute, hfault] at hrun
    exact (wp_returned hrun).mpr (Or.inl ⟨rfl, Or.inr ⟨htorn bytes, hwear⟩⟩)
  | cutBefore =>
    simp only [flashSafeExecute, hfault] at hrun
    exact (wp_cut hrun).mpr (Or.inl huntouched)
  | cutDuring bytes =>
    simp only [flashSafeExecute, hfault] at hrun
    exact (wp_cut hrun).mpr (Or.inr (Or.inr (htorn bytes)))
  | cutAfter =>
    simp only [flashSafeExecute, hfault] at hrun
    exact (wp_cut hrun).mpr (Or.inr (Or.inl hcarried))

theorem wp_flashStorageRun (build : FlashBuild) (region : FlashRegion)
    (bounds : FlashLayoutResult) (size : ℕ) (op : FlashOp) (w : FlashWorld) :
    wp (flashStorageRun build region bounds size op)
      (fun r t => (r = .ok ∧ bounds = .ok ∧ size ≠ 0 ∧ Ran op w t) ∨
        ((r = .ok → bounds = .ok ∧ size = 0) ∧ Untouched w t))
      (Cut op w) w := by
  unfold flashStorageRun
  simp only
  by_cases hcheck : precheck build region = .ok
  · rw [if_neg (by simpa using hcheck)]
    by_cases hbounds : FlashStorageResult.ofLayout bounds = .ok
    · have hok : bounds = .ok := by
        cases bounds <;> simp_all [FlashStorageResult.ofLayout]
      rw [if_neg (by simpa using hbounds)]
      by_cases hsize : size = 0
      · rw [if_pos hsize]
        exact (wp_pure _ _ _ _).mpr (Or.inr ⟨fun _ => ⟨hok, hsize⟩, Untouched.refl w⟩)
      · rw [if_neg hsize]
        refine wp_seq (wp_flashSafeExecute op w) ?_
        rintro ran t (⟨rfl, hran⟩ | ⟨rfl, ht⟩)
        · exact Or.inl ⟨rfl, hok, hsize, hran⟩
        · exact (wp_pure FlashStorageResult.errNotSafe _ _ _).mpr (Or.inr ⟨by simp, ht⟩)
    · rw [if_pos hbounds]
      exact (wp_pure _ _ _ _).mpr (Or.inr ⟨fun h => absurd h hbounds, Untouched.refl w⟩)
  · rw [if_pos hcheck]
    exact (wp_pure _ _ _ _).mpr (Or.inr ⟨fun h => absurd h hcheck, Untouched.refl w⟩)

theorem wp_flashStorageErase (build : FlashBuild) (region : FlashRegion) (offset : ℕ) {size : ℕ}
    (hsize : size ≠ 0) (w : FlashWorld) :
    wp (flashStorageErase build region offset size)
      (fun r t => (r = .ok ∧ flashRegionCheckErase region offset size = .ok ∧
          Ran (.erase (flashRegionAbsolute region offset) size) w t) ∨
        (r ≠ .ok ∧ Untouched w t))
      (Cut (.erase (flashRegionAbsolute region offset) size) w) w := by
  refine wp_mono (wp_flashStorageRun _ _ _ _ _ _) ?_ fun _ h => h
  rintro r t (⟨hr, hbounds, -, hran⟩ | ⟨hr, ht⟩)
  · exact Or.inl ⟨hr, hbounds, hran⟩
  · exact Or.inr ⟨fun hok => hsize (hr hok).2, ht⟩

theorem flashRegionContains_iff (region : FlashRegion) (offset size : ℕ) :
    flashRegionContains region offset size = true ↔
      region.size ≠ 0 ∧ offset + size ≤ region.size := by
  unfold flashRegionContains
  by_cases hempty : region.size = 0
  · simp [hempty]
  · by_cases hsize : size = 0
    · simp [hempty, hsize]
    · simp only [if_neg hempty, if_neg hsize, Bool.not_eq_true', Bool.or_eq_false_iff,
        decide_eq_false_iff_not]
      omega

theorem contains_of_checkProgram {region : FlashRegion} {offset size : ℕ}
    (h : flashRegionCheckProgram region offset size = .ok) :
    flashRegionContains region offset size = true := by
  unfold flashRegionCheckProgram at h
  split_ifs at h with hcontains
  simpa using hcontains

/-- A verified program that ran answers OK exactly when the data reads back. -/
theorem wp_flashStorageProgramVerified (build : FlashBuild) (region : FlashRegion) (offset : ℕ)
    {data : Bytes} (hdata : data ≠ []) (w : FlashWorld) :
    wp (flashStorageProgramVerified build region offset data)
      (fun r t => (Ran (.program (flashRegionAbsolute region offset) data) w t ∧
          flashRegionCheckProgram region offset data.length = .ok ∧
          (r = .ok ↔ read t.mem (flashRegionAbsolute region offset) data.length = data)) ∨
        (r ≠ .ok ∧ Untouched w t))
      (Cut (.program (flashRegionAbsolute region offset) data) w) w := by
  unfold flashStorageProgramVerified
  refine wp_seq (wp_flashStorageRun _ _ _ _ _ _) ?_
  rintro r t (⟨rfl, hbounds, -, hran⟩ | ⟨hr, ht⟩)
  · rw [if_neg (by simp)]
    rw [wp_bind, wp_get, flashStorageData, if_pos (contains_of_checkProgram hbounds)]
    simp only
    by_cases hread : read t.mem (flashRegionAbsolute region offset) data.length = data
    · rw [if_neg (by simpa using hread)]
      exact (wp_pure _ _ _ _).mpr (Or.inl ⟨hran, hbounds, by simp [hread]⟩)
    · rw [if_pos hread]
      exact (wp_pure _ _ _ _).mpr (Or.inl ⟨hran, hbounds, by simp [hread]⟩)
  · have hne : r ≠ .ok := fun hok => hdata (List.eq_nil_of_length_eq_zero (hr hok).2)
    rw [if_pos hne]
    exact (wp_pure _ _ _ _).mpr (Or.inr ⟨hne, ht⟩)

end Pico
