import PicoFramework.Proofs.ConfigSave

/-! A save on a chip that does what it is asked: nothing is refused, and the result is OK. -/

namespace Pico

open Lib.Nor Lib.Power Lib.Splice

variable {build : FlashBuild} {region slot : FlashRegion} {mem : Mem} {records data : Bytes}
  {w : FlashWorld} {offset written : ℕ}

section operations

theorem FlashWorld.noWear_of_nil (h : w.faults = []) : w.NoWear := by
  intro bytes hworn
  rw [h] at hworn
  cases hworn

theorem wp_flashStorageRun_healthy {bounds : FlashLayoutResult} {size : ℕ} {op : FlashOp}
    (hcheck : precheck build region = .ok) (hbounds : bounds = .ok) (hsize : size ≠ 0)
    (h : w.faults = []) :
    wp (flashStorageRun build region bounds size op)
      (fun r t => r = .ok ∧ t.faults = [] ∧ Carried op w t) (fun _ => False) w := by
  subst hbounds
  unfold flashStorageRun
  simp only [hcheck, FlashStorageResult.ofLayout, ne_eq, not_true_eq_false, if_false, if_neg hsize]
  have hrun : (flashSafeExecute op).run.run w =
      (some true, ⟨op.apply w.mem, [], w.trace ++ [.carried op]⟩) := by
    have hdone : (flashSafeExecute op).run.run w = flashSafeExecute op w := rfl
    simp only [flashSafeExecute, h, List.headD_nil, List.tail_nil] at hdone
    exact hdone
  refine (wp_bind _ _ _ _ _).mpr ((wp_returned hrun).mpr ?_)
  exact ⟨rfl, rfl, rfl, rfl, fun _ => FlashWorld.noWear_of_nil rfl⟩

theorem wp_flashStorageProgramVerified_healthy (hcheck : precheck build region = .ok)
    (hbounds : flashRegionCheckProgram region offset data.length = .ok) (hdata : data ≠ [])
    (hblank : ∀ a, flashRegionAbsolute region offset ≤ a →
      a < flashRegionAbsolute region offset + data.length → w.mem a = erased)
    (h : w.faults = []) :
    wp (flashStorageProgramVerified build region offset data)
      (fun r t => r = .ok ∧ t.faults = [] ∧
        Carried (.program (flashRegionAbsolute region offset) data) w t) (fun _ => False) w := by
  unfold flashStorageProgramVerified
  have hsize : data.length ≠ 0 := fun hnil => hdata (List.eq_nil_of_length_eq_zero hnil)
  refine wp_seq (wp_flashStorageRun_healthy hcheck hbounds hsize h) ?_
  rintro r t ⟨rfl, hfaults, hcarried⟩
  have hread : read t.mem (flashRegionAbsolute region offset) data.length = data := by
    rw [hcarried.mem]
    exact read_program_erased hblank
  rw [if_neg (by simp), wp_bind, wp_get, flashStorageData,
    if_pos (contains_of_checkProgram hbounds)]
  simp only [hread, ne_eq, not_true_eq_false, if_false]
  exact ⟨rfl, hfaults, hcarried⟩

end operations

section save

theorem IsSector.checkProgram (hs : IsSector slot) (haligned : offset % 256 = 0)
    (hend : offset + 256 ≤ 4096) : flashRegionCheckProgram slot offset 256 = .ok := by
  have hcontains : flashRegionContains slot offset 256 = true := by
    rw [flashRegionContains_iff, hs.size_eq]
    omega
  have hoffset : slot.offset % 256 = 0 := by
    have := hs.aligned
    omega
  simp [flashRegionCheckProgram, hcontains, flashOffsetIsPageAligned, FLASH_LAYOUT_PAGE_SIZE,
    hoffset, haligned]

theorem IsSector.checkErase (hs : IsSector slot) :
    flashRegionCheckErase slot 0 slot.size = .ok := by
  have hcontains : flashRegionContains slot 0 4096 = true := by
    rw [flashRegionContains_iff, hs.size_eq]
    omega
  rw [hs.size_eq]
  simp [flashRegionCheckErase, hcontains, flashOffsetIsSectorAligned, FLASH_LAYOUT_SECTOR_SIZE,
    hs.aligned]

theorem Filling.blank (h : Filling mem slot records written w) {a : ℕ}
    (ha : slot.offset + (256 + written) ≤ a) (ha' : a < slot.offset + 4096) :
    w.mem a = erased := by
  obtain ⟨i, rfl⟩ := Nat.exists_eq_add_of_le ha
  rw [Nat.add_assoc, h.written _ (by omega), if_neg (by omega), List.getD_eq_getElem?_getD,
    List.getElem?_eq_none (by rw [List.length_take]; omega), Option.getD_none]

theorem Filling.blank_header (h : Filling mem slot records written w) {a : ℕ}
    (ha : slot.offset ≤ a) (ha' : a < slot.offset + 256) : w.mem a = erased := by
  obtain ⟨i, rfl⟩ := Nat.exists_eq_add_of_le ha
  rw [h.written i (by omega), if_pos (by omega)]

theorem wp_saveRecords_healthy (hs : IsSector slot) (hcheck : precheck build slot = .ok)
    (hlen : records.length ≤ 3840) (fuel : ℕ) (h : Filling mem slot records written w)
    (hle : written ≤ records.length) (haligned : written < records.length → written % 256 = 0)
    (hfuel : records.length - written ≤ fuel) (hfaults : w.faults = []) :
    wp (saveRecords build slot records fuel written)
      (fun ok t => ok = true ∧ t.faults = [] ∧ Filling mem slot records records.length t)
      (fun _ => False) w := by
  induction fuel generalizing written w with
  | zero =>
    obtain rfl : written = records.length := by omega
    exact (wp_pure _ _ _ _).mpr ⟨rfl, hfaults, h⟩
  | succ fuel ih =>
    unfold saveRecords
    by_cases hlt : written < records.length
    · rw [if_pos hlt]
      have hpage := length_recordPage records written
      have hround := haligned hlt
      have habs : flashRegionAbsolute slot (RECORDS_AT + written) = slot.offset + (256 + written) :=
        hs.absolute (by simp only [RECORDS_AT, FLASH_LAYOUT_PAGE_SIZE]; omega)
      have hstart : RECORDS_AT + written = 256 + written := rfl
      refine wp_seq (wp_flashStorageProgramVerified_healthy hcheck ?_ ?_ ?_ hfaults) ?_
      · rw [hpage, hstart]
        exact hs.checkProgram (by omega) (by omega)
      · exact List.ne_nil_of_length_pos (by omega)
      · intro a ha ha'
        rw [habs] at ha ha'
        exact h.blank ha (by omega)
      · rintro r t ⟨rfl, hfaults', hcarried⟩
        rw [habs] at hcarried
        have hsize : FLASH_LAYOUT_PAGE_SIZE = 256 := rfl
        rw [if_neg (by simp)]
        refine ih (h.page hround hlt hlen hcarried) ?_ ?_ ?_ hfaults'
        · omega
        · omega
        · omega
    · obtain rfl : written = records.length := by omega
      rw [if_neg hlt]
      exact (wp_pure _ _ _ _).mpr ⟨rfl, hfaults, h⟩

/-- A save of a configuration that fits a slot the code does not run from returns OK when the chip
refuses nothing. -/
theorem persistentConfigSave_healthy {config : PersistentConfig} (hspace : (config.slot 0).size ≠ 0)
    (hs : IsSector (config.slot config.target))
    (hcode : flashStorageHoldsRunningCode build (config.slot config.target) = false)
    (hrecords : config.store.records.length = config.store.used)
    (hfits : config.store.used ≤ persistentConfigCapacity) (mem : Mem) :
    ∃ next w, (persistentConfigSave build config).run.run ⟨mem, [], []⟩ = (some (.ok, next), w) := by
  have hpost : wp (persistentConfigSave build config) (fun answer _ => answer.1 = .ok)
      (fun _ => False) ⟨mem, [], []⟩ := by
    have hcheck : precheck build (config.slot config.target) = .ok := by
      have hsize : (config.slot config.target).size ≠ 0 := by
        rw [hs.size_eq]
        norm_num
      simp [precheck, hsize, hcode]
    have hlen : config.store.records.length ≤ 3840 := by
      simp only [persistentConfigCapacity, FLASH_LAYOUT_SECTOR_SIZE, RECORDS_AT,
        FLASH_LAYOUT_PAGE_SIZE] at hfits
      omega
    have hsmall : ¬configStoreUsed config.store > persistentConfigCapacity := Nat.not_lt.mpr hfits
    have habs : flashRegionAbsolute (config.slot config.target) 0 =
        (config.slot config.target).offset := hs.absolute (by norm_num)
    unfold persistentConfigSave
    rw [if_neg hspace]
    simp only [if_neg hsmall]
    have hsize : (config.slot config.target).size ≠ 0 := by
      rw [hs.size_eq]
      norm_num
    refine wp_seq (wp_flashStorageRun_healthy hcheck hs.checkErase hsize rfl) ?_
    rintro r w₁ ⟨rfl, hfaults₁, hcarried₁⟩
    rw [if_neg (by simp)]
    have hwear : FlashWorld.NoWear ⟨mem, [], []⟩ := FlashWorld.noWear_of_nil rfl
    have hfilling : Filling mem (config.slot config.target) config.store.records 0 w₁ :=
      Filling.start hs _ hwear rfl hcarried₁
    refine wp_seq (wp_saveRecords_healthy hs hcheck hlen _ hfilling (Nat.zero_le _) (fun _ => rfl)
      le_rfl hfaults₁) ?_
    rintro ok w₂ ⟨rfl, hfaults₂, hfilled⟩
    rw [if_neg (by simp)]
    have hpage := length_headerPage (newHeader (config.sequence + 1) config.store.records)
    refine wp_seq (wp_flashStorageProgramVerified_healthy hcheck ?_ ?_ ?_ hfaults₂) ?_
    · rw [hpage]
      exact hs.checkProgram (by omega) (by omega)
    · exact List.ne_nil_of_length_pos (by omega)
    · intro a ha ha'
      rw [habs] at ha ha'
      exact hfilled.blank_header ha (by omega)
    · rintro r w₃ ⟨rfl, -, -⟩
      rw [if_neg (by simp)]
      rfl
  unfold wp at hpost
  rcases hrun : (persistentConfigSave build config).run.run ⟨mem, [], []⟩ with
    ⟨_ | ⟨result, next⟩, t⟩
  · rw [hrun] at hpost
    exact hpost.elim
  · rw [hrun] at hpost
    obtain rfl : result = .ok := hpost
    exact ⟨next, t, rfl⟩

end save

end Pico
