import PicoFramework.Proofs.ConfigSlots

/-! `persistent_config_save` on a chip that does not wear out: every state in which it
can return or lose power, from the erase of the target slot to the header that lands. -/

namespace Pico

open Lib.Nor Lib.Power Lib.Splice Lib.Wire

/-- The header page of `slot` was programmed to its end. -/
def FlashMark.landsHeader (slot : FlashRegion) : FlashMark → Bool
  | .carried (.program offset _) => offset = slot.offset
  | _ => false

def FlashMark.isTorn : FlashMark → Bool
  | .torn _ => true
  | .carried _ => false

def headerLanded (slot : FlashRegion) (trace : List FlashMark) : Bool :=
  trace.any (·.landsHeader slot)

def anyTorn (trace : List FlashMark) : Bool := trace.any FlashMark.isTorn

/-- A slot that is erased but for the first `written` bytes of `records`. -/
def RecordsWritten (mem : Mem) (slot : FlashRegion) (records : Bytes) (written : ℕ) : Prop :=
  ∀ i < 4096, mem (slot.offset + i) =
    if i < 256 then erased else (records.take written).getD (i - 256) erased

/-- A save under way: `written` bytes of the records are in the slot, and no header. -/
structure Filling (mem : Mem) (slot : FlashRegion) (records : Bytes) (written : ℕ)
    (t : FlashWorld) : Prop where
  frames : ∀ a, a < slot.offset ∨ slot.offset + 4096 ≤ a → t.mem a = mem a
  noWear : t.NoWear
  landed : headerLanded slot t.trace = false
  intact : anyTorn t.trace = false
  written : RecordsWritten t.mem slot records written

/-- A save that came to nothing: the slot does not read, or nothing was done to it. -/
structure Unlanded (mem : Mem) (slot : FlashRegion) (t : FlashWorld) : Prop where
  frames : ∀ a, a < slot.offset ∨ slot.offset + 4096 ≤ a → t.mem a = mem a
  noWear : t.NoWear
  landed : headerLanded slot t.trace = false
  blank : slotRead t.mem slot = none ∨ t.mem = mem

/-- A save whose power went in the middle of an operation. -/
structure TornSave (mem : Mem) (slot : FlashRegion) (t : FlashWorld) : Prop where
  frames : ∀ a, a < slot.offset ∨ slot.offset + 4096 ≤ a → t.mem a = mem a
  noWear : t.NoWear
  landed : headerLanded slot t.trace = false
  torn : anyTorn t.trace = true

/-- A save whose header is in the slot, with the records behind it. -/
structure Landed (mem : Mem) (slot : FlashRegion) (header : SlotHeader) (records : Bytes)
    (t : FlashWorld) : Prop where
  frames : ∀ a, a < slot.offset ∨ slot.offset + 4096 ≤ a → t.mem a = mem a
  noWear : t.NoWear
  landed : headerLanded slot t.trace = true
  reads : SlotReads t.mem slot header records

section pages

variable {mem : Mem} {slot : FlashRegion} {records : Bytes} {written : ℕ}

theorem length_chunk (records : Bytes) (written : ℕ) :
    (span records written (min (records.length - written) FLASH_LAYOUT_PAGE_SIZE)).length ≤ 256 := by
  simp only [span, List.length_take, List.length_drop, FLASH_LAYOUT_PAGE_SIZE]
  omega

theorem length_recordPage (records : Bytes) (written : ℕ) :
    (recordPage records written).length = 256 :=
  length_padPage _ (length_chunk records written)

theorem getD_recordPage (records : Bytes) (written : ℕ) {j : ℕ} (hj : j < 256) :
    (recordPage records written).getD j erased = records.getD (written + j) erased := by
  rw [recordPage, getD_padPage]
  simp only [span, List.getD_eq_getElem?_getD, List.getElem?_take, List.getElem?_drop,
    FLASH_LAYOUT_PAGE_SIZE]
  split_ifs with hchunk
  · rfl
  · rw [List.getElem?_eq_none (by omega)]

theorem length_headerPage (header : SlotHeader) : (headerPage header).length = 256 :=
  length_padPage _ (by simp [SlotHeader.length_bytes, SLOT_HEADER_SIZE])

theorem RecordsWritten.program (h : RecordsWritten mem slot records written)
    (haligned : written % 256 = 0) (hlt : written < records.length) :
    RecordsWritten (Lib.Nor.program mem (slot.offset + (256 + written)) (recordPage records written))
      slot records (written + min (records.length - written) 256) := by
  intro i hi
  have hpage := length_recordPage records written
  have hold := h i hi
  by_cases hin : 256 + written ≤ i ∧ i < 256 + written + 256
  · obtain ⟨hlow, hhigh⟩ := hin
    have hgap : (records.take written).getD (i - 256) erased = erased := by
      rw [List.getD_eq_getElem?_getD, List.getElem?_eq_none (by simp; omega)]
      rfl
    rw [if_neg (by omega), hgap] at hold
    rw [program_inside (by omega) (by omega), hold, erased_and, if_neg (by omega),
      show slot.offset + i - (slot.offset + (256 + written)) = i - (256 + written) by omega,
      getD_recordPage _ _ (by omega), show written + (i - (256 + written)) = i - 256 by omega]
    simp only [List.getD_eq_getElem?_getD, List.getElem?_take]
    split_ifs with hchunk
    · rfl
    · rw [List.getElem?_eq_none (by omega)]
  · rw [program_outside (by omega), hold]
    by_cases hhead : i < 256
    · rw [if_pos hhead, if_pos hhead]
    · rw [if_neg hhead, if_neg hhead]
      simp only [List.getD_eq_getElem?_getD, List.getElem?_take]
      by_cases hw : i - 256 < written
      · rw [if_pos hw, if_pos (by omega)]
      · rw [if_neg hw]
        split_ifs with hchunk
        · omega
        · rfl

theorem RecordsWritten.unreadable (hs : IsSector slot)
    (h : RecordsWritten mem slot records written) : slotRead mem slot = none := by
  refine slotRead_of_erased hs fun a ha ha' => ?_
  obtain ⟨i, rfl⟩ := Nat.exists_eq_add_of_le ha
  rw [h i (by omega), if_pos (by omega)]

theorem newHeader_valid (sequence : UInt32) (hlen : records.length ≤ 3840) :
    (newHeader sequence records).length.toNat = records.length ∧
      (newHeader sequence records).headerCrc32 = headerCrc (newHeader sequence records) := by
  constructor
  · simp only [newHeader, UInt32.toNat_ofNat']
    omega
  · simp only [newHeader, headerCrc, SlotHeader.bytes, HEADER_CRC_COVERAGE]
    rfl

theorem RecordsWritten.header (h : RecordsWritten mem slot records records.length)
    (hlen : records.length ≤ 3840) (sequence : UInt32) :
    SlotReads (Lib.Nor.program mem slot.offset (headerPage (newHeader sequence records))) slot
      (newHeader sequence records) records := by
  obtain ⟨hlength, hcrc⟩ := newHeader_valid sequence hlen
  have hpage := length_headerPage (newHeader sequence records)
  refine ⟨?_, rfl, hcrc, ?_, ?_, rfl⟩
  · have hbytes : read (Lib.Nor.program mem slot.offset (headerPage (newHeader sequence records)))
        slot.offset SLOT_HEADER_SIZE = (newHeader sequence records).bytes := by
      rw [read_eq_iff _ _ _ _ (SlotHeader.length_bytes _)]
      intro i hi
      have hi' : i < 20 := hi
      rw [program_inside (by omega) (by omega), h i (by omega), if_pos (by omega), erased_and,
        Nat.add_sub_cancel_left, headerPage, getD_padPage, List.getD_eq_getElem?_getD, List.getElem?_eq_getElem, Option.getD_some]
    rw [hbytes, SlotHeader.ofBytes_bytes]
  · simp only [hlength, persistentConfigCapacity, FLASH_LAYOUT_SECTOR_SIZE, RECORDS_AT,
      FLASH_LAYOUT_PAGE_SIZE]
    omega
  · rw [hlength, read_eq_iff _ _ _ _ rfl]
    intro i hi
    rw [RECORDS_AT, FLASH_LAYOUT_PAGE_SIZE, Nat.add_assoc, program_outside (by omega),
      h (256 + i) (by omega), if_neg (by omega), Nat.add_sub_cancel_left, List.take_length,
      List.getD_eq_getElem?_getD, List.getElem?_eq_getElem hi, Option.getD_some]

end pages

section run

variable {mem : Mem} {slot : FlashRegion} {records : Bytes} {written : ℕ} {w t : FlashWorld}

theorem headerLanded_append (slot : FlashRegion) (trace : List FlashMark) (mark : FlashMark) :
    headerLanded slot (trace ++ [mark]) = (headerLanded slot trace || mark.landsHeader slot) := by
  simp [headerLanded]

theorem anyTorn_append (trace : List FlashMark) (mark : FlashMark) :
    anyTorn (trace ++ [mark]) = (anyTorn trace || mark.isTorn) := by
  simp [anyTorn]

theorem Filling.unlanded (hs : IsSector slot) (h : Filling mem slot records written t) :
    Unlanded mem slot t :=
  ⟨h.frames, h.noWear, h.landed, Or.inl (h.written.unreadable hs)⟩

theorem Filling.untouched (h : Filling mem slot records written w) (ht : Untouched w t) :
    Filling mem slot records written t := by
  refine ⟨?_, ht.noWear h.noWear, ?_, ?_, ?_⟩
  · rw [ht.mem]
    exact h.frames
  · rw [ht.trace]
    exact h.landed
  · rw [ht.trace]
    exact h.intact
  · rw [ht.mem]
    exact h.written

theorem Filling.torn {op : FlashOp} (h : Filling mem slot records written w) (ht : Torn op w t)
    (hstart : slot.offset ≤ op.start) (hend : op.start + op.size ≤ slot.offset + 4096) :
    TornSave mem slot t := by
  refine ⟨fun a ha => ?_, ht.noWear h.noWear, ?_, ?_⟩
  · rw [ht.frames a (by omega), h.frames a ha]
  · rw [ht.trace, headerLanded_append, h.landed]
    rfl
  · rw [ht.trace, anyTorn_append]
    exact Bool.or_true _

theorem Filling.page (h : Filling mem slot records written w) (haligned : written % 256 = 0)
    (hlt : written < records.length) (hlen : records.length ≤ 3840)
    (ht : Carried (.program (slot.offset + (256 + written)) (recordPage records written)) w t) :
    Filling mem slot records (written + min (records.length - written) 256) t := by
  have hpage := length_recordPage records written
  refine ⟨fun a ha => ?_, ht.noWear h.noWear, ?_, ?_, ?_⟩
  · rw [ht.mem, FlashOp.apply, program_outside (by omega), h.frames a ha]
  · rw [ht.trace, headerLanded_append, h.landed, FlashMark.landsHeader, Bool.false_or,
      decide_eq_false_iff_not]
    omega
  · rw [ht.trace, anyTorn_append, h.intact]
    rfl
  · rw [ht.mem]
    exact h.written.program haligned hlt

theorem Filling.header (h : Filling mem slot records records.length w)
    (hlen : records.length ≤ 3840) (sequence : UInt32)
    (ht : Carried (.program slot.offset (headerPage (newHeader sequence records))) w t) :
    Landed mem slot (newHeader sequence records) records t := by
  have hpage := length_headerPage (newHeader sequence records)
  refine ⟨fun a ha => ?_, ht.noWear h.noWear, ?_, ?_⟩
  · rw [ht.mem, FlashOp.apply, program_outside (by omega), h.frames a ha]
  · rw [ht.trace, headerLanded_append, FlashMark.landsHeader, decide_eq_true rfl]
    exact Bool.or_true _
  · rw [ht.mem]
    exact h.written.header hlen sequence

/-- The states in which power can go while a save has not reached its header. -/
def SaveCut (mem : Mem) (slot : FlashRegion) (t : FlashWorld) : Prop :=
  Unlanded mem slot t ∨ TornSave mem slot t

theorem unlanded_start (slot : FlashRegion) (hwear : w.NoWear) (htrace : w.trace = []) :
    Unlanded w.mem slot w :=
  ⟨fun _ _ => rfl, hwear, by rw [htrace]; rfl, Or.inr rfl⟩

theorem Unlanded.untouched (h : Unlanded mem slot w) (ht : Untouched w t) :
    Unlanded mem slot t := by
  refine ⟨?_, ht.noWear h.noWear, ?_, ?_⟩
  · rw [ht.mem]
    exact h.frames
  · rw [ht.trace]
    exact h.landed
  · rw [ht.mem]
    exact h.blank

theorem Filling.start (hs : IsSector slot) (records : Bytes) (hwear : w.NoWear)
    (htrace : w.trace = [])
    (ht : Carried (.erase (flashRegionAbsolute slot 0) slot.size) w t) :
    Filling w.mem slot records 0 t := by
  have habs : flashRegionAbsolute slot 0 = slot.offset := hs.absolute (by norm_num)
  rw [habs, hs.size_eq] at ht
  refine ⟨fun a ha => ?_, ht.noWear hwear, ?_, ?_, fun i hi => ?_⟩
  · rw [ht.mem, FlashOp.apply, erase_outside ha]
  · rw [ht.trace, htrace]
    rfl
  · rw [ht.trace, htrace]
    rfl
  · rw [ht.mem, FlashOp.apply, erase_inside (by omega) (by omega), List.take_zero]
    split_ifs
    · rfl
    · rfl

theorem wp_eraseSlot (build : FlashBuild) (hs : IsSector slot) (records : Bytes)
    (hwear : w.NoWear) (htrace : w.trace = []) :
    wp (flashStorageErase build slot 0 slot.size)
      (fun r t => (r = .ok ∧ Filling w.mem slot records 0 t) ∨ (r ≠ .ok ∧ Unlanded w.mem slot t))
      (SaveCut w.mem slot) w := by
  have hstart := unlanded_start slot hwear htrace
  have habs : flashRegionAbsolute slot 0 = slot.offset := hs.absolute (by norm_num)
  have hcarried (t : FlashWorld) (ht : Carried (.erase (flashRegionAbsolute slot 0) slot.size) w t) :
      Filling w.mem slot records 0 t := Filling.start hs records hwear htrace ht
  have hsize : slot.size ≠ 0 := by
    rw [hs.size_eq]
    norm_num
  refine wp_mono (wp_flashStorageErase build slot 0 hsize w) ?_ ?_
  · rintro r t (⟨hr, -, hran⟩ | ⟨hr, ht⟩)
    · exact Or.inl ⟨hr, hcarried t (hran.carried hwear)⟩
    · exact Or.inr ⟨hr, hstart.untouched ht⟩
  · rintro t (ht | ht | ht)
    · exact Or.inl (hstart.untouched ht)
    · exact Or.inl ((hcarried t ht).unlanded hs)
    · rw [habs, hs.size_eq] at ht
      refine Or.inr ⟨ht.frames, ht.noWear hwear, ?_, ?_⟩
      · rw [ht.trace, htrace]
        rfl
      · rw [ht.trace, htrace]
        rfl

theorem wp_recordPage (build : FlashBuild) (hs : IsSector slot)
    (h : Filling mem slot records written w) (haligned : written % 256 = 0)
    (hlt : written < records.length) (hlen : records.length ≤ 3840) :
    wp (flashStorageProgramVerified build slot (RECORDS_AT + written) (recordPage records written))
      (fun r t => (r = .ok ∧ Filling mem slot records (written + min (records.length - written) 256) t)
        ∨ (r ≠ .ok ∧ Unlanded mem slot t))
      (SaveCut mem slot) w := by
  have hpage := length_recordPage records written
  have hdata : recordPage records written ≠ [] := List.ne_nil_of_length_pos (by omega)
  have habs : flashRegionAbsolute slot (RECORDS_AT + written) = slot.offset + (256 + written) :=
    hs.absolute (by simp only [RECORDS_AT, FLASH_LAYOUT_PAGE_SIZE]; omega)
  refine wp_mono (wp_flashStorageProgramVerified build slot (RECORDS_AT + written) hdata w) ?_ ?_
  · rintro r t (⟨hran, -, hr⟩ | ⟨hr, ht⟩)
    · rw [habs] at hran
      have hnext := h.page haligned hlt hlen (hran.carried h.noWear)
      by_cases hok : r = .ok
      · exact Or.inl ⟨hok, hnext⟩
      · exact Or.inr ⟨hok, hnext.unlanded hs⟩
    · exact Or.inr ⟨hr, (h.untouched ht).unlanded hs⟩
  · rintro t (ht | ht | ht)
    · exact Or.inl ((h.untouched ht).unlanded hs)
    · rw [habs] at ht
      exact Or.inl ((h.page haligned hlt hlen ht).unlanded hs)
    · rw [habs] at ht
      refine Or.inr (h.torn ht ?_ ?_)
      · simp only [FlashOp.start]
        omega
      · simp only [FlashOp.start, FlashOp.size]
        omega

theorem wp_saveRecords (build : FlashBuild) (hs : IsSector slot) (hlen : records.length ≤ 3840)
    (fuel : ℕ) (h : Filling mem slot records written w) (hle : written ≤ records.length)
    (haligned : written < records.length → written % 256 = 0)
    (hfuel : records.length - written ≤ fuel) :
    wp (saveRecords build slot records fuel written)
      (fun ok t => (ok = true ∧ Filling mem slot records records.length t) ∨
        (ok = false ∧ Unlanded mem slot t))
      (SaveCut mem slot) w := by
  induction fuel generalizing written w with
  | zero =>
    obtain rfl : written = records.length := by omega
    exact (wp_pure _ _ _ _).mpr (Or.inl ⟨rfl, h⟩)
  | succ fuel ih =>
    unfold saveRecords
    by_cases hlt : written < records.length
    · rw [if_pos hlt]
      refine wp_seq (wp_recordPage build hs h (haligned hlt) hlt hlen) ?_
      rintro r t (⟨rfl, hnext⟩ | ⟨hr, ht⟩)
      · have hsize : FLASH_LAYOUT_PAGE_SIZE = 256 := rfl
        have := haligned hlt
        rw [if_neg (by simp)]
        refine ih hnext ?_ ?_ ?_
        · omega
        · omega
        · omega
      · rw [if_pos hr]
        exact (wp_pure _ _ _ _).mpr (Or.inr ⟨rfl, ht⟩)
    · obtain rfl : written = records.length := by omega
      rw [if_neg hlt]
      exact (wp_pure _ _ _ _).mpr (Or.inl ⟨rfl, h⟩)

theorem wp_headerPage (build : FlashBuild) (hs : IsSector slot) (hlen : records.length ≤ 3840)
    (sequence : UInt32) (h : Filling mem slot records records.length w) :
    wp (flashStorageProgramVerified build slot 0 (headerPage (newHeader sequence records)))
      (fun r t => (r = .ok ∧ Landed mem slot (newHeader sequence records) records t) ∨
        (r ≠ .ok ∧ Unlanded mem slot t))
      (fun t => Landed mem slot (newHeader sequence records) records t ∨ SaveCut mem slot t) w := by
  have hpage := length_headerPage (newHeader sequence records)
  have hdata : headerPage (newHeader sequence records) ≠ [] := List.ne_nil_of_length_pos (by omega)
  have habs : flashRegionAbsolute slot 0 = slot.offset := hs.absolute (by norm_num)
  refine wp_mono (wp_flashStorageProgramVerified build slot 0 hdata w) ?_ ?_
  · rw [habs]
    rintro r t (⟨hran, -, hr⟩ | ⟨hr, ht⟩)
    · have ht := hran.carried h.noWear
      refine Or.inl ⟨hr.mpr ?_, h.header hlen sequence ht⟩
      rw [ht.mem, FlashOp.apply, read_program_erased]
      intro a ha ha'
      obtain ⟨i, rfl⟩ := Nat.exists_eq_add_of_le ha
      rw [h.written i (by omega), if_pos (by omega)]
    · exact Or.inr ⟨hr, (h.untouched ht).unlanded hs⟩
  · rw [habs]
    rintro t (ht | ht | ht)
    · exact Or.inr (Or.inl ((h.untouched ht).unlanded hs))
    · exact Or.inl (h.header hlen sequence ht)
    · refine Or.inr (Or.inr (h.torn ht le_rfl ?_))
      simp only [FlashOp.start, FlashOp.size]
      omega

end run

/-- The header and the records that a save of `config` puts into its target slot. -/
def PersistentConfig.savedHeader (config : PersistentConfig) : SlotHeader :=
  newHeader (config.sequence + 1) config.store.records

/-- A save returns OK with its image in the target slot, or fails with no image there; a
cut leaves the image, or no image, or a torn operation. -/
theorem persistentConfigSave_spec (build : FlashBuild) (config : PersistentConfig)
    (hs : IsSector (config.slot config.target))
    (hrecords : config.store.records.length = config.store.used) (w : FlashWorld)
    (hwear : w.NoWear) (htrace : w.trace = []) :
    wp (persistentConfigSave build config)
      (fun r t =>
        (r = (.ok, { config with
            current := config.target, sequence := config.sequence + 1, loaded := true }) ∧
          Landed w.mem (config.slot config.target) config.savedHeader config.store.records t) ∨
        (r.1 ≠ .ok ∧ r.2 = config ∧ Unlanded w.mem (config.slot config.target) t))
      (fun t => Landed w.mem (config.slot config.target) config.savedHeader config.store.records t ∨
        SaveCut w.mem (config.slot config.target) t) w := by
  have hstart := unlanded_start (config.slot config.target) hwear htrace
  unfold persistentConfigSave
  by_cases hspace : (config.slot 0).size = 0
  · rw [if_pos hspace]
    exact (wp_pure _ _ _ _).mpr (Or.inr ⟨by simp, rfl, hstart⟩)
  rw [if_neg hspace]
  by_cases hlarge : configStoreUsed config.store > persistentConfigCapacity
  · simp only [if_pos hlarge]
    exact (wp_pure _ _ _ _).mpr (Or.inr ⟨by simp, rfl, hstart⟩)
  simp only [if_neg hlarge]
  have hlen : config.store.records.length ≤ 3840 := by
    simp only [configStoreUsed, persistentConfigCapacity, FLASH_LAYOUT_SECTOR_SIZE, RECORDS_AT,
      FLASH_LAYOUT_PAGE_SIZE] at hlarge
    omega
  -- the slot is erased
  refine wp_seq (wp_mono (wp_eraseSlot build hs config.store.records hwear htrace)
    (fun _ _ h => h) fun _ h => Or.inr h) ?_
  rintro r w₁ (⟨rfl, h₁⟩ | ⟨hr, h₁⟩)
  swap
  · rw [if_pos hr]
    exact (wp_pure _ _ _ _).mpr (Or.inr ⟨by simp, rfl, h₁⟩)
  rw [if_neg (by simp)]
  -- the records are written
  refine wp_seq (wp_mono (wp_saveRecords build hs hlen _ h₁ (Nat.zero_le _) (fun _ => rfl) le_rfl)
    (fun _ _ h => h) fun _ h => Or.inr h) ?_
  rintro ok w₂ (⟨rfl, h₂⟩ | ⟨rfl, h₂⟩)
  swap
  · rw [if_pos (by simp)]
    exact (wp_pure _ _ _ _).mpr (Or.inr ⟨by simp, rfl, h₂⟩)
  rw [if_neg (by simp)]
  -- the header makes them current
  refine wp_seq (wp_headerPage build hs hlen (config.sequence + 1) h₂) ?_
  rintro r w₃ (⟨rfl, h₃⟩ | ⟨hr, h₃⟩)
  · rw [if_neg (by simp)]
    exact (wp_pure _ _ _ _).mpr (Or.inl ⟨rfl, h₃⟩)
  · rw [if_pos hr]
    exact (wp_pure _ _ _ _).mpr (Or.inr ⟨by simp, rfl, h₃⟩)

end Pico
