import PicoFramework.Proofs.FlashStorage
import PicoFramework.Spec.PersistentConfig

/-! What a slot of `persistent_config.c` reads as, given the bytes of its sector. -/

namespace Pico

open Lib.Nor Lib.Power Lib.Splice Lib.Wire

/-- A whole sector of the chip. -/
structure IsSector (region : FlashRegion) : Prop where
  size_eq : region.size = 4096
  aligned : region.offset % 4096 = 0
  end_le : region.offset + 4096 ≤ 2 ^ 32

theorem flashLayoutGet_data_aligned (build : FlashBuild) :
    (flashLayoutGet build).data.offset % 4096 = 0 ∧
      (flashLayoutGet build).data.offset < 2 ^ 32 := by
  unfold flashLayoutGet
  cases hlayout : flashLayoutCompute build.flashSize build.dataSectors with
  | error _ => simp
  | ok layout =>
    unfold flashLayoutCompute at hlayout
    simp only at hlayout
    split_ifs at hlayout
    obtain rfl := Except.ok.inj hlayout
    simp only [wrap32, FLASH_LAYOUT_SECTOR_SIZE, FLASH_LAYOUT_MANIFEST_SECTORS]
    omega

theorem slotRegions_spec {build : FlashBuild} {slot : Fin 2 → FlashRegion}
    (h : slotRegions build = some slot) :
    (∀ i, IsSector (slot i)) ∧ ∀ i, (slot i).offset + 4096 ≤ (slot (1 - i)).offset ∨
      (slot (1 - i)).offset + 4096 ≤ (slot i).offset := by
  obtain ⟨haligned, hlt⟩ := flashLayoutGet_data_aligned build
  unfold slotRegions at h
  simp only at h
  split_ifs at h
  obtain rfl := Option.some.inj h
  have hzero : IsSector ⟨(flashLayoutGet build).data.offset, FLASH_LAYOUT_SECTOR_SIZE⟩ :=
    ⟨rfl, haligned, by simp only; omega⟩
  have hone : IsSector ⟨wrap32 ((flashLayoutGet build).data.offset + FLASH_LAYOUT_SECTOR_SIZE),
      FLASH_LAYOUT_SECTOR_SIZE⟩ := by
    refine ⟨rfl, ?_, ?_⟩
    · simp only [wrap32, FLASH_LAYOUT_SECTOR_SIZE]
      omega
    · simp only [wrap32, FLASH_LAYOUT_SECTOR_SIZE]
      omega
  constructor
  · intro i
    fin_cases i
    · exact hzero
    · exact hone
  · intro i
    have := hone.aligned
    have := hone.end_le
    fin_cases i
    · simp only [wrap32, FLASH_LAYOUT_SECTOR_SIZE, Fin.isValue, Fin.zero_eta, sub_zero] at *
      omega
    · simp only [wrap32, FLASH_LAYOUT_SECTOR_SIZE, Fin.isValue, Fin.mk_one, sub_self] at *
      omega

section slotRead

variable {slot : FlashRegion} {mem mem' : Mem}

theorem IsSector.absolute (hs : IsSector slot) {offset : ℕ} (h : offset < 4096) :
    flashRegionAbsolute slot offset = slot.offset + offset := by
  have := hs.end_le
  rw [flashRegionAbsolute, wrap32, Nat.mod_eq_of_lt (by omega)]

theorem IsSector.data (hs : IsSector slot) (mem : Mem) {offset size : ℕ}
    (h : offset + size ≤ 4096) (ho : offset < 4096) :
    flashStorageData mem slot offset size = some (read mem (slot.offset + offset) size) := by
  have hcontains : flashRegionContains slot offset size = true := by
    rw [flashRegionContains_iff, hs.size_eq]
    omega
  rw [flashStorageData, if_pos hcontains, hs.absolute ho]

/-- The checks of `slot_read`, read off the sector. -/
structure SlotReads (mem : Mem) (slot : FlashRegion) (header : SlotHeader) (records : Bytes) :
    Prop where
  header_eq : SlotHeader.ofBytes (read mem slot.offset SLOT_HEADER_SIZE) = header
  magic_eq : header.magic = PERSISTENT_CONFIG_MAGIC
  headerCrc_eq : header.headerCrc32 = headerCrc header
  length_le : header.length.toNat ≤ persistentConfigCapacity
  records_eq : read mem (slot.offset + RECORDS_AT) header.length.toNat = records
  recordsCrc_eq : crc32 records = header.recordsCrc32

theorem slotRead_eq_some (hs : IsSector slot) {header : SlotHeader} {records : Bytes} :
    slotRead mem slot = some (header, records) ↔ SlotReads mem slot header records := by
  have hheader : flashStorageData mem slot 0 SLOT_HEADER_SIZE =
      some (read mem (slot.offset + 0) SLOT_HEADER_SIZE) :=
    hs.data mem (by simp [SLOT_HEADER_SIZE]) (by norm_num)
  have hpayload (n : ℕ) (hn : n ≤ persistentConfigCapacity) :
      flashStorageData mem slot RECORDS_AT n = some (read mem (slot.offset + RECORDS_AT) n) := by
    simp only [persistentConfigCapacity, FLASH_LAYOUT_SECTOR_SIZE, RECORDS_AT,
      FLASH_LAYOUT_PAGE_SIZE] at hn
    exact hs.data mem (by simp only [RECORDS_AT, FLASH_LAYOUT_PAGE_SIZE]; omega)
      (by simp [RECORDS_AT, FLASH_LAYOUT_PAGE_SIZE])
  rw [Nat.add_zero] at hheader
  unfold slotRead
  simp only [hheader, Option.bind_eq_bind, Option.bind_some, guard]
  constructor
  · intro h
    split_ifs at h with hmagic hcrc hlen
    · simp only [hpayload _ hlen, Option.pure_def, Option.bind_some] at h
      split_ifs at h with hrec
      · simp only [Option.bind_some, Option.some.injEq, Prod.mk.injEq] at h
        obtain ⟨rfl, rfl⟩ := h
        exact ⟨rfl, hmagic, hcrc, hlen, rfl, hrec⟩
      · simp [failure] at h
    all_goals simp [failure] at h
  · rintro ⟨rfl, hmagic, hcrc, hlen, rfl, hrec⟩
    simp [hmagic, hcrc, hlen, hpayload, hrec]

theorem SlotReads.congr {header : SlotHeader} {records : Bytes}
    (h : SlotReads mem slot header records)
    (hmem : ∀ a, slot.offset ≤ a → a < slot.offset + 4096 → mem' a = mem a) :
    SlotReads mem' slot header records := by
  have hread (pos n : ℕ) (hpos : slot.offset ≤ pos) (hn : pos + n ≤ slot.offset + 4096) :
      read mem' pos n = read mem pos n :=
    read_congr fun a ha ha' => hmem a (by omega) (by omega)
  have hlen := h.length_le
  simp only [persistentConfigCapacity, FLASH_LAYOUT_SECTOR_SIZE, RECORDS_AT,
    FLASH_LAYOUT_PAGE_SIZE] at hlen
  refine ⟨?_, h.magic_eq, h.headerCrc_eq, h.length_le, ?_, h.recordsCrc_eq⟩
  · rw [hread _ _ le_rfl (by simp [SLOT_HEADER_SIZE]), h.header_eq]
  · rw [hread _ _ (Nat.le_add_right _ _)
      (by simp only [RECORDS_AT, FLASH_LAYOUT_PAGE_SIZE]; omega), h.records_eq]

theorem slotRead_congr (hs : IsSector slot)
    (hmem : ∀ a, slot.offset ≤ a → a < slot.offset + 4096 → mem' a = mem a) :
    slotRead mem' slot = slotRead mem slot := by
  refine Option.ext fun found => ?_
  obtain ⟨header, records⟩ := found
  rw [slotRead_eq_some hs, slotRead_eq_some hs]
  constructor
  · intro h
    exact h.congr fun a ha ha' => (hmem a ha ha').symm
  · intro h
    exact h.congr hmem

theorem slotRead_of_erased (hs : IsSector slot)
    (hmem : ∀ a, slot.offset ≤ a → a < slot.offset + 4 → mem a = erased) :
    slotRead mem slot = none := by
  refine Option.eq_none_iff_forall_ne_some.mpr fun found hread => ?_
  obtain ⟨header, records⟩ := found
  have h := (slotRead_eq_some hs).mp hread
  have hbyte (i : ℕ) (hi : i < 4) : (read mem slot.offset SLOT_HEADER_SIZE).getD i 0 = erased := by
    rw [List.getD_eq_getElem?_getD, List.getElem?_eq_getElem (by simp [SLOT_HEADER_SIZE]; omega),
      Option.getD_some, getElem_read, hmem _ (by omega) (by omega)]
  have hmagic : header.magic = 0xFFFFFFFF := by
    rw [← h.header_eq]
    simp only [SlotHeader.ofBytes, ofLe32]
    rw [hbyte 0 (by norm_num), hbyte 1 (by norm_num), hbyte 2 (by norm_num),
      hbyte 3 (by norm_num)]
    decide
  rw [h.magic_eq] at hmagic
  exact absurd hmagic (by decide)

end slotRead

theorem SlotHeader.length_bytes (header : SlotHeader) :
    header.bytes.length = SLOT_HEADER_SIZE := rfl

theorem SlotHeader.ofBytes_bytes (header : SlotHeader) :
    SlotHeader.ofBytes header.bytes = header := by
  obtain ⟨magic, sequence, length, recordsCrc32, headerCrc32⟩ := header
  have hmagic := ofLe32_append [] (le32 sequence ++ (le32 length ++ (le32 recordsCrc32 ++
    le32 headerCrc32))) magic
  have hsequence := ofLe32_append (le32 magic) (le32 length ++ (le32 recordsCrc32 ++
    le32 headerCrc32)) sequence
  have hlength := ofLe32_append (le32 magic ++ le32 sequence) (le32 recordsCrc32 ++
    le32 headerCrc32) length
  have hrecords := ofLe32_append (le32 magic ++ le32 sequence ++ le32 length) (le32 headerCrc32)
    recordsCrc32
  have hheader := ofLe32_append (le32 magic ++ le32 sequence ++ le32 length ++ le32 recordsCrc32)
    [] headerCrc32
  simp only [List.append_assoc, List.nil_append, List.append_nil, List.length_nil,
    List.length_append, length_le32, Nat.reduceAdd] at hmagic hsequence hlength hrecords hheader
  simp only [SlotHeader.ofBytes, SlotHeader.bytes, hmagic, hsequence, hlength, hrecords, hheader]

end Pico
