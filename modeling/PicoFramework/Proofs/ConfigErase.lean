import PicoFramework.Proofs.ConfigReload

/-! What the next load reports after an erase of the configuration that power or the flash cut
short. The slot with the newer sequence number is the current one; the erase takes slot 0 first. -/

namespace Pico

open Lib.Nor Lib.Power Lib.Splice Lib.Run

variable {build : FlashBuild} {slot : Fin 2 → FlashRegion} {mem mem' : Mem} {buffer : Bytes}

section report

/-- What a load into that buffer reports: its result, and the records it leaves in the store. -/
def loadReport (build : FlashBuild) (mem : Mem) (buffer : Bytes) :
    PersistentConfigResult × Option Bytes :=
  let loaded := persistentConfigLoad build mem (some buffer) buffer.length
  (loaded.1, loaded.2.map fun config => config.store.records)

/-- The current configuration, or that there is none. -/
def ReportsNoOlder (build : FlashBuild) (buffer : Bytes) (mem mem' : Mem) : Prop :=
  (loadReport build mem' buffer).1 = .errEmpty ∨ (loadReport build mem' buffer).1 = .errCorrupt ∨
    loadReport build mem' buffer = loadReport build mem buffer

theorem loadReport_cases (hslot : slotRegions build = some slot) (hbuffer : buffer ≠ [])
    {i : Fin 2} {header : SlotHeader} {records : Bytes}
    (h : persisted mem slot = some (i, header, records)) :
    (buffer.length < records.length ∧ loadReport build mem buffer = (.errTooLarge, some [])) ∨
    (records.length ≤ buffer.length ∧ (∃ rs, records = image rs) ∧
      loadReport build mem buffer = (.ok, some records)) ∨
    (records.length ≤ buffer.length ∧ (¬ ∃ rs, records = image rs) ∧
      loadReport build mem buffer = (.errCorrupt, some [])) := by
  have hcap : buffer.length ≠ 0 := fun hnil => hbuffer (List.eq_nil_of_length_eq_zero hnil)
  have hread := (slotRead_eq_some ((slotRegions_spec hslot).1 i)).mp (persisted_read h)
  have hlength : header.length.toNat = records.length := by
    rw [← hread.records_eq, length_read]
  by_cases hlarge : buffer.length < records.length
  · refine .inl ⟨hlarge, ?_⟩
    rw [loadReport, persistentConfigLoad_eq hslot hcap, h]
    simp only [hlength, if_pos hlarge]
    rfl
  have hfits : records.length ≤ buffer.length := Nat.not_lt.mp hlarge
  by_cases himage : ∃ rs, records = image rs
  · obtain ⟨rs, rfl⟩ := himage
    obtain ⟨config, hload, hadopted⟩ := persistentConfigLoad_adopts hslot hcap rfl h hfits
    refine .inr (.inl ⟨hfits, ⟨rs, rfl⟩, ?_⟩)
    rw [loadReport, hload, Option.map_some, hadopted.holds.records_eq]
  · refine .inr (.inr ⟨hfits, himage, ?_⟩)
    have hbuf : (overwrite buffer 0 records).length = buffer.length :=
      length_overwrite _ _ _ (by omega)
    rw [loadReport, persistentConfigLoad_eq hslot hcap, h]
    simp only [hlength, if_neg hlarge]
    split
    · next store hstore =>
      obtain ⟨rs, -, htake⟩ := (configStoreLoad_ok_iff hbuf hcap).mpr ⟨store, hstore⟩
      rw [← span_eq_take, span_overwrite _ _ _ (Nat.zero_le _)] at htake
      exact absurd ⟨rs, htake⟩ himage
    · rfl

theorem loadReport_nothing (hslot : slotRegions build = some slot) (hbuffer : buffer ≠ [])
    (h : persisted mem slot = none) :
    (loadReport build mem buffer).1 = .errEmpty ∨ (loadReport build mem buffer).1 = .errCorrupt := by
  have hcap : buffer.length ≠ 0 := fun hnil => hbuffer (List.eq_nil_of_length_eq_zero hnil)
  obtain ⟨result, config, hload, hresult, -⟩ := persistentConfigLoad_nothing hslot hcap rfl h
  rw [loadReport, hload]
  exact hresult

theorem ReportsNoOlder.of_persisted (hslot : slotRegions build = some slot) (hbuffer : buffer ≠ [])
    (h : persisted mem' slot = persisted mem slot) : ReportsNoOlder build buffer mem mem' := by
  have hcap : buffer.length ≠ 0 := fun hnil => hbuffer (List.eq_nil_of_length_eq_zero hnil)
  cases hheld : persisted mem slot with
  | none =>
    rcases loadReport_nothing hslot hbuffer (h.trans hheld) with hempty | hcorrupt
    · exact .inl hempty
    · exact .inr (.inl hcorrupt)
  | some held =>
    refine .inr (.inr ?_)
    rw [loadReport, loadReport, persistentConfigLoad_eq hslot hcap, persistentConfigLoad_eq hslot hcap,
      h, hheld]

end report

section revival

/-- Slot 0 is current, and slot 1 holds something else that a load of it alone reports: an older
configuration, or one that the buffer has no room for. -/
def OlderBehind (slot : Fin 2 → FlashRegion) (mem : Mem) (capacity : ℕ) : Prop :=
  ∃ found0 found1, slotRead mem (slot 0) = some found0 ∧
    slotRead mem (slot 1) = some found1 ∧
    sequenceIsLater found1.1.sequence found0.1.sequence = false ∧
    ((capacity < found1.2.length ∧ found0.2.length ≤ capacity) ∨
      (found1.2.length ≤ capacity ∧ (∃ rs, found1.2 = image rs) ∧ found1.2 ≠ found0.2))

/-- A slot has gone and the other one reads as before. -/
structure Wiped (slot : Fin 2 → FlashRegion) (i : Fin 2) (mem mem' : Mem) : Prop where
  gone : slotRead mem' (slot i) = none
  kept : slotRead mem' (slot (1 - i)) = slotRead mem (slot (1 - i))

theorem Wiped.second (h : Wiped slot 0 mem mem') :
    slotRead mem' (slot 1) = slotRead mem (slot 1) := h.kept

theorem olderBehind_iff {found0 found1 : SlotHeader × Bytes} {capacity : ℕ}
    (hfirst : slotRead mem (slot 0) = some found0) (hsecond : slotRead mem (slot 1) = some found1)
    (hearlier : sequenceIsLater found1.1.sequence found0.1.sequence = false) :
    OlderBehind slot mem capacity ↔
      (capacity < found1.2.length ∧ found0.2.length ≤ capacity) ∨
        (found1.2.length ≤ capacity ∧ (∃ rs, found1.2 = image rs) ∧ found1.2 ≠ found0.2) := by
  constructor
  · rintro ⟨found0', found1', hread0, hread1, -, hdiffers⟩
    obtain rfl := Option.some.inj (hfirst.symm.trans hread0)
    obtain rfl := Option.some.inj (hsecond.symm.trans hread1)
    exact hdiffers
  · exact fun hdiffers => ⟨found0, found1, hfirst, hsecond, hearlier, hdiffers⟩

theorem reportsNoOlder_iff {found0 found1 : SlotHeader × Bytes}
    (hslot : slotRegions build = some slot) (hbuffer : buffer ≠ [])
    (hbefore : persisted mem slot = some (0, found0))
    (hafter : persisted mem' slot = some (1, found1)) :
    ReportsNoOlder build buffer mem mem' ↔
      ¬ ((buffer.length < found1.2.length ∧ found0.2.length ≤ buffer.length) ∨
        (found1.2.length ≤ buffer.length ∧ (∃ rs, found1.2 = image rs) ∧ found1.2 ≠ found0.2)) := by
  rw [ReportsNoOlder]
  rcases loadReport_cases hslot hbuffer hafter with
    ⟨hlarge, hreport⟩ | ⟨hfits, himage, hreport⟩ | ⟨hfits, himage, hreport⟩
  · rcases loadReport_cases hslot hbuffer hbefore with
      ⟨hlarge', hreport'⟩ | ⟨hfits', -, hreport'⟩ | ⟨hfits', -, hreport'⟩
    · rw [hreport, hreport']
      exact iff_of_true (.inr (.inr rfl)) (by omega)
    · rw [hreport, hreport']
      exact iff_of_false (by simp) (not_not.mpr (.inl ⟨hlarge, hfits'⟩))
    · rw [hreport, hreport']
      exact iff_of_false (by simp) (not_not.mpr (.inl ⟨hlarge, hfits'⟩))
  · rcases loadReport_cases hslot hbuffer hbefore with
      ⟨hlarge', hreport'⟩ | ⟨hfits', -, hreport'⟩ | ⟨hfits', himage', hreport'⟩
    · have hdiffer : found1.2 ≠ found0.2 := by
        intro hsame
        rw [hsame] at hfits
        omega
      rw [hreport, hreport']
      exact iff_of_false (by simp) (not_not.mpr (.inr ⟨hfits, himage, hdiffer⟩))
    · rw [hreport, hreport']
      simp [hfits, himage, Nat.not_lt.mpr hfits]
    · have hdiffer : found1.2 ≠ found0.2 := by
        intro hsame
        rw [hsame] at himage
        exact himage' himage
      rw [hreport, hreport']
      exact iff_of_false (by simp) (not_not.mpr (.inr ⟨hfits, himage, hdiffer⟩))
  · rw [hreport]
    refine iff_of_true (.inr (.inl rfl)) ?_
    rintro (⟨hlarge, -⟩ | ⟨-, himage', -⟩)
    · omega
    · exact himage himage'

theorem Wiped.reports_iff (h : Wiped slot 0 mem mem') (hslot : slotRegions build = some slot)
    (hbuffer : buffer ≠ []) :
    ReportsNoOlder build buffer mem mem' ↔ ¬ OlderBehind slot mem buffer.length := by
  cases hsecond : slotRead mem (slot 1) with
  | none =>
    have hnone : persisted mem' slot = none := by
      rw [persisted, h.gone, h.second, hsecond, chooseSlot]
    refine iff_of_true ?_ fun hbehind => ?_
    · rcases loadReport_nothing hslot hbuffer hnone with hempty | hcorrupt
      · exact .inl hempty
      · exact .inr (.inl hcorrupt)
    · obtain ⟨_, found1, _, hread, _⟩ := hbehind
      rw [hsecond] at hread
      cases hread
  | some found1 =>
    have hafter : persisted mem' slot = some (1, found1) := by
      rw [persisted, h.gone, h.second, hsecond, chooseSlot]
    by_cases hlater : ∀ found0, slotRead mem (slot 0) = some found0 →
        sequenceIsLater found1.1.sequence found0.1.sequence = true
    · have hsame : persisted mem' slot = persisted mem slot := by
        rw [hafter, persisted, hsecond]
        cases hfirst : slotRead mem (slot 0) with
        | none => rfl
        | some found0 => rw [chooseSlot, if_pos (hlater found0 hfirst)]
      refine iff_of_true (.of_persisted hslot hbuffer hsame) ?_
      rintro ⟨found0, found1', hfirst, hread, hearlier, -⟩
      obtain rfl := Option.some.inj (hsecond.symm.trans hread)
      rw [hlater found0 hfirst] at hearlier
      cases hearlier
    · push Not at hlater
      obtain ⟨found0, hfirst, hearlier⟩ := hlater
      have hbefore : persisted mem slot = some (0, found0) := by
        rw [persisted, hfirst, hsecond, chooseSlot, if_neg hearlier]
      rw [olderBehind_iff hfirst hsecond (Bool.eq_false_iff.mpr hearlier)]
      exact reportsNoOlder_iff hslot hbuffer hbefore hafter

end revival

section interruption

variable {config : PersistentConfig} {w : FlashWorld}

/-- A sector whose erase was cut short does not read. -/
def TornUnreadable (slot : Fin 2 → FlashRegion) (w : FlashWorld) : Prop :=
  ∀ i, FlashMark.torn (.erase (slot i).offset (slot i).size) ∈ w.trace →
    slotRead w.mem (slot i) = none

/-- As far as an erase may have got: nothing, slot 0, or both. -/
def ErasedSoFar (slot : Fin 2 → FlashRegion) (mem mem' : Mem) : Prop :=
  mem' = mem ∨ Wiped slot 0 mem mem' ∨ ∀ i, slotRead mem' (slot i) = none

theorem wiped_of_frames (hslot : slotRegions build = some slot) (i : Fin 2)
    (hframes : ∀ a, a < (slot i).offset ∨ (slot i).offset + 4096 ≤ a → w.mem a = mem a)
    (hgone : slotRead w.mem (slot i) = none) : Wiped slot i mem w.mem :=
  ⟨hgone, other_slot_unchanged hslot i hframes⟩

theorem wp_wipeSlot (hslot : slotRegions build = some slot) (i : Fin 2) (hwear : w.NoWear) :
    wp (flashStorageErase build (slot i) 0 (slot i).size)
      (fun r t => t.NoWear ∧ ((r = .ok ∧ Wiped slot i w.mem t.mem) ∨ (r ≠ .ok ∧ t.mem = w.mem)))
      (fun t => TornUnreadable slot t → t.mem = w.mem ∨ Wiped slot i w.mem t.mem) w := by
  have hs := (slotRegions_spec hslot).1 i
  have hsize : (slot i).size ≠ 0 := by
    rw [hs.size_eq]
    norm_num
  have habs : flashRegionAbsolute (slot i) 0 = (slot i).offset := hs.absolute (by norm_num)
  have hcarried : ∀ t, Carried (.erase (flashRegionAbsolute (slot i) 0) (slot i).size) w t →
      Wiped slot i w.mem t.mem := by
    intro t ht
    rw [habs, hs.size_eq] at ht
    refine wiped_of_frames hslot i (fun a ha => ?_) (slotRead_of_erased hs fun a ha ha' => ?_)
    · rw [ht.mem, FlashOp.apply, erase_outside ha]
    · rw [ht.mem, FlashOp.apply, erase_inside ha (by omega)]
  refine wp_mono (wp_flashStorageErase build (slot i) 0 hsize w) ?_ ?_
  · rintro r t (⟨hr, -, hran⟩ | ⟨hr, ht⟩)
    · have ht := hran.carried hwear
      exact ⟨ht.noWear hwear, .inl ⟨hr, hcarried t ht⟩⟩
    · exact ⟨ht.noWear hwear, .inr ⟨hr, ht.mem⟩⟩
  · rintro t (ht | ht | ht) htorn
    · exact .inl ht.mem
    · exact .inr (hcarried t ht)
    · rw [habs] at ht
      have hgone : slotRead t.mem (slot i) = none := by
        refine htorn i ?_
        rw [ht.trace]
        exact List.mem_append_right _ (List.mem_singleton.mpr rfl)
      refine .inr (wiped_of_frames hslot i (fun a ha => ht.frames a ?_) hgone)
      rw [FlashOp.start, FlashOp.size, hs.size_eq]
      exact ha

theorem persistentConfigErase_stops (hslot : slotRegions build = some slot)
    (hconfig : config.slot = slot) (hwear : w.NoWear) :
    wp (persistentConfigErase build config)
      (fun _ t => ErasedSoFar slot w.mem t.mem)
      (fun t => TornUnreadable slot t → ErasedSoFar slot w.mem t.mem) w := by
  subst hconfig
  unfold persistentConfigErase
  have hsize : (config.slot 0).size ≠ 0 := by
    rw [((slotRegions_spec hslot).1 0).size_eq]
    norm_num
  rw [if_neg hsize]
  refine wp_seq (wp_mono (wp_wipeSlot hslot 0 hwear) (fun _ _ h => h) ?_) ?_
  · intro t h htorn
    rcases h htorn with hsame | hwiped
    · exact .inl hsame
    · exact .inr (.inl hwiped)
  rintro r₁ t₁ ⟨hwear₁, ⟨rfl, hfirst⟩ | ⟨hr₁, hsame₁⟩⟩
  · have hboth : ∀ t : FlashWorld, Wiped config.slot 1 t₁.mem t.mem →
        ∀ i, slotRead t.mem (config.slot i) = none := by
      intro t hsecond i
      fin_cases i
      · exact hsecond.kept.trans hfirst.gone
      · exact hsecond.gone
    refine wp_seq (wp_mono (wp_wipeSlot hslot 1 hwear₁) (fun _ _ h => h) ?_) ?_
    · intro t h htorn
      rcases h htorn with hsame | hwiped
      · rw [hsame]
        exact .inr (.inl hfirst)
      · exact .inr (.inr (hboth t hwiped))
    · rintro r₂ t₂ ⟨-, ⟨rfl, hsecond⟩ | ⟨hr₂, hsame₂⟩⟩
      · exact (wp_pure _ _ _ _).mpr (.inr (.inr (hboth t₂ hsecond)))
      · rw [if_pos hr₂]
        refine (wp_pure _ _ _ _).mpr ?_
        rw [hsame₂]
        exact .inr (.inl hfirst)
  · rw [if_pos hr₁]
    exact (wp_pure _ _ _ _).mpr (.inl hsame₁)

theorem persistentConfigErase_refused (hslot : slotRegions build = some slot)
    (hconfig : config.slot = slot) (hcode : flashStorageHoldsRunningCode build (slot 0) = true) :
    (persistentConfigErase build config).run.run w = (some (.errFlash, config), w) := by
  subst hconfig
  have hsize : (config.slot 0).size ≠ 0 := by
    rw [((slotRegions_spec hslot).1 0).size_eq]
    norm_num
  have hrun : (flashStorageErase build (config.slot 0) 0 (config.slot 0).size).run.run w =
      (some .errRunningFromRegion, w) := by
    simp only [flashStorageErase, flashStorageRun, precheck, if_neg hsize, hcode, if_true]
    rfl
  rw [persistentConfigErase, if_neg hsize, OptionT.run_bind, Option.elimM, StateT.run_bind, hrun]
  rfl

theorem persistentConfigErase_halved (hslot : slotRegions build = some slot)
    (hconfig : config.slot = slot) (hcode : flashStorageHoldsRunningCode build (slot 0) = false) :
    ∃ t, (persistentConfigErase build config).run.run ⟨mem, [.cutAfter], []⟩ = (none, t) ∧
      TornUnreadable slot t ∧ Wiped slot 0 mem t.mem := by
  subst hconfig
  have hs := (slotRegions_spec hslot).1 0
  have hsize : (config.slot 0).size ≠ 0 := by
    rw [hs.size_eq]
    norm_num
  have habs : flashRegionAbsolute (config.slot 0) 0 = (config.slot 0).offset := hs.absolute (by norm_num)
  have hcheck : flashRegionCheckErase (config.slot 0) 0 (config.slot 0).size = .ok := by
    simp [flashRegionCheckErase, flashRegionContains, flashOffsetIsSectorAligned, hs.size_eq,
      hs.aligned, FLASH_LAYOUT_SECTOR_SIZE]
  let t : FlashWorld := ⟨erase mem (config.slot 0).offset (config.slot 0).size, [],
    [.carried (.erase (config.slot 0).offset (config.slot 0).size)]⟩
  have hrun : (flashStorageErase build (config.slot 0) 0 (config.slot 0).size).run.run
      ⟨mem, [.cutAfter], []⟩ = (none, t) := by
    simp only [flashStorageErase, flashStorageRun, precheck, if_neg hsize, hcode, hcheck, habs]
    rfl
  refine ⟨t, ?_, ?_, ?_⟩
  · rw [persistentConfigErase, if_neg hsize, OptionT.run_bind, Option.elimM, StateT.run_bind, hrun]
    rfl
  · intro i htorn
    exact absurd htorn (by simp [t])
  · refine wiped_of_frames hslot 0 (fun a ha => erase_outside ?_) (slotRead_of_erased hs ?_)
    · rw [hs.size_eq]
      exact ha
    · intro a ha ha'
      refine erase_inside ha ?_
      rw [hs.size_eq]
      omega

end interruption

section session

variable {session next : Session}

theorem persistentConfigLoad_ne_noSpace (hslot : slotRegions build = some slot) (buffer : Bytes) :
    (persistentConfigLoad build mem (some buffer) buffer.length).1 ≠ .errNoSpace := by
  by_cases hcap : buffer.length = 0
  · simp [persistentConfigLoad, hcap]
  rw [persistentConfigLoad_eq hslot hcap]
  split
  · split_ifs <;> simp
  · split_ifs
    · simp
    · split <;> simp

theorem slotless_step (hsize : (session.config.slot 0).size = 0) {event : SessionEvent}
    (hstep : SessionStep build session event next) : (next.config.slot 0).size = 0 := by
  cases hstep with
  | called => exact hsize
  | saved hwear hrun =>
    rw [persistentConfigSave, if_pos hsize] at hrun
    obtain ⟨hanswer, -⟩ := Prod.mk.inj hrun
    rw [← Option.some.inj hanswer]
    exact hsize
  | erased hwear hrun =>
    rw [persistentConfigErase, if_pos hsize] at hrun
    obtain ⟨hanswer, -⟩ := Prod.mk.inj hrun
    rw [← Option.some.inj hanswer]
    exact hsize

/-- What an erase brings about in any of its interruptions: the next load reports the current
configuration, or none. -/
def EraseSpares (build : FlashBuild) (session : Session) (buffer : Bytes) : Prop :=
  ∀ faults : List FlashFault, (∀ bytes, FlashFault.worn bytes ∉ faults) → ∀ answer w,
    (persistentConfigErase build session.config).run.run ⟨session.mem, faults, []⟩ = (answer, w) →
    TornUnreadable session.config.slot w → ReportsNoOlder build buffer session.mem w.mem

/-- An erase that starts, with an older configuration behind the current one. -/
def UncoversOlder (build : FlashBuild) (session : Session) (capacity : ℕ) : Prop :=
  0 < capacity ∧ ∃ slot, slotRegions build = some slot ∧
    flashStorageHoldsRunningCode build (slot 0) = false ∧ OlderBehind slot session.mem capacity

theorem eraseSpares_iff (hslot : slotRegions build = some slot)
    (hconfig : session.config.slot = slot) :
    EraseSpares build session buffer ↔ ¬ UncoversOlder build session buffer.length := by
  subst hconfig
  by_cases hbuffer : buffer = []
  · subst hbuffer
    refine iff_of_true (fun _ _ _ _ _ _ => .inr (.inr ?_)) fun h => absurd h.1 (by simp)
    simp [loadReport, persistentConfigLoad]
  have hcap : 0 < buffer.length := List.length_pos_iff.mpr hbuffer
  constructor
  · rintro hspares ⟨-, slot, hslot', hcode, hbehind⟩
    obtain rfl := Option.some.inj (hslot.symm.trans hslot')
    have hhalved : ∃ t, (persistentConfigErase build session.config).run.run
        ⟨session.mem, [.cutAfter], []⟩ = (none, t) ∧ TornUnreadable session.config.slot t ∧
          Wiped session.config.slot 0 session.mem t.mem :=
      persistentConfigErase_halved hslot rfl hcode
    obtain ⟨t, hrun, htorn, hwiped⟩ := hhalved
    have hreports := hspares [.cutAfter] (by simp) none t hrun htorn
    exact (hwiped.reports_iff hslot hbuffer).mp hreports hbehind
  · intro hcovered faults hwear answer w hrun htorn
    cases hcode : flashStorageHoldsRunningCode build (session.config.slot 0) with
    | true =>
      rw [persistentConfigErase_refused hslot rfl hcode] at hrun
      obtain ⟨-, rfl⟩ := Prod.mk.inj hrun
      exact .inr (.inr rfl)
    | false =>
      have hstops : ErasedSoFar session.config.slot session.mem w.mem := by
        have hwp := persistentConfigErase_stops (w := ⟨session.mem, faults, []⟩) hslot rfl hwear
        cases answer with
        | some answer => exact (wp_returned hrun).mp hwp
        | none => exact (wp_cut hrun).mp hwp htorn
      rcases hstops with hsame | hwiped | hboth
      · rw [hsame]
        exact .inr (.inr rfl)
      · refine (hwiped.reports_iff hslot hbuffer).mpr fun hbehind => ?_
        exact hcovered ⟨hcap, _, hslot, hcode, hbehind⟩
      · have hnone : persisted w.mem session.config.slot = none := by
          rw [persisted, hboth 0, hboth 1, chooseSlot]
        rcases loadReport_nothing hslot hbuffer hnone with hempty | hcorrupt
        · exact .inl hempty
        · exact .inr (.inl hcorrupt)

/-- In every session, an erase that is cut short or fails leaves the current configuration or none
exactly when it does not uncover an older one in slot 1. -/
theorem persistentConfigErase_spares_iff {buffer : Bytes} {result : PersistentConfigResult}
    {config : PersistentConfig}
    (hload : persistentConfigLoad build mem (some buffer) buffer.length = (result, some config))
    {events : List SessionEvent} (hrun : Steps (SessionStep build) ⟨mem, config⟩ events session)
    (next : Bytes) :
    EraseSpares build session next ↔ ¬ UncoversOlder build session next.length := by
  cases hslot : slotRegions build with
  | some slot =>
    have hspace : result ≠ .errNoSpace := by
      have hne : (persistentConfigLoad build mem (some buffer) buffer.length).1 ≠ .errNoSpace :=
        persistentConfigLoad_ne_noSpace hslot buffer
      rw [hload] at hne
      exact hne
    obtain ⟨slot', hslot', hstart⟩ := SessionAgrees.loaded hload hspace
    obtain rfl := Option.some.inj (hslot.symm.trans hslot')
    have h : SessionAgrees slot session :=
      hrun.invariant (fun _ _ _ h hstep => h.step hslot hstep) hstart
    exact eraseSpares_iff hslot h.slot_eq
  | none =>
    have hsize : (session.config.slot 0).size = 0 := by
      have hkeeps : ∀ s e t, (s.config.slot 0).size = 0 → SessionStep build s e t →
          (t.config.slot 0).size = 0 := fun _ _ _ h hstep => slotless_step h hstep
      refine hrun.invariant hkeeps ?_
      simp only [persistentConfigLoad, hslot] at hload
      split_ifs at hload
      · cases hload
      · obtain ⟨-, hconfig⟩ := Prod.mk.inj hload
        rw [← Option.some.inj hconfig]
    refine iff_of_true (fun faults _ answer w hrun _ => ?_) ?_
    · rw [persistentConfigErase, if_pos hsize] at hrun
      obtain ⟨-, rfl⟩ := Prod.mk.inj hrun
      exact .inr (.inr rfl)
    · rintro ⟨-, slot, hslot', -⟩
      rw [hslot] at hslot'
      cases hslot'

end session

section examples

def defaultSlots : Fin 2 → FlashRegion := (slotRegions defaultBuild).getD fun _ => ⟨0, 0⟩

theorem slotRegions_defaultBuild : slotRegions defaultBuild = some defaultSlots := by
  have hsome : (slotRegions defaultBuild).isSome = true := by decide
  obtain ⟨slot, hslot⟩ := Option.isSome_iff_exists.mp hsome
  rw [defaultSlots, hslot, Option.getD_some]

/-- The configuration in slot 1 of `staleMem` has been saved over. -/
def savedOverMem : Mem :=
  let records := recordBytes [97] [2]
  program (program staleMem (1970176 + 256) (recordPage records 0)) 1970176
    (headerPage (newHeader 6 records))

theorem savedOverMem_olderBehind : OlderBehind defaultSlots savedOverMem 8 := by
  have hnewer : (slotRead savedOverMem (defaultSlots 0)).map
      (fun found => (found.1.sequence, found.2)) = some (6, recordBytes [97] [2]) := by
    decide +kernel
  have holder : (slotRead savedOverMem (defaultSlots 1)).map
      (fun found => (found.1.sequence, found.2)) = some (5, recordBytes [97] [1]) := by
    decide +kernel
  obtain ⟨found0, hfirst, hpair0⟩ := Option.map_eq_some_iff.mp hnewer
  obtain ⟨found1, hsecond, hpair1⟩ := Option.map_eq_some_iff.mp holder
  obtain ⟨hsequence0, hrecords0⟩ := Prod.mk.inj hpair0
  obtain ⟨hsequence1, hrecords1⟩ := Prod.mk.inj hpair1
  let record : Record := ⟨[97], [1], by decide, by decide, by decide⟩
  refine ⟨found0, found1, hfirst, hsecond, ?_, .inr ⟨?_, ⟨[record], ?_⟩, ?_⟩⟩
  · rw [hsequence0, hsequence1]
    decide
  · rw [hrecords1]
    decide
  · rw [hrecords1]
    rfl
  · rw [hrecords0, hrecords1]
    decide

/-- Power goes between the two sectors, and the next load returns OK with the configuration that
was saved over. -/
theorem persistentConfigErase_uncovers : ∃ config,
    persistentConfigLoad defaultBuild savedOverMem (some (List.replicate 8 0)) 8 =
      (.ok, some config) ∧
    ¬ EraseSpares defaultBuild ⟨savedOverMem, config⟩ (List.replicate 8 0) := by
  have hok : (persistentConfigLoad defaultBuild savedOverMem (some (List.replicate 8 0)) 8).1 = .ok := by
    decide +kernel
  have hsome : (persistentConfigLoad defaultBuild savedOverMem
      (some (List.replicate 8 0)) 8).2.isSome = true := by decide +kernel
  obtain ⟨config, hconfig⟩ := Option.isSome_iff_exists.mp hsome
  have hload : persistentConfigLoad defaultBuild savedOverMem (some (List.replicate 8 0)) 8 =
      (.ok, some config) := Prod.ext hok hconfig
  obtain ⟨slot, hslot, hcases⟩ := persistentConfigLoad_cases rfl hload nofun
  obtain rfl := Option.some.inj (slotRegions_defaultBuild.symm.trans hslot)
  have hregions : config.slot = defaultSlots := by
    rcases hcases with ⟨-, i, header, rs, -, hadopted⟩ | ⟨-, hfresh, -⟩
    · exact hadopted.slot_eq
    · exact hfresh.slot_eq
  have hiff : EraseSpares defaultBuild ⟨savedOverMem, config⟩ (List.replicate 8 0) ↔
      ¬ UncoversOlder defaultBuild ⟨savedOverMem, config⟩ 8 := eraseSpares_iff hslot hregions
  refine ⟨config, hload, fun hspares => hiff.mp hspares ?_⟩
  exact ⟨by decide, defaultSlots, hslot, by decide, savedOverMem_olderBehind⟩

theorem persistentConfigErase_spares_stale :
    EraseSpares defaultBuild staleSession (List.replicate 8 0) := by
  have hnone : (slotRead staleMem (defaultSlots 0)).isNone = true := by decide
  refine (persistentConfigErase_spares_iff staleSession_loaded (Steps.nil _) _).mpr ?_
  rintro ⟨-, slot, hslot, -, found0, -, hfirst, -⟩
  obtain rfl := Option.some.inj (slotRegions_defaultBuild.symm.trans hslot)
  rw [Option.isNone_iff_eq_none.mp hnone] at hfirst
  cases hfirst

end examples

end Pico
