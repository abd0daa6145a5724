import PicoFramework.Proofs.ConfigDurability

/-! What a load returns after a save that succeeded, over sessions that start from any
usable load. A session that adopted nothing numbers its first save from zero, so an
image it could not adopt may still carry the later number. -/

namespace Pico

open Lib.Nor Lib.Power Lib.Run

/-- A board that keeps its power. -/
structure Session where
  mem : Mem
  config : PersistentConfig

inductive SessionEvent where
  | call (call : ConfigCall)
  | save (faults : List FlashFault)
  | erase (faults : List FlashFault)

/-- Saves and erases run to their end; the flash may refuse an operation, and the result
is then an error. -/
inductive SessionStep (build : FlashBuild) : Session → SessionEvent → Session → Prop
  | called {session : Session} {call : ConfigCall} :
      SessionStep build session (.call call)
        { session with
          config := session.config.withStore (configCall session.config.store call).2 }
  | saved {session : Session} {faults : List FlashFault}
      {answer : PersistentConfigResult × PersistentConfig} {w : FlashWorld}
      (hwear : ∀ bytes, FlashFault.worn bytes ∉ faults)
      (hrun : (persistentConfigSave build session.config).run.run ⟨session.mem, faults, []⟩ =
        (some answer, w)) :
      SessionStep build session (.save faults) ⟨w.mem, answer.2⟩
  | erased {session : Session} {faults : List FlashFault}
      {answer : PersistentConfigResult × PersistentConfig} {w : FlashWorld}
      (hwear : ∀ bytes, FlashFault.worn bytes ∉ faults)
      (hrun : (persistentConfigErase build session.config).run.run ⟨session.mem, faults, []⟩ =
        (some answer, w)) :
      SessionStep build session (.erase faults) ⟨w.mem, answer.2⟩

/-- RAM's number is that of the slot it calls current, as long as that slot reads. -/
structure SessionAgrees (slot : Fin 2 → FlashRegion) (session : Session) : Prop where
  slot_eq : session.config.slot = slot
  holds : ∃ rs, Holds session.config.store rs
  sequence : session.config.loaded = true → ∀ found,
    slotRead session.mem (slot session.config.current) = some found →
      found.1.sequence = session.config.sequence

section erase

variable {build : FlashBuild} {slot : Fin 2 → FlashRegion} {config : PersistentConfig}
  {w t : FlashWorld}

/-- No slot comes to hold anything that it did not hold before. -/
def SlotsShrink (slot : Fin 2 → FlashRegion) (mem mem' : Mem) : Prop :=
  ∀ i, slotRead mem' (slot i) = slotRead mem (slot i) ∨ slotRead mem' (slot i) = none

theorem SlotsShrink.trans {mem mem' mem'' : Mem} (h : SlotsShrink slot mem mem')
    (h' : SlotsShrink slot mem' mem'') : SlotsShrink slot mem mem'' := by
  intro i
  rcases h' i with hsame | hnone
  · rw [hsame]
    exact h i
  · exact Or.inr hnone

theorem wp_eraseOne (hslot : slotRegions build = some slot) (i : Fin 2) (hwear : w.NoWear) :
    wp (flashStorageErase build (slot i) 0 (slot i).size)
      (fun _ t => t.NoWear ∧ SlotsShrink slot w.mem t.mem) (fun _ => True) w := by
  have hs := (slotRegions_spec hslot).1 i
  have hsize : (slot i).size ≠ 0 := by
    rw [hs.size_eq]
    norm_num
  have habs : flashRegionAbsolute (slot i) 0 = (slot i).offset := hs.absolute (by norm_num)
  refine wp_mono (wp_flashStorageErase build (slot i) 0 hsize w) ?_ fun _ _ => trivial
  rintro r t (⟨-, -, hran⟩ | ⟨-, ht⟩)
  · have ht := hran.carried hwear
    rw [habs, hs.size_eq] at ht
    refine ⟨ht.noWear hwear, fun j => ?_⟩
    by_cases hj : j = i
    · subst hj
      right
      refine slotRead_of_erased hs fun a ha ha' => ?_
      rw [ht.mem, FlashOp.apply, erase_inside ha (by omega)]
    · left
      obtain rfl : j = 1 - i := by omega
      refine other_slot_unchanged hslot i fun a ha => ?_
      rw [ht.mem, FlashOp.apply, erase_outside ha]
  · exact ⟨ht.noWear hwear, fun j => Or.inl (by rw [ht.mem])⟩

theorem persistentConfigErase_spec (hslot : slotRegions build = some slot)
    (hconfig : config.slot = slot) (hwear : w.NoWear) :
    wp (persistentConfigErase build config)
      (fun r t => SlotsShrink slot w.mem t.mem ∧
        (r.2 = config ∨ (r.2.slot = slot ∧ r.2.store = configClear config.store ∧
          r.2.loaded = false)))
      (fun _ => True) w := by
  subst hconfig
  unfold persistentConfigErase
  have hsize : (config.slot 0).size ≠ 0 := by
    rw [((slotRegions_spec hslot).1 0).size_eq]
    norm_num
  rw [if_neg hsize]
  refine wp_seq (wp_eraseOne hslot 0 hwear) ?_
  rintro r₁ t₁ ⟨hwear₁, hshrink₁⟩
  by_cases hr₁ : r₁ = .ok
  · rw [if_neg (by simpa using hr₁)]
    refine wp_seq (wp_eraseOne hslot 1 hwear₁) ?_
    rintro r₂ t₂ ⟨-, hshrink₂⟩
    by_cases hr₂ : r₂ = .ok
    · rw [if_neg (by simpa using hr₂)]
      exact (wp_pure _ _ _ _).mpr ⟨hshrink₁.trans hshrink₂, Or.inr ⟨rfl, rfl, rfl⟩⟩
    · rw [if_pos hr₂]
      exact (wp_pure _ _ _ _).mpr ⟨hshrink₁.trans hshrink₂, Or.inl rfl⟩
  · rw [if_pos hr₁]
    exact (wp_pure _ _ _ _).mpr ⟨hshrink₁, Or.inl rfl⟩

end erase

section session

variable {build : FlashBuild} {slot : Fin 2 → FlashRegion} {session next : Session}

theorem SessionAgrees.save_spec (hslot : slotRegions build = some slot)
    (h : SessionAgrees slot session) {faults : List FlashFault}
    (hwear : ∀ bytes, FlashFault.worn bytes ∉ faults) {answer : PersistentConfigResult × PersistentConfig}
    {w : FlashWorld}
    (hrun : (persistentConfigSave build session.config).run.run ⟨session.mem, faults, []⟩ =
      (some answer, w)) :
    (answer = (.ok, { session.config with
        current := session.config.target
        sequence := session.config.sequence + 1
        loaded := true }) ∧
      Landed session.mem (slot session.config.target) session.config.savedHeader
        session.config.store.records w) ∨
    (answer.1 ≠ .ok ∧ answer.2 = session.config ∧
      Unlanded session.mem (slot session.config.target) w) := by
  obtain ⟨hregions, ⟨rs, hrs⟩, -⟩ := h
  have hlength : session.config.store.records.length = session.config.store.used := by
    rw [hrs.records_eq, ← hrs.used_eq]
  subst hregions
  exact (wp_returned hrun).mp (persistentConfigSave_spec build session.config
    ((slotRegions_spec hslot).1 _) hlength ⟨session.mem, faults, []⟩ hwear rfl)

theorem SessionAgrees.step (hslot : slotRegions build = some slot) {event : SessionEvent}
    (h : SessionAgrees slot session) (hstep : SessionStep build session event next) :
    SessionAgrees slot next := by
  have hslots := h.slot_eq
  obtain ⟨rs, hrs⟩ := h.holds
  cases hstep with
  | called => exact ⟨hslots, configCall_keeps hrs _, h.sequence⟩
  | saved hwear hrun =>
    rcases h.save_spec hslot hwear hrun with ⟨rfl, hw⟩ | ⟨-, hsame, hw⟩
    · refine ⟨hslots, ⟨rs, hrs⟩, fun _ found hfound => ?_⟩
      have hread := (slotRead_eq_some ((slotRegions_spec hslot).1 _)).mpr hw.reads
      obtain rfl := Option.some.inj (hread.symm.trans hfound)
      rfl
    · rw [hsame]
      refine ⟨hslots, ⟨rs, hrs⟩, fun hloaded found hfound => ?_⟩
      have htarget : session.config.current = 1 - session.config.target := by
        rw [PersistentConfig.target, hloaded, if_pos rfl, sub_sub_cancel]
      simp only at hfound
      rw [htarget, other_slot_unchanged hslot _ hw.frames, ← htarget] at hfound
      exact h.sequence hloaded found hfound
  | erased hwear hrun =>
    obtain ⟨hshrink, hanswer⟩ :=
      (wp_returned hrun).mp (persistentConfigErase_spec (w := ⟨session.mem, _, []⟩) hslot hslots hwear)
    rcases hanswer with hsame | ⟨hregions, hstore, hloaded⟩
    · rw [hsame]
      refine ⟨hslots, ⟨rs, hrs⟩, fun hloaded found hfound => ?_⟩
      rcases hshrink session.config.current with hread | hnone
      · exact h.sequence hloaded found (hread.symm.trans hfound)
      · rw [hnone] at hfound
        cases hfound
    · refine ⟨hregions, ⟨[], by rw [hstore]; exact (configClear_holds hrs).1⟩, fun hl => ?_⟩
      rw [hloaded] at hl
      cases hl

theorem SessionAgrees.loaded {mem : Mem} {buffer : Bytes} {result : PersistentConfigResult}
    {config : PersistentConfig}
    (hload : persistentConfigLoad build mem (some buffer) buffer.length = (result, some config))
    (hresult : result ≠ .errNoSpace) :
    ∃ slot, slotRegions build = some slot ∧ SessionAgrees slot ⟨mem, config⟩ := by
  obtain ⟨slot, hslot, hcases⟩ := persistentConfigLoad_cases rfl hload hresult
  refine ⟨slot, hslot, ?_⟩
  rcases hcases with ⟨-, i, header, rs, hheld, hadopted⟩ | ⟨-, hfresh, -⟩
  · refine ⟨hadopted.slot_eq, ⟨rs, hadopted.holds⟩, fun _ found hfound => ?_⟩
    simp only [hadopted.current_eq, hadopted.sequence_eq, persisted_read hheld] at hfound ⊢
    rw [← Option.some.inj hfound]
  · refine ⟨hfresh.slot_eq, ⟨[], hfresh.holds⟩, fun hl => ?_⟩
    rw [hfresh.loaded] at hl
    cases hl

/-- A load with room for `records` returns OK and holds exactly them. -/
def NextLoadReturns (build : FlashBuild) (mem : Mem) (records : Bytes) : Prop :=
  ∀ buffer : Bytes, buffer ≠ [] → records.length ≤ buffer.length →
    ∃ config, persistentConfigLoad build mem (some buffer) buffer.length = (.ok, some config) ∧
      config.store.records = records

/-- The save starts from an adopted image, or the slot it leaves alone holds nothing that
a load would prefer to it. -/
def SaveWins (session : Session) : Prop :=
  session.config.loaded = true ∨
    ∀ found, slotRead session.mem (session.config.slot 1) = some found →
      sequenceIsLater found.1.sequence (session.config.sequence + 1) = false ∨
        found.2 = session.config.store.records

theorem SessionAgrees.persisted_saved (hslot : slotRegions build = some slot)
    (h : SessionAgrees slot session) {w : FlashWorld}
    (hw : Landed session.mem (slot session.config.target) session.config.savedHeader
      session.config.store.records w) :
    (SaveWins session → ∃ i header,
      persisted w.mem slot = some (i, header, session.config.store.records)) ∧
    (¬ SaveWins session → ∃ i found, persisted w.mem slot = some (i, found) ∧
      found.2 ≠ session.config.store.records) := by
  have hread := (slotRead_eq_some ((slotRegions_spec hslot).1 _)).mpr hw.reads
  have hother := other_slot_unchanged hslot _ hw.frames
  have hsequence : session.config.savedHeader.sequence = session.config.sequence + 1 := rfl
  cases hloaded : session.config.loaded with
  | true =>
    have htarget : 1 - session.config.target = session.config.current := by
      rw [PersistentConfig.target, hloaded, if_pos rfl, sub_sub_cancel]
    refine ⟨fun _ => ⟨_, _, persisted_of_wins hread fun other h' => ?_⟩,
      fun hlost => absurd (Or.inl hloaded) hlost⟩
    rw [hother, htarget] at h'
    simp only
    rw [hsequence, ← h.sequence hloaded other h']
    exact ⟨sequenceIsLater_succ _, not_sequenceIsLater_succ _⟩
  | false =>
    have htarget : session.config.target = 0 := by
      rw [PersistentConfig.target, hloaded, if_neg (by simp)]
    rw [htarget, sub_zero] at hother
    rw [htarget] at hread
    rw [← h.slot_eq] at hother hread ⊢
    unfold SaveWins persisted
    rw [hloaded, hread, hother]
    cases hone : slotRead session.mem (session.config.slot 1) with
    | none => simp [chooseSlot]
    | some found =>
      rw [chooseSlot, hsequence]
      by_cases hlater : sequenceIsLater found.1.sequence (session.config.sequence + 1) = true
      · rw [if_pos hlater]
        by_cases hsame : found.2 = session.config.store.records
        · exact ⟨fun _ => ⟨1, found.1, by rw [← hsame]⟩, fun hlost => by simp [hsame] at hlost⟩
        · exact ⟨fun hwins => by simp [hlater, hsame] at hwins, fun _ => ⟨1, found, rfl, hsame⟩⟩
      · rw [if_neg hlater]
        exact ⟨fun _ => ⟨_, _, rfl⟩, fun hlost => by simp [hlater] at hlost⟩

/-- In every session, a save that returned OK is what the next load returns exactly when
the save had adopted an image to follow, or no later image was left in slot 1. -/
theorem persistentConfigSave_returned_iff {mem : Mem} {buffer : Bytes}
    {result : PersistentConfigResult} {config : PersistentConfig}
    (hload : persistentConfigLoad build mem (some buffer) buffer.length = (result, some config))
    (hresult : result ≠ .errNoSpace) {events : List SessionEvent}
    (hrun : Steps (SessionStep build) ⟨mem, config⟩ events session) {faults : List FlashFault}
    (hwear : ∀ bytes, FlashFault.worn bytes ∉ faults) {next : PersistentConfig} {w : FlashWorld}
    (hsave : (persistentConfigSave build session.config).run.run ⟨session.mem, faults, []⟩ =
      (some (.ok, next), w)) :
    NextLoadReturns build w.mem session.config.store.records ↔ SaveWins session := by
  obtain ⟨slot, hslot, hstart⟩ := SessionAgrees.loaded hload hresult
  have h : SessionAgrees slot session :=
    hrun.invariant (fun _ _ _ h hstep => h.step hslot hstep) hstart
  obtain ⟨rs, hrs⟩ := h.holds
  have hw : Landed session.mem (slot session.config.target) session.config.savedHeader
      session.config.store.records w := by
    rcases h.save_spec hslot hwear hsave with ⟨-, hw⟩ | ⟨hne, -⟩
    · exact hw
    · exact absurd rfl hne
  obtain ⟨hwins, hloses⟩ := h.persisted_saved hslot hw
  constructor
  · intro hreturns
    by_contra hlost
    obtain ⟨i, found, hheld, hdiffer⟩ := hloses hlost
    -- any load that succeeds adopts what `found` holds, and that is not what was saved
    obtain ⟨config', hload', hrecords⟩ :=
      hreturns (session.config.store.records ++ [0]) (by simp) (by simp)
    obtain ⟨slot', hslot', hcases⟩ := persistentConfigLoad_cases rfl hload' (by simp)
    obtain rfl := Option.some.inj (hslot.symm.trans hslot')
    rcases hcases with ⟨-, i', header, rs', hheld', hadopted⟩ | ⟨hne, -⟩
    · rw [hheld] at hheld'
      obtain ⟨-, rfl⟩ := Prod.mk.inj (Option.some.inj hheld')
      exact hdiffer (hadopted.holds.records_eq.symm.trans hrecords)
    · exact hne rfl
  · intro hwon
    obtain ⟨i, header, hheld⟩ := hwins hwon
    rw [hrs.records_eq] at hheld ⊢
    intro buffer hne hroom
    obtain ⟨config', hload', hadopted⟩ := persistentConfigLoad_adopts hslot
      (fun hnil => hne (List.eq_nil_of_length_eq_zero hnil)) rfl hheld hroom
    exact ⟨config', hload', hadopted.holds.records_eq⟩

end session

/-- A chip whose second slot holds a record under sequence number 5. -/
def staleMem : Mem :=
  let records := recordBytes [97] [1]
  program (program (fun _ => erased) (1974272 + 256) (recordPage records 0)) 1974272
    (headerPage (newHeader 5 records))

/-- What a load of it into one byte leaves: the record does not fit. -/
def staleSession : Session :=
  ⟨staleMem, freshConfig ((slotRegions defaultBuild).getD fun _ => ⟨0, 0⟩) [0] 1⟩

def staleSave : Option (PersistentConfigResult × PersistentConfig) × FlashWorld :=
  (persistentConfigSave defaultBuild staleSession.config).run.run ⟨staleMem, [], []⟩

theorem staleSession_loaded : persistentConfigLoad defaultBuild staleMem (some [0]) 1 =
    (.errTooLarge, some staleSession.config) := by decide +kernel

theorem staleSave_ok : ∃ next, staleSave = (some (.ok, next), staleSave.2) := by
  have hok : staleSave.1.map Prod.fst = some .ok := by decide +kernel
  obtain ⟨⟨result, next⟩, hnext, hresult⟩ := Option.map_eq_some_iff.mp hok
  simp only at hresult
  subst hresult
  exact ⟨next, by rw [← hnext]⟩

/-- The load returned TOO_LARGE, the save OK, and the next load the old image. -/
theorem persistentConfig_stale_reload : ∃ next w config',
    persistentConfigLoad defaultBuild staleMem (some [0]) 1 =
      (.errTooLarge, some staleSession.config) ∧
    (persistentConfigSave defaultBuild staleSession.config).run.run ⟨staleMem, [], []⟩ =
      (some (.ok, next), w) ∧
    staleSession.config.store.records = [] ∧
    persistentConfigLoad defaultBuild w.mem (some (List.replicate 8 0)) 8 = (.ok, some config') ∧
    config'.store.records = recordBytes [97] [1] := by
  obtain ⟨next, hsave⟩ := staleSave_ok
  have hreload : (persistentConfigLoad defaultBuild staleSave.2.mem
      (some (List.replicate 8 0)) 8).1 = .ok := by decide +kernel
  have hrecords : (persistentConfigLoad defaultBuild staleSave.2.mem
      (some (List.replicate 8 0)) 8).2.map (·.store.records) = some (recordBytes [97] [1]) := by
    decide +kernel
  generalize staleSave.2 = w at hsave hreload hrecords ⊢
  obtain ⟨config', hconfig, himage⟩ := Option.map_eq_some_iff.mp hrecords
  exact ⟨next, w, config', staleSession_loaded, hsave, by decide, Prod.ext hreload hconfig, himage⟩

theorem persistentConfigSave_returned_iff_stale :
    ¬ NextLoadReturns defaultBuild staleSave.2.mem staleSession.config.store.records := by
  obtain ⟨next, hsave⟩ := staleSave_ok
  have hfound : (slotRead staleSession.mem (staleSession.config.slot 1)).map
      (fun found => (sequenceIsLater found.1.sequence (staleSession.config.sequence + 1), found.2)) =
      some (true, recordBytes [97] [1]) := by decide +kernel
  have hlost : ¬ SaveWins staleSession := by
    obtain ⟨found, hread, hpair⟩ := Option.map_eq_some_iff.mp hfound
    obtain ⟨hlater, hrecords⟩ := Prod.mk.inj hpair
    rintro (hloaded | hwins)
    · exact absurd hloaded (by decide)
    · rcases hwins found hread with hearlier | hsame
      · rw [hlater] at hearlier
        cases hearlier
      · rw [hrecords] at hsame
        exact absurd hsame (by decide)
  generalize staleSave.2 = w at hsave ⊢
  exact fun h => hlost ((persistentConfigSave_returned_iff staleSession_loaded (by simp)
    (Steps.nil _) (by simp) hsave).mp h)

end Pico
