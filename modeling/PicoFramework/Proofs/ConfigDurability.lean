import PicoFramework.Lib.Run
import PicoFramework.Proofs.ConfigLoad
import PicoFramework.Proofs.ConfigSave

/-! A board that saves its configuration and loses power: whatever is cut short, the
next load adopts the last image whose header landed. -/

namespace Pico

open Lib.Nor Lib.Power Lib.Run

/-- The chip, the RAM copy (gone once power is lost), and the images that were saved,
oldest first. The last is a record for the statements; no step reads it. -/
structure Board where
  mem : Mem
  config : Option PersistentConfig
  saves : List Bytes

inductive BoardEvent where
  | call (call : ConfigCall)
  | save (faults : List FlashFault)
  | load (buffer : Bytes)

def PersistentConfig.withStore (config : PersistentConfig) (store : ConfigStore) :
    PersistentConfig :=
  { config with store }

/-- A buffer that can take the image of either slot. -/
def RoomForEither (build : FlashBuild) (mem : Mem) (buffer : Bytes) : Prop :=
  buffer ≠ [] ∧ ∀ slot, slotRegions build = some slot → ∀ i found,
    slotRead mem (slot i) = some found → found.2.length ≤ buffer.length

/-- A save runs to its end, or is cut; an operation that the cut tears leaves a slot
that `slot_read` rejects. Either may happen after a `flash_safe_execute` that refused. -/
inductive BoardStep (build : FlashBuild) : Board → BoardEvent → Board → Prop
  | called {board : Board} {config : PersistentConfig} {call : ConfigCall}
      (hconfig : board.config = some config) :
      BoardStep build board (.call call)
        { board with config := some (config.withStore (configCall config.store call).2) }
  | saved {board : Board} {config next : PersistentConfig} {faults : List FlashFault}
      {result : PersistentConfigResult} {w : FlashWorld} (hconfig : board.config = some config)
      (hwear : ∀ bytes, FlashFault.worn bytes ∉ faults)
      (hrun : (persistentConfigSave build config).run.run ⟨board.mem, faults, []⟩ =
        (some (result, next), w)) :
      BoardStep build board (.save faults)
        { mem := w.mem
          config := some next
          saves := if result = .ok then board.saves ++ [config.store.records] else board.saves }
  | cut {board : Board} {config : PersistentConfig} {faults : List FlashFault} {w : FlashWorld}
      (hconfig : board.config = some config)
      (hwear : ∀ bytes, FlashFault.worn bytes ∉ faults)
      (hrun : (persistentConfigSave build config).run.run ⟨board.mem, faults, []⟩ = (none, w))
      (htorn : anyTorn w.trace = true → slotRead w.mem (config.slot config.target) = none) :
      BoardStep build board (.save faults)
        { mem := w.mem
          config := none
          saves := if headerLanded (config.slot config.target) w.trace then
            board.saves ++ [config.store.records] else board.saves }
  | loaded {board : Board} {buffer : Bytes} {result : PersistentConfigResult}
      {config : PersistentConfig} (hroom : RoomForEither build board.mem buffer)
      (hload : persistentConfigLoad build board.mem (some buffer) buffer.length =
        (result, some config)) :
      BoardStep build board (.load buffer) { board with config := some config }

/-- What RAM knows about the chip: which slot is current and with which number, or that
neither slot reads. -/
def RamAgrees (mem : Mem) (slot : Fin 2 → FlashRegion) (config : PersistentConfig) : Prop :=
  config.slot = slot ∧ (∃ rs, Holds config.store rs) ∧
    if config.loaded then
      ∃ found, persisted mem slot = some (config.current, found) ∧
        found.1.sequence = config.sequence
    else persisted mem slot = none

/-- The chip holds the last image that was saved. -/
structure Durable (slot : Fin 2 → FlashRegion) (board : Board) : Prop where
  held : (persisted board.mem slot).map (·.2.2) = board.saves.getLast?
  image : ∀ records, board.saves.getLast? = some records → ∃ rs, records = image rs
  ram : ∀ config, board.config = some config → RamAgrees board.mem slot config

section save

variable {build : FlashBuild} {slot : Fin 2 → FlashRegion} {board : Board}
  {config : PersistentConfig} {w : FlashWorld}

theorem Holds.records_eq {store : ConfigStore} {rs : List Record} (h : Holds store rs) :
    store.records = image rs := h.contents

theorem other_slot_unchanged (hslot : slotRegions build = some slot) {mem : Mem} (i : Fin 2)
    (hframes : ∀ a, a < (slot i).offset ∨ (slot i).offset + 4096 ≤ a → w.mem a = mem a) :
    slotRead w.mem (slot (1 - i)) = slotRead mem (slot (1 - i)) := by
  obtain ⟨hsector, hdisjoint⟩ := slotRegions_spec hslot
  refine slotRead_congr (hsector (1 - i)) fun a ha ha' => hframes a ?_
  rcases hdisjoint i with h | h
  · right
    omega
  · left
    omega

/-- A save whose header landed is what the chip holds, whatever it held before. -/
theorem persisted_landed (hslot : slotRegions build = some slot) {mem : Mem}
    (hram : RamAgrees mem slot config)
    (h : Landed mem (slot config.target) config.savedHeader config.store.records w) :
    persisted w.mem slot = some (config.target, config.savedHeader, config.store.records) := by
  have hread := (slotRead_eq_some ((slotRegions_spec hslot).1 config.target)).mpr h.reads
  refine persisted_of_wins hread fun other hother => ?_
  rw [other_slot_unchanged hslot config.target h.frames] at hother
  obtain ⟨-, -, hagrees⟩ := hram
  cases hloaded : config.loaded with
  | false =>
    rw [hloaded, if_neg (by simp)] at hagrees
    rw [slotRead_of_persisted_none hagrees] at hother
    cases hother
  | true =>
    rw [hloaded, if_pos rfl] at hagrees
    obtain ⟨found, hfound, hsequence⟩ := hagrees
    have htarget : 1 - config.target = config.current := by
      rw [PersistentConfig.target, hloaded, if_pos rfl, sub_sub_cancel]
    rw [htarget, persisted_read hfound] at hother
    obtain rfl := Option.some.inj hother
    have hsucc : config.savedHeader.sequence = found.1.sequence + 1 := by
      rw [hsequence]
      rfl
    rw [hsucc]
    exact ⟨sequenceIsLater_succ _, not_sequenceIsLater_succ _⟩

theorem persisted_unreadable (hslot : slotRegions build = some slot) {mem : Mem}
    (hram : RamAgrees mem slot config)
    (hframes : ∀ a, a < (slot config.target).offset ∨ (slot config.target).offset + 4096 ≤ a →
      w.mem a = mem a)
    (hblank : slotRead w.mem (slot config.target) = none) :
    persisted w.mem slot = persisted mem slot := by
  rw [persisted_of_unreadable hblank, other_slot_unchanged hslot config.target hframes]
  obtain ⟨-, -, hagrees⟩ := hram
  cases hloaded : config.loaded with
  | false =>
    rw [hloaded, if_neg (by simp)] at hagrees
    rw [slotRead_of_persisted_none hagrees, hagrees, Option.map_none]
  | true =>
    rw [hloaded, if_pos rfl] at hagrees
    obtain ⟨found, hfound, -⟩ := hagrees
    have htarget : 1 - config.target = config.current := by
      rw [PersistentConfig.target, hloaded, if_pos rfl, sub_sub_cancel]
    rw [htarget, persisted_read hfound, hfound, Option.map_some]

theorem persisted_unlanded (hslot : slotRegions build = some slot) {mem : Mem}
    (hram : RamAgrees mem slot config) (h : Unlanded mem (slot config.target) w) :
    persisted w.mem slot = persisted mem slot := by
  rcases h.blank with hblank | hsame
  · exact persisted_unreadable hslot hram h.frames hblank
  · rw [hsame]

theorem RamAgrees.image_eq {mem : Mem} (h : RamAgrees mem slot config) :
    ∃ rs, config.store.records = image rs ∧ config.store.records.length = config.store.used := by
  obtain ⟨-, ⟨rs, hrs⟩, -⟩ := h
  exact ⟨rs, hrs.contents, by rw [hrs.records_eq, ← hrs.used_eq]⟩

theorem RamAgrees.save_spec (hslot : slotRegions build = some slot) {mem : Mem}
    (h : RamAgrees mem slot config) {faults : List FlashFault}
    (hwear : ∀ bytes, FlashFault.worn bytes ∉ faults) :
    wp (persistentConfigSave build config)
      (fun r t =>
        (r = (.ok, { config with
            current := config.target, sequence := config.sequence + 1, loaded := true }) ∧
          Landed mem (slot config.target) config.savedHeader config.store.records t) ∨
        (r.1 ≠ .ok ∧ r.2 = config ∧ Unlanded mem (slot config.target) t))
      (fun t => Landed mem (slot config.target) config.savedHeader config.store.records t ∨
        SaveCut mem (slot config.target) t) ⟨mem, faults, []⟩ := by
  obtain ⟨rs, -, hlength⟩ := h.image_eq
  obtain ⟨rfl, -, -⟩ := h
  exact persistentConfigSave_spec build config ((slotRegions_spec hslot).1 _) hlength
    ⟨mem, faults, []⟩ hwear rfl

end save

theorem RamAgrees.call {mem : Mem} {slot : Fin 2 → FlashRegion} {config : PersistentConfig}
    (h : RamAgrees mem slot config) (call : ConfigCall) :
    RamAgrees mem slot (config.withStore (configCall config.store call).2) := by
  obtain ⟨hslot, ⟨rs, hrs⟩, hagrees⟩ := h
  exact ⟨hslot, configCall_keeps hrs call, hagrees⟩

section steps

variable {build : FlashBuild} {slot : Fin 2 → FlashRegion} {board next : Board}

theorem Durable.landed {config : PersistentConfig} {w : FlashWorld} {ram : Option PersistentConfig}
    (hslot : slotRegions build = some slot) (h : Durable slot board)
    (hconfig : board.config = some config)
    (hw : Landed board.mem (slot config.target) config.savedHeader config.store.records w)
    (hram : ∀ config', ram = some config' → config' = { config with
      current := config.target, sequence := config.sequence + 1, loaded := true }) :
    Durable slot ⟨w.mem, ram, board.saves ++ [config.store.records]⟩ := by
  have hagrees := h.ram config hconfig
  have hheld := persisted_landed hslot hagrees hw
  refine ⟨?_, ?_, ?_⟩
  · simp only [hheld, Option.map_some, List.getLast?_append, List.getLast?_singleton,
      Option.some_or]
  · intro records hrecords
    obtain ⟨rs, himage, -⟩ := hagrees.image_eq
    simp only [List.getLast?_append, List.getLast?_singleton, Option.some_or] at hrecords
    exact ⟨rs, by rw [← Option.some.inj hrecords, himage]⟩
  · intro config' hconfig'
    rw [hram config' hconfig']
    refine ⟨hagrees.1, hagrees.2.1, ?_⟩
    rw [if_pos rfl]
    exact ⟨_, hheld, rfl⟩

theorem Durable.unlanded {mem : Mem} {ram : Option PersistentConfig} (h : Durable slot board)
    (hheld : persisted mem slot = persisted board.mem slot)
    (hram : ∀ config', ram = some config' → board.config = some config') :
    Durable slot ⟨mem, ram, board.saves⟩ := by
  refine ⟨by rw [hheld, h.held], h.image, ?_⟩
  intro config' hconfig'
  obtain ⟨hregions, hholds, hagrees⟩ := h.ram config' (hram config' hconfig')
  refine ⟨hregions, hholds, ?_⟩
  rw [hheld]
  exact hagrees

theorem Durable.reload {buffer : Bytes} (hslot : slotRegions build = some slot)
    (h : Durable slot board) (hroom : RoomForEither build board.mem buffer) :
    ∃ result config,
      persistentConfigLoad build board.mem (some buffer) buffer.length = (result, some config) ∧
      RamAgrees board.mem slot config ∧
      match board.saves.getLast? with
      | some records => result = .ok ∧ config.store.records = records
      | none => (result = .errEmpty ∨ result = .errCorrupt) ∧ config.store.records = [] := by
  have hcap : buffer.length ≠ 0 := fun hnil => hroom.1 (List.eq_nil_of_length_eq_zero hnil)
  have hheld := h.held
  cases hpersisted : persisted board.mem slot with
  | none =>
    obtain ⟨result, config, hload, hresult, hfresh⟩ :=
      persistentConfigLoad_nothing hslot hcap rfl hpersisted
    rw [hpersisted, Option.map_none] at hheld
    rw [← hheld]
    refine ⟨result, config, hload, ⟨hfresh.slot_eq, ⟨[], hfresh.holds⟩, ?_⟩, hresult,
      hfresh.holds.records_eq⟩
    rw [hfresh.loaded, if_neg (by simp)]
    exact hpersisted
  | some held =>
    obtain ⟨i, header, records⟩ := held
    rw [hpersisted, Option.map_some] at hheld
    obtain ⟨rs, rfl⟩ := h.image records hheld.symm
    have hfits := hroom.2 slot hslot i _ (persisted_read hpersisted)
    obtain ⟨config, hload, hadopted⟩ := persistentConfigLoad_adopts hslot hcap rfl hpersisted hfits
    rw [← hheld]
    refine ⟨.ok, config, hload, ⟨hadopted.slot_eq, ⟨rs, hadopted.holds⟩, ?_⟩, rfl,
      hadopted.holds.records_eq⟩
    rw [hadopted.loaded, if_pos rfl, hadopted.current_eq, hadopted.sequence_eq]
    exact ⟨_, hpersisted, rfl⟩

theorem Durable.step (hslot : slotRegions build = some slot) {event : BoardEvent}
    (h : Durable slot board) (hstep : BoardStep build board event next) : Durable slot next := by
  cases hstep with
  | called hconfig =>
    refine ⟨h.held, h.image, ?_⟩
    intro config' hconfig'
    obtain rfl := Option.some.inj hconfig'
    exact (h.ram _ hconfig).call _
  | saved hconfig hwear hrun =>
    have hagrees := h.ram _ hconfig
    rcases (wp_returned hrun).mp (hagrees.save_spec hslot hwear) with ⟨hr, hw⟩ | ⟨hr, hr', hw⟩
    · obtain ⟨rfl, rfl⟩ := Prod.mk.inj hr
      rw [if_pos rfl]
      exact h.landed hslot hconfig hw fun config' h' => (Option.some.inj h').symm
    · rw [if_neg hr]
      refine h.unlanded (persisted_unlanded hslot hagrees hw) ?_
      intro config' hconfig'
      rw [hconfig, ← hr', hconfig']
  | cut hconfig hwear hrun htorn =>
    have hagrees := h.ram _ hconfig
    obtain rfl := hagrees.1
    have hnone (config' : PersistentConfig) (hconfig' : none = some config') :
        board.config = some config' := by cases hconfig'
    rcases (wp_cut hrun).mp (hagrees.save_spec hslot hwear) with hw | hw | hw
    · rw [if_pos hw.landed]
      exact h.landed hslot hconfig hw fun config' hconfig' => by cases hconfig'
    · rw [hw.landed, if_neg (by simp)]
      exact h.unlanded (persisted_unlanded hslot hagrees hw) hnone
    · rw [hw.landed, if_neg (by simp)]
      exact h.unlanded (persisted_unreadable hslot hagrees hw.frames (htorn hw.torn)) hnone
  | loaded hroom hload =>
    obtain ⟨result', config', hload', hagrees, -⟩ := h.reload hslot hroom
    obtain ⟨-, hsame⟩ := Prod.mk.inj (hload'.symm.trans hload)
    refine ⟨h.held, h.image, ?_⟩
    intro config'' hconfig''
    rw [← hsame] at hconfig''
    obtain rfl := Option.some.inj hconfig''
    exact hagrees

end steps

/-- The board after a first load. -/
def Board.loaded (mem : Mem) (result : PersistentConfigResult) (config : PersistentConfig) : Board :=
  { mem
    config := some config
    saves := if result = .ok then [config.store.records] else [] }

theorem Board.loaded_durable {build : FlashBuild} {mem : Mem} {buffer : Bytes}
    {result : PersistentConfigResult} {config : PersistentConfig}
    (hload : persistentConfigLoad build mem (some buffer) buffer.length = (result, some config))
    (hresult : result = .ok ∨ result = .errEmpty) :
    ∃ slot, slotRegions build = some slot ∧ Durable slot (Board.loaded mem result config) := by
  have hspace : result ≠ .errNoSpace := by
    rcases hresult with rfl | rfl
    · simp
    · simp
  obtain ⟨slot, hslot, hcases⟩ := persistentConfigLoad_cases rfl hload hspace
  refine ⟨slot, hslot, ?_⟩
  rcases hcases with ⟨rfl, i, header, rs, hheld, hadopted⟩ | ⟨hne, hfresh, hempty⟩
  · have hrecords := hadopted.holds.records_eq
    refine ⟨?_, ?_, ?_⟩
    · rw [Board.loaded, if_pos rfl, hrecords, hheld]
      rfl
    · intro records h
      rw [Board.loaded, if_pos rfl, hrecords] at h
      exact ⟨rs, (Option.some.inj h).symm⟩
    · intro config' h
      obtain rfl := Option.some.inj h
      refine ⟨hadopted.slot_eq, ⟨rs, hadopted.holds⟩, ?_⟩
      rw [hadopted.loaded, if_pos rfl, hadopted.current_eq, hadopted.sequence_eq]
      exact ⟨_, hheld, rfl⟩
  · have hnone := hempty (hresult.resolve_left hne)
    refine ⟨?_, ?_, ?_⟩
    · rw [Board.loaded, if_neg hne, hnone]
      rfl
    · intro records h
      rw [Board.loaded, if_neg hne] at h
      simp at h
    · intro config' h
      obtain rfl := Option.some.inj h
      refine ⟨hfresh.slot_eq, ⟨[], hfresh.holds⟩, ?_⟩
      rw [hfresh.loaded, if_neg (by simp)]
      exact hnone

/-- Whatever a run of edits, saves, power cuts and loads did, the next load adopts the
last image whose header landed, and reports nothing saved only if nothing was. -/
theorem persistentConfig_durable {build : FlashBuild} {mem : Mem} {buffer : Bytes}
    {result : PersistentConfigResult} {config : PersistentConfig}
    (hload : persistentConfigLoad build mem (some buffer) buffer.length = (result, some config))
    (hresult : result = .ok ∨ result = .errEmpty) {events : List BoardEvent} {board : Board}
    (hrun : Steps (BoardStep build) (Board.loaded mem result config) events board)
    {last : Bytes} (hroom : RoomForEither build board.mem last) :
    ∃ result' config',
      persistentConfigLoad build board.mem (some last) last.length = (result', some config') ∧
      match board.saves.getLast? with
      | some records => result' = .ok ∧ config'.store.records = records
      | none => (result' = .errEmpty ∨ result' = .errCorrupt) ∧ config'.store.records = [] := by
  obtain ⟨slot, hslot, hstart⟩ := Board.loaded_durable hload hresult
  have hdurable : Durable slot board :=
    hrun.invariant (fun _ _ _ h hstep => h.step hslot hstep) hstart
  obtain ⟨result', config', hlast, -, hsaved⟩ := hdurable.reload hslot hroom
  exact ⟨result', config', hlast, hsaved⟩

/-- The configuration that a new board loads into eight bytes, with `"a"` set to one byte. -/
def firstConfig : PersistentConfig :=
  let fresh := freshConfig ((slotRegions defaultBuild).getD fun _ => ⟨0, 0⟩) (List.replicate 8 0) 8
  fresh.withStore (configSet fresh.store (some (cstr "a")) (some ⟨[1], by decide⟩)).2

/-- The first save of a new board; power goes once the header page has landed. -/
def firstSave : Option (PersistentConfigResult × PersistentConfig) × FlashWorld :=
  (persistentConfigSave defaultBuild firstConfig).run.run
    ⟨fun _ => erased, [.done, .done, .cutAfter], []⟩

theorem persistentConfig_durable_first_save :
    ∃ config', persistentConfigLoad defaultBuild firstSave.2.mem (some (List.replicate 8 0)) 8 =
      (.ok, some config') ∧ config'.store.records = recordBytes [97] [1] := by
  have hload : persistentConfigLoad defaultBuild (fun _ => erased) (some (List.replicate 8 0))
      (List.replicate 8 0 : Bytes).length =
      (.errEmpty, some (freshConfig ((slotRegions defaultBuild).getD fun _ => ⟨0, 0⟩)
        (List.replicate 8 0) 8)) := by decide
  have hnone : firstSave.1.isNone = true := by decide +kernel
  have hcut : firstSave = (none, firstSave.2) := by
    rw [← Option.isNone_iff_eq_none.mp hnone]
  have htorn : anyTorn firstSave.2.trace = false := by decide +kernel
  have hlanded : headerLanded (firstConfig.slot firstConfig.target) firstSave.2.trace = true := by
    decide +kernel
  have hfits : ∀ i, ((slotRead firstSave.2.mem
      (((slotRegions defaultBuild).getD fun _ => ⟨0, 0⟩) i)).all
        fun found => found.2.length ≤ 8) = true := by decide +kernel
  generalize firstSave.2 = w at hcut htorn hlanded hfits ⊢
  have hset := Steps.snoc (Steps.nil _) (@BoardStep.called defaultBuild
    (Board.loaded (fun _ => erased) .errEmpty
      (freshConfig ((slotRegions defaultBuild).getD fun _ => ⟨0, 0⟩) (List.replicate 8 0) 8))
    _ (.set (some ⟨[97], by decide⟩) (some ⟨[1], by decide⟩)) rfl)
  have hrun := hset.snoc (@BoardStep.cut defaultBuild _ firstConfig _ _ rfl (by simp) hcut
    fun h => by rw [htorn] at h; cases h)
  have hroom : RoomForEither defaultBuild w.mem (List.replicate 8 0) := by
    refine ⟨by decide, fun slot hslot i found hfound => ?_⟩
    have hi := hfits i
    rw [hslot, Option.getD_some, hfound] at hi
    simpa using hi
  obtain ⟨result, config', hlast, hsaved⟩ :=
    persistentConfig_durable hload (Or.inr rfl) hrun hroom
  have hrecords : firstConfig.store.records = recordBytes [97] [1] := by decide
  simp only [hlanded, if_true, List.getLast?_append, List.getLast?_singleton, Option.some_or,
    hrecords] at hsaved
  obtain ⟨rfl, hsaved⟩ := hsaved
  exact ⟨config', hlast, hsaved⟩

end Pico
