import PicoFramework.Lib.Power
import PicoFramework.Proofs.ConfigDurability
import PicoFramework.Proofs.FirmwareApply

/-! One chip for the settings and the firmware. A board saves its configuration, takes updates and
installs them, in any order and through power cuts; each component keeps to regions of its own, so
that what is proved of either alone holds of the board. -/

namespace Pico

open Lib.Confined Lib.Nor Lib.Power Lib.Run

section operations

variable {build : FlashBuild} {region : FlashRegion} {S : Set ℕ}

/-- The addresses of a region. -/
def FlashRegion.addresses (region : FlashRegion) : Set ℕ := {a | region.Holds a}

theorem spares_of_confined {unit offset : ℕ} {w t : FlashWorld}
    (h : Confined region unit offset w t) : Spares FlashWorld.mem region.addresses w t :=
  fun a ha => h.2 a ha

theorem writesIn_flashStorageErase (hregion : region.offset + region.size < 2 ^ 32) (offset size : ℕ) :
    WritesIn FlashWorld.mem region.addresses (flashStorageErase build region offset size) := by
  intro w
  have hlaw : OperationLaw region FLASH_LAYOUT_SECTOR_SIZE offset size
      (flashStorageErase build region offset size) w := by
    refine flashStorageRun_law (fun hok => ?_) w
    exact within_of_checked hregion rfl rfl (checkErase_eq_ok_iff.mp hok)
  exact wp_mono hlaw (fun _ t ht => spares_of_confined ht.1) fun t ht => spares_of_confined ht.1

theorem writesIn_flashStorageProgram (hregion : region.offset + region.size < 2 ^ 32) (offset : ℕ)
    (data : Bytes) :
    WritesIn FlashWorld.mem region.addresses (flashStorageProgram build region offset data) := by
  intro w
  have hlaw : OperationLaw region FLASH_LAYOUT_PAGE_SIZE offset data.length
      (flashStorageProgram build region offset data) w := by
    refine flashStorageRun_law (fun hok => ?_) w
    exact within_of_checked hregion rfl rfl (checkProgram_eq_ok_iff.mp hok)
  exact wp_mono hlaw (fun _ t ht => spares_of_confined ht.1) fun t ht => spares_of_confined ht.1

theorem writesIn_flashStorageProgramVerified (hregion : region.offset + region.size < 2 ^ 32)
    (offset : ℕ) (data : Bytes) :
    WritesIn FlashWorld.mem region.addresses
      (flashStorageProgramVerified build region offset data) := by
  unfold flashStorageProgramVerified
  refine (writesIn_flashStorageProgram hregion offset data).bind fun written => ?_
  refine .ite (.pure _) (WritesIn.get.bind fun w => ?_)
  cases flashStorageData w.mem region offset data.length with
  | none => exact .pure _
  | some stored => exact .ite (.pure _) (.pure _)

end operations

section receiving

variable {σ A V : Type} {look : σ → A → V} {S : Set A} {write : PageWriter σ}

theorem writesIn_flushPage (hwrite : ∀ offset page, WritesIn look S (write offset page))
    (rx : FirmwareReceive) : WritesIn look S (flushPage write rx) :=
  .ite (.pure _) ((hwrite _ _).bind fun _ => .ite (.pure _) (.pure _))

theorem writesIn_placeByte (hwrite : ∀ offset page, WritesIn look S (write offset page))
    (rx : FirmwareReceive) (address : ℕ) (value : UInt8) :
    WritesIn look S (placeByte write rx address value) := by
  unfold placeByte
  refine .ite (.pure _) (.ite (.pure _) (.ite ?_ (.pure _)))
  exact (writesIn_flushPage hwrite rx).bind fun _ => .ite (.pure _) (.pure _)

theorem writesIn_placeData (hwrite : ∀ offset page, WritesIn look S (write offset page))
    (values : Bytes) (rx : FirmwareReceive) (address : ℕ) :
    WritesIn look S (placeData write rx address values) := by
  induction values generalizing rx address with
  | nil => exact .pure _
  | cons value values ih =>
    unfold placeData
    exact (writesIn_placeByte hwrite rx _ value).bind fun _ => .ite (.pure _) (ih _ _)

theorem writesIn_firmwareReceiveLine (hwrite : ∀ offset page, WritesIn look S (write offset page))
    (rx : FirmwareReceive) (line : Option CString) :
    WritesIn look S (firmwareReceiveLine write rx line) := by
  unfold firmwareReceiveLine
  refine .ite (.pure _) (.ite (.pure _) (.ite (.pure _) (.ite (.pure _) (.ite ?_ (.ite ?_ (.pure _))))))
  · exact writesIn_placeData hwrite _ _ _
  · exact (writesIn_flushPage hwrite _).bind fun _ => .ite (.pure _) (.pure _)

end receiving

section regions

variable {build : FlashBuild}

/-- Where an update may write before it is installed. -/
def updateArea (build : FlashBuild) : Set ℕ :=
  (flashLayoutGet build).staging.addresses ∪ (flashLayoutGet build).manifest.addresses

def applicationArea (build : FlashBuild) : Set ℕ := (flashLayoutGet build).application.addresses

def dataArea (build : FlashBuild) : Set ℕ := (flashLayoutGet build).data.addresses

theorem layout_cases (hsectors : build.dataSectors + 2 < 2 ^ 32) :
    (flashLayoutGet build).Divides build.flashSize build.dataSectors ∨
      flashLayoutGet build = ⟨⟨0, 0⟩, ⟨0, 0⟩, ⟨0, 0⟩, ⟨0, 0⟩⟩ := by
  unfold flashLayoutGet
  cases hlayout : flashLayoutCompute build.flashSize build.dataSectors with
  | error result => exact .inr rfl
  | ok layout => exact .inl (divides_of_ok build.flashSize_lt hsectors hlayout)

theorem region_end_lt (hsectors : build.dataSectors + 2 < 2 ^ 32) {region : FlashRegion}
    (hregion : region ∈ (flashLayoutGet build).regions) : region.offset + region.size < 2 ^ 32 := by
  rcases layout_cases hsectors with h | h
  · exact lt_of_le_of_lt (h.end_le hregion) build.flashSize_lt
  · rw [h, FlashLayout.regions] at hregion
    simp only [List.mem_cons, List.not_mem_nil, or_false, or_self] at hregion
    rw [hregion]
    norm_num

theorem areas_apart (hsectors : build.dataSectors + 2 < 2 ^ 32) :
    (∀ a ∈ updateArea build, a ∉ applicationArea build) ∧
      (∀ a ∈ updateArea build, a ∉ dataArea build) ∧
      (∀ a ∈ applicationArea build, a ∉ dataArea build) := by
  simp only [updateArea, applicationArea, dataArea, FlashRegion.addresses,
    Set.mem_union, Set.mem_ofPred_eq, FlashRegion.Holds]
  rcases layout_cases hsectors with h | h
  · have hordered := h.ordered
    simp only [FlashLayout.regions, List.pairwise_cons, List.mem_cons, List.not_mem_nil, or_false,
      forall_eq_or_imp, forall_eq, List.Pairwise.nil, and_true] at hordered
    refine ⟨fun a ha => ?_, fun a ha => ?_, fun a ha => ?_⟩
    · omega
    · omega
    · omega
  · rw [h]
    dsimp only
    refine ⟨fun a ha => ?_, fun a ha => ?_, fun a ha => ?_⟩
    · omega
    · omega
    · omega

end regions

section components

variable {build : FlashBuild}

theorem writesIn_manifestWrite (hsectors : build.dataSectors + 2 < 2 ^ 32) (size : ℕ) (crc : UInt32) :
    WritesIn FlashWorld.mem (flashLayoutGet build).manifest.addresses
      (manifestWrite build size crc) := by
  have hend : (flashLayoutGet build).manifest.offset + (flashLayoutGet build).manifest.size < 2 ^ 32 :=
    region_end_lt hsectors (by simp [FlashLayout.regions])
  unfold manifestWrite
  refine (writesIn_flashStorageErase hend _ _).bind fun erased => .ite (.pure _) ?_
  cases firmwareImageHeaderInit (UInt32.ofNat size) crc (UInt32.ofNat IMAGE_BASE_ADDRESS) crc with
  | error _ => exact .pure _
  | ok header =>
    exact (writesIn_flashStorageProgramVerified hend _ _).bind fun _ => .pure _

theorem writesIn_writePage (hsectors : build.dataSectors + 2 < 2 ^ 32) (offset : ℕ) (page : Bytes) :
    WritesIn FlashWorld.mem (flashLayoutGet build).staging.addresses (writePage build offset page) :=
  (writesIn_flashStorageProgramVerified
    (region_end_lt hsectors (by simp [FlashLayout.regions])) offset page).bind fun _ => .pure _

theorem writesIn_firmwareCall (hsectors : build.dataSectors + 2 < 2 ^ 32) (service : FirmwareService)
    (call : FirmwareCall) :
    WritesIn FlashWorld.mem (updateArea build) (firmwareCall build service call) := by
  have hstaging : (flashLayoutGet build).staging.offset + (flashLayoutGet build).staging.size <
      2 ^ 32 := region_end_lt hsectors (by simp [FlashLayout.regions])
  have hmanifest : (flashLayoutGet build).manifest.offset + (flashLayoutGet build).manifest.size <
      2 ^ 32 := region_end_lt hsectors (by simp [FlashLayout.regions])
  cases call with
  | line line =>
    refine WritesIn.bind ?_ fun _ => .pure _
    unfold firmwareServiceLineFilter
    refine .ite (.pure _) (.ite (.pure _) (WritesIn.bind ?_ fun fed => ?_))
    · exact (writesIn_firmwareReceiveLine (writesIn_writePage hsectors) _ _).mono
        Set.subset_union_left
    · obtain ⟨result, receive⟩ := fed
      cases result <;> exact .pure _
  | fwbegin requested =>
    have hbegin (service : FirmwareService) (size : ℕ) :
        WritesIn FlashWorld.mem (updateArea build) (beginTransfer build service size) :=
      ((writesIn_flashStorageErase hstaging 0 size).mono Set.subset_union_left).bind
        fun _ => .ite (.pure _) (.ite (.pure _) (.pure _))
    refine WritesIn.bind ?_ fun _ => .pure _
    unfold cmdBegin manifestInvalidate
    refine WritesIn.bind (((writesIn_flashStorageErase hmanifest 0 _).mono
      Set.subset_union_right).bind fun _ => .pure _) fun cleared => .ite (.pure _) ?_
    cases requested with
    | none => exact hbegin _ _
    | some requested => exact .ite (.pure _) (hbegin _ _)
  | fwverify expected =>
    refine WritesIn.bind ?_ fun _ => .pure _
    unfold cmdVerify
    cases expected with
    | none => exact .pure _
    | some expected =>
      refine .ite (.pure _) (WritesIn.get.bind fun w => .ite (.pure _) ?_)
      exact ((writesIn_manifestWrite hsectors _ _).mono Set.subset_union_right).bind
        fun _ => .pure _

theorem writesIn_saveRecords {slot : FlashRegion} (hslot : slot.offset + slot.size < 2 ^ 32)
    (records : Bytes) (fuel written : ℕ) :
    WritesIn FlashWorld.mem slot.addresses (saveRecords build slot records fuel written) := by
  induction fuel generalizing written with
  | zero => exact .pure _
  | succ fuel ih =>
    unfold saveRecords
    refine .ite ?_ (.pure _)
    exact (writesIn_flashStorageProgramVerified hslot _ _).bind fun _ => .ite (.pure _) (ih _)

theorem writesIn_persistentConfigSave {config : PersistentConfig}
    (hslot : (config.slot config.target).offset + (config.slot config.target).size < 2 ^ 32) :
    WritesIn FlashWorld.mem (config.slot config.target).addresses
      (persistentConfigSave build config) := by
  unfold persistentConfigSave
  refine .ite (.pure _) (.ite (.pure _) ?_)
  refine (writesIn_flashStorageErase hslot _ _).bind fun _ => .ite (.pure _) ?_
  refine (writesIn_saveRecords hslot _ _ _).bind fun _ => .ite (.pure _) ?_
  exact (writesIn_flashStorageProgramVerified hslot _ _).bind fun _ => .ite (.pure _) (.pure _)

end components

section board

variable {build : FlashBuild} {slot : Fin 2 → FlashRegion}

theorem slot_in_data (hsectors : build.dataSectors + 2 < 2 ^ 32)
    (hslot : slotRegions build = some slot) (i : Fin 2) :
    (slot i).offset + (slot i).size < 2 ^ 32 ∧ (slot i).addresses ⊆ dataArea build := by
  have hend : (flashLayoutGet build).data.offset + (flashLayoutGet build).data.size < 2 ^ 32 :=
    region_end_lt hsectors (by simp [FlashLayout.regions])
  unfold slotRegions at hslot
  dsimp only at hslot
  split_ifs at hslot with hsmall
  obtain rfl := Option.some.inj hslot
  rw [FLASH_LAYOUT_SECTOR_SIZE] at hsmall
  have hsecond : wrap32 ((flashLayoutGet build).data.offset + 4096) =
      (flashLayoutGet build).data.offset + 4096 := Nat.mod_eq_of_lt (by omega)
  fin_cases i
  · refine ⟨?_, fun a ha => ?_⟩
    · simp only [FLASH_LAYOUT_SECTOR_SIZE]
      omega
    · simp only [FlashRegion.addresses, FlashRegion.Holds, Set.mem_ofPred_eq,
        FLASH_LAYOUT_SECTOR_SIZE, dataArea] at ha ⊢
      omega
  · refine ⟨?_, fun a ha => ?_⟩
    · simp only [FLASH_LAYOUT_SECTOR_SIZE, hsecond]
      omega
    · simp only [FlashRegion.addresses, FlashRegion.Holds, Set.mem_ofPred_eq,
        FLASH_LAYOUT_SECTOR_SIZE, dataArea, hsecond] at ha ⊢
      omega

theorem persisted_spared (hsectors : build.dataSectors + 2 < 2 ^ 32)
    (hslot : slotRegions build = some slot) {mem mem' : Mem}
    (h : ∀ a ∈ dataArea build, mem' a = mem a) : persisted mem' slot = persisted mem slot := by
  have hread (i : Fin 2) : slotRead mem' (slot i) = slotRead mem (slot i) := by
    have hsector := (slotRegions_spec hslot).1 i
    refine slotRead_congr hsector fun a ha ha' => h a ?_
    refine (slot_in_data hsectors hslot i).2 ⟨ha, ?_⟩
    rw [hsector.size_eq]
    exact ha'
  unfold persisted
  rw [hread, hread]

/-- The chip, both components in RAM while the board runs, and the images that were saved. -/
structure SharedBoard where
  mem : Mem
  config : Option PersistentConfig
  saves : List Bytes
  service : Option FirmwareService

def SharedBoard.settings (board : SharedBoard) : Board := ⟨board.mem, board.config, board.saves⟩

def SharedBoard.firmware (board : SharedBoard) : FirmwareBoard := ⟨board.mem, board.service⟩

inductive SharedEvent where
  | settings (event : BoardEvent)
  | firmware (event : FirmwareEvent)
  | powerOff

/-- Whether an event of the firmware leaves the RAM as it is: `firmware_service_init` does on a
board that has only started. -/
def FirmwareEvent.keepsRam (before after : FirmwareBoard) : FirmwareEvent → Bool
  | .reboot => before.service.isNone
  | _ => after.service.isSome

/-- A step of either component. Power that goes in one of them is gone for both. -/
inductive SharedStep (build : FlashBuild) : SharedBoard → SharedEvent → SharedBoard → Prop
  | settings {board : SharedBoard} {event : BoardEvent} {after : Board}
      (h : BoardStep build board.settings event after) :
      SharedStep build board (.settings event)
        { mem := after.mem
          config := after.config
          saves := after.saves
          service := if after.config.isSome then board.service else none }
  | firmware {board : SharedBoard} {event : FirmwareEvent} {after : FirmwareBoard}
      (h : FirmwareStep build board.firmware event after) :
      SharedStep build board (.firmware event)
        { mem := after.mem
          config := if event.keepsRam board.firmware after then board.config else none
          saves := board.saves
          service := after.service }
  | powerOff {board : SharedBoard} :
      SharedStep build board .powerOff { board with config := none, service := none }

theorem BoardStep.spares (hsectors : build.dataSectors + 2 < 2 ^ 32)
    (hslot : slotRegions build = some slot) {board after : Board} {event : BoardEvent}
    (hdurable : Durable slot board) (h : BoardStep build board event after) :
    Spares id (dataArea build) board.mem after.mem := by
  have hsave {config : PersistentConfig} {faults : List FlashFault} {w : FlashWorld}
      {result : Option (PersistentConfigResult × PersistentConfig)}
      (hconfig : board.config = some config)
      (hrun : (persistentConfigSave build config).run.run ⟨board.mem, faults, []⟩ = (result, w)) :
      Spares id (dataArea build) board.mem w.mem := by
    obtain ⟨hregions, -, -⟩ := hdurable.ram config hconfig
    obtain ⟨hend, hin⟩ := slot_in_data hsectors hslot config.target
    rw [← hregions] at hend hin
    have hspares := ((writesIn_persistentConfigSave hend).mono hin).returned hrun
    exact fun a ha => hspares a ha
  cases h with
  | called hconfig => exact Spares.refl _
  | saved hconfig hwear hrun => exact hsave hconfig hrun
  | cut hconfig hwear hrun htorn => exact hsave hconfig hrun
  | loaded hroom hload => exact Spares.refl _

theorem FirmwareStep.spares (hsectors : build.dataSectors + 2 < 2 ^ 32)
    {board after : FirmwareBoard} {event : FirmwareEvent} (h : FirmwareStep build board event after) :
    Spares id (updateArea build ∪ applicationArea build) board.mem after.mem ∧
      (event ≠ .fwapply → Spares id (updateArea build) board.mem after.mem) := by
  have hcall {service : FirmwareService} {call : FirmwareCall} {faults : List FlashFault}
      {result : Option FirmwareService} {w : FlashWorld}
      (hrun : (firmwareCall build service call).run.run ⟨board.mem, faults, []⟩ = (result, w)) :
      Spares id (updateArea build) board.mem w.mem := by
    have hspares := (writesIn_firmwareCall hsectors service call).returned hrun
    exact fun a ha => hspares a ha
  cases h with
  | called hon hrun => exact ⟨(hcall hrun).mono Set.subset_union_left, fun _ => hcall hrun⟩
  | cut hon hrun => exact ⟨(hcall hrun).mono Set.subset_union_left, fun _ => hcall hrun⟩
  | refused hon happly => exact ⟨Spares.refl _, fun hne => absurd rfl hne⟩
  | applied hon happly hcopied =>
    refine ⟨fun a ha => hcopied a ?_, fun hne => absurd rfl hne⟩
    obtain ⟨-, -, rfl, -, -, -⟩ := cmdApply_firmwareApply happly
    rw [Set.mem_union, not_or] at ha
    by_contra hin
    exact ha.2 ⟨by omega, by omega⟩
  | rebooted => exact ⟨Spares.refl _, fun _ => Spares.refl _⟩

/-- What each component holds to alone. -/
structure SharedSafe (build : FlashBuild) (slot : Fin 2 → FlashRegion) (board : SharedBoard) :
    Prop where
  durable : Durable slot board.settings
  safe : BoardSafe build board.firmware

theorem SharedSafe.step (hsectors : build.dataSectors + 2 < 2 ^ 32)
    (hslot : slotRegions build = some slot) {board next : SharedBoard} {event : SharedEvent}
    (h : SharedSafe build slot board) (hstep : SharedStep build board event next) :
    SharedSafe build slot next := by
  obtain ⟨hupdateApplication, hupdateData, happlicationData⟩ := areas_apart hsectors
  cases hstep with
  | settings hstep =>
    refine ⟨h.durable.step hslot hstep, fun service hservice => ?_⟩
    have hspares := hstep.spares hsectors hslot h.durable
    have hservice : board.service = some service := by
      simp only [SharedBoard.firmware] at hservice
      split_ifs at hservice
      exact hservice
    have hsafe := h.safe service hservice
    refine ⟨hsafe.size_le, hsafe.receiving, fun hverified => ?_⟩
    rw [← hsafe.verified hverified]
    refine stagedCrc_congr (fun a ha ha' => ?_) hsafe.size_le
    exact hspares.apart (fun a hdata hupdate => hupdateData a hupdate hdata) (Set.mem_union_left _ ⟨ha, ha'⟩)
  | @firmware event after hstep =>
    refine ⟨?_, h.safe.step hstep⟩
    have hspares := (hstep.spares hsectors).1
    have hdata : ∀ a ∈ dataArea build, after.mem a = board.mem a := by
      intro a ha
      exact hspares.apart (fun a hin hdata => hin.elim (fun h => hupdateData a h hdata)
        fun h => happlicationData a h hdata) ha
    refine h.durable.unlanded (persisted_spared hsectors hslot hdata) fun config hconfig => ?_
    split_ifs at hconfig
    exact hconfig
  | powerOff =>
    refine ⟨h.durable.unlanded rfl fun config hconfig => ?_, fun service hservice => ?_⟩
    · cases hconfig
    · cases hservice

/-- A board after its first load. -/
def SharedBoard.loaded (mem : Mem) (result : PersistentConfigResult) (config : PersistentConfig) :
    SharedBoard :=
  { mem
    config := some config
    saves := (Board.loaded mem result config).saves
    service := none }

theorem SharedBoard.loaded_safe {mem : Mem} {buffer : Bytes} {result : PersistentConfigResult}
    {config : PersistentConfig}
    (hload : persistentConfigLoad build mem (some buffer) buffer.length = (result, some config))
    (hresult : result = .ok ∨ result = .errEmpty) :
    ∃ slot, slotRegions build = some slot ∧
      SharedSafe build slot (SharedBoard.loaded mem result config) := by
  obtain ⟨slot, hslot, hdurable⟩ := Board.loaded_durable hload hresult
  refine ⟨slot, hslot, hdurable, fun service hservice => ?_⟩
  cases hservice

/-- Settings survive updates. Whatever saves, transfers, verifications, installs and power cuts
follow a load, in any order, the next load adopts the last image that was saved. -/
theorem settings_survive_updates (hsectors : build.dataSectors + 2 < 2 ^ 32) {mem : Mem}
    {buffer : Bytes} {result : PersistentConfigResult} {config : PersistentConfig}
    (hload : persistentConfigLoad build mem (some buffer) buffer.length = (result, some config))
    (hresult : result = .ok ∨ result = .errEmpty) {events : List SharedEvent} {board : SharedBoard}
    (hrun : Steps (SharedStep build) (SharedBoard.loaded mem result config) events board)
    {last : Bytes} (hroom : RoomForEither build board.mem last) :
    ∃ result' config',
      persistentConfigLoad build board.mem (some last) last.length = (result', some config') ∧
      match board.saves.getLast? with
      | some records => result' = .ok ∧ config'.store.records = records
      | none => (result' = .errEmpty ∨ result' = .errCorrupt) ∧ config'.store.records = [] := by
  obtain ⟨slot, hslot, hstart⟩ := SharedBoard.loaded_safe hload hresult
  have hsafe : SharedSafe build slot board :=
    hrun.invariant (fun _ _ _ h hstep => h.step hsectors hslot hstep) hstart
  obtain ⟨result', config', hlast, -, hsaved⟩ := hsafe.durable.reload hslot hroom
  exact ⟨result', config', hlast, hsaved⟩

/-- A new board takes the beginning of an update, and saves its first setting then. -/
def begunUpdate : Option FirmwareService × FlashWorld :=
  (firmwareCall defaultBuild (firmwareServiceInit defaultBuild fun _ => erased).2
    (.fwbegin (some 1))).run.run ⟨fun _ => erased, [], []⟩

def savedWhileUpdating : Option (PersistentConfigResult × PersistentConfig) × FlashWorld :=
  (persistentConfigSave defaultBuild firstConfig).run.run ⟨begunUpdate.2.mem, [], []⟩

theorem settings_survive_begun_update :
    ∃ config', persistentConfigLoad defaultBuild savedWhileUpdating.2.mem
        (some (List.replicate 8 0)) 8 = (.ok, some config') ∧
      config'.store.records = recordBytes [97] [1] := by
  have hload : persistentConfigLoad defaultBuild (fun _ => erased) (some (List.replicate 8 0))
      (List.replicate 8 0 : Bytes).length =
      (.errEmpty, some (freshConfig ((slotRegions defaultBuild).getD fun _ => ⟨0, 0⟩)
        (List.replicate 8 0) 8)) := by decide
  obtain ⟨service, hbegun⟩ : ∃ service, begunUpdate = (some service, begunUpdate.2) := by
    have hsome : begunUpdate.1.isSome = true := by decide +kernel
    obtain ⟨service, hservice⟩ := Option.isSome_iff_exists.mp hsome
    exact ⟨service, by rw [← hservice]⟩
  obtain ⟨next, hsaved⟩ : ∃ next, savedWhileUpdating = (some (.ok, next), savedWhileUpdating.2) := by
    have hok : savedWhileUpdating.1.map Prod.fst = some .ok := by decide +kernel
    obtain ⟨⟨result, next⟩, hresult, rfl⟩ := Option.map_eq_some_iff.mp hok
    exact ⟨next, by rw [← hresult]⟩
  have hfits : ∀ i, ((slotRead savedWhileUpdating.2.mem
      (((slotRegions defaultBuild).getD fun _ => ⟨0, 0⟩) i)).all
        fun found => found.2.length ≤ 8) = true := by decide +kernel
  generalize savedWhileUpdating.2 = w at hsaved hfits ⊢
  have hbooted := Steps.snoc (Steps.nil (SharedBoard.loaded (fun _ => erased) .errEmpty
    (freshConfig ((slotRegions defaultBuild).getD fun _ => ⟨0, 0⟩) (List.replicate 8 0) 8)))
    (SharedStep.firmware (@FirmwareStep.rebooted defaultBuild _))
  have hreceiving := hbooted.snoc (SharedStep.firmware (.called rfl hbegun))
  have hset := hreceiving.snoc (SharedStep.settings (@BoardStep.called defaultBuild _ _
    (.set (some ⟨[97], by decide⟩) (some ⟨[1], by decide⟩)) rfl))
  have hrun := hset.snoc (SharedStep.settings (@BoardStep.saved defaultBuild _ firstConfig next []
    .ok w rfl (by simp) hsaved))
  have hroom : RoomForEither defaultBuild w.mem (List.replicate 8 0) := by
    refine ⟨by decide, fun slot hslot i found hfound => ?_⟩
    have hi := hfits i
    rw [hslot, Option.getD_some, hfound] at hi
    simpa using hi
  obtain ⟨result, config', hlast, hrecords⟩ :=
    settings_survive_updates (by norm_num [defaultBuild]) hload (Or.inr rfl) hrun hroom
  have hbytes : firstConfig.store.records = recordBytes [97] [1] := by decide
  obtain ⟨rfl, hrecords⟩ := hrecords
  exact ⟨config', hlast, hrecords.trans hbytes⟩

/-- Without an install, the application's region stays as it is. -/
theorem application_spared (hsectors : build.dataSectors + 2 < 2 ^ 32)
    (hslot : slotRegions build = some slot) {start board : SharedBoard} {events : List SharedEvent}
    (hstart : SharedSafe build slot start) (hrun : Steps (SharedStep build) start events board)
    (hquiet : SharedEvent.firmware .fwapply ∉ events) :
    SharedSafe build slot board ∧ ∀ a ∈ applicationArea build, board.mem a = start.mem a := by
  obtain ⟨hupdateApplication, -, happlicationData⟩ := areas_apart hsectors
  induction hrun with
  | nil => exact ⟨hstart, fun _ _ => rfl⟩
  | @snoc before after evs event hevs hstep ih =>
    rw [List.mem_append, not_or, List.mem_singleton] at hquiet
    obtain ⟨hbefore, hsame⟩ := ih hquiet.1
    refine ⟨hbefore.step hsectors hslot hstep, fun a ha => Eq.trans ?_ (hsame a ha)⟩
    cases hstep with
    | settings hstep =>
      exact (hstep.spares hsectors hslot hbefore.durable).apart
        (fun a hdata hin => happlicationData a hin hdata) ha
    | firmware hstep =>
      refine ((hstep.spares hsectors).2 fun happly => hquiet.2 ?_).apart hupdateApplication ha
      rw [happly]
    | powerOff => rfl

theorem read_installed {source destination : FlashRegion} {size : ℕ} {service : FirmwareService}
    (happly : cmdApply build service = .firmwareApply source destination size) (mem : Mem) :
    read (firmwareApply source destination size mem) (flashLayoutGet build).application.offset size =
      read mem (flashLayoutGet build).staging.offset size := by
  obtain ⟨-, rfl, rfl, -, hpos, hsize⟩ := cmdApply_firmwareApply happly
  unfold flashLayoutGet at hsize ⊢
  cases hlayout : flashLayoutCompute build.flashSize build.dataSectors with
  | error result =>
    rw [hlayout] at hsize
    exact absurd hpos (Nat.not_lt.mpr hsize)
  | ok layout =>
    rw [hlayout] at hsize
    obtain ⟨n, -, hn, happlication, hstaging, -⟩ :=
      images_eq build.flashSize_lt build.dataSectors_lt hlayout
    change read (firmwareApply layout.staging layout.application size mem) _ _ = _
    rw [firmwareApply_eq hn happlication hstaging hsize]
    refine List.map_congr_left fun i hi => ?_
    have hi := List.mem_range.mp hi
    simp only [happlication, hstaging, Nat.zero_add, scribble]
    exact if_pos (by omega)

/-- An installed image stays what was verified. After an install that ran to its end, whatever
happens to the settings and to staging, and with any power cuts, the application's region holds the
image whose CRC-32 the service had verified, until the next install. -/
theorem installed_stays_verified (hsectors : build.dataSectors + 2 < 2 ^ 32) {mem : Mem}
    {buffer : Bytes} {result : PersistentConfigResult} {config : PersistentConfig}
    (hload : persistentConfigLoad build mem (some buffer) buffer.length = (result, some config))
    (hresult : result = .ok ∨ result = .errEmpty) {events later : List SharedEvent}
    {board last : SharedBoard} {service : FirmwareService} {source destination : FlashRegion} {size : ℕ}
    (hrun : Steps (SharedStep build) (SharedBoard.loaded mem result config) events board)
    (hon : board.service = some service)
    (happly : cmdApply build service = .firmwareApply source destination size)
    (hlater : Steps (SharedStep build)
      ⟨firmwareApply source destination size board.mem, none, board.saves, none⟩ later last)
    (hquiet : SharedEvent.firmware .fwapply ∉ later) :
    read last.mem (flashLayoutGet build).application.offset size =
        read board.mem (flashLayoutGet build).staging.offset size ∧
      crc32 (read last.mem (flashLayoutGet build).application.offset size) =
        service.verifiedCrc32 := by
  obtain ⟨slot, hslot, hstart⟩ := SharedBoard.loaded_safe hload hresult
  have hsafe : SharedSafe build slot board :=
    hrun.invariant (fun _ _ _ h hstep => h.step hsectors hslot hstep) hstart
  have hinstalled := hsafe.step hsectors hslot (.firmware (fwapply_step hon happly))
  obtain ⟨-, hsame⟩ := application_spared hsectors hslot hinstalled hlater hquiet
  obtain ⟨hverified, -, -, hsizeEq, -, hfits⟩ := cmdApply_firmwareApply happly
  have himage : read last.mem (flashLayoutGet build).application.offset size =
      read board.mem (flashLayoutGet build).staging.offset size := by
    rw [← read_installed happly board.mem]
    exact read_congr fun a ha ha' => hsame a ⟨ha, by omega⟩
  refine ⟨himage, ?_⟩
  rw [himage, hsizeEq]
  exact (hsafe.safe service hon).verified hverified

theorem steps_firmware {start : SharedBoard} {board : FirmwareBoard} {events : List FirmwareEvent}
    (h : Steps (FirmwareStep build) start.firmware events board) :
    ∃ next : SharedBoard, next.firmware = board ∧
      Steps (SharedStep build) start (events.map .firmware) next := by
  generalize hfirst : start.firmware = first at h
  induction h with
  | nil => exact ⟨start, hfirst, .nil start⟩
  | snoc _ hstep ih =>
    obtain ⟨next, rfl, hrun⟩ := ih
    rw [List.map_append]
    exact ⟨_, rfl, hrun.snoc (.firmware hstep)⟩

/-- A first update of one byte, installed. -/
theorem installed_stays_verified_first_update :
    crc32 (read (firmwareApply (flashLayoutGet defaultBuild).staging
      (flashLayoutGet defaultBuild).application 1 firstUpdate.mem)
      (flashLayoutGet defaultBuild).application.offset 1) = crc32 [0x12] := by
  have hload : persistentConfigLoad defaultBuild (fun _ => erased) (some (List.replicate 8 0))
      (List.replicate 8 0 : Bytes).length =
      (.errEmpty, some (freshConfig ((slotRegions defaultBuild).getD fun _ => ⟨0, 0⟩)
        (List.replicate 8 0) 8)) := by decide
  have hstate : firstUpdate.service.map
      (fun service => (service.verified, service.receive.imageSize, service.verifiedCrc32)) =
      some (true, 1, crc32 [0x12]) := by decide +kernel
  obtain ⟨service, hservice, hvalues⟩ := Option.map_eq_some_iff.mp hstate
  obtain ⟨hverified, hvalues⟩ := Prod.mk.inj hvalues
  obtain ⟨hsize, hcrc⟩ := Prod.mk.inj hvalues
  obtain ⟨events, hsession⟩ := steps_sessionAfter [.fwbegin (some 1), .line imageBaseLine,
    .line oneByteLine, .line eofLine, .fwverify (some (crc32 [0x12]))]
    ((Steps.nil _).snoc (@FirmwareStep.rebooted defaultBuild ⟨fun _ => erased, none⟩))
  obtain ⟨board, hboard, hrun⟩ := @steps_firmware _ (SharedBoard.loaded (fun _ => erased) .errEmpty
    (freshConfig ((slotRegions defaultBuild).getD fun _ => ⟨0, 0⟩) (List.replicate 8 0) 8))
    _ _ hsession
  have hon : board.service = some service := (congrArg FirmwareBoard.service hboard).trans hservice
  have hmem : board.mem = firstUpdate.mem := congrArg FirmwareBoard.mem hboard
  have happly : cmdApply defaultBuild service =
      .firmwareApply (flashLayoutGet defaultBuild).staging
        (flashLayoutGet defaultBuild).application 1 := by
    simp only [cmdApply, firmwareReceiveImageSize, hverified, hsize, Bool.not_true,
      Bool.false_eq_true, if_false]
    exact if_neg (by decide)
  have hsectors : defaultBuild.dataSectors + 2 < 2 ^ 32 := by norm_num [defaultBuild]
  have hstays := (installed_stays_verified hsectors hload (Or.inr rfl) hrun hon happly (.nil _)
    (by simp)).2.trans hcrc
  dsimp only at hstays
  rwa [hmem] at hstays

end board

end Pico
