import PicoFramework.Lib.Run
import PicoFramework.Proofs.FlashStorage
import PicoFramework.Spec.FirmwareService

/-! Update sessions: lines and commands in any order, over flash that may fail or lose
power at any operation, with reboots between them. What carries every session is that a
transfer under way is never verified, and that only the manifest is written once an image
has been. -/

namespace Pico

open Lib.Nor Lib.Power Lib.Run

section receive

variable {σ : Type} {write : PageWriter σ} {rx : FirmwareReceive}

/-- What no step of a transfer changes, whatever the writer does. -/
structure RxKeeps (rx rx' : FirmwareReceive) : Prop where
  capacity_eq : rx'.capacity = rx.capacity
  size_le : rx.imageSize ≤ rx.capacity → rx'.imageSize ≤ rx.capacity
  complete_eq : rx'.complete = rx.complete

theorem RxKeeps.refl (rx : FirmwareReceive) : RxKeeps rx rx := ⟨rfl, id, rfl⟩

theorem RxKeeps.trans {rx' rx'' : FirmwareReceive} (h : RxKeeps rx rx') (h' : RxKeeps rx' rx'') :
    RxKeeps rx rx'' := by
  refine ⟨h'.capacity_eq.trans h.capacity_eq, fun hle => ?_, h'.complete_eq.trans h.complete_eq⟩
  have := h'.size_le (by rw [h.capacity_eq]; exact h.size_le hle)
  rwa [h.capacity_eq] at this

theorem wp_flushPage_keeps (s : σ) :
    wp (flushPage write rx) (fun r _ => RxKeeps rx r.2) (fun _ => True) s := by
  unfold flushPage
  cases rx.pageDirty with
  | false => exact (wp_pure _ _ _ _).mpr (RxKeeps.refl rx)
  | true =>
    refine (wp_bind _ _ _ _ _).mpr (wp_trivial _ (fun landed t => ?_) (fun _ => trivial) s)
    cases landed with
    | false => exact (wp_pure _ _ _ _).mpr (RxKeeps.refl rx)
    | true => exact (wp_pure _ _ _ _).mpr ⟨rfl, id, rfl⟩

theorem putByte_keeps {offset : ℕ} (h : offset < rx.capacity) (value : UInt8) :
    RxKeeps rx (putByte rx offset value) := by
  have hwrap : wrap32 (offset + 1) ≤ offset + 1 := Nat.mod_le _ _
  unfold putByte resetPage
  cases rx.pageDirty with
  | false =>
    refine ⟨rfl, fun hle => ?_, rfl⟩
    simp only [Bool.not_false, if_true]
    split_ifs
    · omega
    · exact hle
  | true =>
    refine ⟨rfl, fun hle => ?_, rfl⟩
    simp only [Bool.not_true, Bool.false_eq_true, if_false]
    split_ifs
    · omega
    · exact hle

theorem wp_placeByte_keeps (address : ℕ) (value : UInt8) (s : σ) :
    wp (placeByte write rx address value) (fun r _ => RxKeeps rx r.2) (fun _ => True) s := by
  unfold placeByte
  by_cases hbelow : address < rx.baseAddress
  · rw [if_pos hbelow]
    exact (wp_pure _ _ _ _).mpr (RxKeeps.refl rx)
  rw [if_neg hbelow]
  by_cases hlarge : address - rx.baseAddress ≥ rx.capacity
  · simp only [if_pos hlarge]
    exact (wp_pure _ _ _ _).mpr (RxKeeps.refl rx)
  simp only [if_neg hlarge]
  split_ifs with hmove
  · refine wp_seq (wp_flushPage_keeps s) ?_
    rintro ⟨flushed, rx'⟩ t h
    simp only at h ⊢
    split_ifs
    · exact (wp_pure _ _ _ _).mpr h
    · have hlt : address - rx.baseAddress < rx'.capacity := by
        rw [h.capacity_eq]
        omega
      exact (wp_pure _ _ _ _).mpr (h.trans (putByte_keeps hlt value))
  · exact (wp_pure _ _ _ _).mpr (putByte_keeps (by omega) value)

theorem wp_placeData_keeps (address : ℕ) (values : Bytes) (s : σ) :
    wp (placeData write rx address values) (fun r _ => RxKeeps rx r.2) (fun _ => True) s := by
  induction values generalizing rx address s with
  | nil => exact (wp_pure _ _ _ _).mpr (RxKeeps.refl rx)
  | cons value values ih =>
    unfold placeData
    refine wp_seq (wp_placeByte_keeps (wrap32 address) value s) ?_
    rintro ⟨placed, rx'⟩ t h
    simp only at h ⊢
    split_ifs
    · exact (wp_pure _ _ _ _).mpr ⟨h.capacity_eq, h.size_le, h.complete_eq⟩
    · refine wp_mono (ih (address + 1) t) (fun r _ h' => h.trans h') fun _ h => h

/-- A line changes neither the capacity nor, unless it completes the transfer, what the
receiver says of being complete. -/
theorem wp_firmwareReceiveLine_keeps (line : Option CString) (s : σ) :
    wp (firmwareReceiveLine write rx line)
      (fun r _ => r.2.capacity = rx.capacity ∧
        (rx.imageSize ≤ rx.capacity → r.2.imageSize ≤ rx.capacity) ∧
        (r.1 ≠ .complete → r.2.complete = rx.complete))
      (fun _ => True) s := by
  have hkeeps {rx' : FirmwareReceive} (h : RxKeeps rx rx') (result : FirmwareReceiveResult) :
      rx'.capacity = rx.capacity ∧ (rx.imageSize ≤ rx.capacity → rx'.imageSize ≤ rx.capacity) ∧
        (result ≠ .complete → rx'.complete = rx.complete) :=
    ⟨h.capacity_eq, h.size_le, fun _ => h.complete_eq⟩
  unfold firmwareReceiveLine
  simp only
  split_ifs with hnone hstarted herror hfed hdata heof
  · exact (wp_pure _ _ _ _).mpr (hkeeps (RxKeeps.refl rx) _)
  · exact (wp_pure _ _ _ _).mpr (hkeeps (RxKeeps.refl rx) _)
  · exact (wp_pure _ _ _ _).mpr (hkeeps (RxKeeps.refl rx) _)
  · exact (wp_pure _ _ _ _).mpr (hkeeps ⟨rfl, id, rfl⟩ _)
  · refine wp_mono (wp_placeData_keeps _ _ s) (fun r _ h => ?_) fun _ h => h
    exact hkeeps ⟨h.capacity_eq, h.size_le, h.complete_eq⟩ r.1
  · refine wp_seq (wp_flushPage_keeps s) ?_
    rintro ⟨flushed, rx'⟩ t h
    simp only at h ⊢
    split_ifs
    · exact (wp_pure _ _ _ _).mpr (hkeeps ⟨h.capacity_eq, h.size_le, h.complete_eq⟩ _)
    · exact (wp_pure _ _ _ _).mpr ⟨h.capacity_eq, h.size_le, fun hne => absurd rfl hne⟩
  · exact (wp_pure _ _ _ _).mpr (hkeeps ⟨rfl, id, rfl⟩ _)

end receive

section staging

variable {build : FlashBuild}

/-- CRC-32 of the first `size` bytes of staging. -/
def stagedCrc (build : FlashBuild) (mem : Mem) (size : ℕ) : UInt32 :=
  crc32 (read mem (flashLayoutGet build).staging.offset size)

/-- Two memories with the same staging region. -/
def SameStaging (build : FlashBuild) (mem mem' : Mem) : Prop :=
  ∀ a, (flashLayoutGet build).staging.offset ≤ a →
    a < (flashLayoutGet build).staging.offset + (flashLayoutGet build).staging.size →
      mem' a = mem a

theorem SameStaging.trans {mem mem' mem'' : Mem} (h : SameStaging build mem mem')
    (h' : SameStaging build mem' mem'') : SameStaging build mem mem'' :=
  fun a ha ha' => (h' a ha ha').trans (h a ha ha')

theorem stagedCrc_congr {mem mem' : Mem} (h : SameStaging build mem mem') {size : ℕ}
    (hsize : size ≤ (flashLayoutGet build).staging.size) :
    stagedCrc build mem' size = stagedCrc build mem size := by
  unfold stagedCrc
  rw [read_congr fun a ha ha' => h a ha (by omega)]

theorem manifest_outside_staging (build : FlashBuild) :
    let layout := flashLayoutGet build
    layout.staging.offset + layout.staging.size ≤ 2 ^ 32 ∧
      layout.manifest.offset < 2 ^ 32 ∧
      (layout.manifest.offset + layout.manifest.size ≤ layout.staging.offset ∨
        layout.staging.offset + layout.staging.size ≤ layout.manifest.offset) := by
  have hsize := build.flashSize_lt
  have hsectors := build.dataSectors_lt
  unfold flashLayoutGet
  cases hlayout : flashLayoutCompute build.flashSize build.dataSectors with
  | error _ => simp
  | ok layout =>
    unfold flashLayoutCompute at hlayout
    simp only at hlayout
    split_ifs at hlayout with haligned hsmall
    obtain rfl := Except.ok.inj hlayout
    simp only [flashOffsetIsSectorAligned, wrap32, sub32, FLASH_LAYOUT_SECTOR_SIZE,
      FLASH_LAYOUT_MANIFEST_SECTORS, Bool.not_eq_true', not_or, not_lt] at haligned hsmall ⊢
    omega

theorem flashStorageCrc32_staging (mem : Mem) {size : ℕ}
    (hsize : size ≤ (flashLayoutGet build).staging.size) :
    flashStorageCrc32 mem (flashLayoutGet build).staging 0 size = stagedCrc build mem size := by
  obtain ⟨hend, -, -⟩ := manifest_outside_staging build
  unfold flashStorageCrc32 flashStorageData
  by_cases hempty : (flashLayoutGet build).staging.size = 0
  · have hnone : flashRegionContains (flashLayoutGet build).staging 0 size = false := by
      rw [flashRegionContains, if_pos hempty]
    obtain rfl : size = 0 := by omega
    rw [hnone, if_neg (by simp), stagedCrc, read_zero]
    decide
  · rw [if_pos ((flashRegionContains_iff _ _ _).mpr ⟨hempty, by omega⟩), flashRegionAbsolute, wrap32,
      Nat.add_zero, Nat.mod_eq_of_lt (by omega)]
    rfl

/-- An operation inside the manifest leaves staging alone, whatever became of it. -/
theorem sameStaging_of_frames {op : FlashOp} {mem mem' : Mem}
    (hstart : op.start = flashRegionAbsolute (flashLayoutGet build).manifest 0)
    (hsize : op.size ≤ (flashLayoutGet build).manifest.size) (h : op.Frames mem mem') :
    SameStaging build mem mem' := by
  obtain ⟨-, hlt, hapart⟩ := manifest_outside_staging build
  rw [flashRegionAbsolute, wrap32, Nat.add_zero, Nat.mod_eq_of_lt hlt] at hstart
  intro a ha ha'
  exact h a (by omega)

theorem FirmwareImageHeader.length_bytes (header : FirmwareImageHeader) :
    header.bytes.length = FIRMWARE_IMAGE_HEADER_SIZE := rfl

theorem wp_manifestWrite (build : FlashBuild) (size : ℕ) (crc : UInt32) (w : FlashWorld) :
    wp (manifestWrite build size crc) (fun _ t => SameStaging build w.mem t.mem) (fun _ => True) w := by
  have hsame (t : FlashWorld) (h : Untouched w t) : SameStaging build w.mem t.mem :=
    fun a _ _ => congrFun h.mem a
  unfold manifestWrite
  refine wp_seq (wp_mono (wp_flashStorageRun _ _ _ _ _ _) (fun _ _ h => h) fun _ _ => trivial) ?_
  rintro erased t herased
  have ht : SameStaging build w.mem t.mem := by
    rcases herased with ⟨-, -, -, hran⟩ | ⟨-, huntouched⟩
    · exact sameStaging_of_frames rfl le_rfl hran.frames
    · exact hsame t huntouched
  by_cases hok : erased = .ok
  swap
  · rw [if_pos hok]
    exact (wp_pure _ _ _ _).mpr ht
  rw [if_neg (not_not.mpr hok)]
  cases firmwareImageHeaderInit (UInt32.ofNat size) crc (UInt32.ofNat IMAGE_BASE_ADDRESS) crc with
  | error _ => exact (wp_pure _ _ _ _).mpr ht
  | ok header =>
    have hpage : (padPage header.bytes).length = 256 :=
      length_padPage _ (by rw [header.length_bytes]; decide)
    have hdata : padPage header.bytes ≠ [] := by
      intro hnil
      rw [hnil] at hpage
      cases hpage
    refine wp_seq (wp_mono (wp_flashStorageProgramVerified build _ 0 hdata t) (fun _ _ h => h)
      fun _ _ => trivial) ?_
    rintro written u (⟨hran, hcheck, -⟩ | ⟨-, huntouched⟩)
    · obtain ⟨-, hfits⟩ := (flashRegionContains_iff _ _ _).mp (contains_of_checkProgram hcheck)
      rw [Nat.zero_add] at hfits
      exact (wp_pure _ _ _ _).mpr (ht.trans
        (sameStaging_of_frames rfl (by exact hfits) hran.frames))
    · exact (wp_pure _ _ _ _).mpr (ht.trans fun a _ _ => congrFun huntouched.mem a)

end staging

/-- The session invariant: a transfer under way is not verified, and what is verified is
what staging holds. -/
structure SessionSafe (build : FlashBuild) (service : FirmwareService) (mem : Mem) : Prop where
  size_le : service.receive.imageSize ≤ (flashLayoutGet build).staging.size
  receiving : service.receiving = true → service.verified = false ∧
    service.receive.complete = false ∧
    service.receive.capacity = (flashLayoutGet build).staging.size
  verified : service.verified = true →
    stagedCrc build mem service.receive.imageSize = service.verifiedCrc32

section calls

variable {build : FlashBuild} {service : FirmwareService} {mem : Mem} {w : FlashWorld}

/-- A manifest that describes staging: a valid header, and its size and CRC those of the
bytes there. -/
structure Describes (build : FlashBuild) (mem : Mem) (header : FirmwareImageHeader) : Prop where
  stored : (flashStorageData mem (flashLayoutGet build).manifest 0 FIRMWARE_IMAGE_HEADER_SIZE).map
    FirmwareImageHeader.ofBytes = some header
  valid : firmwareImageHeaderValidate header = .ok
  size_le : header.payloadSize.toNat ≤ (flashLayoutGet build).staging.size
  crc_eq : stagedCrc build mem header.payloadSize.toNat = header.payloadCrc32

theorem manifestMatchesStaging_some {header : FirmwareImageHeader}
    (h : manifestMatchesStaging build mem = some header) : Describes build mem header := by
  unfold manifestMatchesStaging at h
  simp only [Option.bind_eq_bind, Option.bind_eq_some_iff, Option.guard_eq_some'] at h
  obtain ⟨stored, hstored, -, hvalid, -, hsize, -, hpayload, hheader⟩ := h
  obtain rfl := Option.some.inj hheader
  refine ⟨by rw [hstored]; rfl, hvalid, hsize, ?_⟩
  rw [flashStorageCrc32_staging mem hsize] at hpayload
  unfold firmwareImageVerifyPayload at hpayload
  simp only [hvalid, ne_eq, not_true, if_false] at hpayload
  split_ifs at hpayload with hcrc
  exact hcrc.symm

theorem firmwareServiceInit_adopts (h : (firmwareServiceInit build mem).2.verified = true) :
    ∃ header, Describes build mem header ∧
      (firmwareServiceInit build mem).2.receive.imageSize = header.payloadSize.toNat ∧
      (firmwareServiceInit build mem).2.verifiedCrc32 = header.payloadCrc32 := by
  unfold firmwareServiceInit at h ⊢
  simp only at h ⊢
  split_ifs at h ⊢ with hempty
  cases hmatch : manifestMatchesStaging build mem with
  | none => simp [hmatch] at h
  | some header => exact ⟨header, manifestMatchesStaging_some hmatch, rfl, rfl⟩

theorem firmwareServiceInit_safe (build : FlashBuild) (mem : Mem) :
    SessionSafe build (firmwareServiceInit build mem).2 mem := by
  have hidle : (firmwareServiceInit build mem).2.receiving = false := by
    unfold firmwareServiceInit
    simp only
    split_ifs
    · rfl
    · cases manifestMatchesStaging build mem with
      | none => rfl
      | some header => rfl
  refine ⟨?_, fun hon => absurd hon (by rw [hidle]; simp), fun h => ?_⟩
  · by_cases hverified : (firmwareServiceInit build mem).2.verified = true
    · obtain ⟨header, hdescribes, hsize, -⟩ := firmwareServiceInit_adopts hverified
      rw [hsize]
      exact hdescribes.size_le
    · unfold firmwareServiceInit at hverified ⊢
      simp only at hverified ⊢
      split_ifs at hverified ⊢ with hempty
      · exact Nat.zero_le _
      · cases hmatch : manifestMatchesStaging build mem with
        | none => exact Nat.zero_le _
        | some header => simp [hmatch] at hverified
  · obtain ⟨header, hdescribes, hsize, hcrc⟩ := firmwareServiceInit_adopts h
    rw [hsize, hcrc]
    exact hdescribes.crc_eq

theorem wp_lineFilter_safe (h : SessionSafe build service w.mem) (line : CString) :
    wp (firmwareServiceLineFilter build service line)
      (fun r t => SessionSafe build r.2 t.mem) (fun _ => True) w := by
  unfold firmwareServiceLineFilter
  split_ifs with hclaimed hreceiving
  · exact (wp_pure _ _ _ _).mpr h
  · exact (wp_pure _ _ _ _).mpr h
  have hon : service.receiving = true := by simpa using hreceiving
  obtain ⟨hverified, hcomplete, hcapacity⟩ := h.receiving hon
  refine wp_seq (wp_firmwareReceiveLine_keeps (some line) w) ?_
  rintro ⟨result, receive⟩ t ⟨hcapacity', hsize', hcomplete'⟩
  simp only at hcapacity' hsize' hcomplete' ⊢
  have hsize : receive.imageSize ≤ (flashLayoutGet build).staging.size := by
    rw [← hcapacity]
    exact hsize' (by rw [hcapacity]; exact h.size_le)
  have hunverified {P : Prop} (hv : service.verified = true) : P := by
    rw [hverified] at hv
    cases hv
  have hstopped : SessionSafe build { service with receive, receiving := false } t.mem :=
    ⟨hsize, by simp, fun hv => hunverified hv⟩
  cases result with
  | ok =>
    refine (wp_pure _ _ _ _).mpr ⟨hsize, fun _ => ⟨hverified, ?_, ?_⟩, fun hv => hunverified hv⟩
    · exact (hcomplete' (by simp)).trans hcomplete
    · exact hcapacity'.trans hcapacity
  | complete => exact (wp_pure _ _ _ _).mpr hstopped
  | errInvalidArg => exact (wp_pure _ _ _ _).mpr hstopped
  | errNotStarted => exact (wp_pure _ _ _ _).mpr hstopped
  | errHex => exact (wp_pure _ _ _ _).mpr hstopped
  | errBelowBase => exact (wp_pure _ _ _ _).mpr hstopped
  | errTooLarge => exact (wp_pure _ _ _ _).mpr hstopped
  | errWrite => exact (wp_pure _ _ _ _).mpr hstopped
  | errAborted => exact (wp_pure _ _ _ _).mpr hstopped

/-- Nothing is verified from the start of `cmd_begin` on, so its erases need no care. -/
theorem wp_cmdBegin_safe (h : SessionSafe build service w.mem) (requested : Option UInt32) :
    wp (cmdBegin build service requested)
      (fun r t => SessionSafe build r.2 t.mem) (fun _ => True) w := by
  have hcleared (t : FlashWorld) : SessionSafe build { service with
      verified := false, stagedFromManifest := false, recordsSinceProgress := 0 } t.mem :=
    ⟨h.size_le, fun hon => ⟨rfl, (h.receiving hon).2⟩, by simp⟩
  have hbegin (eraseSize : ℕ) (t : FlashWorld) : wp (beginTransfer build { service with
      verified := false, stagedFromManifest := false, recordsSinceProgress := 0 } eraseSize)
      (fun r t => SessionSafe build r.2 t.mem) (fun _ => True) t := by
    unfold beginTransfer
    refine (wp_bind _ _ _ _ _).mpr (wp_trivial _ (fun erased u => ?_) (fun _ => trivial) t)
    split_ifs with herased
    · exact (wp_pure _ _ _ _).mpr (hcleared u)
    · unfold firmwareReceiveBegin
      split_ifs with hempty
      · exact (wp_pure _ _ _ _).mpr (hcleared u)
      · exact (wp_pure _ _ _ _).mpr ⟨Nat.zero_le _, fun _ => ⟨rfl, rfl, rfl⟩, by simp⟩
  unfold cmdBegin
  refine (wp_bind _ _ _ _ _).mpr (wp_trivial _ (fun invalidated t => ?_) (fun _ => trivial) w)
  split_ifs with hfailed
  · exact (wp_pure _ _ _ _).mpr (hcleared t)
  cases requested with
  | none => exact hbegin _ t
  | some requested =>
    simp only
    split_ifs with hrange
    · exact (wp_pure _ _ _ _).mpr (hcleared t)
    · exact hbegin _ t

theorem wp_cmdVerify_safe (h : SessionSafe build service w.mem) (expected : Option UInt32) :
    wp (cmdVerify build service expected)
      (fun r t => SessionSafe build r.2 t.mem) (fun _ => True) w := by
  unfold cmdVerify
  cases expected with
  | none => exact (wp_pure _ _ _ _).mpr h
  | some expected =>
    simp only
    split_ifs with hincomplete
    · exact (wp_pure _ _ _ _).mpr h
    have hcomplete : service.receive.complete = true := by
      simpa [firmwareReceiveIsComplete] using hincomplete
    have hidle : service.receiving ≠ true := by
      intro hon
      rw [(h.receiving hon).2.1] at hcomplete
      cases hcomplete
    rw [wp_bind, wp_get]
    simp only [firmwareReceiveImageSize, flashStorageCrc32_staging w.mem h.size_le]
    split_ifs with hmatch
    · exact (wp_pure _ _ _ _).mpr ⟨h.size_le, fun hon => absurd hon hidle, by simp⟩
    · refine wp_seq (wp_manifestWrite build _ _ w) ?_
      intro written t hsame
      refine (wp_pure _ _ _ _).mpr ⟨h.size_le, fun hon => absurd hon hidle, fun _ => ?_⟩
      exact stagedCrc_congr hsame h.size_le

end calls

/-- What reaches the service: a console line for the filter, or a command with what its
argument parsed as. -/
inductive FirmwareCall where
  | line (line : CString)
  | fwbegin (requested : Option UInt32)
  | fwverify (expected : Option UInt32)

def firmwareCall (build : FlashBuild) (service : FirmwareService) : FirmwareCall →
    Flash FirmwareService
  | .line line => return (← firmwareServiceLineFilter build service line).2
  | .fwbegin requested => return (← cmdBegin build service requested).2
  | .fwverify expected => return (← cmdVerify build service expected).2

inductive FirmwareEvent where
  | call (call : FirmwareCall) (faults : List FlashFault)
  | fwapply
  | reboot

/-- The chip, and the service in RAM while the board runs. -/
structure FirmwareBoard where
  mem : Mem
  service : Option FirmwareService

/-- Calls run to their end or are cut by a power failure, over any faults of the flash.
`firmware_apply` resets the chip, and leaves anything in the application region, since
power may go in the middle of its copy. A reboot may come at any time. -/
inductive FirmwareStep (build : FlashBuild) : FirmwareBoard → FirmwareEvent → FirmwareBoard → Prop
  | called {board : FirmwareBoard} {service service' : FirmwareService} {call : FirmwareCall}
      {faults : List FlashFault} {w : FlashWorld} (hon : board.service = some service)
      (hrun : (firmwareCall build service call).run.run ⟨board.mem, faults, []⟩ =
        (some service', w)) :
      FirmwareStep build board (.call call faults) ⟨w.mem, some service'⟩
  | cut {board : FirmwareBoard} {service : FirmwareService} {call : FirmwareCall}
      {faults : List FlashFault} {w : FlashWorld} (hon : board.service = some service)
      (hrun : (firmwareCall build service call).run.run ⟨board.mem, faults, []⟩ = (none, w)) :
      FirmwareStep build board (.call call faults) ⟨w.mem, none⟩
  | refused {board : FirmwareBoard} {service : FirmwareService} {result : CliResult}
      (hon : board.service = some service) (happly : cmdApply build service = .refused result) :
      FirmwareStep build board .fwapply board
  | applied {board : FirmwareBoard} {service : FirmwareService} {source destination : FlashRegion}
      {size : ℕ} {mem : Mem} (hon : board.service = some service)
      (happly : cmdApply build service = .firmwareApply source destination size)
      (hcopied : ∀ a, a < destination.offset ∨ destination.offset + destination.size ≤ a →
        mem a = board.mem a) :
      FirmwareStep build board .fwapply ⟨mem, none⟩
  | rebooted {board : FirmwareBoard} :
      FirmwareStep build board .reboot ⟨board.mem, some (firmwareServiceInit build board.mem).2⟩

def BoardSafe (build : FlashBuild) (board : FirmwareBoard) : Prop :=
  ∀ service, board.service = some service → SessionSafe build service board.mem

theorem wp_firmwareCall_safe {build : FlashBuild} {service : FirmwareService} {w : FlashWorld}
    (h : SessionSafe build service w.mem) (call : FirmwareCall) :
    wp (firmwareCall build service call) (fun service' t => SessionSafe build service' t.mem)
      (fun _ => True) w := by
  cases call with
  | line line =>
    exact wp_seq (wp_lineFilter_safe h line) fun r t hr => (wp_pure _ _ _ _).mpr hr
  | fwbegin requested =>
    exact wp_seq (wp_cmdBegin_safe h requested) fun r t hr => (wp_pure _ _ _ _).mpr hr
  | fwverify expected =>
    exact wp_seq (wp_cmdVerify_safe h expected) fun r t hr => (wp_pure _ _ _ _).mpr hr

theorem BoardSafe.step {build : FlashBuild} {board board' : FirmwareBoard} {event : FirmwareEvent}
    (h : BoardSafe build board) (hstep : FirmwareStep build board event board') :
    BoardSafe build board' := by
  cases hstep with
  | called hon hrun =>
    intro service hservice
    obtain rfl := Option.some.inj hservice
    exact (wp_returned hrun).mp (wp_firmwareCall_safe (h _ hon) _)
  | cut hon hrun =>
    intro service hservice
    cases hservice
  | refused hon happly => exact h
  | applied hon happly hcopied =>
    intro service hservice
    cases hservice
  | rebooted =>
    intro service hservice
    obtain rfl := Option.some.inj hservice
    exact firmwareServiceInit_safe build board.mem

/-- `cmd_apply` hands `firmware_apply` a verified image that fits, from staging. -/
theorem cmdApply_firmwareApply {build : FlashBuild} {service : FirmwareService}
    {source destination : FlashRegion} {size : ℕ}
    (h : cmdApply build service = .firmwareApply source destination size) :
    service.verified = true ∧ source = (flashLayoutGet build).staging ∧
      destination = (flashLayoutGet build).application ∧ size = service.receive.imageSize ∧
      0 < size ∧ size ≤ (flashLayoutGet build).application.size := by
  unfold cmdApply at h
  split_ifs at h with hverified
  simp only at h
  split_ifs at h with hsize
  obtain ⟨rfl, rfl, rfl⟩ := ApplyOutcome.firmwareApply.inj h
  rw [not_or, firmwareReceiveImageSize] at hsize
  exact ⟨by simpa using hverified, rfl, rfl, rfl, Nat.pos_of_ne_zero hsize.1, not_lt.mp hsize.2⟩

/-- Every session of a board, from whatever its flash first held: what the service calls
verified is not being received, and is what staging holds; `firmware_apply` is called only
then; and a manifest adopted at a reboot describes staging. -/
theorem firmwareService_safe {build : FlashBuild} {mem : Mem} {events : List FirmwareEvent}
    {board : FirmwareBoard}
    (hrun : Steps (FirmwareStep build) ⟨mem, none⟩ events board) :
    (∀ service, board.service = some service →
      (service.verified = true → service.receiving = false ∧
        stagedCrc build board.mem service.receive.imageSize = service.verifiedCrc32) ∧
      ∀ source destination size,
        cmdApply build service = .firmwareApply source destination size →
          service.verified = true ∧ source = (flashLayoutGet build).staging ∧
          destination = (flashLayoutGet build).application ∧ size = service.receive.imageSize ∧
          0 < size ∧ size ≤ (flashLayoutGet build).application.size) ∧
    ((firmwareServiceInit build board.mem).2.verified = true →
      ∃ header, Describes build board.mem header ∧
        (firmwareServiceInit build board.mem).2.receive.imageSize = header.payloadSize.toNat ∧
        (firmwareServiceInit build board.mem).2.verifiedCrc32 = header.payloadCrc32) := by
  have hsafe : BoardSafe build board :=
    hrun.invariant (fun _ _ _ h hstep => h.step hstep) fun service hservice => by cases hservice
  refine ⟨fun service hservice => ⟨fun hverified => ?_, fun _ _ _ => cmdApply_firmwareApply⟩,
    firmwareServiceInit_adopts⟩
  have h := hsafe service hservice
  refine ⟨?_, h.verified hverified⟩
  by_contra hon
  rw [(h.receiving (by simpa using hon)).1] at hverified
  cases hverified

/-- A session of calls that all run to their end, over flash without faults. -/
def sessionAfter (build : FlashBuild) : FirmwareBoard → List FirmwareCall → FirmwareBoard
  | board, [] => board
  | board, call :: calls =>
      match board.service with
      | none => board
      | some service =>
          let after := (firmwareCall build service call).run.run ⟨board.mem, [], []⟩
          sessionAfter build ⟨after.2.mem, after.1⟩ calls

theorem steps_sessionAfter {build : FlashBuild} {start : FirmwareBoard} (calls : List FirmwareCall)
    {events : List FirmwareEvent} {board : FirmwareBoard}
    (h : Steps (FirmwareStep build) start events board) :
    ∃ events', Steps (FirmwareStep build) start events' (sessionAfter build board calls) := by
  induction calls generalizing events board with
  | nil => exact ⟨events, h⟩
  | cons call calls ih =>
    unfold sessionAfter
    cases hon : board.service with
    | none => exact ⟨events, h⟩
    | some service =>
      simp only
      rcases hrun : (firmwareCall build service call).run.run ⟨board.mem, [], []⟩ with ⟨_ | service', w⟩
      · exact ih (h.snoc (.cut hon hrun))
      · exact ih (h.snoc (.called hon hrun))

/-- A first update: one byte, received and verified. -/
def firstUpdate : FirmwareBoard :=
  sessionAfter defaultBuild
    ⟨fun _ => erased, some (firmwareServiceInit defaultBuild fun _ => erased).2⟩
    [.fwbegin (some 1), .line imageBaseLine, .line oneByteLine, .line eofLine,
      .fwverify (some (crc32 [0x12]))]

theorem firmwareService_safe_first_update : ∃ service,
    firstUpdate.service = some service ∧ service.verified = true ∧ service.receiving = false ∧
    stagedCrc defaultBuild firstUpdate.mem 1 = crc32 [0x12] := by
  have hstate : firstUpdate.service.map
      (fun service => (service.verified, service.receive.imageSize, service.verifiedCrc32)) =
      some (true, 1, crc32 [0x12]) := by decide +kernel
  obtain ⟨events, hrun⟩ := steps_sessionAfter [.fwbegin (some 1), .line imageBaseLine,
    .line oneByteLine, .line eofLine, .fwverify (some (crc32 [0x12]))]
    ((Steps.nil _).snoc (@FirmwareStep.rebooted defaultBuild ⟨fun _ => erased, none⟩))
  obtain ⟨service, hservice, hvalues⟩ := Option.map_eq_some_iff.mp hstate
  obtain ⟨hverified, hvalues⟩ := Prod.mk.inj hvalues
  obtain ⟨hsize, hcrc⟩ := Prod.mk.inj hvalues
  obtain ⟨hidle, hstaged⟩ := ((firmwareService_safe hrun).1 service hservice).1 hverified
  rw [hsize, hcrc] at hstaged
  exact ⟨service, hservice, hverified, hidle, hstaged⟩

end Pico
