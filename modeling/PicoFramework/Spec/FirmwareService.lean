import PicoFramework.Spec.FirmwareImage
import PicoFramework.Spec.FirmwareReceive
import PicoFramework.Spec.FlashStorage

/-! `firmware_service.c`: a transfer into the staging region, its verification, and the
manifest that lets a verified image outlive a reboot. What the commands print is left out;
what `cli_next_u32` and `cli_next_hex32` made of the arguments is an argument here. -/

namespace Pico

open Lib.Power

/-- `XIP_BASE`. -/
def IMAGE_BASE_ADDRESS : ℕ := 0x10000000

def FIRMWARE_SERVICE_PROGRESS_INTERVAL : ℕ := 64

inductive CliResult where
  | ok
  | errArg
  | errRange
  | errState
  | errFailed
deriving DecidableEq, Repr

/-- `firmware_service_t`; the layout it points to is that of the build. -/
structure FirmwareService where
  receive : FirmwareReceive
  receiving : Bool
  verified : Bool
  verifiedCrc32 : UInt32
  stagedFromManifest : Bool
  recordsSinceProgress : ℕ
  initialised : Bool
deriving DecidableEq

section service

variable (build : FlashBuild)

def manifestWrite (size : ℕ) (crc : UInt32) : Flash Bool := do
  let manifest := (flashLayoutGet build).manifest
  if (← flashStorageErase build manifest 0 manifest.size) ≠ .ok then return false
  match firmwareImageHeaderInit (UInt32.ofNat size) crc (UInt32.ofNat IMAGE_BASE_ADDRESS) crc with
  | .error _ => return false
  | .ok header =>
      let written ← flashStorageProgramVerified build manifest 0 (padPage header.bytes)
      return written = .ok

def manifestInvalidate : Flash Bool := do
  let manifest := (flashLayoutGet build).manifest
  return (← flashStorageErase build manifest 0 manifest.size) = .ok

/-- `manifest_matches_staging`: the header, when it describes what staging holds. -/
def manifestMatchesStaging (mem : Lib.Nor.Mem) : Option FirmwareImageHeader := do
  let layout := flashLayoutGet build
  let stored ← flashStorageData mem layout.manifest 0 FIRMWARE_IMAGE_HEADER_SIZE
  let header := FirmwareImageHeader.ofBytes stored
  guard (firmwareImageHeaderValidate header = .ok)
  guard (header.payloadSize.toNat ≤ layout.staging.size)
  let actual := flashStorageCrc32 mem layout.staging 0 header.payloadSize.toNat
  guard (firmwareImageVerifyPayload header actual = .ok)
  return header

/-- `write_page`: a verified program in staging. -/
def writePage : PageWriter FlashWorld := fun offset page => do
  let written ← flashStorageProgramVerified build (flashLayoutGet build).staging offset page
  return written = .ok

/-- `firmware_service_init`, and whether the chip could be divided up. -/
def firmwareServiceInit (mem : Lib.Nor.Mem) : Bool × FirmwareService :=
  let service : FirmwareService :=
    { receive := .zero, receiving := false, verified := false, verifiedCrc32 := 0
      stagedFromManifest := false, recordsSinceProgress := 0, initialised := false }
  if (flashLayoutGet build).staging.size = 0 then (false, service)
  else
    let service := { service with initialised := true }
    match manifestMatchesStaging build mem with
    | none => (true, service)
    | some staged =>
        (true, { service with
          receive := { service.receive with
            imageSize := staged.payloadSize.toNat
            complete := true }
          verified := true
          verifiedCrc32 := staged.payloadCrc32
          stagedFromManifest := true })

/-- `firmware_service_line_filter`, and whether it claimed the line. -/
def firmwareServiceLineFilter (service : FirmwareService) (line : CString) :
    Flash (Bool × FirmwareService) :=
  if !service.initialised ∨ line.bytes.head? ≠ some 0x3A then return (false, service)
  else if !service.receiving then return (true, service)
  else do
    let (result, receive) ← firmwareReceiveLine (writePage build) service.receive (some line)
    let service := { service with receive }
    match result with
    | .ok =>
        let records := wrap32 (service.recordsSinceProgress + 1)
        let records := if records ≥ FIRMWARE_SERVICE_PROGRESS_INTERVAL then 0 else records
        return (true, { service with recordsSinceProgress := records })
    | .complete => return (true, { service with receiving := false })
    | _ => return (true, { service with receiving := false })

/-- The end of `cmd_begin`, once it is known how much to erase. -/
def beginTransfer (service : FirmwareService) (eraseSize : ℕ) :
    Flash (CliResult × FirmwareService) := do
  let staging := (flashLayoutGet build).staging
  let erased ← flashStorageErase build staging 0 eraseSize
  if erased ≠ .ok then return (.errFailed, service)
  let (begun, receive) := firmwareReceiveBegin service.receive IMAGE_BASE_ADDRESS staging.size
  let service := { service with receive }
  if begun ≠ .ok then return (.errFailed, service)
  return (.ok, { service with receiving := true })

def cmdBegin (service : FirmwareService) (requested : Option UInt32) :
    Flash (CliResult × FirmwareService) := do
  let service := { service with
    verified := false, stagedFromManifest := false, recordsSinceProgress := 0 }
  if !(← manifestInvalidate build) then return (.errFailed, service)
  let staging := (flashLayoutGet build).staging
  match requested with
  | none => beginTransfer build service staging.size
  | some requested =>
      if requested = 0 ∨ requested.toNat > staging.size then return (.errRange, service)
      else beginTransfer build service (flashRoundUpToSector requested.toNat)

def cmdVerify (service : FirmwareService) (expected : Option UInt32) :
    Flash (CliResult × FirmwareService) :=
  match expected with
  | none => return (.errArg, service)
  | some expected =>
      if !firmwareReceiveIsComplete service.receive then return (.errState, service)
      else do
        let size := firmwareReceiveImageSize service.receive
        let actual := flashStorageCrc32 (← get).mem (flashLayoutGet build).staging 0 size
        if actual ≠ expected then return (.errFailed, { service with verified := false })
        let service := { service with verified := true, verifiedCrc32 := actual }
        -- whether the manifest was written changes only what is printed
        let _ ← manifestWrite build size actual
        return (.ok, service)

/-- What `cmd_apply` does: it refuses, or calls `firmware_apply`, which does not return. -/
inductive ApplyOutcome where
  | refused (result : CliResult)
  | firmwareApply (source destination : FlashRegion) (size : ℕ)

def cmdApply (service : FirmwareService) : ApplyOutcome :=
  let layout := flashLayoutGet build
  if !service.verified then .refused .errState
  else
    let size := firmwareReceiveImageSize service.receive
    if size = 0 ∨ size > layout.application.size then .refused .errRange
    else .firmwareApply layout.staging layout.application size

end service

end Pico
