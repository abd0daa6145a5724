import PicoFramework.Lib.Wire
import PicoFramework.Spec.ConfigStore
import PicoFramework.Spec.FlashStorage

/-! `persistent_config.c`: two slots of flash that take turns, each a header page and
the records of one saved configuration. -/

namespace Pico

open Lib.Nor Lib.Power Lib.Splice Lib.Wire

/-- "PCF1". -/
def PERSISTENT_CONFIG_MAGIC : UInt32 := 0x31464350

def RECORDS_AT : ℕ := FLASH_LAYOUT_PAGE_SIZE

structure SlotHeader where
  magic : UInt32
  sequence : UInt32
  length : UInt32
  recordsCrc32 : UInt32
  headerCrc32 : UInt32
deriving DecidableEq

/-- `sizeof(slot_header_t)`. -/
def SLOT_HEADER_SIZE : ℕ := 20

def HEADER_CRC_COVERAGE : ℕ := 16

def SlotHeader.bytes (header : SlotHeader) : Bytes :=
  le32 header.magic ++ (le32 header.sequence ++ (le32 header.length ++
    (le32 header.recordsCrc32 ++ le32 header.headerCrc32)))

def SlotHeader.ofBytes (raw : Bytes) : SlotHeader where
  magic := ofLe32 raw 0
  sequence := ofLe32 raw 4
  length := ofLe32 raw 8
  recordsCrc32 := ofLe32 raw 12
  headerCrc32 := ofLe32 raw 16

inductive PersistentConfigResult where
  | ok
  | errInvalidArg
  | errNoSpace
  | errEmpty
  | errCorrupt
  | errTooLarge
  | errFlash
deriving DecidableEq, Repr

structure PersistentConfig where
  store : ConfigStore
  slot : Fin 2 → FlashRegion
  current : Fin 2
  sequence : UInt32
  loaded : Bool
deriving DecidableEq

def persistentConfigCapacity : ℕ := FLASH_LAYOUT_SECTOR_SIZE - RECORDS_AT

def headerCrc (header : SlotHeader) : UInt32 := crc32 (header.bytes.take HEADER_CRC_COVERAGE)

/-- `slot_regions`: two sectors at the front of the data region. -/
def slotRegions (build : FlashBuild) : Option (Fin 2 → FlashRegion) :=
  let layout := flashLayoutGet build
  if layout.data.size < 2 * FLASH_LAYOUT_SECTOR_SIZE then none
  else some fun
    | 0 => { offset := layout.data.offset, size := FLASH_LAYOUT_SECTOR_SIZE }
    | 1 => { offset := wrap32 (layout.data.offset + FLASH_LAYOUT_SECTOR_SIZE)
             size := FLASH_LAYOUT_SECTOR_SIZE }

/-- `slot_read`: the header and the records of a slot that passes its checks. -/
def slotRead (mem : Mem) (slot : FlashRegion) : Option (SlotHeader × Bytes) := do
  let raw ← flashStorageData mem slot 0 SLOT_HEADER_SIZE
  let header := SlotHeader.ofBytes raw
  guard (header.magic = PERSISTENT_CONFIG_MAGIC)
  guard (header.headerCrc32 = headerCrc header)
  guard (header.length.toNat ≤ persistentConfigCapacity)
  let payload ← flashStorageData mem slot RECORDS_AT header.length.toNat
  guard (crc32 payload = header.recordsCrc32)
  return (header, payload)

/-- `sequence_is_later`: a signed difference, which survives the counter's wrap. -/
def sequenceIsLater (a b : UInt32) : Bool := 0 < (a - b).toInt32

/-- The choice that `persistent_config_load` makes between what the two slots hold. -/
def chooseSlot (first second : Option (SlotHeader × Bytes)) : Option (Fin 2 × SlotHeader × Bytes) :=
  match first, second with
  | some found0, some found1 =>
      if sequenceIsLater found1.1.sequence found0.1.sequence then some (1, found1)
      else some (0, found0)
  | some found0, none => some (0, found0)
  | none, some found1 => some (1, found1)
  | none, none => none

/-- `persistent_config_load`; `none` means that the configuration was left alone. -/
def persistentConfigLoad (build : FlashBuild) (mem : Mem) (buffer : Option Bytes)
    (capacity : ℕ) : PersistentConfigResult × Option PersistentConfig :=
  match buffer with
  | none => (.errInvalidArg, none)
  | some buffer =>
      if capacity = 0 then (.errInvalidArg, none)
      else
        let empty : ConfigStore := { buffer, capacity, used := 0, initialised := true }
        match slotRegions build with
        | none => (.errNoSpace, some
            { store := empty, slot := fun _ => ⟨0, 0⟩, current := 0, sequence := 0
              loaded := false })
        | some slot =>
            let fresh : PersistentConfig :=
              { store := empty, slot, current := 0, sequence := 0, loaded := false }
            match chooseSlot (slotRead mem (slot 0)) (slotRead mem (slot 1)) with
            | none =>
                let blank := flashStorageIsErased mem (slot 0) 0 SLOT_HEADER_SIZE &&
                  flashStorageIsErased mem (slot 1) 0 SLOT_HEADER_SIZE
                (if blank then .errEmpty else .errCorrupt, some fresh)
            | some (chosen, header, records) =>
                if header.length.toNat > capacity then (.errTooLarge, some fresh)
                else
                  let buffer := overwrite buffer 0 records
                  match configStoreLoad (some buffer) capacity header.length.toNat with
                  | (.ok, some store) => (.ok, some
                      { store, slot, current := chosen, sequence := header.sequence
                        loaded := true })
                  | _ => (.errCorrupt, some { fresh with store := { empty with buffer } })

/-- One page of `records` from `written` on, padded with the erased value. -/
def recordPage (records : Bytes) (written : ℕ) : Bytes :=
  padPage (span records written (min (records.length - written) FLASH_LAYOUT_PAGE_SIZE))

/-- The `while` loop of `persistent_config_save`, entered with `written` bytes done: did
every page land? A page takes at least one byte, so `records.length` rounds are enough. -/
def saveRecords (build : FlashBuild) (slot : FlashRegion) (records : Bytes) :
    ℕ → ℕ → Flash Bool
  | 0, _ => return true
  | fuel + 1, written =>
      if written < records.length then do
        let chunk := min (records.length - written) FLASH_LAYOUT_PAGE_SIZE
        let result ← flashStorageProgramVerified build slot (RECORDS_AT + written)
          (recordPage records written)
        if result ≠ .ok then return false
        saveRecords build slot records fuel (written + chunk)
      else return true

/-- The header of a save, its own checksum included. -/
def newHeader (sequence : UInt32) (records : Bytes) : SlotHeader :=
  let header : SlotHeader :=
    { magic := PERSISTENT_CONFIG_MAGIC
      sequence
      length := UInt32.ofNat records.length
      recordsCrc32 := crc32 records
      headerCrc32 := 0 }
  { header with headerCrc32 := headerCrc header }

def headerPage (header : SlotHeader) : Bytes := padPage header.bytes

/-- The bytes that a save writes: the used part of the store's buffer. -/
def ConfigStore.records (store : ConfigStore) : Bytes :=
  store.buffer.take (configStoreUsed store)

/-- The slot that `persistent_config_save` writes. -/
def PersistentConfig.target (config : PersistentConfig) : Fin 2 :=
  if config.loaded then 1 - config.current else 0

/-- `persistent_config_save` of a configuration that some load has set up. -/
def persistentConfigSave (build : FlashBuild) (config : PersistentConfig) :
    Flash (PersistentConfigResult × PersistentConfig) := do
  if (config.slot 0).size = 0 then return (.errNoSpace, config)
  let length := configStoreUsed config.store
  if length > persistentConfigCapacity then return (.errTooLarge, config)
  let target := config.target
  let slot := config.slot target
  if (← flashStorageErase build slot 0 slot.size) ≠ .ok then return (.errFlash, config)
  let records := config.store.records
  if !(← saveRecords build slot records records.length 0) then return (.errFlash, config)
  let header := newHeader (config.sequence + 1) records
  if (← flashStorageProgramVerified build slot 0 (headerPage header)) ≠ .ok then
    return (.errFlash, config)
  return (.ok, { config with current := target, sequence := header.sequence, loaded := true })

def persistentConfigErase (build : FlashBuild) (config : PersistentConfig) :
    Flash (PersistentConfigResult × PersistentConfig) := do
  if (config.slot 0).size = 0 then return (.errInvalidArg, config)
  if (← flashStorageErase build (config.slot 0) 0 (config.slot 0).size) ≠ .ok then
    return (.errFlash, config)
  if (← flashStorageErase build (config.slot 1) 0 (config.slot 1).size) ≠ .ok then
    return (.errFlash, config)
  return (.ok, { config with
    store := configClear config.store, loaded := false, sequence := 0, current := 0 })

end Pico
