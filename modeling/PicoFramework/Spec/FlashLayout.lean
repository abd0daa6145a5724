import PicoFramework.Spec.Basic

/-! `flash_layout.c`: the division of the chip and the checks that keep an operation
inside a region. Every quantity is a `uint32_t`; a sum, product or difference that can
leave that range is reduced where the source computes it. -/

namespace Pico

def FLASH_LAYOUT_SECTOR_SIZE : ℕ := 4096
def FLASH_LAYOUT_PAGE_SIZE : ℕ := 256
def FLASH_LAYOUT_MANIFEST_SECTORS : ℕ := 1

structure FlashRegion where
  offset : ℕ
  size : ℕ
deriving DecidableEq, Repr

structure FlashLayout where
  application : FlashRegion
  staging : FlashRegion
  manifest : FlashRegion
  data : FlashRegion
deriving DecidableEq, Repr

inductive FlashLayoutResult where
  | ok
  | errInvalidArg
  | errTooSmall
  | errUnaligned
  | errOutOfRange
deriving DecidableEq, Repr

def flashOffsetIsSectorAligned (offset : ℕ) : Bool := offset % FLASH_LAYOUT_SECTOR_SIZE = 0

def flashOffsetIsPageAligned (offset : ℕ) : Bool := offset % FLASH_LAYOUT_PAGE_SIZE = 0

/-- `flash_layout_compute`, the layout being there only on success. -/
def flashLayoutCompute (flashSize dataSectors : ℕ) : Except FlashLayoutResult FlashLayout :=
  if !flashOffsetIsSectorAligned flashSize then .error .errInvalidArg
  else
    let totalSectors := flashSize / FLASH_LAYOUT_SECTOR_SIZE
    if dataSectors < FLASH_LAYOUT_MANIFEST_SECTORS + 1 ∨
        totalSectors < wrap32 (dataSectors + 2) then .error .errTooSmall
    else
      let imageSectors := sub32 totalSectors dataSectors / 2
      let imageSize := wrap32 (imageSectors * FLASH_LAYOUT_SECTOR_SIZE)
      let manifest : FlashRegion :=
        { offset := wrap32 (2 * imageSize)
          size := FLASH_LAYOUT_MANIFEST_SECTORS * FLASH_LAYOUT_SECTOR_SIZE }
      let dataOffset := wrap32 (manifest.offset + manifest.size)
      .ok
        { application := { offset := 0, size := imageSize }
          staging := { offset := imageSize, size := imageSize }
          manifest
          data := { offset := dataOffset, size := sub32 flashSize dataOffset } }

/-- What a build fixes: the chip, the sectors it reserves, and where its own code runs
from (`none` for RAM). -/
structure FlashBuild where
  flashSize : ℕ
  dataSectors : ℕ
  codeOffset : Option ℕ
  flashSize_lt : flashSize < 2 ^ 32
  dataSectors_lt : dataSectors < 2 ^ 32

/-- The default build: 2 MiB of flash, 128 KiB of it reserved, running from flash. -/
def defaultBuild : FlashBuild where
  flashSize := 2 * 1024 * 1024
  dataSectors := 32
  codeOffset := some 0
  flashSize_lt := by norm_num
  dataSectors_lt := by norm_num

/-- `flash_layout_get`: a chip too small to divide leaves every region empty. -/
def flashLayoutGet (build : FlashBuild) : FlashLayout :=
  match flashLayoutCompute build.flashSize build.dataSectors with
  | .ok layout => layout
  | .error _ => ⟨⟨0, 0⟩, ⟨0, 0⟩, ⟨0, 0⟩, ⟨0, 0⟩⟩

/-- `flash_region_contains`: checked so that a wrapping end cannot pass. -/
def flashRegionContains (region : FlashRegion) (offset size : ℕ) : Bool :=
  if region.size = 0 then false
  else if size = 0 then offset ≤ region.size
  else !(decide (offset > region.size) || decide (size > region.size - offset))

def flashRegionCheckErase (region : FlashRegion) (offset size : ℕ) : FlashLayoutResult :=
  if !flashRegionContains region offset size then .errOutOfRange
  else if !flashOffsetIsSectorAligned region.offset ∨ !flashOffsetIsSectorAligned offset ∨
      !flashOffsetIsSectorAligned size then .errUnaligned
  else .ok

def flashRegionCheckProgram (region : FlashRegion) (offset size : ℕ) : FlashLayoutResult :=
  if !flashRegionContains region offset size then .errOutOfRange
  else if !flashOffsetIsPageAligned region.offset ∨ !flashOffsetIsPageAligned offset ∨
      !flashOffsetIsPageAligned size then .errUnaligned
  else .ok

def flashRegionAbsolute (region : FlashRegion) (offset : ℕ) : ℕ := wrap32 (region.offset + offset)

/-- `(size + SECTOR_SIZE - 1) & ~(SECTOR_SIZE - 1)`. -/
def flashRoundUpToSector (size : ℕ) : ℕ :=
  wrap32 (size + FLASH_LAYOUT_SECTOR_SIZE - 1) / FLASH_LAYOUT_SECTOR_SIZE *
    FLASH_LAYOUT_SECTOR_SIZE

end Pico
