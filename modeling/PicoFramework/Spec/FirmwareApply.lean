import PicoFramework.Lib.Nor
import PicoFramework.Spec.FlashLayout

/-! `firmware_apply.c`: the copy of an image, a sector at a time. The staged bytes are read through
the window the chip is mapped in, which shows it as it is between two operations. -/

namespace Pico

open Lib.Nor

/-- The body of the loop: a sector into RAM, then erased and programmed at its destination. -/
def firmwareApplySector (source destination : FlashRegion) (mem : Mem) (sector : ℕ) : Mem :=
  let position := wrap32 (sector * FLASH_LAYOUT_SECTOR_SIZE)
  let staged := read mem (wrap32 (source.offset + position)) FLASH_LAYOUT_SECTOR_SIZE
  let mem := erase mem (wrap32 (destination.offset + position)) FLASH_LAYOUT_SECTOR_SIZE
  program mem (wrap32 (destination.offset + position)) staged

/-- `firmware_apply`: what it leaves in the chip when it resets the board. -/
def firmwareApply (source destination : FlashRegion) (size : ℕ) (mem : Mem) : Mem :=
  let sectors := wrap32 (size + FLASH_LAYOUT_SECTOR_SIZE - 1) / FLASH_LAYOUT_SECTOR_SIZE
  (List.range sectors).foldl (firmwareApplySector source destination) mem

end Pico
