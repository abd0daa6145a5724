import PicoFramework.Lib.Nor
import PicoFramework.Lib.Power
import PicoFramework.Lib.Splice
import PicoFramework.Spec.Crc
import PicoFramework.Spec.FlashLayout

/-! `flash_storage.c` over a chip that behaves as NOR flash does, in a world that may
refuse an operation, do it badly, or lose power around it. -/

namespace Pico

open Lib.Nor Lib.Power Lib.Splice

/-- What `flash_safe_execute` is asked to run, at an offset within the chip. -/
inductive FlashOp where
  | erase (offset size : ℕ)
  | program (offset : ℕ) (data : Bytes)

def FlashOp.apply : FlashOp → Mem → Mem
  | .erase offset size, mem => Lib.Nor.erase mem offset size
  | .program offset data, mem => Lib.Nor.program mem offset data

/-- The span of an operation left with contents that the operation did not intend. -/
def FlashOp.garble (bytes : Mem) : FlashOp → Mem → Mem
  | .erase offset size, mem => scribble mem offset size bytes
  | .program offset data, mem => scribble mem offset data.length bytes

/-- What happens to one operation. -/
inductive FlashFault where
  | done
  | refused
  | worn (bytes : Mem)
  | cutBefore
  | cutDuring (bytes : Mem)
  | cutAfter

inductive FlashMark where
  | carried (op : FlashOp)
  | torn (op : FlashOp)

/-- The chip, what will happen to the operations to come, and a record, which no code
reads, of those that reached the chip. Operations past the end of `faults` succeed. -/
structure FlashWorld where
  mem : Mem
  faults : List FlashFault
  trace : List FlashMark

abbrev Flash := Powered FlashWorld

/-- `flash_safe_execute`: whether it ran the operation. -/
def flashSafeExecute (op : FlashOp) : Flash Bool := fun w =>
  let faults := w.faults.tail
  let carried : FlashWorld := ⟨op.apply w.mem, faults, w.trace ++ [.carried op]⟩
  match w.faults.headD .done with
  | .done => (some true, carried)
  | .refused => (some false, { w with faults })
  | .worn bytes => (some true, ⟨op.garble bytes w.mem, faults, w.trace ++ [.torn op]⟩)
  | .cutBefore => (none, { w with faults })
  | .cutDuring bytes => (none, ⟨op.garble bytes w.mem, faults, w.trace ++ [.torn op]⟩)
  | .cutAfter => (none, carried)

inductive FlashStorageResult where
  | ok
  | errInvalidArg
  | errOutOfRange
  | errUnaligned
  | errRunningFromRegion
  | errNotSafe
  | errVerifyFailed
deriving DecidableEq, Repr

def flashStorageHoldsRunningCode (build : FlashBuild) (region : FlashRegion) : Bool :=
  if region.size = 0 then false
  else
    match build.codeOffset with
    | none => false
    | some offset =>
        offset ≥ region.offset ∧ offset < wrap32 (region.offset + region.size)

/-- `translate`. -/
def FlashStorageResult.ofLayout : FlashLayoutResult → FlashStorageResult
  | .ok => .ok
  | .errUnaligned => .errUnaligned
  | .errOutOfRange => .errOutOfRange
  | _ => .errInvalidArg

def precheck (build : FlashBuild) (region : FlashRegion) : FlashStorageResult :=
  if region.size = 0 then .errInvalidArg
  else if flashStorageHoldsRunningCode build region then .errRunningFromRegion
  else .ok

/-- The tail that `flash_storage_erase` and `flash_storage_program` share. -/
def flashStorageRun (build : FlashBuild) (region : FlashRegion) (bounds : FlashLayoutResult)
    (size : ℕ) (op : FlashOp) : Flash FlashStorageResult := do
  let checked := precheck build region
  if checked ≠ .ok then return checked
  let bounds := FlashStorageResult.ofLayout bounds
  if bounds ≠ .ok then return bounds
  if size = 0 then return .ok
  if ← flashSafeExecute op then return .ok else return .errNotSafe

def flashStorageErase (build : FlashBuild) (region : FlashRegion) (offset size : ℕ) :
    Flash FlashStorageResult :=
  flashStorageRun build region (flashRegionCheckErase region offset size) size
    (.erase (flashRegionAbsolute region offset) size)

/-- `flash_storage_program` of the `data.length` bytes at `data`. -/
def flashStorageProgram (build : FlashBuild) (region : FlashRegion) (offset : ℕ) (data : Bytes) :
    Flash FlashStorageResult :=
  flashStorageRun build region (flashRegionCheckProgram region offset data.length) data.length
    (.program (flashRegionAbsolute region offset) data)

/-- `flash_storage_data`: the bytes the returned pointer reads, `none` for NULL. -/
def flashStorageData (mem : Mem) (region : FlashRegion) (offset size : ℕ) : Option Bytes :=
  if flashRegionContains region offset size then
    some (read mem (flashRegionAbsolute region offset) size)
  else none

def flashStorageProgramVerified (build : FlashBuild) (region : FlashRegion) (offset : ℕ)
    (data : Bytes) : Flash FlashStorageResult := do
  let written ← flashStorageProgram build region offset data
  if written ≠ .ok then return written
  match flashStorageData (← get).mem region offset data.length with
  | none => return .errOutOfRange
  | some stored => if stored ≠ data then return .errVerifyFailed else return .ok

/-- A page buffer filled with the erased value, then `bytes` copied to its front. -/
def padPage (bytes : Bytes) : Bytes :=
  overwrite (List.replicate FLASH_LAYOUT_PAGE_SIZE erased) 0 bytes

def flashStorageIsErased (mem : Mem) (region : FlashRegion) (offset size : ℕ) : Bool :=
  match flashStorageData mem region offset size with
  | none => false
  | some bytes => bytes.all (· = 0xFF)

def flashStorageCrc32 (mem : Mem) (region : FlashRegion) (offset size : ℕ) : UInt32 :=
  match flashStorageData mem region offset size with
  | none => 0
  | some bytes => crc32 bytes

end Pico
