import PicoFramework.Lib.Power
import PicoFramework.Spec.HexParser

/-! `firmware_receive.c`: records gathered into pages, and the pages handed to a writer.
The writer is a parameter, as the function pointer is in the source; its state `σ` is
whatever it writes to. -/

namespace Pico

open Lib.Power

variable {σ : Type}

def ERASED_BYTE : UInt8 := 0xFF

def FIRMWARE_RECEIVE_PAGE_SIZE : ℕ := 256

inductive FirmwareReceiveResult where
  | ok
  | complete
  | errInvalidArg
  | errNotStarted
  | errHex
  | errBelowBase
  | errTooLarge
  | errWrite
  | errAborted
deriving DecidableEq, Repr

/-- `write_page`, given the region offset and the page: did it land? -/
abbrev PageWriter (σ : Type) := ℕ → Bytes → Powered σ Bool

structure FirmwareReceive where
  baseAddress : ℕ
  capacity : ℕ
  parser : HexParser
  page : Bytes
  pageOffset : ℕ
  pageDirty : Bool
  records : ℕ
  bytes : ℕ
  imageSize : ℕ
  pagesWritten : ℕ
  started : Bool
  complete : Bool
  error : FirmwareReceiveResult
deriving DecidableEq

/-- A receiver after `memset(rx, 0, sizeof(*rx))`. -/
def FirmwareReceive.zero : FirmwareReceive where
  baseAddress := 0
  capacity := 0
  parser := hexParserReset
  page := List.replicate FIRMWARE_RECEIVE_PAGE_SIZE 0
  pageOffset := 0
  pageDirty := false
  records := 0
  bytes := 0
  imageSize := 0
  pagesWritten := 0
  started := false
  complete := false
  error := .ok

def resetPage (rx : FirmwareReceive) (pageOffset : ℕ) : FirmwareReceive :=
  { rx with
    page := List.replicate FIRMWARE_RECEIVE_PAGE_SIZE ERASED_BYTE
    pageOffset
    pageDirty := false }

/-- `firmware_receive_begin`, whose writer is never NULL here. -/
def firmwareReceiveBegin (rx : FirmwareReceive) (baseAddress capacity : ℕ) :
    FirmwareReceiveResult × FirmwareReceive :=
  if capacity = 0 then (.errInvalidArg, rx)
  else
    (.ok, resetPage
      { FirmwareReceive.zero with baseAddress, capacity, started := true, parser := hexParserReset }
      0)

/-- `flush_page`: the page goes to the writer if anything has been put in it. -/
def flushPage (write : PageWriter σ) (rx : FirmwareReceive) :
    Powered σ (FirmwareReceiveResult × FirmwareReceive) :=
  if !rx.pageDirty then return (.ok, rx)
  else do
    if ← write rx.pageOffset rx.page then
      return (.ok, { rx with pagesWritten := wrap32 (rx.pagesWritten + 1), pageDirty := false })
    else return (.errWrite, rx)

/-- The end of `place_byte`: the byte goes into the page that holds its offset. -/
def putByte (rx : FirmwareReceive) (offset : ℕ) (value : UInt8) : FirmwareReceive :=
  let rx := if !rx.pageDirty then
    resetPage rx (offset - offset % FIRMWARE_RECEIVE_PAGE_SIZE) else rx
  { rx with
    page := rx.page.set (offset % FIRMWARE_RECEIVE_PAGE_SIZE) value
    pageDirty := true
    bytes := wrap32 (rx.bytes + 1)
    imageSize := if wrap32 (offset + 1) > rx.imageSize then wrap32 (offset + 1) else rx.imageSize }

def placeByte (write : PageWriter σ) (rx : FirmwareReceive) (address : ℕ) (value : UInt8) :
    Powered σ (FirmwareReceiveResult × FirmwareReceive) :=
  if address < rx.baseAddress then return (.errBelowBase, rx)
  else
    let offset := address - rx.baseAddress
    if offset ≥ rx.capacity then return (.errTooLarge, rx)
    else
      let pageOffset := offset - offset % FIRMWARE_RECEIVE_PAGE_SIZE
      if rx.pageDirty ∧ pageOffset ≠ rx.pageOffset then do
        let (flushed, rx) ← flushPage write rx
        if flushed ≠ .ok then return (flushed, rx)
        return (.ok, putByte rx offset value)
      else return (.ok, putByte rx offset value)

/-- The `for` loop of `firmware_receive_line` over the bytes still to place. -/
def placeData (write : PageWriter σ) :
    FirmwareReceive → ℕ → Bytes → Powered σ (FirmwareReceiveResult × FirmwareReceive)
  | rx, _, [] => return (.ok, rx)
  | rx, address, value :: values => do
      let (placed, rx) ← placeByte write rx (wrap32 address) value
      if placed ≠ .ok then return (placed, { rx with error := placed })
      placeData write rx (address + 1) values

def firmwareReceiveLine (write : PageWriter σ) (rx : FirmwareReceive) (line : Option CString) :
    Powered σ (FirmwareReceiveResult × FirmwareReceive) :=
  if line = none then return (.errInvalidArg, rx)
  else if !rx.started then return (.errNotStarted, rx)
  else if rx.error ≠ .ok then return (.errAborted, rx)
  else
    let fed := hexParserFeed rx.parser line ⟨0, 0, []⟩
    let rx := { rx with parser := fed.parser }
    if fed.result ≠ .ok then return (.errHex, { rx with error := .errHex })
    else
      let rx := { rx with records := wrap32 (rx.records + 1) }
      if fed.record.type = HEX_RECORD_DATA then
        placeData write rx fed.record.address fed.record.data
      else if fed.record.type = HEX_RECORD_EOF then do
        let (flushed, rx) ← flushPage write rx
        if flushed ≠ .ok then return (flushed, { rx with error := flushed })
        return (.complete, { rx with complete := true })
      else return (.ok, rx)

def firmwareReceiveIsComplete (rx : FirmwareReceive) : Bool := rx.complete

def firmwareReceiveImageSize (rx : FirmwareReceive) : ℕ := rx.imageSize

end Pico
