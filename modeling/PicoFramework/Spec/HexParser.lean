import Mathlib.Data.List.DropRight
import Mathlib.Data.UInt
import PicoFramework.Spec.Basic

/-! `hex_parser.c`: one Intel HEX record a line, with the address base that the lines
before it have set. -/

namespace Pico

def HEX_MAX_RECORD_DATA : ℕ := 255

def PREFIX_BYTES : ℕ := 4
def FRAME_BYTES : ℕ := PREFIX_BYTES + 1

def HEX_RECORD_DATA : UInt8 := 0x00
def HEX_RECORD_EOF : UInt8 := 0x01
def HEX_RECORD_EXTENDED_SEGMENT : UInt8 := 0x02
def HEX_RECORD_START_SEGMENT : UInt8 := 0x03
def HEX_RECORD_EXTENDED_LINEAR : UInt8 := 0x04
def HEX_RECORD_START_LINEAR : UInt8 := 0x05

inductive HexResult where
  | ok
  | errInvalidArg
  | errNoStartCode
  | errBadCharacter
  | errBadLength
  | errBadChecksum
  | errUnknownType
  | errMalformedRecord
  | errAfterEof
deriving DecidableEq, Repr

/-- The type is the byte on the line, whatever it is; `length` is that of `data`. -/
structure HexRecord where
  type : UInt8
  address : ℕ
  data : Bytes
deriving DecidableEq

structure HexParser where
  addressBase : ℕ
  startAddress : ℕ
  haveStartAddress : Bool
  seenEof : Bool
deriving DecidableEq

def hexParserReset : HexParser := ⟨0, 0, false, false⟩

def decodeNibble (c : UInt8) : Option UInt8 :=
  if 0x30 ≤ c ∧ c ≤ 0x39 then some (c - 0x30)
  else if 0x41 ≤ c ∧ c ≤ 0x46 then some (c - 0x41 + 10)
  else if 0x61 ≤ c ∧ c ≤ 0x66 then some (c - 0x61 + 10)
  else none

def decodeByte (high low : UInt8) : Option UInt8 := do
  let high ← decodeNibble high
  let low ← decodeNibble low
  return (high <<< 4) ||| low

/-- The decoding loop of `hex_parser_feed`, two characters a byte. -/
def decodeBytes : Bytes → Option Bytes
  | high :: low :: rest => do
      let byte ← decodeByte high low
      let bytes ← decodeBytes rest
      return byte :: bytes
  | _ => some []

/-- ' ', '\t', '\r' or '\n'. -/
def isSpace (c : UInt8) : Bool := c = 0x20 || c = 0x09 || c = 0x0D || c = 0x0A

/-- The line up to its `trimmed_length`. -/
def trimmed (line : Bytes) : Bytes := line.rdropWhile isSpace

/-- Two bytes, the high one first. -/
def word16 (high low : UInt8) : ℕ := (high.toNat <<< 8) ||| low.toNat

def applyExtension (parser : HexParser) (record : HexRecord) : HexResult × HexParser :=
  match record.data with
  | [high, low] =>
      let value := word16 high low
      if record.type = HEX_RECORD_EXTENDED_LINEAR then
        (.ok, { parser with addressBase := wrap32 (value <<< 16) })
      else if record.type = HEX_RECORD_EXTENDED_SEGMENT then
        (.ok, { parser with addressBase := wrap32 (value <<< 4) })
      else (.errUnknownType, parser)
  | _ => (.errMalformedRecord, parser)

def applyStartAddress (parser : HexParser) (record : HexRecord) : HexResult × HexParser :=
  match record.data with
  | [a, b, c, d] =>
      (.ok, { parser with
        startAddress := (a.toNat <<< 24) ||| (b.toNat <<< 16) ||| (c.toNat <<< 8) ||| d.toNat
        haveStartAddress := true })
  | _ => (.errMalformedRecord, parser)

/-- What a line leaves behind: the result, the parser, and `*record`. -/
structure HexFed where
  result : HexResult
  parser : HexParser
  record : HexRecord
deriving DecidableEq

/-- The end of `hex_parser_feed`, on a frame whose length and checksum are right. -/
def hexParserApply (parser : HexParser) (frame : Bytes) : HexFed :=
  let type := frame.getD 3 0
  let offset := word16 (frame.getD 1 0) (frame.getD 2 0)
  let record : HexRecord :=
    { type, address := 0, data := (frame.drop PREFIX_BYTES).take (frame.getD 0 0).toNat }
  if type = HEX_RECORD_DATA then
    ⟨.ok, parser, { record with address := wrap32 (parser.addressBase + offset) }⟩
  else if type = HEX_RECORD_EOF then
    if record.data ≠ [] then ⟨.errMalformedRecord, parser, record⟩
    else ⟨.ok, { parser with seenEof := true }, record⟩
  else if type = HEX_RECORD_EXTENDED_SEGMENT ∨ type = HEX_RECORD_EXTENDED_LINEAR then
    let applied := applyExtension parser record
    ⟨applied.1, applied.2, record⟩
  else if type = HEX_RECORD_START_SEGMENT ∨ type = HEX_RECORD_START_LINEAR then
    let applied := applyStartAddress parser record
    ⟨applied.1, applied.2, record⟩
  else ⟨.errUnknownType, parser, record⟩

/-- The checks of `hex_parser_feed` before the frame is looked at: its bytes, or why the
line is not a record. -/
def hexFrame (line : Bytes) : Except HexResult Bytes :=
  match line.dropWhile isSpace with
  | 0x3A :: body =>
      let body := trimmed body
      if body.length < 2 * FRAME_BYTES ∨ body.length % 2 ≠ 0 then .error .errBadLength
      else
        let byteCount := body.length / 2
        if byteCount > FRAME_BYTES + HEX_MAX_RECORD_DATA then .error .errBadLength
        else
          match decodeBytes body with
          | none => .error .errBadCharacter
          | some frame =>
              if byteCount ≠ (frame.getD 0 0).toNat + FRAME_BYTES then .error .errBadLength
              else if frame.sum ≠ 0 then .error .errBadChecksum
              else .ok frame
  | _ => .error .errNoStartCode

def hexParserFeed (parser : HexParser) (line : Option CString) (record : HexRecord) : HexFed :=
  match line with
  | none => ⟨.errInvalidArg, parser, record⟩
  | some line =>
      match hexFrame line.bytes with
      | .error result => ⟨result, parser, record⟩
      | .ok frame =>
          if parser.seenEof then ⟨.errAfterEof, parser, record⟩
          else hexParserApply parser frame

/-- `*record` as it lies in memory: its data at the start of a buffer, and zeros behind them. -/
structure HexRecordMemory where
  type : UInt8
  address : ℕ
  data : Bytes
  length : UInt8
deriving DecidableEq

def HexRecord.inMemory (record : HexRecord) : HexRecordMemory :=
  ⟨record.type, record.address,
    record.data ++ List.replicate (HEX_MAX_RECORD_DATA - record.data.length) 0,
    UInt8.ofNat record.data.length⟩

/-- `hex_parser_feed`, and all that is in the memory it writes the record to. -/
def hexParserFeedInto (parser : HexParser) (line : Option CString) (memory : HexRecordMemory) :
    HexResult × HexParser × HexRecordMemory :=
  match line with
  | none => (.errInvalidArg, parser, memory)
  | some line =>
      match hexFrame line.bytes with
      | .error result => (result, parser, memory)
      | .ok frame =>
          if parser.seenEof then (.errAfterEof, parser, memory)
          else
            let fed := hexParserApply parser frame
            (fed.result, fed.parser, fed.record.inMemory)

/-- `:020000041000EA`, the address base of the image. -/
def imageBaseLine : CString :=
  ⟨[0x3A, 0x30, 0x32, 0x30, 0x30, 0x30, 0x30, 0x30, 0x34, 0x31, 0x30, 0x30, 0x30, 0x45, 0x41],
    by decide⟩

/-- `:0100000012ED`, one byte at address zero. -/
def oneByteLine : CString :=
  ⟨[0x3A, 0x30, 0x31, 0x30, 0x30, 0x30, 0x30, 0x30, 0x30, 0x31, 0x32, 0x45, 0x44], by decide⟩

/-- `:00000001FF`, the end-of-file record. -/
def eofLine : CString :=
  ⟨[0x3A, 0x30, 0x30, 0x30, 0x30, 0x30, 0x30, 0x30, 0x31, 0x46, 0x46], by decide⟩

example : (hexParserFeed hexParserReset (some imageBaseLine) ⟨0, 0, []⟩).parser.addressBase =
    0x10000000 := by
  decide

end Pico
