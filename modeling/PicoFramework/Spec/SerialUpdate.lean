import PicoFramework.Lib.Writes
import PicoFramework.Spec.Crc
import PicoFramework.Spec.HexParser

/-! `serial_update.py`: the image that the host predicts from a HEX file, and the lines
it sends. The integers of Python do not wrap, and a `dict` keeps one value for a key. -/

namespace Pico

open Lib.Writes

def IMAGE_BASE : ℕ := 0x10000000

def ERASED : UInt8 := 0xFF

/-- What `parse_hex` raises: a `HexError`, or an error of Python's own for a byte that is
not ASCII and for an extension record without two bytes of data. -/
inductive HexError where
  | notHexRecord (number : ℕ)
  | recordAfterEof (number : ℕ)
  | notHexadecimal (number : ℕ)
  | recordTooShort (number : ℕ)
  | badChecksum (number : ℕ)
  | lengthDisagrees (number : ℕ)
  | belowImageBase (number address : ℕ)
  | unknownRecordType (number : ℕ) (kind : UInt8)
  | noEofRecord
  | noDataRecords
  | unicodeDecodeError
  | indexError (number : ℕ)
deriving DecidableEq, Repr

/-- `str.isspace` of an ASCII character. -/
def isPythonSpace (c : UInt8) : Bool := (0x09 ≤ c && c ≤ 0x0D) || (0x1C ≤ c && c ≤ 0x20)

/-- `str.strip`. -/
def strip (line : Bytes) : Bytes := (line.dropWhile isPythonSpace).rdropWhile isPythonSpace

/-- A file opened as text: "\r\n" and "\r" read as "\n". -/
def universalNewlines : Bytes → Bytes
  | [] => []
  | [c] => [if c = 0x0D then 0x0A else c]
  | c :: d :: rest =>
      if c = 0x0D ∧ d = 0x0A then 0x0A :: universalNewlines rest
      else (if c = 0x0D then 0x0A else c) :: universalNewlines (d :: rest)

/-- The lines of a file. The piece after a final newline is no line to Python; it is blank,
and everything that reads the lines skips blank ones. -/
def textLines (text : Bytes) : List Bytes := (universalNewlines text).splitOn 0x0A

/-- The whitespace that `bytes.fromhex` skips. -/
def isAsciiSpace (c : UInt8) : Bool := (0x09 ≤ c && c ≤ 0x0D) || c = 0x20

/-- `bytes.fromhex`: whitespace may stand before a pair of digits, not inside it. -/
def fromHex : Bytes → Option Bytes
  | [] => some []
  | [c] => if isAsciiSpace c then some [] else none
  | high :: low :: rest =>
      if isAsciiSpace high then fromHex (low :: rest)
      else do
        let byte ← decodeByte high low
        let bytes ← fromHex rest
        return byte :: bytes

/-- The variables of `parse_hex`. -/
structure HexFile where
  chunks : List (ℕ × UInt8)
  base : ℕ
  highest : ℤ
  seenEof : Bool

def hexFileStart : HexFile := ⟨[], 0, -1, false⟩

/-- `chunks[offset + index] = value` over the data of a record. -/
def placeChunks : List (ℕ × UInt8) → ℕ → Bytes → List (ℕ × UInt8)
  | chunks, _, [] => chunks
  | chunks, offset, value :: values => placeChunks (assign chunks offset value) (offset + 1) values

/-- The branches of `parse_hex` on the record type. -/
def parseRecord (file : HexFile) (number : ℕ) (kind : UInt8) (location : ℕ) (data : Bytes) :
    Except HexError HexFile :=
  if kind = 0x00 then
    let address := file.base + location
    if address < IMAGE_BASE then .error (.belowImageBase number address)
    else
      let offset := address - IMAGE_BASE
      .ok { file with
        chunks := placeChunks file.chunks offset data
        highest := max file.highest ((offset : ℤ) + data.length - 1) }
  else if kind = 0x01 then .ok { file with seenEof := true }
  else if kind = 0x04 then
    match data with
    | high :: low :: _ => .ok { file with base := word16 high low <<< 16 }
    | _ => .error (.indexError number)
  else if kind = 0x02 then
    match data with
    | high :: low :: _ => .ok { file with base := word16 high low <<< 4 }
    | _ => .error (.indexError number)
  else if kind = 0x03 ∨ kind = 0x05 then .ok file
  else .error (.unknownRecordType number kind)

/-- The body of the loop of `parse_hex`. -/
def parseLine (file : HexFile) (number : ℕ) (raw : Bytes) : Except HexError HexFile :=
  match strip raw with
  | [] => .ok file
  | first :: digits =>
      if first ≠ 0x3A then .error (.notHexRecord number)
      else if file.seenEof then .error (.recordAfterEof number)
      else
        match fromHex digits with
        | none => .error (.notHexadecimal number)
        | some body =>
            if body.length < 5 then .error (.recordTooShort number)
            else if (body.map UInt8.toNat).sum &&& 0xFF ≠ 0 then .error (.badChecksum number)
            else
              let data := (body.drop 4).dropLast
              if data.length ≠ (body.getD 0 0).toNat then .error (.lengthDisagrees number)
              else
                parseRecord file number (body.getD 3 0) (word16 (body.getD 1 0) (body.getD 2 0)) data

def parseLines : HexFile → ℕ → List Bytes → Except HexError HexFile
  | file, _, [] => .ok file
  | file, number, raw :: raws => do
      let file ← parseLine file number raw
      parseLines file (number + 1) raws

/-- `bytearray([ERASED]) * (highest + 1)` with the chunks put in. -/
def HexFile.image (file : HexFile) : Bytes :=
  file.chunks.foldl (fun image chunk => image.set chunk.1 chunk.2)
    (List.replicate (file.highest + 1).toNat ERASED)

/-- `parse_hex`. A file that is not ASCII raises when the reader gets to the byte, which
may be after the error of an earlier line. -/
def parseHex (text : Bytes) : Except HexError Bytes :=
  if text.any (0x80 ≤ ·) then .error .unicodeDecodeError
  else do
    let file ← parseLines hexFileStart 1 (textLines text)
    if !file.seenEof then throw .noEofRecord
    if file.highest < 0 then throw .noDataRecords
    return file.image

/-- The lines of `stream_records`. -/
def sentLines (raws : List Bytes) : List Bytes := (raws.map strip).filter (· ≠ [])

/-- What `main` sends: the size to `fwbegin`, and the checksum to `fwverify`. -/
def sentCheck (image : Bytes) : ℕ × UInt32 := (image.length, crc32 image)

end Pico
