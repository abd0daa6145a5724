import PicoFramework.Spec.Json

/-! The writer of `json.c`: an append-only text with sticky flags. -/

namespace Pico

/-- `json_writer_t`; `text` is the first `length` bytes of the buffer. -/
structure JsonWriter where
  size : ℕ
  text : Bytes
  depth : ℕ
  needsComma : Bool
  overflowed : Bool
  malformed : Bool
deriving DecidableEq

def JsonWriter.length (writer : JsonWriter) : ℕ := writer.text.length

/-- `json_writer_init` over a buffer of that size; NULL is `none`. -/
def jsonWriterInit (buffer : Option ℕ) : JsonWriter where
  size := buffer.getD 0
  text := []
  depth := 0
  needsComma := false
  overflowed := buffer.getD 0 = 0
  malformed := false

section putting

/-- One byte is held back for the terminator. -/
def put (writer : JsonWriter) (c : UInt8) : JsonWriter :=
  if writer.overflowed = true ∨ writer.length + 1 ≥ writer.size then
    { writer with overflowed := true }
  else { writer with text := writer.text ++ [c] }

def putText (writer : JsonWriter) (text : Bytes) : JsonWriter := text.foldl put writer

/-- "0123456789abcdef" -/
def hexTable : Bytes :=
  [0x30, 0x31, 0x32, 0x33, 0x34, 0x35, 0x36, 0x37, 0x38, 0x39, 0x61, 0x62, 0x63, 0x64, 0x65, 0x66]

/-- What `put_escaped` writes for one character. -/
def escapeText (c : UInt8) : Bytes :=
  if c = 0x22 then [0x5C, 0x22]
  else if c = 0x5C then [0x5C, 0x5C]
  else if c = 0x08 then [0x5C, 0x62]
  else if c = 0x0C then [0x5C, 0x66]
  else if c = 0x0A then [0x5C, 0x6E]
  else if c = 0x0D then [0x5C, 0x72]
  else if c = 0x09 then [0x5C, 0x74]
  else if c < 0x20 then
    [0x5C, 0x75, 0x30, 0x30, hexTable.getD (c.toNat / 16 % 16) 0, hexTable.getD (c.toNat % 16) 0]
  else [c]

def putEscaped (writer : JsonWriter) (text : CString) : JsonWriter :=
  text.bytes.foldl (fun writer c => putText writer (escapeText c)) writer

def putSeparator (writer : JsonWriter) (key : Option CString) : JsonWriter :=
  let writer := if writer.needsComma then put writer 0x2C else writer
  let writer :=
    match key with
    | none => writer
    | some key => putText (putEscaped (put writer 0x22) key) [0x22, 0x3A]
  { writer with needsComma := true }

end putting

section containers

def openContainer (writer : JsonWriter) (key : Option CString) (brace : UInt8) : JsonWriter :=
  if writer.depth ≥ JSON_MAX_DEPTH then { writer with malformed := true }
  else
    let writer := put (putSeparator writer key) brace
    { writer with depth := writer.depth + 1, needsComma := false }

def closeContainer (writer : JsonWriter) (brace : UInt8) : JsonWriter :=
  if writer.depth = 0 then { writer with malformed := true }
  else
    let writer := put writer brace
    { writer with depth := writer.depth - 1, needsComma := true }

def jsonWriterObjectOpen (writer : JsonWriter) (key : Option CString) : JsonWriter :=
  openContainer writer key 0x7B

def jsonWriterObjectClose (writer : JsonWriter) : JsonWriter := closeContainer writer 0x7D

def jsonWriterArrayOpen (writer : JsonWriter) (key : Option CString) : JsonWriter :=
  openContainer writer key 0x5B

def jsonWriterArrayClose (writer : JsonWriter) : JsonWriter := closeContainer writer 0x5D

end containers

section values

/-- The `do` loop of `json_writer_int`, the least digit first; `room` is what is left of
`digits`. -/
def digitLoop : ℕ → ℕ → Bytes
  | 0, _ => []
  | room + 1, magnitude =>
      UInt8.ofNat (0x30 + magnitude % 10) ::
        if magnitude / 10 = 0 then [] else digitLoop room (magnitude / 10)

def jsonWriterInt (writer : JsonWriter) (key : Option CString) (value : Int32) : JsonWriter :=
  let writer := putSeparator writer key
  let writer := if value.toInt < 0 then put writer 0x2D else writer
  putText writer (digitLoop 12 value.toInt.natAbs).reverse

def jsonWriterBool (writer : JsonWriter) (key : Option CString) (value : Bool) : JsonWriter :=
  putText (putSeparator writer key)
    (if value then [0x74, 0x72, 0x75, 0x65] else [0x66, 0x61, 0x6C, 0x73, 0x65])

def jsonWriterNull (writer : JsonWriter) (key : Option CString) : JsonWriter :=
  putText (putSeparator writer key) [0x6E, 0x75, 0x6C, 0x6C]

def jsonWriterString (writer : JsonWriter) (key value : Option CString) : JsonWriter :=
  let writer := putSeparator writer key
  match value with
  | none => putText writer [0x6E, 0x75, 0x6C, 0x6C]
  | some value => put (putEscaped (put writer 0x22) value) 0x22

def jsonWriterRaw (writer : JsonWriter) (key json : Option CString) : JsonWriter :=
  putText (putSeparator writer key) (json.elim [0x6E, 0x75, 0x6C, 0x6C] CString.bytes)

/-- `json_writer_finish`, with what stands before the terminator it writes. -/
def jsonWriterFinish (writer : JsonWriter) : Bool × Bytes :=
  (!writer.overflowed && !writer.malformed && writer.depth = 0,
    writer.text.take (writer.size - 1))

end values

end Pico
