import PicoFramework.Spec.Basic

/-! The reader of `json.c`. A cursor is the bytes from it to the end of the document, so
NULL is `none` and a cursor at or past the end is `[]`. `room` is JSON_MAX_DEPTH less the
depth, the containers that may still open. -/

namespace Pico

def JSON_MAX_DEPTH : ℕ := 16

inductive JsonType where
  | invalid
  | null
  | bool
  | number
  | string
  | object
  | array
deriving DecidableEq, Repr

/-- `json_value_t`; `start` is the document from the value on. -/
@[ext] structure JsonValue where
  type : JsonType
  start : Bytes
  length : ℕ
deriving DecidableEq

/-- The bytes of a located value. -/
def JsonValue.text (value : JsonValue) : Bytes := value.start.take value.length

section scanning

def isJsonSpace (c : UInt8) : Bool := c = 0x20 || c = 0x09 || c = 0x0A || c = 0x0D

def skipWhitespace (p : Bytes) : Bytes := p.dropWhile isJsonSpace

/-- The loop of `skip_string`: past the quote that no backslash precedes. -/
def skipStringBody : Bytes → Option Bytes
  | [] => none
  | [c] => if c = 0x5C then none else if c = 0x22 then some [] else none
  | c :: next :: rest =>
      if c = 0x5C then skipStringBody rest
      else if c = 0x22 then some (next :: rest)
      else skipStringBody (next :: rest)

def skipString (p : Bytes) : Option Bytes :=
  match p with
  | [] => none
  | c :: rest => if c ≠ 0x22 then none else skipStringBody rest

def isJsonDigit (c : UInt8) : Bool := 0x30 ≤ c && c ≤ 0x39

def skipSign (p : Bytes) : Bytes :=
  match p with
  | [] => []
  | c :: rest => if c = 0x2D ∨ c = 0x2B then rest else c :: rest

def skipDigits (p : Bytes) : Bytes := p.dropWhile isJsonDigit

def skipFraction (p : Bytes) : Bytes :=
  match p with
  | [] => []
  | c :: rest => if c = 0x2E then skipDigits rest else c :: rest

def skipExponent (p : Bytes) : Bytes :=
  match p with
  | [] => []
  | c :: rest => if c = 0x65 ∨ c = 0x45 then skipDigits (skipSign rest) else c :: rest

/-- `skip_number`: whatever was passed over has to end in a digit. -/
def skipNumber (start : Bytes) : Option Bytes :=
  let p := skipExponent (skipFraction (skipDigits (skipSign start)))
  if ((start.take (start.length - p.length)).getLast?.any isJsonDigit) then some p else none

def skipLiteral (p word : Bytes) : Option Bytes :=
  if word.isPrefixOf p then some (p.drop word.length) else none

/-- What `skip_container` does before each value: in an object, a name and its colon. -/
def skipName (p : Bytes) : Option Bytes := do
  let p ← skipString (skipWhitespace p)
  match skipWhitespace p with
  | [] => none
  | c :: rest => if c ≠ 0x3A then none else some rest

/-- The loop of `skip_container`, in which every turn passes at least one byte. -/
def skipItems (skipValue : Bytes → Option Bytes) (opening closing : UInt8) :
    ℕ → Bytes → Option Bytes
  | 0, _ => none
  | fuel + 1, p => do
      let p ← if opening = 0x7B then skipName p else some p
      let p ← skipValue (skipWhitespace p)
      match skipWhitespace p with
      | [] => none
      | c :: rest =>
          if c = closing then some rest
          else if c ≠ 0x2C then none
          else skipItems skipValue opening closing fuel (skipWhitespace rest)

/-- `skip_container`, past the opening bracket, with room for the container. -/
def skipContainer (skipValue : Bytes → Option Bytes) (opening : UInt8) (rest : Bytes) :
    Option Bytes :=
  let closing : UInt8 := if opening = 0x7B then 0x7D else 0x5D
  let p := skipWhitespace rest
  if p.head? = some closing then some (p.drop 1)
  else skipItems skipValue opening closing rest.length p

/-- The `switch` of `skip_value`. -/
def skipValueWith (container : UInt8 → Bytes → Option Bytes) (p : Bytes) : Option Bytes :=
  match p with
  | [] => none
  | c :: rest =>
      if c = 0x22 then skipString p
      else if c = 0x7B ∨ c = 0x5B then container c rest
      else if c = 0x74 then skipLiteral p [0x74, 0x72, 0x75, 0x65]
      else if c = 0x66 then skipLiteral p [0x66, 0x61, 0x6C, 0x73, 0x65]
      else if c = 0x6E then skipLiteral p [0x6E, 0x75, 0x6C, 0x6C]
      else skipNumber p

/-- `skip_value` at depth JSON_MAX_DEPTH - room. -/
def skipValue : ℕ → Bytes → Option Bytes
  | 0 => skipValueWith fun _ _ => none
  | room + 1 => skipValueWith fun opening rest => skipContainer (skipValue room) opening rest

def typeOf (c : UInt8) : JsonType :=
  if c = 0x22 then .string
  else if c = 0x7B then .object
  else if c = 0x5B then .array
  else if c = 0x74 ∨ c = 0x66 then .bool
  else if c = 0x6E then .null
  else .number

/-- What the readers fill in for a value between two cursors. -/
def located (value valueEnd : Bytes) : JsonValue where
  type := typeOf (value.headD 0)
  start := value
  length := value.length - valueEnd.length

end scanning

section unescaping

def hexDigit (c : UInt8) : Option ℕ :=
  if 0x30 ≤ c ∧ c ≤ 0x39 then some (c - 0x30).toNat
  else if 0x61 ≤ c ∧ c ≤ 0x66 then some ((c - 0x61).toNat + 10)
  else if 0x41 ≤ c ∧ c ≤ 0x46 then some ((c - 0x41).toNat + 10)
  else none

/-- The escapes of one letter. -/
def simpleEscape (c : UInt8) : Option UInt8 :=
  if c = 0x22 then some 0x22
  else if c = 0x5C then some 0x5C
  else if c = 0x2F then some 0x2F
  else if c = 0x62 then some 0x08
  else if c = 0x66 then some 0x0C
  else if c = 0x6E then some 0x0A
  else if c = 0x72 then some 0x0D
  else if c = 0x74 then some 0x09
  else none

/-- `\uXXXX`, for ASCII alone. -/
def unicodeEscape (a b c d : UInt8) : Option UInt8 := do
  let a ← hexDigit a
  let b ← hexDigit b
  let c ← hexDigit c
  let d ← hexDigit d
  let value := ((a * 16 + b) * 16 + c) * 16 + d
  if value > 0x7F then none else some (UInt8.ofNat value)

/-- One turn of `unescape`: a character, and what follows it. -/
def unescapeChar (p : Bytes) : Option (UInt8 × Bytes) :=
  match p with
  | [] => none
  | c :: rest =>
      if c ≠ 0x5C then some (c, rest)
      else
        match rest with
        | [] => none
        | e :: rest =>
            if e = 0x75 then
              match rest with
              | a :: b :: c :: d :: rest => (unicodeEscape a b c d).map (·, rest)
              | _ => none
            else (simpleEscape e).map (·, rest)

/-- `unescape` with room for `capacity` bytes. Every failure is the same to its callers, so the
room is tested first. -/
def unescape : Bytes → ℕ → Option Bytes
  | [], _ => some []
  | _ :: _, 0 => none
  | c :: p, capacity + 1 => do
      let (decoded, rest) ← unescapeChar (c :: p)
      (unescape rest capacity).map (decoded :: ·)

def escapeWidth (p : Bytes) : ℕ :=
  match p with
  | [] => 1
  | c :: rest =>
      if c ≠ 0x5C then 1
      else
        match rest with
        | [] => 1
        | e :: _ => if e = 0x75 then 6 else 2

/-- `escaped_equals`: one character of the body at a time against one of `expected`. -/
def escapedEquals : Bytes → Bytes → Bool
  | body, [] => body.isEmpty
  | body, e :: expected =>
      if body.isEmpty then false
      else
        let width := escapeWidth body
        if width > body.length then false
        else
          match unescape (body.take width) 1 with
          | some [decoded] =>
              if e ≠ decoded then false else escapedEquals (body.drop width) expected
          | _ => false

end unescaping

section reading

/-- How the search of `json_find_n` ends; the last two are both `false` to its caller. -/
inductive Search where
  | found (value : JsonValue)
  | absent
  | malformed
deriving DecidableEq

/-- The search of `json_find_n`, one member a turn. -/
def searchMembers (key : Bytes) : ℕ → Bytes → Search
  | 0, _ => .malformed
  | fuel + 1, p =>
      let name := skipWhitespace p
      match skipString name with
      | none => .malformed
      | some nameEnd =>
          match skipWhitespace nameEnd with
          | [] => .malformed
          | colon :: rest =>
              if colon ≠ 0x3A then .malformed
              else
                let value := skipWhitespace rest
                match skipValue (JSON_MAX_DEPTH - 1) value with
                | none => .malformed
                | some valueEnd =>
                    let nameLength := name.length - nameEnd.length - 2
                    if escapedEquals ((name.drop 1).take nameLength) key then
                      .found (located value valueEnd)
                    else
                      match skipWhitespace valueEnd with
                      | [] => .malformed
                      | c :: rest =>
                          if c = 0x7D then .absent
                          else if c ≠ 0x2C then .malformed
                          else searchMembers key fuel rest

/-- The search of `json_find_n` over an object, past its opening brace. -/
def searchObject (key : Bytes) (inside : Bytes) : Search :=
  let p := skipWhitespace inside
  if p.head? = some 0x7D then .absent else searchMembers key inside.length p

/-- `json_find_n`; `none` is `false`, with `out` left invalid. -/
def jsonFindN (json : Bytes) (key : CString) : Option JsonValue :=
  match skipWhitespace json with
  | [] => none
  | c :: inside =>
      if c ≠ 0x7B then none
      else
        match skipContainer (skipValue (JSON_MAX_DEPTH - 1)) c inside with
        | none => none
        | some _ =>
            match searchObject key.bytes inside with
            | .found value => some value
            | _ => none

def jsonFind (json key : CString) : Option JsonValue := jsonFindN json.bytes key

def jsonFindIn (object : JsonValue) (key : CString) : Option JsonValue :=
  if object.type ≠ .object then none else jsonFindN object.text key

def jsonValidN (json : Bytes) : Bool :=
  match skipValue JSON_MAX_DEPTH (skipWhitespace json) with
  | none => false
  | some p => (skipWhitespace p).isEmpty

def jsonValid (json : CString) : Bool := jsonValidN json.bytes

/-- The loop of `json_get_int`: a magnitude that no `int32_t` has ends it. -/
def readMagnitude : ℕ → Bytes → Option (ℕ × Bytes)
  | magnitude, [] => some (magnitude, [])
  | magnitude, c :: rest =>
      if isJsonDigit c then
        let magnitude := magnitude * 10 + (c - 0x30).toNat
        if magnitude > 2147483648 then none else readMagnitude magnitude rest
      else some (magnitude, c :: rest)

def jsonGetInt (value : JsonValue) : Option Int32 :=
  if value.type ≠ .number ∨ value.length = 0 then none
  else do
    let negative := value.text.head? = some 0x2D
    let p := skipSign value.text
    let (magnitude, rest) ← readMagnitude 0 p
    if rest.length = p.length then none
    -- a fraction is cut off, an exponent is refused
    else if rest ≠ [] ∧ rest.head? ≠ some 0x2E then none
    else if negative then some (Int32.ofInt (-magnitude))
    else if magnitude > 2147483647 then none
    else some (Int32.ofInt magnitude)

def jsonGetBool (value : JsonValue) : Option Bool :=
  if value.type ≠ .bool then none else some (value.start.head? = some 0x74)

/-- The characters of a string between its quotes. -/
def JsonValue.body (value : JsonValue) : Bytes := (value.start.drop 1).take (value.length - 2)

/-- `json_get_string`: the string that `out` is left with. -/
def jsonGetString (value : JsonValue) (size : ℕ) : Option Bytes :=
  if size = 0 ∨ value.type ≠ .string ∨ value.length < 2 then none
  else unescape value.body (size - 1)

def jsonStringEquals (value : JsonValue) (expected : CString) : Bool :=
  if value.type ≠ .string ∨ value.length < 2 then false
  else escapedEquals value.body expected.bytes

/-- The loop of `json_array_length`. -/
def countElements : ℕ → Bytes → ℕ
  | 0, _ => 0
  | fuel + 1, p =>
      match skipValue (JSON_MAX_DEPTH - 1) p with
      | none => 0
      | some valueEnd =>
          match skipWhitespace valueEnd with
          | [] => 1
          | c :: rest => if c ≠ 0x2C then 1 else 1 + countElements fuel (skipWhitespace rest)

def jsonArrayLength (array : JsonValue) : ℕ :=
  if array.type ≠ .array then 0
  else
    let p := skipWhitespace (array.text.drop 1)
    if p.head? = some 0x5D then 0 else countElements p.length p

/-- The loop of `json_array_at`, `index` elements before the one that is wanted. -/
def elementAt : ℕ → Bytes → Option JsonValue
  | index, p =>
      match skipValue (JSON_MAX_DEPTH - 1) p with
      | none => none
      | some valueEnd =>
          match index with
          | 0 => some (located p valueEnd)
          | index + 1 =>
              match skipWhitespace valueEnd with
              | [] => none
              | c :: rest => if c ≠ 0x2C then none else elementAt index (skipWhitespace rest)

def jsonArrayAt (array : JsonValue) (index : ℕ) : Option JsonValue :=
  if array.type ≠ .array then none
  else
    let p := skipWhitespace (array.text.drop 1)
    if p.head? = some 0x5D then none else elementAt index p

/-- The loop of `json_array_ints`, `turns` from its end, over the cells of `out`. -/
def fillInts (array : JsonValue) : ℕ → ℕ → List Int32 → ℕ × List Int32
  | 0, i, out => (i, out)
  | turns + 1, i, out =>
      match jsonArrayAt array i with
      | none => (i, out)
      | some element =>
          match jsonGetInt element with
          | none => (i, out)
          | some value => fillInts array turns (i + 1) (out.set i value)

/-- `json_array_ints` with what it leaves in the memory at `out`. -/
def jsonArrayIntsInto (array : JsonValue) (out : List Int32) (count : ℕ) : ℕ × List Int32 :=
  fillInts array count 0 out

end reading

end Pico
