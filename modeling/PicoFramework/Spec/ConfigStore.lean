import PicoFramework.Lib.Splice
import PicoFramework.Spec.Basic

/-! `config_store.c`: a run of `[key length][value length][key][value]` records in
one caller-owned buffer, and every operation on it. -/

namespace Pico

open Lib.Splice

def CONFIG_MAX_KEY_LENGTH : ℕ := 31
def CONFIG_MAX_VALUE_LENGTH : ℕ := 255

def configRecordSize (keyLen valueLen : ℕ) : ℕ := keyLen + valueLen + 2

def KEY_LENGTH_AT : ℕ := 0
def VALUE_LENGTH_AT : ℕ := 1
def KEY_AT : ℕ := 2

inductive ConfigResult where
  | ok
  | errInvalidArg
  | errKeyTooLong
  | errValueTooLong
  | errFull
  | errNotFound
  | errTooSmall
  | errCorrupt
deriving DecidableEq, Repr

structure ConfigStore where
  buffer : Bytes
  capacity : ℕ
  used : ℕ
  initialised : Bool
deriving DecidableEq

/-- What `value` and its `uint8_t` length point at: at most 255 readable bytes. -/
structure ConfigValue where
  bytes : Bytes
  length_le : bytes.length ≤ CONFIG_MAX_VALUE_LENGTH
deriving DecidableEq

/-- The byte of the buffer at `pos`. -/
def ConfigStore.byteAt (store : ConfigStore) (pos : ℕ) : ℕ := (store.buffer.getD pos 0).toNat

def configStoreFree (store : ConfigStore) : ℕ := store.capacity - store.used

def configStoreUsed (store : ConfigStore) : ℕ := store.used

/-- A usable key as its characters, or the way in which it is unusable. -/
def checkKey : Option CString → Except ConfigResult Bytes
  | none => .error .errInvalidArg
  | some key =>
      if key.bytes = [] then .error .errInvalidArg
      else if key.length > CONFIG_MAX_KEY_LENGTH then .error .errKeyTooLong
      else .ok key.bytes

/-- The `while` loop of `find_record`, entered at offset `pos`. Every record is at
least two bytes long, so `used` rounds are enough. -/
def findRecordFrom (store : ConfigStore) (key : Bytes) : ℕ → ℕ → Option ℕ
  | 0, _ => none
  | fuel + 1, pos =>
      if pos < store.used then
        let recordKey := store.byteAt (pos + KEY_LENGTH_AT)
        let recordValue := store.byteAt (pos + VALUE_LENGTH_AT)
        if recordKey = key.length ∧ span store.buffer (pos + KEY_AT) key.length = key then
          some pos
        else findRecordFrom store key fuel (pos + configRecordSize recordKey recordValue)
      else none

/-- The offset of the record for `key`, `none` when it is absent. -/
def findRecord (store : ConfigStore) (key : Bytes) : Option ℕ :=
  findRecordFrom store key store.used 0

/-- `config_store_init`; `none` means that the store was left alone. -/
def configStoreInit (buffer : Option Bytes) (capacity : ℕ) : ConfigResult × Option ConfigStore :=
  match buffer with
  | none => (.errInvalidArg, none)
  | some buffer =>
      if capacity = 0 then (.errInvalidArg, none)
      else (.ok, some { buffer, capacity, used := 0, initialised := true })

/-- The walk of `config_store_load` over `buffer[pos..used)`: does it parse exactly? -/
def configWalk (buffer : Bytes) (used : ℕ) : ℕ → ℕ → Bool
  | 0, pos => !decide (pos < used)
  | fuel + 1, pos =>
      if pos < used then
        if used - pos < KEY_AT then false
        else
          let keyLength := (buffer.getD (pos + KEY_LENGTH_AT) 0).toNat
          let valueLength := (buffer.getD (pos + VALUE_LENGTH_AT) 0).toNat
          if keyLength = 0 ∨ keyLength > CONFIG_MAX_KEY_LENGTH then false
          else
            let size := configRecordSize keyLength valueLength
            if size > used - pos then false
            else configWalk buffer used fuel (pos + size)
      else true

/-- `config_store_load`. A store that was started but not filled stays empty. -/
def configStoreLoad (buffer : Option Bytes) (capacity used : ℕ) :
    ConfigResult × Option ConfigStore :=
  match configStoreInit buffer capacity with
  | (.ok, some store) =>
      if used > capacity then (.errCorrupt, some store)
      else if configWalk store.buffer used used 0 then (.ok, some { store with used })
      else (.errCorrupt, some store)
  | started => started

/-- The bytes `config_set` lays down: both lengths, the key, the value. -/
def recordBytes (key value : Bytes) : Bytes :=
  [UInt8.ofNat key.length, UInt8.ofNat value.length] ++ key ++ value

/-- The four stores at the end of `config_set`, in the order of the source. -/
def writeRecord (buffer : Bytes) (offset : ℕ) (key value : Bytes) : Bytes :=
  let buffer := overwrite buffer (offset + KEY_LENGTH_AT) [UInt8.ofNat key.length]
  let buffer := overwrite buffer (offset + VALUE_LENGTH_AT) [UInt8.ofNat value.length]
  let buffer := overwrite buffer (offset + KEY_AT) key
  if value.length > 0 then overwrite buffer (offset + KEY_AT + key.length) value else buffer

/-- `config_set`. `none` for the value is a NULL pointer with a non-zero length. -/
def configSet (store : ConfigStore) (key : Option CString) (value : Option ConfigValue) :
    ConfigResult × ConfigStore :=
  if !store.initialised then (.errInvalidArg, store)
  else
    match checkKey key, value with
    | .error keyResult, _ => (keyResult, store)
    | .ok _, none => (.errInvalidArg, store)
    | .ok key, some value =>
        let wanted := configRecordSize key.length value.bytes.length
        match findRecord store key with
        | some offset =>
            let existing := configRecordSize (store.byteAt (offset + KEY_LENGTH_AT))
              (store.byteAt (offset + VALUE_LENGTH_AT))
            if wanted > existing ∧ wanted - existing > configStoreFree store then (.errFull, store)
            else
              let tailAt := offset + existing
              let tail := store.used - tailAt
              let buffer := move store.buffer (offset + wanted) tailAt tail
              (.ok, { store with
                buffer := writeRecord buffer offset key value.bytes
                used := store.used - existing + wanted })
        | none =>
            if wanted > configStoreFree store then (.errFull, store)
            else
              (.ok, { store with
                buffer := writeRecord store.buffer store.used key value.bytes
                used := store.used + wanted })

/-- What `config_get` hands back: the result, `*length` when it was written, and the
bytes copied to `value` when any were. -/
structure ConfigGot where
  result : ConfigResult
  length : Option ℕ
  copied : Option Bytes
deriving DecidableEq

/-- `config_get` with a `value` of `capacity` bytes. -/
def configGet (store : ConfigStore) (key : Option CString) (capacity : ℕ) : ConfigGot :=
  if !store.initialised then ⟨.errInvalidArg, none, none⟩
  else
    match checkKey key with
    | .error keyResult => ⟨keyResult, none, none⟩
    | .ok key =>
        match findRecord store key with
        | none => ⟨.errNotFound, some 0, none⟩
        | some offset =>
            let valueLength := store.byteAt (offset + VALUE_LENGTH_AT)
            if valueLength > capacity then ⟨.errTooSmall, some valueLength, none⟩
            else ⟨.ok, some valueLength,
              some (span store.buffer (offset + KEY_AT + key.length) valueLength)⟩

def configRemove (store : ConfigStore) (key : Option CString) : ConfigResult × ConfigStore :=
  if !store.initialised then (.errInvalidArg, store)
  else
    match checkKey key with
    | .error keyResult => (keyResult, store)
    | .ok key =>
        match findRecord store key with
        | none => (.errNotFound, store)
        | some offset =>
            let size := configRecordSize (store.byteAt (offset + KEY_LENGTH_AT))
              (store.byteAt (offset + VALUE_LENGTH_AT))
            let tail := store.used - offset - size
            (.ok, { store with
              buffer := move store.buffer offset (offset + size) tail
              used := store.used - size })

/-- `config_has`: a probe with no room, so a value of any length is too small or empty. -/
def configHas (store : ConfigStore) (key : Option CString) : Bool :=
  let result := (configGet store key 0).result
  result = .ok ∨ result = .errTooSmall

def configClear (store : ConfigStore) : ConfigStore :=
  if store.initialised then { store with used := 0 } else store

/-- The four little-endian bytes that `config_set_u32` stores. -/
def u32Value (value : UInt32) : ConfigValue where
  bytes := [value.toUInt8, (value >>> 8).toUInt8, (value >>> 16).toUInt8, (value >>> 24).toUInt8]
  length_le := by simp [CONFIG_MAX_VALUE_LENGTH]

def configSetU32 (store : ConfigStore) (key : Option CString) (value : UInt32) :
    ConfigResult × ConfigStore :=
  configSet store key (some (u32Value value))

/-- `config_get_u32` into a non-NULL `value`: the result and what `*value` then holds. -/
def configGetU32 (store : ConfigStore) (key : Option CString) (fallback : UInt32) :
    ConfigResult × UInt32 :=
  let probe := configGet store key 0
  if probe.result = .errNotFound ∨ probe.result = .errInvalidArg ∨
      probe.result = .errKeyTooLong then (probe.result, fallback)
  else if probe.length ≠ some 4 then (.errCorrupt, fallback)
  else
    let got := configGet store key 4
    if got.result ≠ .ok then (got.result, fallback)
    else
      let bytes := got.copied.getD []
      (.ok, (bytes.getD 0 0).toUInt32 ||| ((bytes.getD 1 0).toUInt32 <<< 8) |||
        ((bytes.getD 2 0).toUInt32 <<< 16) ||| ((bytes.getD 3 0).toUInt32 <<< 24))

def configSetString (store : ConfigStore) (key : Option CString) (value : Option CString) :
    ConfigResult × ConfigStore :=
  match value with
  | none => (.errInvalidArg, store)
  | some value =>
      if h : value.length ≤ CONFIG_MAX_VALUE_LENGTH then
        configSet store key (some ⟨value.bytes, h⟩)
      else (.errValueTooLong, store)

/-- `config_get_string` into a buffer that `value` points at: the result, and what is then there.
`config_get` takes the capacity as a `uint8_t`. -/
def configGetString (store : ConfigStore) (key : Option CString) (value : Option Bytes)
    (capacity : ℕ) (fallback : Option CString) : ConfigResult × Option Bytes :=
  match value with
  | none => (.errInvalidArg, none)
  | some value =>
      if capacity = 0 then (.errInvalidArg, some value)
      else
        let probe := configGet store key 0
        let length := probe.length.getD 0
        if probe.result = .errNotFound ∨ length + 1 > capacity then
          let fallback := (fallback.map CString.bytes).getD []
          let copy := if fallback.length + 1 ≤ capacity then fallback.length else capacity - 1
          let value := if copy > 0 then overwrite value 0 (fallback.take copy) else value
          (if probe.result = .errNotFound then .errNotFound else .errTooSmall,
            some (overwrite value copy [0]))
        else
          let got := configGet store key ((capacity - 1) % 256)
          if got.result ≠ .ok then (got.result, some (overwrite value 0 [0]))
          else
            (.ok, some (overwrite (overwrite value 0 (got.copied.getD [])) (got.length.getD 0) [0]))

/-- The loop of `config_count`. -/
def configCountFrom (store : ConfigStore) : ℕ → ℕ → ℕ
  | 0, _ => 0
  | fuel + 1, pos =>
      if pos < store.used then
        configCountFrom store fuel (pos + configRecordSize
          (store.byteAt (pos + KEY_LENGTH_AT)) (store.byteAt (pos + VALUE_LENGTH_AT))) + 1
      else 0

def configCount (store : ConfigStore) : ℕ :=
  if store.initialised then configCountFrom store store.used 0 else 0

/-- The loop of `config_key_at`, with `index - seen` records still to pass. -/
def configKeyAtFrom (store : ConfigStore) (capacity : ℕ) : ℕ → ℕ → ℕ → Option Bytes
  | 0, _, _ => none
  | fuel + 1, index, pos =>
      if pos < store.used then
        let keyLength := store.byteAt (pos + KEY_LENGTH_AT)
        let valueLength := store.byteAt (pos + VALUE_LENGTH_AT)
        match index with
        | 0 =>
            if keyLength + 1 > capacity then none
            else some (span store.buffer (pos + KEY_AT) keyLength ++ [0])
        | index + 1 =>
            configKeyAtFrom store capacity fuel index
              (pos + configRecordSize keyLength valueLength)
      else none

/-- `config_key_at`: the bytes written to `key`, terminator included, or `none` for false. -/
def configKeyAt (store : ConfigStore) (index capacity : ℕ) : Option Bytes :=
  if !store.initialised ∨ capacity = 0 then none
  else configKeyAtFrom store capacity store.used index 0

/-- One call on a store. -/
inductive ConfigCall where
  | set (key : Option CString) (value : Option ConfigValue)
  | get (key : Option CString) (capacity : ℕ)
  | remove (key : Option CString)
  | clear
  | setU32 (key : Option CString) (value : UInt32)
  | getU32 (key : Option CString) (fallback : UInt32)
  | setString (key : Option CString) (value : Option CString)

/-- What a call hands back. -/
inductive ConfigReply where
  | result (r : ConfigResult)
  | got (g : ConfigGot)
  | word (r : ConfigResult) (value : UInt32)
deriving DecidableEq

/-- The result code in a reply; `config_clear` has none and cannot fail. -/
def ConfigReply.code : ConfigReply → ConfigResult
  | .result r => r
  | .got g => g.result
  | .word r _ => r

def configCall (store : ConfigStore) : ConfigCall → ConfigReply × ConfigStore
  | .set key value => (.result (configSet store key value).1, (configSet store key value).2)
  | .get key capacity => (.got (configGet store key capacity), store)
  | .remove key => (.result (configRemove store key).1, (configRemove store key).2)
  | .clear => (.result .ok, configClear store)
  | .setU32 key value =>
      (.result (configSetU32 store key value).1, (configSetU32 store key value).2)
  | .getU32 key fallback =>
      (.word (configGetU32 store key fallback).1 (configGetU32 store key fallback).2, store)
  | .setString key value =>
      (.result (configSetString store key value).1, (configSetString store key value).2)

end Pico
