import PicoFramework.Spec.Basic

/-! `crc.c`: CRC-32 and CRC-16/CCITT-FALSE, one bit of the register at a time. -/

namespace Pico

def CRC32_INITIAL : UInt32 := 0xFFFFFFFF

def crc32Begin : UInt32 := CRC32_INITIAL

def crc32End (state : UInt32) : UInt32 := state ^^^ 0xFFFFFFFF

/-- One bit in reflected form, so the register shifts right. -/
def crc32Bit (state : UInt32) : UInt32 :=
  if state &&& 1 ≠ 0 then (state >>> 1) ^^^ 0xEDB88320 else state >>> 1

def crc32Byte (state : UInt32) (byte : UInt8) : UInt32 :=
  crc32Bit^[8] (state ^^^ byte.toUInt32)

/-- `crc32_update`; NULL data is the empty list. -/
def crc32Update (state : UInt32) (data : Bytes) : UInt32 := data.foldl crc32Byte state

def crc32 (data : Bytes) : UInt32 := crc32End (crc32Update crc32Begin data)

/-- The check value of the CRC catalogues, over "123456789". -/
example : crc32 [0x31, 0x32, 0x33, 0x34, 0x35, 0x36, 0x37, 0x38, 0x39] = 0xCBF43926 := by
  decide +kernel

def CRC16_CCITT_INITIAL : UInt16 := 0xFFFF

def crc16CcittBegin : UInt16 := CRC16_CCITT_INITIAL

def crc16CcittEnd (state : UInt16) : UInt16 := state

/-- One bit in the form that is not reflected: the register shifts left. -/
def crc16CcittBit (state : UInt16) : UInt16 :=
  if state &&& 0x8000 ≠ 0 then (state <<< 1) ^^^ 0x1021 else state <<< 1

def crc16CcittByte (state : UInt16) (byte : UInt8) : UInt16 :=
  crc16CcittBit^[8] (state ^^^ (byte.toUInt16 <<< 8))

/-- `crc16_ccitt_update`; NULL data is the empty list. -/
def crc16CcittUpdate (state : UInt16) (data : Bytes) : UInt16 := data.foldl crc16CcittByte state

def crc16Ccitt (data : Bytes) : UInt16 := crc16CcittEnd (crc16CcittUpdate crc16CcittBegin data)

example : crc16Ccitt [0x31, 0x32, 0x33, 0x34, 0x35, 0x36, 0x37, 0x38, 0x39] = 0x29B1 := by
  decide +kernel

end Pico
