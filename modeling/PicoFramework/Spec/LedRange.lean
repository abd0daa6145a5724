import PicoFramework.Spec.Basic

/-! `led_range.c`: the part of the strip that is lit. -/

namespace Pico

/-- `led_range_t`; `stop` is `end`. -/
structure LedRange where
  begin : UInt16
  stop : UInt16
  limit : UInt16
  generation : UInt32
deriving DecidableEq

def ledRangeInit (limit : UInt16) : LedRange := ⟨0, limit, limit, 1⟩

def ledRangeRestore (limit first last : UInt16) : LedRange :=
  let range := ledRangeInit limit
  if limit = 0 then range
  else if first ≥ 1 ∧ first ≤ last ∧ last ≤ limit then
    { range with begin := first - 1, stop := last }
  else range

namespace LedRange

def clampEndpoint (range : LedRange) (value : UInt32) : UInt16 :=
  if value < 1 then 1
  else if value > range.limit.toUInt32 then range.limit
  else value.toUInt16

/-- Both endpoints set, and the change counted when there is one. -/
def moved (range : LedRange) (first last : UInt16) : LedRange :=
  if range.begin ≠ first ∨ range.stop ≠ last then
    { range with begin := first, stop := last, generation := range.generation + 1 }
  else range

def set (range : LedRange) (first last : UInt16) : Bool × LedRange :=
  if range.limit = 0 ∨ first < 1 ∨ first > last ∨ last > range.limit then (false, range)
  else (true, range.moved (first - 1) last)

def setFirst (range : LedRange) (first : UInt32) : LedRange :=
  if range.limit = 0 then range
  else
    let endpoint := range.clampEndpoint first
    let start := endpoint - 1
    range.moved start (if start ≥ range.stop then endpoint else range.stop)

def setLast (range : LedRange) (last : UInt32) : LedRange :=
  if range.limit = 0 then range
  else
    let endpoint := range.clampEndpoint last
    range.moved (if endpoint ≤ range.begin then endpoint - 1 else range.begin) endpoint

def first (range : LedRange) : UInt16 := if range.limit ≠ 0 then range.begin + 1 else 0

def last (range : LedRange) : UInt16 := range.stop

def length (range : LedRange) : UInt16 :=
  if range.stop ≥ range.begin then range.stop - range.begin else 0

end LedRange

end Pico
