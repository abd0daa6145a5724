import PicoFramework.Spec.ServoBus

/-! The calls that `ax12.c` and `feetech.c` have alike, over their registers and bounds. -/

namespace Pico

variable {ε : Type} (L : Line ε)

/-- A register written, without its error byte. -/
def writeServoRegister (id reg : UInt8) (value : UInt32) (width : UInt8) : BusM ε ServoBusResult :=
  return (← servoBusWriteValue L id reg value width none).result

/-- A register written, unless the value is above what the call takes. -/
def writeUpTo (limit : ℕ) (id reg : UInt8) (value : UInt16) (width : UInt8) :
    BusM ε ServoBusResult := do
  if value.toNat > limit then
    return .errInvalidArg
  writeServoRegister L id reg value.toUInt32 width

/-- A register read into a result of its own type. -/
def readInto {α : Type} (id reg width : UInt8) (convert : UInt32 → α) (out : Option α) :
    BusM ε (ServoBusResult × Option α) := do
  if out.isNone then
    return (.errInvalidArg, out)
  let (result, value, _) ← servoBusReadValue L id reg width (some 0) none
  return (result, if result = .ok then some (convert (value.getD 0)) else out)

/-- A scan, of which `count` IDs fit the table: what stays in it is followed by what it held. -/
def scanFrom (capacity : ℕ) : (ids : List ℕ) → (found : Bytes) → BusM ε Bytes
  | [], found => return found
  | id :: ids, found => do
      if found.length < capacity then
        let reply ← servoBusPing L (UInt8.ofNat id) none
        if reply.result = .ok then
          scanFrom capacity ids (found ++ [UInt8.ofNat id])
        else
          scanFrom capacity ids found
      else
        return found

/-- A sync-write of two bytes, unless a target is not one that the servos have. -/
def syncWriteChecked (reg : UInt8) (positionMax idMax : ℕ)
    (targets : Option (List ServoSyncTarget)) (count : UInt8) : BusM ε ServoBusResult := do
  if targets.isNone || count = 0 then
    return .errInvalidArg
  if ((targets.getD []).take count.toNat).any fun target =>
      target.value.toNat > positionMax || target.id.toNat > idMax then
    return .errInvalidArg
  servoBusSyncWrite L reg 2 targets count

/-- The polls of a factory reset, at most `left` of them: each sleeps 50 ms of the timeout. -/
def pollReset (id : UInt8) : (left : ℕ) → BusM ε Bool
  | 0 => return false
  | left + 1 => do
      modify fun w => { w with line := L.sleepMs 50 w.line }
      if (← servoBusPing L id none).result = .ok then
        return true
      if L.timeReached (← get).line then
        return false
      pollReset id left

end Pico
