import PicoFramework.Lib.Mirror
import PicoFramework.Proofs.ServoRetries
import PicoFramework.Spec.Ax12
import PicoFramework.Spec.Feetech

/-! An observer of the line: it notes what comes in behind each packet, and changes nothing. -/

namespace Pico

open Lib.Mirror

variable {ε : Type}

section observer

/-- A packet that went out at a rate, and the bytes that came in behind it. -/
structure Exchange where
  baudrate : UInt32
  packet : Bytes
  arrived : Bytes
deriving DecidableEq

/-- A line, with the last packet on it and the exchanges so far. -/
structure Observed (ε : Type) where
  line : ε
  baudrate : UInt32
  packet : Bytes
  exchanges : List Exchange

def Line.observed (L : Line ε) : Line (Observed ε) where
  clockHz := L.clockHz
  transmit baudrate packet o :=
    let (echoed, line) := L.transmit baudrate packet o.line
    (echoed, { o with line := line, baudrate := baudrate, packet := packet })
  receive timeoutUs o :=
    let (arrived, line) := L.receive timeoutUs o.line
    (arrived, { o with
      line := line
      exchanges := o.exchanges ++ [⟨o.baudrate, o.packet, arrived⟩] })
  flush o := { o with line := L.flush o.line }
  sleepMs ms o := { o with line := L.sleepMs ms o.line }
  timeReached o := L.timeReached o.line

/-- What there is without the observer. -/
def ServoWorld.unobserved (w : ServoWorld (Observed ε)) : ServoWorld ε :=
  ⟨w.bus, w.sent, w.line.line⟩

/-- An observer that has seen nothing yet. -/
def ServoWorld.observed (w : ServoWorld ε) : ServoWorld (Observed ε) :=
  ⟨w.bus, w.sent, ⟨w.line, 0, [], []⟩⟩

end observer

section mirrors

variable (L : Line ε)

theorem halfDuplexUartWrite_reflects (data : Bytes) :
    Reflects ServoWorld.unobserved (halfDuplexUartWrite L.observed data)
      (halfDuplexUartWrite L data) := by
  unfold halfDuplexUartWrite
  refine .get_bind fun w => .ite (.pure _) (.ite (.pure _) ?_)
  exact .bind (.set _) fun _ => .ite (.pure _) (.pure _)

theorem halfDuplexUartReadExact_reflects (len : ℕ) (timeoutUs : UInt32) :
    Reflects ServoWorld.unobserved (halfDuplexUartReadExact L.observed len timeoutUs)
      (halfDuplexUartReadExact L len timeoutUs) := by
  unfold halfDuplexUartReadExact
  refine .get_bind fun w => .ite (.pure _) (.ite (.pure _) ?_)
  exact .bind (.set _) fun _ => .ite (.pure _) (.pure _)

theorem halfDuplexUartFlushRx_reflects :
    Reflects ServoWorld.unobserved (halfDuplexUartFlushRx L.observed) (halfDuplexUartFlushRx L) := by
  unfold halfDuplexUartFlushRx
  exact .get_bind fun w => .ite (.set _) (.pure _)

theorem updateServoStats_reflects (update : ServoBusStats → ServoBusStats) :
    Reflects (ServoWorld.unobserved : ServoWorld (Observed ε) → _) (updateServoStats update)
      (updateServoStats update) :=
  .modify fun _ => rfl

theorem attempt_reflects (request : Bytes) (id : UInt8) (params : Option Bytes) (paramCount : UInt8)
    (errorOut : Option UInt8) :
    Reflects ServoWorld.unobserved (attempt L.observed request id params paramCount errorOut)
      (attempt L request id params paramCount errorOut) := by
  unfold attempt
  refine .bind (halfDuplexUartWrite_reflects L request) fun sent => ?_
  refine .ite (.pure _) (.ite (.pure _) (.ite (.pure _) ?_))
  refine .get_bind fun w => .bind (halfDuplexUartReadExact_reflects L _ _) fun read => ?_
  exact .ite (.pure _) (.pure _)

theorem transactFrom_reflects (request : Bytes) (id paramCount : UInt8) (attempts left : ℕ)
    (last : ServoReply) :
    Reflects ServoWorld.unobserved
      (transactFrom L.observed request id paramCount attempts left last)
      (transactFrom L request id paramCount attempts left last) := by
  induction left generalizing attempts last with
  | zero => exact .pure _
  | succ left ih =>
    refine .bind (updateServoStats_reflects _) fun _ => ?_
    refine .bind (attempt_reflects L request id _ paramCount _) fun reply => .ite (.pure _) ?_
    refine .bind (updateServoStats_reflects _) fun _ => .ite (.pure _) ?_
    exact .bind (halfDuplexUartFlushRx_reflects L) fun _ => ih (attempts + 1) reply

theorem transact_reflects (request : Bytes) (id : UInt8) (params : Option Bytes)
    (paramCount : UInt8) (errorOut : Option UInt8) :
    Reflects ServoWorld.unobserved (transact L.observed request id params paramCount errorOut)
      (transact L request id params paramCount errorOut) :=
  .get_bind fun _ => transactFrom_reflects L request id paramCount 0 _ _

theorem servoBusPing_reflects (id : UInt8) (errorOut : Option UInt8) :
    Reflects ServoWorld.unobserved (servoBusPing L.observed id errorOut)
      (servoBusPing L id errorOut) := by
  unfold servoBusPing
  refine .get_bind fun w => .ite (.pure _) ?_
  split
  · exact .pure _
  · exact transact_reflects L _ id none 0 errorOut

theorem servoBusWrite_reflects (id reg : UInt8) (data : Option Bytes) (count : UInt8)
    (errorOut : Option UInt8) :
    Reflects ServoWorld.unobserved (servoBusWrite L.observed id reg data count errorOut)
      (servoBusWrite L id reg data count errorOut) := by
  unfold servoBusWrite
  refine .get_bind fun w => .ite (.pure _) ?_
  split
  · exact .pure _
  · exact transact_reflects L _ id none 0 errorOut

theorem writeServoRegister_reflects (id reg : UInt8) (value : UInt32) (width : UInt8) :
    Reflects ServoWorld.unobserved (writeServoRegister L.observed id reg value width)
      (writeServoRegister L id reg value width) := by
  refine .bind ?_ fun reply => .pure _
  unfold servoBusWriteValue
  exact .get_bind fun w => .ite (.pure _) (servoBusWrite_reflects L id reg _ width none)

theorem withoutRetries_reflects {α : Type} {p : BusM (Observed ε) α} {q : BusM ε α}
    (h : Reflects ServoWorld.unobserved p q) :
    Reflects ServoWorld.unobserved (withoutRetries p) (withoutRetries q) := by
  unfold withoutRetries
  refine .get_bind fun w => .bind (.modify fun _ => rfl) fun _ => .bind h fun result => ?_
  exact .bind (.modify fun _ => rfl) fun _ => .pure _

theorem servoBusFactoryReset_reflects (id : UInt8) (errorOut : Option UInt8) :
    Reflects ServoWorld.unobserved (servoBusFactoryReset L.observed id errorOut)
      (servoBusFactoryReset L id errorOut) := by
  unfold servoBusFactoryReset
  refine .get_bind fun w => .ite (.pure _) ?_
  split
  · exact .pure _
  · exact withoutRetries_reflects (transact_reflects L _ id none 0 _)

theorem servoBusGetBaudrate_reflects :
    Reflects (ServoWorld.unobserved : ServoWorld (Observed ε) → _) servoBusGetBaudrate
      servoBusGetBaudrate :=
  .get_bind fun _ => .pure _

theorem servoBusSetBaudrate_reflects (baudrate : UInt32) :
    Reflects ServoWorld.unobserved (servoBusSetBaudrate L.observed baudrate)
      (servoBusSetBaudrate L baudrate) := by
  have huart : Reflects ServoWorld.unobserved (halfDuplexUartSetBaudrate L.observed baudrate)
      (halfDuplexUartSetBaudrate L baudrate) := by
    refine .get_bind fun w => .ite (.pure _) ?_
    rw [show L.observed.timing baudrate = L.timing baudrate from rfl]
    cases L.timing baudrate with
    | none => exact .pure _
    | some timing => exact .bind (.set _) fun _ => .pure _
  refine .get_bind fun w => .ite (.pure _) ?_
  exact .bind huart fun result => .ite (.pure _) (.pure _)

theorem pollReset_reflects (id : UInt8) (left : ℕ) :
    Reflects ServoWorld.unobserved (pollReset L.observed id left) (pollReset L id left) := by
  induction left with
  | zero => exact .pure _
  | succ left ih =>
    refine .bind (.modify fun _ => rfl) fun _ => .bind (servoBusPing_reflects L id none) fun reply => ?_
    exact .ite (.pure _) (.get_bind fun w => .ite (.pure _) ih)

theorem orElse_reflects {p : BusM (Observed ε) ServoBusResult} {q : BusM ε ServoBusResult}
    {c : ServoBusResult → Prop} [DecidablePred c] {p' : BusM (Observed ε) ServoBusResult}
    {q' : BusM ε ServoBusResult} (h : Reflects ServoWorld.unobserved p q)
    (h' : Reflects ServoWorld.unobserved p' q') :
    Reflects ServoWorld.unobserved (p >>= fun result => if c result then pure result else p')
      (q >>= fun result => if c result then pure result else q') :=
  .bind h fun _ => .ite (.pure _) h'

theorem ax12SetBaudrate_reflects (id : UInt8) (rate : UInt32) :
    Reflects ServoWorld.unobserved (ax12SetBaudrate L.observed id rate)
      (ax12SetBaudrate L id rate) := by
  unfold ax12SetBaudrate
  cases ax12RateToBaudValue rate with
  | none => exact .pure _
  | some value =>
    have hset := servoBusSetBaudrate_reflects L
    refine .bind servoBusGetBaudrate_reflects fun previous => ?_
    refine orElse_reflects (hset _) (orElse_reflects (hset _) ?_)
    refine orElse_reflects (withoutRetries_reflects (writeServoRegister_reflects L id _ _ 1)) ?_
    refine orElse_reflects (hset _) (.ite (.pure _) ?_)
    refine .bind (servoBusPing_reflects L id none) fun reply => ?_
    exact .ite (.bind (hset previous) fun _ => .pure _) (.pure _)

theorem ax12FactoryReset_reflects (id : UInt8) :
    Reflects ServoWorld.unobserved (ax12FactoryReset L.observed id) (ax12FactoryReset L id) := by
  have hset := servoBusSetBaudrate_reflects L
  refine .ite (.pure _) (.bind servoBusGetBaudrate_reflects fun previous => ?_)
  refine orElse_reflects (hset _) (orElse_reflects (hset _) ?_)
  refine .bind (servoBusFactoryReset_reflects L id none) fun reply => .ite (.pure _) ?_
  refine orElse_reflects (hset _) (.bind (pollReset_reflects L _ _) fun answered => ?_)
  exact .ite (.pure _) (.bind (hset previous) fun _ => .pure _)

theorem feetechSetBaudrate_reflects (id : UInt8) (rate : UInt32) :
    Reflects ServoWorld.unobserved (feetechSetBaudrate L.observed id rate)
      (feetechSetBaudrate L id rate) := by
  unfold feetechSetBaudrate
  cases feetechRateToBaudIndex rate with
  | none => exact .pure _
  | some index =>
    have hset := servoBusSetBaudrate_reflects L
    have hlock : Reflects ServoWorld.unobserved (feetechLockEeprom L.observed id)
        (feetechLockEeprom L id) := writeServoRegister_reflects L id _ _ 1
    refine .bind servoBusGetBaudrate_reflects fun previous => ?_
    refine orElse_reflects (hset _) (orElse_reflects (hset _) ?_)
    refine orElse_reflects (writeServoRegister_reflects L id _ _ 1) ?_
    refine .bind (withoutRetries_reflects (writeServoRegister_reflects L id _ _ 1)) fun written => ?_
    refine .ite (.bind hlock fun _ => .pure _) (orElse_reflects (hset _) (.ite (.pure _) ?_))
    refine .bind (servoBusPing_reflects L id none) fun reply => ?_
    exact .ite (.bind (hset previous) fun _ => .bind hlock fun _ => .pure _) hlock

theorem feetechFactoryReset_reflects (id : UInt8) :
    Reflects ServoWorld.unobserved (feetechFactoryReset L.observed id)
      (feetechFactoryReset L id) := by
  have hset := servoBusSetBaudrate_reflects L
  have hlock : Reflects ServoWorld.unobserved (feetechLockEeprom L.observed id)
      (feetechLockEeprom L id) := writeServoRegister_reflects L id _ _ 1
  refine .ite (.pure _) (.bind servoBusGetBaudrate_reflects fun previous => ?_)
  refine orElse_reflects (hset _) (orElse_reflects (hset _) ?_)
  refine orElse_reflects (writeServoRegister_reflects L id _ _ 1) ?_
  refine .bind (servoBusFactoryReset_reflects L id none) fun reply => ?_
  refine .ite (.bind hlock fun _ => .pure _) ?_
  refine orElse_reflects (hset _) (.bind (pollReset_reflects L _ _) fun answered => ?_)
  exact .ite (.pure _) (.bind (hset previous) fun _ => .bind hlock fun _ => .pure _)

end mirrors

end Pico
