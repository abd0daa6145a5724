import PicoFramework.Proofs.ServoBus
import PicoFramework.Spec.Ax12
import PicoFramework.Spec.Feetech

/-! What has been sent when a call on the bus is refused. -/

namespace Pico

open Lib.Hoare

variable {ε : Type} {L : Line ε} {b : ServoBus} {w : ServoWorld ε} {sent : List Bytes}

/-- A refusal has sent nothing. -/
def Silent (sent : List Bytes) (result : ServoBusResult) (w : ServoWorld ε) : Prop :=
  result = .errInvalidArg → w.sent = sent

theorem Leaves.silent {result : ServoBusResult} {w' : ServoWorld ε} (h : Leaves w result w') :
    Silent w.sent result w' :=
  fun hinvalid => congrArg ServoWorld.sent (h.kept hinvalid)

theorem Silent.of_ne {result : ServoBusResult} (h : result ≠ .errInvalidArg) :
    Silent sent result w :=
  fun hinvalid => absurd hinvalid h

section shared

theorem writeServoRegister_leaves (id reg : UInt8) (value : UInt32) (width : UInt8) :
    Ensures (· = w) (writeServoRegister L id reg value width) (Leaves w) :=
  .bind (servoBusWriteValue_leaves id reg value width none) fun _ => .pure fun _ h => h

theorem writeServoRegister_ready (hready : b.initialised = true) (id reg : UInt8) (value : UInt32)
    {width : UInt8} (hwidth : servoProtocolWidthOk width = true) :
    Ensures (OnBus b) (writeServoRegister L id reg value width) fun result w =>
      OnBus b w ∧ result ≠ .errInvalidArg :=
  .bind (servoBusWriteValue_ready hready id reg value hwidth none) fun _ => .pure fun _ h => h

theorem Leaves.checked {α : Type} {call : BusM ε α} {refused : α} {result : α → ServoBusResult}
    (hrefused : result refused = .errInvalidArg) {refuse : Prop} [Decidable refuse]
    (h : Ensures (· = w) call fun a w' => Leaves w (result a) w') :
    Ensures (· = w) (if refuse then pure refused else call) fun a w' => Leaves w (result a) w' := by
  refine .ite (fun _ => .pure fun w' hsame => ?_) fun _ => h
  subst hsame
  rw [hrefused]
  exact .refusal _

theorem writeUpTo_leaves (limit : ℕ) (id reg : UInt8) (value : UInt16) (width : UInt8) :
    Ensures (· = w) (writeUpTo L limit id reg value width) (Leaves w) :=
  Leaves.checked rfl (writeServoRegister_leaves id reg _ width)

theorem readInto_leaves {α : Type} (id reg width : UInt8) (convert : UInt32 → α) (out : Option α) :
    Ensures (· = w) (readInto L id reg width convert out) fun read w' => Leaves w read.1 w' := by
  refine Leaves.checked rfl ?_
  exact .bind (servoBusReadValue_leaves id reg width _ none) fun _ => .pure fun _ h => h

theorem syncWriteChecked_leaves (reg : UInt8) (positionMax idMax : ℕ)
    (targets : Option (List ServoSyncTarget)) (count : UInt8) :
    Ensures (· = w) (syncWriteChecked L reg positionMax idMax targets count) (Leaves w) :=
  Leaves.checked rfl (Leaves.checked rfl (servoBusSyncWrite_leaves reg 2 targets count))

theorem scan_silent {α : Type} {table : Prop} [Decidable table] {call : BusM ε α} {nothing : α}
    (found : α → α) :
    Ensures (· = w)
      (if table then pure (ServoBusResult.errInvalidArg, nothing)
        else call >>= fun a => pure (.ok, found a))
      fun out w' => Silent w.sent out.1 w' := by
  refine .ite (fun _ => .pure fun w' hsame _ => ?_) fun _ => .bind .trivial fun _ => .pure ?_
  · rw [hsame]
  · exact fun _ _ => .of_ne nofun

end shared

section sequences

theorem followed_then {baudrate : UInt32} {call : BusM ε ServoBusResult}
    (hreach : L.Reaches b baudrate)
    (hcall : ∀ b : ServoBus, b.initialised = true → Ensures (OnBus b) call
      fun result _ => result ≠ .errInvalidArg) :
    Ensures (OnBus b)
      (servoBusSetBaudrate L baudrate >>= fun followed =>
        if followed ≠ .ok then pure followed else call)
      fun result _ => result ≠ .errInvalidArg := by
  have hset : Ensures (Beside b fun _ _ => True)
      (servoBusSetBaudrate L baudrate >>= fun followed =>
        if followed ≠ .ok then pure followed else call)
      fun result _ => result ≠ .errInvalidArg := by
    refine setBaudrate_then (fun _ timing => ?_) fun hrefused => absurd hreach hrefused
    exact (hcall (b.clocked baudrate timing) hreach.1).weaken fun _ h => h.1
  exact hset.weaken fun _ h => ⟨h, trivial⟩

/-- What the probe of a rate leaves to be done is never refused. -/
theorem probe_silent {baudrate : UInt32} {call : UInt32 → BusM ε ServoBusResult}
    (hcall : ∀ b : ServoBus, b.initialised = true → L.Reaches b baudrate →
      Ensures (OnBus b) (call b.uart.baudrate) fun result _ => result ≠ .errInvalidArg) :
    Ensures (· = w)
      (servoBusGetBaudrate >>= fun previous =>
        servoBusSetBaudrate L baudrate >>= fun reachable =>
        if reachable ≠ .ok then pure reachable else
        servoBusSetBaudrate L previous >>= fun restored =>
        if restored ≠ .ok then pure restored else call previous)
      (Silent w.sent) := by
  have hprobe : Ensures (Beside w.bus fun sent _ => sent = w.sent)
      (servoBusGetBaudrate >>= fun previous =>
        servoBusSetBaudrate L baudrate >>= fun reachable =>
        if reachable ≠ .ok then pure reachable else
        servoBusSetBaudrate L previous >>= fun restored =>
        if restored ≠ .ok then pure restored else call previous)
      (Silent w.sent) := by
    refine probe_then (fun hreach _ timing => ?_) fun _ result w' hsent _ => hsent
    have hready := hcall (w.bus.clocked w.bus.uart.baudrate timing) hreach.1 hreach
    exact (hready.weaken fun _ h => h.1).mono fun _ _ hne => .of_ne hne
  refine hprobe.weaken fun w' hsame => ?_
  subst hsame
  exact ⟨.self _, rfl⟩

theorem moveRate_ready (hready : b.initialised = true) (id reg value : UInt8) :
    Ensures (OnBus b) (withoutRetries (writeServoRegister L id reg value.toUInt32 1))
      fun result w => OnBus b w ∧ result ≠ .errInvalidArg :=
  withoutRetries_ready fun retries =>
    writeServoRegister_ready (b := { b with maxRetries := retries }) hready id reg _ rfl

theorem ax12SetBaudrate_silent (id : UInt8) (rate : UInt32) :
    Ensures (· = w) (ax12SetBaudrate L id rate) (Silent w.sent) := by
  unfold ax12SetBaudrate
  cases ax12RateToBaudValue rate with
  | none => exact .pure fun w' hsame _ => by rw [hsame]
  | some value =>
    refine probe_silent fun b hready hreach => ?_
    refine .bind (moveRate_ready hready id _ value) fun written => .assume fun hwritten => ?_
    refine .ite (fun _ => .pure fun _ _ => hwritten) fun _ => followed_then hreach fun b hready => ?_
    refine .ite (fun _ => .pure fun _ _ => nofun) fun _ => ?_
    refine .bind (servoBusPing_ready hready id none) fun answered => .assume fun hanswered => ?_
    exact .ite (fun _ => .bind .trivial fun _ => .pure fun _ _ => hanswered)
      fun _ => .pure fun _ _ => hanswered

theorem ax12FactoryReset_silent (id : UInt8) :
    Ensures (· = w) (ax12FactoryReset L id) (Silent w.sent) := by
  refine .ite (fun _ => .pure fun w' hsame _ => by rw [hsame]) fun _ => ?_
  refine probe_silent fun b hready hreach => ?_
  refine .bind (servoBusFactoryReset_ready hready id none) fun sent => .assume fun hsent => ?_
  refine .ite (fun _ => .pure fun _ _ => hsent) fun _ => followed_then hreach fun b hready => ?_
  refine .bind .trivial fun answered => .ite (fun _ => .pure fun _ _ => nofun) fun _ => ?_
  exact .bind .trivial fun _ => .pure fun _ _ => nofun

theorem feetechLock_ready (hready : b.initialised = true) (id : UInt8) :
    Ensures (OnBus b) (feetechLockEeprom L id) fun result w =>
      OnBus b w ∧ result ≠ .errInvalidArg :=
  writeServoRegister_ready hready id _ _ rfl

theorem unlock_ready {call : BusM ε ServoBusResult} (hready : b.initialised = true) (id : UInt8)
    (hcall : Ensures (OnBus b) call fun result _ => result ≠ .errInvalidArg) :
    Ensures (OnBus b)
      (feetechUnlockEeprom L id >>= fun unlocked =>
        if unlocked ≠ .ok then pure unlocked else call)
      fun result _ => result ≠ .errInvalidArg := by
  refine .bind (writeServoRegister_ready hready id _ _ rfl) fun unlocked => .assume fun hne => ?_
  exact .ite (fun _ => .pure fun _ _ => hne) fun _ => hcall

theorem unlock_silent {call : BusM ε ServoBusResult} (id : UInt8)
    (hcall : w.bus.initialised = true →
      Ensures (OnBus w.bus) call fun result _ => result ≠ .errInvalidArg) :
    Ensures (· = w)
      (feetechUnlockEeprom L id >>= fun unlocked =>
        if unlocked ≠ .ok then pure unlocked else call)
      (Silent w.sent) := by
  refine .bind (writeServoRegister_leaves id _ _ _) fun unlocked => ?_
  refine .ite (fun _ => .pure fun _ h => h.silent) fun hok w' h => ?_
  exact .of_ne (hcall (h.ready (not_not.mp hok)) w' h.onBus)

theorem feetechSetId_silent (id newId : UInt8) :
    Ensures (· = w) (feetechSetId L id newId) (Silent w.sent) := by
  refine .ite (fun _ => .pure fun w' hsame _ => by rw [hsame]) fun _ => ?_
  refine unlock_silent id fun hready => ?_
  refine .bind (writeServoRegister_ready hready id _ _ rfl) fun written => .assume fun hwritten => ?_
  refine .ite (fun _ => .bind .trivial fun _ => .pure fun _ _ => hwritten) fun _ => ?_
  exact (feetechLock_ready hready newId).mono fun _ _ h => h.2

theorem feetechSetBaudrate_silent (id : UInt8) (rate : UInt32) :
    Ensures (· = w) (feetechSetBaudrate L id rate) (Silent w.sent) := by
  unfold feetechSetBaudrate
  cases feetechRateToBaudIndex rate with
  | none => exact .pure fun w' hsame _ => by rw [hsame]
  | some index =>
    refine probe_silent fun b hready hreach => unlock_ready hready id ?_
    refine .bind (moveRate_ready hready id _ index) fun written => .assume fun hwritten => ?_
    refine .ite (fun _ => .bind .trivial fun _ => .pure fun _ _ => hwritten) fun _ => ?_
    refine followed_then hreach fun b hready => ?_
    refine .ite (fun _ => .pure fun _ _ => nofun) fun _ => ?_
    refine .bind (servoBusPing_ready hready id none) fun answered => .assume fun hanswered => ?_
    refine .ite (fun _ => ?_) fun _ => (feetechLock_ready hready id).mono fun _ _ h => h.2
    exact .bind .trivial fun _ => .bind .trivial fun _ => .pure fun _ _ => hanswered

theorem feetechFactoryReset_silent (id : UInt8) :
    Ensures (· = w) (feetechFactoryReset L id) (Silent w.sent) := by
  refine .ite (fun _ => .pure fun w' hsame _ => by rw [hsame]) fun _ => ?_
  refine probe_silent fun b hready hreach => unlock_ready hready id ?_
  refine .bind (servoBusFactoryReset_ready hready id none) fun sent => .assume fun hsent => ?_
  refine .ite (fun _ => .bind .trivial fun _ => .pure fun _ _ => hsent) fun _ => ?_
  refine followed_then hreach fun b hready => ?_
  refine .bind .trivial fun answered => .ite (fun _ => .pure fun _ _ => nofun) fun _ => ?_
  exact .bind .trivial fun _ => .bind .trivial fun _ => .pure fun _ _ => nofun

theorem feetechSetMode_silent (id mode : UInt8) :
    Ensures (· = w) (feetechSetMode L id mode) (Silent w.sent) := by
  refine unlock_silent id fun hready => ?_
  refine .bind (writeServoRegister_ready hready id _ _ rfl) fun written => .assume fun hwritten => ?_
  refine .bind (feetechLock_ready hready id) fun relocked => .assume fun hrelocked => .pure ?_
  intro w _
  split
  · exact hwritten
  · exact hrelocked

end sequences

section calls

/-- The calls of `ax12.h`. -/
inductive Ax12Call where
  | ping (id : UInt8)
  | scan (ids : Bool) (capacity : ℕ)
  | readRegister (id reg : UInt8) (value : Option UInt32) (errorOut : Option UInt8)
  | writeRegister (id reg : UInt8) (value : UInt32) (errorOut : Option UInt8)
  | setTorqueEnable (id : UInt8) (enable : Bool)
  | setGoalPosition (id : UInt8) (position : UInt16)
  | getPresentPosition (id : UInt8) (position : Option UInt16)
  | setGoalMillidegrees (id : UInt8) (millidegrees : UInt32)
  | getPresentMillidegrees (id : UInt8) (millidegrees : Option UInt32)
  | setMovingSpeed (id : UInt8) (speed : UInt16)
  | setTorqueLimit (id : UInt8) (limit : UInt16)
  | isMoving (id : UInt8) (moving : Option Bool)
  | syncSetGoalPositions (targets : Option (List ServoSyncTarget)) (count : UInt8)
  | getPresentSpeed (id : UInt8) (speed : Option Int16)
  | getPresentLoad (id : UInt8) (load : Option Int16)
  | setLed (id : UInt8) (on : Bool)
  | getTemperature (id : UInt8) (degrees : Option UInt8)
  | getVoltageMillivolts (id : UInt8) (millivolts : Option UInt32)
  | setId (id newId : UInt8)
  | setBaudrate (id : UInt8) (rate : UInt32)
  | factoryReset (id : UInt8)
  | setAngleLimits (id : UInt8) (cwLimit ccwLimit : UInt16)

/-- The calls of `feetech.h`. -/
inductive FeetechCommand where
  | ping (id : UInt8)
  | scan (ids : Bool) (capacity : ℕ)
  | readRegister (id reg : UInt8) (value : Option UInt32) (errorOut : Option UInt8)
  | writeRegister (id reg : UInt8) (value : UInt32) (errorOut : Option UInt8)
  | setTorqueEnable (id : UInt8) (enable : Bool)
  | setGoalPosition (id : UInt8) (position : UInt16)
  | getPresentPosition (id : UInt8) (position : Option UInt16)
  | setGoalMillidegrees (id : UInt8) (millidegrees : UInt32)
  | getPresentMillidegrees (id : UInt8) (millidegrees : Option UInt32)
  | setGoalSpeed (id : UInt8) (speed : UInt16)
  | setAcceleration (id acceleration : UInt8)
  | isMoving (id : UInt8) (moving : Option Bool)
  | syncSetGoalPositions (targets : Option (List ServoSyncTarget)) (count : UInt8)
  | getPresentSpeed (id : UInt8) (speed : Option Int16)
  | getPresentLoad (id : UInt8) (load : Option Int16)
  | getTemperature (id : UInt8) (degrees : Option UInt8)
  | getVoltageMillivolts (id : UInt8) (millivolts : Option UInt32)
  | unlockEeprom (id : UInt8)
  | lockEeprom (id : UInt8)
  | setId (id newId : UInt8)
  | setBaudrate (id : UInt8) (rate : UInt32)
  | factoryReset (id : UInt8)
  | setMode (id mode : UInt8)

/-- The transactions of `servo_bus.h`, and what is built on them. -/
inductive ServoCall where
  | ping (id : UInt8) (errorOut : Option UInt8)
  | read (id reg : UInt8) (data : Option Bytes) (count : UInt8) (errorOut : Option UInt8)
  | write (id reg : UInt8) (data : Option Bytes) (count : UInt8) (errorOut : Option UInt8)
  | readValue (id reg width : UInt8) (value : Option UInt32) (errorOut : Option UInt8)
  | writeValue (id reg : UInt8) (value : UInt32) (width : UInt8) (errorOut : Option UInt8)
  | syncWrite (reg width : UInt8) (targets : Option (List ServoSyncTarget)) (count : UInt8)
  | ax12 (call : Ax12Call)
  | feetech (call : FeetechCommand)

variable (L)

def Ax12Call.run : Ax12Call → BusM ε ServoBusResult
  | ping id => ax12Ping L id
  | scan ids capacity => return (← ax12Scan L ids capacity).1
  | readRegister id reg value errorOut => return (← ax12ReadRegister L id reg value errorOut).1
  | writeRegister id reg value errorOut => return (← ax12WriteRegister L id reg value errorOut).result
  | setTorqueEnable id enable => ax12SetTorqueEnable L id enable
  | setGoalPosition id position => ax12SetGoalPosition L id position
  | getPresentPosition id position => return (← ax12GetPresentPosition L id position).1
  | setGoalMillidegrees id millidegrees => ax12SetGoalMillidegrees L id millidegrees
  | getPresentMillidegrees id millidegrees =>
      return (← ax12GetPresentMillidegrees L id millidegrees).1
  | setMovingSpeed id speed => ax12SetMovingSpeed L id speed
  | setTorqueLimit id limit => ax12SetTorqueLimit L id limit
  | isMoving id moving => return (← ax12IsMoving L id moving).1
  | syncSetGoalPositions targets count => ax12SyncSetGoalPositions L targets count
  | getPresentSpeed id speed => return (← ax12GetPresentSpeed L id speed).1
  | getPresentLoad id load => return (← ax12GetPresentLoad L id load).1
  | setLed id on => ax12SetLed L id on
  | getTemperature id degrees => return (← ax12GetTemperature L id degrees).1
  | getVoltageMillivolts id millivolts => return (← ax12GetVoltageMillivolts L id millivolts).1
  | setId id newId => ax12SetId L id newId
  | setBaudrate id rate => ax12SetBaudrate L id rate
  | factoryReset id => ax12FactoryReset L id
  | setAngleLimits id cwLimit ccwLimit => ax12SetAngleLimits L id cwLimit ccwLimit

def FeetechCommand.run : FeetechCommand → BusM ε ServoBusResult
  | ping id => feetechPing L id
  | scan ids capacity => return (← feetechScan L ids capacity).1
  | readRegister id reg value errorOut => return (← feetechReadRegister L id reg value errorOut).1
  | writeRegister id reg value errorOut =>
      return (← feetechWriteRegister L id reg value errorOut).result
  | setTorqueEnable id enable => feetechSetTorqueEnable L id enable
  | setGoalPosition id position => feetechSetGoalPosition L id position
  | getPresentPosition id position => return (← feetechGetPresentPosition L id position).1
  | setGoalMillidegrees id millidegrees => feetechSetGoalMillidegrees L id millidegrees
  | getPresentMillidegrees id millidegrees =>
      return (← feetechGetPresentMillidegrees L id millidegrees).1
  | setGoalSpeed id speed => feetechSetGoalSpeed L id speed
  | setAcceleration id acceleration => feetechSetAcceleration L id acceleration
  | isMoving id moving => return (← feetechIsMoving L id moving).1
  | syncSetGoalPositions targets count => feetechSyncSetGoalPositions L targets count
  | getPresentSpeed id speed => return (← feetechGetPresentSpeed L id speed).1
  | getPresentLoad id load => return (← feetechGetPresentLoad L id load).1
  | getTemperature id degrees => return (← feetechGetTemperature L id degrees).1
  | getVoltageMillivolts id millivolts => return (← feetechGetVoltageMillivolts L id millivolts).1
  | unlockEeprom id => feetechUnlockEeprom L id
  | lockEeprom id => feetechLockEeprom L id
  | setId id newId => feetechSetId L id newId
  | setBaudrate id rate => feetechSetBaudrate L id rate
  | factoryReset id => feetechFactoryReset L id
  | setMode id mode => feetechSetMode L id mode

def ServoCall.run : ServoCall → BusM ε ServoBusResult
  | ping id errorOut => return (← servoBusPing L id errorOut).result
  | read id reg data count errorOut => return (← servoBusRead L id reg data count errorOut).result
  | write id reg data count errorOut => return (← servoBusWrite L id reg data count errorOut).result
  | readValue id reg width value errorOut =>
      return (← servoBusReadValue L id reg width value errorOut).1
  | writeValue id reg value width errorOut =>
      return (← servoBusWriteValue L id reg value width errorOut).result
  | syncWrite reg width targets count => servoBusSyncWrite L reg width targets count
  | ax12 call => call.run L
  | feetech call => call.run L

variable {L}

theorem Leaves.reported {α : Type} {call : BusM ε α} {result : α → ServoBusResult}
    (h : Ensures (· = w) call fun a w' => Leaves w (result a) w') :
    Ensures (· = w) (call >>= fun a => pure (result a)) (Silent w.sent) :=
  .bind h fun _ => .pure fun _ h => h.silent

theorem Leaves.direct {call : BusM ε ServoBusResult} (h : Ensures (· = w) call (Leaves w)) :
    Ensures (· = w) call (Silent w.sent) :=
  h.mono fun _ _ h => h.silent

theorem Ax12Call.run_silent (call : Ax12Call) : Ensures (· = w) (call.run L) (Silent w.sent) := by
  cases call with
  | ping id => exact Leaves.reported (servoBusPing_leaves id none)
  | scan ids capacity => exact .bind (scan_silent fun found => found) fun _ => .pure fun _ h => h
  | readRegister id reg value errorOut =>
    exact Leaves.reported (Leaves.checked rfl (servoBusReadValue_leaves id reg _ value errorOut))
  | writeRegister id reg value errorOut =>
    exact Leaves.reported (Leaves.checked rfl (servoBusWriteValue_leaves id reg value _ errorOut))
  | setTorqueEnable id enable => exact Leaves.direct (writeServoRegister_leaves id _ _ 1)
  | setGoalPosition id position => exact Leaves.direct (writeUpTo_leaves _ id _ position 2)
  | getPresentPosition id position => exact Leaves.reported (readInto_leaves id _ 2 _ position)
  | setGoalMillidegrees id millidegrees => exact Leaves.direct (writeUpTo_leaves _ id _ _ 2)
  | getPresentMillidegrees id millidegrees =>
    refine Leaves.reported (Leaves.checked rfl ?_)
    exact .bind (readInto_leaves id _ 2 _ _) fun _ => .pure fun _ h => h
  | setMovingSpeed id speed => exact Leaves.direct (writeUpTo_leaves _ id _ speed 2)
  | setTorqueLimit id limit => exact Leaves.direct (writeUpTo_leaves _ id _ limit 2)
  | isMoving id moving => exact Leaves.reported (readInto_leaves id _ 1 _ moving)
  | syncSetGoalPositions targets count =>
    exact Leaves.direct (syncWriteChecked_leaves _ _ _ targets count)
  | getPresentSpeed id speed => exact Leaves.reported (readInto_leaves id _ 2 _ speed)
  | getPresentLoad id load => exact Leaves.reported (readInto_leaves id _ 2 _ load)
  | setLed id on => exact Leaves.direct (writeServoRegister_leaves id _ _ 1)
  | getTemperature id degrees => exact Leaves.reported (readInto_leaves id _ 1 _ degrees)
  | getVoltageMillivolts id millivolts => exact Leaves.reported (readInto_leaves id _ 1 _ millivolts)
  | setId id newId =>
    exact Leaves.direct (Leaves.checked rfl (writeServoRegister_leaves id _ _ 1))
  | setBaudrate id rate => exact ax12SetBaudrate_silent id rate
  | factoryReset id => exact ax12FactoryReset_silent id
  | setAngleLimits id cwLimit ccwLimit =>
    refine .ite (fun _ => .pure fun w' hsame _ => by rw [hsame]) fun _ => ?_
    exact Leaves.reported (servoBusWrite_leaves id _ _ 4 none)

theorem FeetechCommand.run_silent (call : FeetechCommand) :
    Ensures (· = w) (call.run L) (Silent w.sent) := by
  cases call with
  | ping id => exact Leaves.reported (servoBusPing_leaves id none)
  | scan ids capacity => exact .bind (scan_silent fun found => found) fun _ => .pure fun _ h => h
  | readRegister id reg value errorOut =>
    exact Leaves.reported (Leaves.checked rfl (servoBusReadValue_leaves id reg _ value errorOut))
  | writeRegister id reg value errorOut =>
    exact Leaves.reported (Leaves.checked rfl (servoBusWriteValue_leaves id reg value _ errorOut))
  | setTorqueEnable id enable => exact Leaves.direct (writeServoRegister_leaves id _ _ 1)
  | setGoalPosition id position => exact Leaves.direct (writeUpTo_leaves _ id _ position 2)
  | getPresentPosition id position => exact Leaves.reported (readInto_leaves id _ 2 _ position)
  | setGoalMillidegrees id millidegrees => exact Leaves.direct (writeUpTo_leaves _ id _ _ 2)
  | getPresentMillidegrees id millidegrees =>
    refine Leaves.reported (Leaves.checked rfl ?_)
    exact .bind (readInto_leaves id _ 2 _ _) fun _ => .pure fun _ h => h
  | setGoalSpeed id speed => exact Leaves.direct (writeUpTo_leaves _ id _ speed 2)
  | setAcceleration id acceleration => exact Leaves.direct (writeServoRegister_leaves id _ _ 1)
  | isMoving id moving => exact Leaves.reported (readInto_leaves id _ 1 _ moving)
  | syncSetGoalPositions targets count =>
    exact Leaves.direct (syncWriteChecked_leaves _ _ _ targets count)
  | getPresentSpeed id speed => exact Leaves.reported (readInto_leaves id _ 2 _ speed)
  | getPresentLoad id load => exact Leaves.reported (readInto_leaves id _ 2 _ load)
  | getTemperature id degrees => exact Leaves.reported (readInto_leaves id _ 1 _ degrees)
  | getVoltageMillivolts id millivolts => exact Leaves.reported (readInto_leaves id _ 1 _ millivolts)
  | unlockEeprom id => exact Leaves.direct (writeServoRegister_leaves id _ _ 1)
  | lockEeprom id => exact Leaves.direct (writeServoRegister_leaves id _ _ 1)
  | setId id newId => exact feetechSetId_silent id newId
  | setBaudrate id rate => exact feetechSetBaudrate_silent id rate
  | factoryReset id => exact feetechFactoryReset_silent id
  | setMode id mode => exact feetechSetMode_silent id mode

end calls

section oversized

/-- A read of more than a reply holds, on a bus that is ready, of a servo that is addressed. -/
def ServoCall.ReadsTooMuch (b : ServoBus) : ServoCall → Prop
  | .read id _ data count _ =>
      data.isSome = true ∧ b.initialised = true ∧ Oversized b id count
  | _ => False

theorem servoBusRead_silent (id reg : UInt8) (data : Option Bytes) (count : UInt8)
    (errorOut : Option UInt8)
    (hfits : ¬ (ServoCall.read id reg data count errorOut).ReadsTooMuch w.bus) :
    Ensures (· = w) (servoBusRead L id reg data count errorOut) fun reply w' =>
      Silent w.sent reply.result w' := by
  unfold servoBusRead
  refine .get_bind ?_
  intro w hsame
  subst hsame
  have hrefusal : ∀ reply, Ensures (· = w) (pure reply : BusM ε ServoReply) fun reply w' =>
      Silent w.sent reply.result w' :=
    fun reply => .pure fun w' hsame _ => by rw [hsame]
  refine .ite (fun _ => hrefusal _) fun hready => .ite (fun _ => hrefusal _) fun _ => ?_
  split
  · exact hrefusal _
  · have hargs : data.isSome = true ∧ w.bus.initialised = true := by
      cases data <;> simp_all
    refine .mono (.weaken (transact_onBus (b := w.bus) _ id data count errorOut) fun w' hsame => ?_) ?_
    · subst hsame
      exact .self _
    · exact fun reply w' h hinvalid => absurd ⟨hargs.1, hargs.2, h.2 hinvalid⟩ hfits

theorem ServoCall.run_silent {call : ServoCall} (hfits : ¬ call.ReadsTooMuch w.bus) :
    Ensures (· = w) (call.run L) (Silent w.sent) := by
  cases call with
  | ping id errorOut => exact Leaves.reported (servoBusPing_leaves id errorOut)
  | read id reg data count errorOut =>
    exact .bind (servoBusRead_silent id reg data count errorOut hfits) fun _ => .pure fun _ h => h
  | write id reg data count errorOut =>
    exact Leaves.reported (servoBusWrite_leaves id reg data count errorOut)
  | readValue id reg width value errorOut =>
    exact Leaves.reported (servoBusReadValue_leaves id reg width value errorOut)
  | writeValue id reg value width errorOut =>
    exact Leaves.reported (servoBusWriteValue_leaves id reg value width errorOut)
  | syncWrite reg width targets count =>
    exact Leaves.direct (servoBusSyncWrite_leaves reg width targets count)
  | ax12 call => exact call.run_silent
  | feetech call => exact call.run_silent

/-- A line that gives every echo back, and no reply. -/
def echoLine : Line Unit where
  clockHz := 125000000
  transmit _ _ _ := (true, ())
  receive _ _ := ([], ())
  flush _ := ()
  sleepMs _ _ := ()
  timeReached _ := true

section sending

variable {id count : UInt8} {request : Bytes}

theorem echoLine_write (hrequest : request ≠ []) :
    Ensures (fun w => w.bus.uart.initialised = true) (halfDuplexUartWrite echoLine request)
      fun sent w => w.sent ≠ [] ∧ sent = .ok := by
  refine .get_bind fun w hw => .ite (fun hidle => ?_) fun _ => .ite (fun hempty => ?_) fun _ => ?_
  · rw [hw] at hidle
    exact absurd hidle Bool.false_ne_true
  · exact absurd (List.eq_nil_of_length_eq_zero hempty) hrequest
  · intro w' hsame
    subst hsame
    dsimp only [echoLine]
    split <;> exact ⟨List.append_ne_nil_of_right_ne_nil _ (List.cons_ne_nil _ _), rfl⟩

theorem attempt_oversized (hid : id ≠ SERVO_PROTOCOL_BROADCAST_ID)
    (hcount : SERVO_PROTOCOL_MAX_PARAMS < count.toNat) (hrequest : request ≠ [])
    (paramsOut : Option Bytes) (errorOut : Option UInt8) :
    Ensures (fun w => w.bus.uart.initialised = true)
      (attempt echoLine request id paramsOut count errorOut)
      fun reply w => w.sent ≠ [] ∧ reply.result = .errInvalidArg := by
  refine .bind (echoLine_write hrequest) fun sent => .assume fun hok => ?_
  refine .ite (fun hfailed => absurd hok hfailed) fun _ => ?_
  refine .ite (fun hbroadcast => absurd hbroadcast hid) fun _ => ?_
  refine .ite (fun _ => .pure fun w hw => ⟨hw, rfl⟩) fun hfits => absurd ?_ hfits
  rw [servoProtocolPacketSize, SERVO_PROTOCOL_MAX_PACKET_SIZE]
  omega

theorem transact_oversized (hid : id ≠ SERVO_PROTOCOL_BROADCAST_ID)
    (hcount : SERVO_PROTOCOL_MAX_PARAMS < count.toNat) (hrequest : request ≠ [])
    (data : Option Bytes) (errorOut : Option UInt8) :
    Ensures (fun w => w.bus.uart.initialised = true)
      (transact echoLine request id data count errorOut)
      fun reply w => reply.result = .errInvalidArg ∧ w.sent ≠ [] := by
  refine .read fun w => ?_
  unfold transactFrom
  refine .bind (.modify fun w hw => hw) fun _ =>
    .bind (attempt_oversized hid hcount hrequest _ _) fun reply => ?_
  refine .assume fun hinvalid => .ite (fun hok => ?_) fun _ => ?_
  · rw [hinvalid] at hok
    cases hok
  · have hcounted : Ensures (fun w => w.sent ≠ [])
        (updateServoStats (countFailure reply.result) : BusM Unit Unit) fun _ w => w.sent ≠ [] :=
      .modify fun w hw => hw
    refine .bind hcounted fun _ => ?_
    exact .ite (fun _ => .pure fun w hw => ⟨hinvalid, hw⟩) fun hother => absurd hinvalid hother

end sending

theorem servoBusRead_sends {b : ServoBus} {id reg : UInt8} {data : Option Bytes} {count : UInt8}
    {errorOut : Option UInt8}
    (hlarge : (ServoCall.read id reg data count errorOut).ReadsTooMuch b) :
    Ensures (· = ⟨b, [], ()⟩) (servoBusRead echoLine id reg data count errorOut) fun reply w =>
      reply.result = .errInvalidArg ∧ w.sent ≠ [] := by
  obtain ⟨hdata, hready, hid, hcount, huart⟩ := hlarge
  have hpositive : count ≠ 0 := by
    rintro rfl
    exact absurd hcount (by decide)
  refine .get_bind ?_
  intro w hsame
  subst hsame
  refine .ite (fun hrefused => ?_) fun _ => .ite (fun hbroadcast => absurd hbroadcast hid) fun _ => ?_
  · cases data <;> simp_all
  · rw [servoProtocolBuildRead, if_neg hpositive,
      servoProtocolBuild_eq (by simp [SERVO_PROTOCOL_MAX_PARAMS])]
    have hpacket : servoPacket id SERVO_INST_READ [reg, count] ≠ [] := List.cons_ne_nil _ _
    refine (transact_oversized hid hcount hpacket data errorOut).weaken fun w hsame => ?_
    subst hsame
    exact huart

/-- A call that is refused has sent nothing, over any line, just when it is no read of more than a
reply holds. -/
theorem servoCall_silent_iff (b : ServoBus) (call : ServoCall) :
    (∀ (ε : Type) (L : Line ε) (w : ServoWorld ε), w.bus = b →
      ((call.run L).run w).1 = .errInvalidArg → ((call.run L).run w).2.sent = w.sent) ↔
    ¬ call.ReadsTooMuch b := by
  constructor
  · intro hsilent hlarge
    cases call with
    | read id reg data count errorOut =>
      obtain ⟨hinvalid, hsent⟩ := servoBusRead_sends hlarge _ rfl
      exact hsent (hsilent Unit echoLine ⟨b, [], ()⟩ rfl hinvalid)
    | _ => exact hlarge
  · intro hfits ε L w hbus
    subst hbus
    exact ServoCall.run_silent hfits w rfl

/-- A read of 129 bytes. -/
theorem servoBusRead_sends_129 : ¬ ∀ (b : ServoBus) (call : ServoCall) (ε : Type) (L : Line ε)
    (w : ServoWorld ε), w.bus = b →
      ((call.run L).run w).1 = .errInvalidArg → ((call.run L).run w).2.sent = w.sent := by
  intro h
  let b : ServoBus := {
    uart := ⟨1000000, .discard, ⟨15, 160, 1000000, 0⟩, true⟩
    endianness := .little
    maxRetries := 2
    responseTimeoutUs := 5000
    stats := ⟨0, 0, 0, 0, 0, 0⟩
    initialised := true }
  let data : Bytes := List.replicate 129 0
  have hlarge : (ServoCall.read 1 0 (some data) 129 none).ReadsTooMuch b :=
    ⟨rfl, rfl, by decide, by decide, rfl⟩
  obtain ⟨hinvalid, hsent⟩ := servoBusRead_sends hlarge _ rfl
  exact hsent (h b (.read 1 0 (some data) 129 none) Unit echoLine ⟨b, [], ()⟩ rfl hinvalid)

end oversized

end Pico
