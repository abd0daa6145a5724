import Mathlib.Data.Stream.Defs
import PicoFramework.Spec.Feetech

/-! One Feetech servo at the other end of the bus, by what `feetech.h` and `feetech_registers.h` say
of it: a write to EEPROM sticks only while the lock is open, an ID and a rate change as the write
lands, and a reset brings back the factory settings, a locked EEPROM included. -/

namespace Pico

/-- Registers that none of the calls about the lock turns on are left out. -/
structure FeetechServo where
  id : UInt8
  rate : UInt32
  lock : UInt8
deriving DecidableEq

namespace FeetechServo

def Locked (servo : FeetechServo) : Prop := servo.lock = FEETECH_LOCK_CLOSED

instance (servo : FeetechServo) : Decidable servo.Locked :=
  inferInstanceAs (Decidable (servo.lock = FEETECH_LOCK_CLOSED))

/-- One byte is written to a register. -/
def writeByte (servo : FeetechServo) (reg value : UInt8) : FeetechServo :=
  if feetechRegisterIsEeprom reg = true ∧ servo.lock ≠ FEETECH_LOCK_OPEN then servo
  else if reg = FEETECH_REG_ID then { servo with id := value }
  else if reg = FEETECH_REG_BAUD_RATE then { servo with rate := feetechBaudIndexToRate value }
  else if reg = FEETECH_REG_LOCK then { servo with lock := value }
  else servo

/-- Bytes are written to consecutive registers. -/
def write (servo : FeetechServo) (reg : UInt8) : Bytes → FeetechServo
  | [] => servo
  | value :: values => (servo.writeByte reg value).write (reg + 1) values

def factory : FeetechServo := ⟨FEETECH_DEFAULT_ID, FEETECH_DEFAULT_BAUDRATE, FEETECH_LOCK_CLOSED⟩

def execute (servo : FeetechServo) (instruction : UInt8) (params : Bytes) : FeetechServo :=
  if instruction = SERVO_INST_WRITE then
    match params with
    | [] => servo
    | reg :: data => servo.write reg data
  else if instruction = SERVO_INST_RESET then factory
  else servo

/-- A packet at a rate: the servo executes it if it is addressed, and is clocked as it was sent. An
instruction packet has the format of a status packet, the instruction in the place of the error. -/
def hear (servo : FeetechServo) (baudrate : UInt32) (packet : Bytes) : Option FeetechServo :=
  match servoProtocolParseStatus packet with
  | .error _ => none
  | .ok request =>
      if request.id = servo.id ∧ baudrate = servo.rate then
        some (servo.execute request.error request.params)
      else none

end FeetechServo

/-- The servo, what has come in of its reply, and what will come of the replies that it has not
given yet: the bytes as they were sent, others, or none. -/
structure FeetechEnd where
  servo : FeetechServo
  arriving : Bytes
  replies : Stream' Bytes
  sleeps : ℕ

/-- A servo that executes every request it receives; `late` is when the deadline has passed. -/
def feetechLine (clockHz : UInt32) (late : ℕ → Bool) : Line FeetechEnd where
  clockHz := clockHz
  transmit baudrate packet e :=
    match e.servo.hear baudrate packet with
    | none => (true, { e with arriving := [] })
    | some servo =>
        (true, { e with servo := servo, arriving := e.replies.head, replies := e.replies.tail })
  receive _ e := (e.arriving, { e with arriving := [] })
  flush e := { e with arriving := [] }
  sleepMs _ e := { e with sleeps := e.sleeps + 1 }
  timeReached e := late e.sleeps

end Pico
