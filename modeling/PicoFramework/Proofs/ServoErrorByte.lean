import PicoFramework.Proofs.ServoRetries

/-! What the calls of the servo bus leave where the error byte goes. A call whose arguments are
refused leaves what was there, but for a factory reset. -/

namespace Pico

open Lib.Hoare

variable {ε : Type} {L : Line ε} {w : ServoWorld ε}

/-- The error byte of a transaction: that of the answer, and zero without one. -/
theorem BusCall.run_error {call : BusCall} {request : Bytes} (h : call.request w.bus = some request)
    (errorOut : Option UInt8) {reply : ServoReply} {w' : ServoWorld ε}
    (hrun : (call.run L errorOut).run w = (reply, w')) :
    (reply.result = .ok → call.id ≠ SERVO_PROTOCOL_BROADCAST_ID →
      ∃ error params, Answered L w.bus request call.id error params w'.line ∧
        params.length = call.count.toNat ∧
        reply.error = (call.errorByte errorOut).map fun _ => error) ∧
    (¬ (reply.result = .ok ∧ call.id ≠ SERVO_PROTOCOL_BROADCAST_ID) →
      reply.error = (call.errorByte errorOut).map fun _ => 0) := by
  rw [run_accepted h] at hrun
  obtain ⟨⟨-, -, hattempted⟩, -⟩ := around_tried (request_ne_nil h) errorOut w rfl
  rw [hrun] at hattempted
  refine ⟨fun hok hid => ?_, fun hunanswered => ?_⟩
  · obtain ⟨error, params, hanswered, hlength, -, herror⟩ := hattempted.answered hok hid
    rw [Option.map_map] at herror
    exact ⟨error, params, hanswered, hlength, herror⟩
  · rw [not_and_or, not_not] at hunanswered
    exact (hattempted.kept hunanswered).2

/-- The calls that take a pointer for the error byte. -/
inductive ErrorCall where
  | ping (id : UInt8)
  | read (id reg : UInt8) (data : Option Bytes) (count : UInt8)
  | write (id reg : UInt8) (data : Option Bytes) (count : UInt8)
  | readValue (id reg width : UInt8) (value : Option UInt32)
  | writeValue (id reg : UInt8) (value : UInt32) (width : UInt8)
  | factoryReset (id : UInt8)

namespace ErrorCall

variable (L) in
/-- The result, and the error byte. -/
def run (errorOut : Option UInt8) : ErrorCall → BusM ε (ServoBusResult × Option UInt8)
  | ping id => do
      let reply ← servoBusPing L id errorOut
      return (reply.result, reply.error)
  | read id reg data count => do
      let reply ← servoBusRead L id reg data count errorOut
      return (reply.result, reply.error)
  | write id reg data count => do
      let reply ← servoBusWrite L id reg data count errorOut
      return (reply.result, reply.error)
  | readValue id reg width value => do
      let (result, _, error) ← servoBusReadValue L id reg width value errorOut
      return (result, error)
  | writeValue id reg value width => do
      let reply ← servoBusWriteValue L id reg value width errorOut
      return (reply.result, reply.error)
  | factoryReset id => do
      let reply ← servoBusFactoryReset L id errorOut
      return (reply.result, reply.error)

/-- The call that this one comes to, once a width has been checked. -/
def toBus (b : ServoBus) : ErrorCall → Option BusCall
  | ping id => some (.ping id)
  | read id reg data count => some (.read id reg data count)
  | write id reg data count => some (.write id reg data count)
  | readValue id reg width value =>
      if value.isSome ∧ servoProtocolWidthOk width then
        some (.read id reg (some [0, 0, 0, 0]) width)
      else none
  | writeValue id reg value width =>
      if b.initialised ∧ servoProtocolWidthOk width then
        some (.write id reg (some (servoProtocolEncodeValue value width b.endianness)) width)
      else none
  | factoryReset id => some (.factoryReset id)

/-- The packet that is sent, when the arguments are accepted. -/
def request (b : ServoBus) (call : ErrorCall) : Option Bytes :=
  (call.toBus b).bind fun bus => bus.request b

def id : ErrorCall → UInt8
  | ping id | read id _ _ _ | write id _ _ _ | readValue id _ _ _ | writeValue id _ _ _
  | factoryReset id => id

/-- How many parameters are asked for. -/
def count : ErrorCall → UInt8
  | read _ _ _ count => count
  | readValue _ _ width _ => width
  | _ => 0

/-- The byte is cleared before the arguments are looked at. -/
def ClearsFirst : ErrorCall → Prop
  | factoryReset _ => True
  | _ => False

variable (L) in
/-- What there should be: the error byte of the answer, or zero. -/
def ErrorByteRight (call : ErrorCall) (w : ServoWorld ε)
    (out : (ServoBusResult × Option UInt8) × ServoWorld ε) : Prop :=
  if out.1.1 = .ok ∧ call.id ≠ SERVO_PROTOCOL_BROADCAST_ID then
    ∃ request error params, call.request w.bus = some request ∧
      Answered L w.bus request call.id error params out.2.line ∧
      params.length = call.count.toNat ∧ out.1.2 = some error
  else out.1.2 = some 0

theorem run_readValue (errorOut : Option UInt8) (id reg width : UInt8) (value : Option UInt32) :
    ((readValue id reg width value).run L errorOut).run w =
      (fun out => ((out.1.1, out.1.2.2), out.2))
        ((servoBusReadValue L id reg width value errorOut).run w) := rfl

theorem run_writeValue (errorOut : Option UInt8) (id reg : UInt8) (value : UInt32) (width : UInt8) :
    ((writeValue id reg value width).run L errorOut).run w =
      (fun out => ((out.1.result, out.1.error), out.2))
        ((servoBusWriteValue L id reg value width errorOut).run w) := rfl

theorem run_unwidth {call : ErrorCall} (h : call.toBus w.bus = none) (errorOut : Option UInt8) :
    (call.run L errorOut).run w = ((.errInvalidArg, errorOut), w) := by
  cases call with
  | readValue id reg width value =>
    rw [toBus, ite_eq_right_iff] at h
    have hargs : (value.isNone || !servoProtocolWidthOk width) = true := by
      cases value <;> simp_all
    rw [run_readValue, servoBusReadValue, if_pos hargs]
    rfl
  | writeValue id reg value width =>
    rw [toBus, ite_eq_right_iff] at h
    have hargs : (!w.bus.initialised || !servoProtocolWidthOk width) = true := by
      cases hready : w.bus.initialised <;> simp_all
    have hrun : (servoBusWriteValue L id reg value width errorOut).run w =
        (⟨.errInvalidArg, none, errorOut⟩, w) := by
      change StateT.run (ite _ _ _) w = _
      rw [if_pos hargs]
      rfl
    rw [run_writeValue, hrun]
  | _ => exact absurd h nofun

theorem run_toBus {call : ErrorCall} {bus : BusCall} (h : call.toBus w.bus = some bus)
    (errorOut : Option UInt8) :
    (call.run L errorOut).run w =
      (fun out => ((out.1.result, out.1.error), out.2)) ((bus.run L errorOut).run w) := by
  cases call with
  | readValue id reg width value =>
    rw [toBus, Option.ite_none_right_eq_some, Option.some.injEq] at h
    obtain ⟨⟨hvalue, hwidth⟩, rfl⟩ := h
    have hargs : ¬ (value.isNone || !servoProtocolWidthOk width) = true := by
      cases value <;> simp_all
    have hread : Ensures (· = w) (servoBusRead L id reg (some [0, 0, 0, 0]) width errorOut)
        fun reply w' => (servoBusRead L id reg (some [0, 0, 0, 0]) width errorOut).run w =
          (reply, w') := by
      intro w₀ hsame
      rw [hsame]
      rfl
    have hvalue : Ensures (· = w) (servoBusReadValue L id reg width value errorOut) fun out w' =>
        ((out.1, out.2.2), w') = (fun out => ((out.1.result, out.1.error), out.2))
          ((servoBusRead L id reg (some [0, 0, 0, 0]) width errorOut).run w) := by
      unfold servoBusReadValue
      rw [if_neg hargs]
      refine .bind hread fun reply => .ite (fun _ => .pure fun w' hw => ?_) fun hok =>
        .read fun _ => .pure fun w' hw => ?_
      · rw [hw]
      · rw [hw, ← not_not.mp hok]
    exact hvalue w rfl
  | writeValue id reg value width =>
    rw [toBus, Option.ite_none_right_eq_some, Option.some.injEq] at h
    obtain ⟨hargs, rfl⟩ := h
    have hrun : (servoBusWriteValue L id reg value width errorOut).run w =
        (servoBusWrite L id reg (some (servoProtocolEncodeValue value width w.bus.endianness)) width
          errorOut).run w := by
      change StateT.run (ite _ _ _) w = _
      rw [if_neg (by simpa using hargs)]
    rw [run_writeValue, hrun]
    rfl
  | _ =>
    obtain rfl := Option.some.inj h
    rfl

theorem toBus_id {call : ErrorCall} {b : ServoBus} {bus : BusCall} (h : call.toBus b = some bus) :
    bus.id = call.id ∧ bus.count = call.count := by
  cases call with
  | readValue | writeValue =>
    rw [toBus, Option.ite_none_right_eq_some, Option.some.injEq] at h
    obtain ⟨-, rfl⟩ := h
    exact ⟨rfl, rfl⟩
  | _ =>
    obtain rfl := Option.some.inj h
    exact ⟨rfl, rfl⟩

theorem toBus_errorByte {call : ErrorCall} {b : ServoBus} {bus : BusCall}
    (h : call.toBus b = some bus) (old : UInt8) :
    bus.errorByte (some old) = some 0 ↔ old = 0 ∨ call.ClearsFirst := by
  cases call with
  | readValue | writeValue =>
    rw [toBus, Option.ite_none_right_eq_some, Option.some.injEq] at h
    obtain ⟨-, rfl⟩ := h
    simp [BusCall.errorByte, ClearsFirst]
  | _ =>
    obtain rfl := Option.some.inj h
    simp [BusCall.errorByte, ClearsFirst]

theorem toBus_errorByte_isSome {call : ErrorCall} {b : ServoBus} {bus : BusCall}
    (h : call.toBus b = some bus) (old error : UInt8) :
    ((bus.errorByte (some old)).map fun _ => error) = some error := by
  cases call with
  | readValue | writeValue =>
    rw [toBus, Option.ite_none_right_eq_some, Option.some.injEq] at h
    obtain ⟨-, rfl⟩ := h
    rfl
  | _ =>
    obtain rfl := Option.some.inj h
    rfl

end ErrorCall

/-- The error byte is right just where the arguments are accepted, or it was zero before, or it has
been cleared before they were looked at. -/
theorem servo_error_byte_iff (L : Line ε) (call : ErrorCall) (old : UInt8) (w : ServoWorld ε) :
    call.ErrorByteRight L w ((call.run L (some old)).run w) ↔
      (call.request w.bus).isSome ∨ old = 0 ∨ call.ClearsFirst := by
  cases htoBus : call.toBus w.bus with
  | none =>
    have hrefused : call.request w.bus = none := by rw [ErrorCall.request, htoBus]; rfl
    have hlate : ¬ call.ClearsFirst := by
      cases call with
      | factoryReset id => exact absurd htoBus nofun
      | _ => exact fun h => h
    rw [ErrorCall.run_unwidth htoBus, hrefused]
    simp [ErrorCall.ErrorByteRight, hlate]
  | some bus =>
    obtain ⟨hid, hcount⟩ := ErrorCall.toBus_id htoBus
    have hrequest : call.request w.bus = bus.request w.bus := by
      rw [ErrorCall.request, htoBus]
      rfl
    rw [ErrorCall.run_toBus htoBus, hrequest]
    cases hbus : bus.request w.bus with
    | none =>
      rw [BusCall.run_refused hbus]
      simp [ErrorCall.ErrorByteRight, ErrorCall.toBus_errorByte htoBus]
    | some request =>
      rcases hrun : (bus.run L (some old)).run w with ⟨reply, w'⟩
      obtain ⟨hanswered, hunanswered⟩ := BusCall.run_error hbus (some old) hrun
      refine iff_of_true ?_ (.inl rfl)
      rw [hid, hcount] at hanswered
      rw [hid] at hunanswered
      unfold ErrorCall.ErrorByteRight
      split
      · rename_i hok
        obtain ⟨error, params, hreply, hlength, herror⟩ := hanswered hok.1 hok.2
        rw [ErrorCall.toBus_errorByte_isSome htoBus] at herror
        exact ⟨request, error, params, hrequest.trans hbus, hreply, hlength, herror⟩
      · rename_i hfailed
        rw [← ErrorCall.toBus_errorByte_isSome htoBus old 0]
        exact hunanswered hfailed

/-- A broadcast cannot be read; the error byte of the call before is still there. -/
theorem servo_error_byte_stale :
    ¬ ∀ (call : ErrorCall) (old : UInt8) (w : ServoWorld Bool),
      call.ErrorByteRight lateEchoLine w ((call.run lateEchoLine (some old)).run w) := by
  intro h
  have hright := h (.read SERVO_PROTOCOL_BROADCAST_ID 36 (some [0, 0]) 2) 0x20
    ⟨⟨⟨57142, .discard, ⟨273, 112, 57142, 0⟩, true⟩, .little, 1, 0, ⟨0, 0, 0, 0, 0, 0⟩, true⟩, [],
      true⟩
  rw [ErrorCall.ErrorByteRight, if_neg (fun hok => absurd hok.2 (not_not.mpr rfl))] at hright
  exact absurd hright (by decide)

end Pico
