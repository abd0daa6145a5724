import PicoFramework.Proofs.FeetechServo

/-! When the calls that open a servo's EEPROM leave it locked. -/

namespace Pico

open Lib.Hoare

variable {clockHz : UInt32} {late : ℕ → Bool} {b : ServoBus} {id : UInt8}
  {servo servo' : FeetechServo} {replies rest : Stream' Bytes}

section requests

/-- The servo hears what the host sends to this ID. -/
structure Hears (b : ServoBus) (id : UInt8) (servo : FeetechServo) : Prop where
  bus : b.initialised = true
  uart : b.uart.initialised = true
  id_eq : id = servo.id
  rate_eq : b.uart.baudrate = servo.rate

/-- The packet of a write of one byte. -/
def writePacket (id reg value : UInt8) : Bytes := servoPacket id SERVO_INST_WRITE [reg, value]

theorem writeParams_length (reg value : UInt8) :
    [reg, value].length ≤ SERVO_PROTOCOL_MAX_PARAMS := by
  simp [SERVO_PROTOCOL_MAX_PARAMS]

theorem Hears.write (h : Hears b id servo) (reg value : UInt8) :
    servo.hear b.uart.baudrate (writePacket id reg value) = some (servo.writeByte reg value) := by
  rw [writePacket, hear_packet servo b.uart.baudrate SERVO_INST_WRITE (writeParams_length reg value),
    if_pos ⟨h.id_eq, h.rate_eq⟩]
  rfl

theorem Hears.request (h : Hears b id servo) {instruction : UInt8} :
    servo.hear b.uart.baudrate (servoPacket id instruction []) =
      some (servo.execute instruction []) := by
  rw [hear_packet servo b.uart.baudrate instruction (by decide), if_pos ⟨h.id_eq, h.rate_eq⟩]

theorem writeServoRegister_ensures {pre : ServoWorld FeetechEnd → Prop}
    {post : ServoBusResult → ServoWorld FeetechEnd → Prop} (hready : b.initialised = true)
    (hpre : ∀ w, pre w → OnBus b w) (reg value : UInt8)
    (h : Ensures pre (transact (feetechLine clockHz late) (writePacket id reg value) id none 0 none)
      fun reply w => post reply.result w) :
    Ensures pre (writeServoRegister (feetechLine clockHz late) id reg value.toUInt32 1) post := by
  unfold writeServoRegister
  refine Ensures.bind (.of_run (fun w hw => ?_) h) fun reply => .pure fun w hw => hw
  rw [servoBusWriteValue_run ((hpre w hw).initialised_eq.trans hready) id reg value.toUInt32 rfl none,
    servoProtocolEncodeValue_byte]
  rfl

theorem Linked.onBus_of : ∀ w, Linked b servo replies w → OnBus b w := fun _ h => h.onBus

theorem write_acked (hid : id ≠ SERVO_PROTOCOL_BROADCAST_ID) (h : Hears b id servo)
    {reg value : UInt8} (h' : Hears b id (servo.writeByte reg value))
    (hagain : (servo.writeByte reg value).writeByte reg value = servo.writeByte reg value)
    (hacked : acked id (b.maxRetries.toNat + 1) replies = some rest) :
    Ensures (Linked b servo replies)
      (writeServoRegister (feetechLine clockHz late) id reg value.toUInt32 1)
      fun result w => Linked b (servo.writeByte reg value) rest w ∧ result = .ok := by
  refine writeServoRegister_ensures h.bus Linked.onBus_of reg value ?_
  have hhear := h'.write reg value
  rw [hagain] at hhear
  exact transact_acked h.uart hid (servoPacket_ne_nil _ _) (h.write reg value) hhear hacked

theorem write_unacked (hid : id ≠ SERVO_PROTOCOL_BROADCAST_ID) (h : Hears b id servo)
    {reg value : UInt8} (h' : Hears b id (servo.writeByte reg value))
    (hagain : (servo.writeByte reg value).writeByte reg value = servo.writeByte reg value)
    (hacked : acked id (b.maxRetries.toNat + 1) replies = none) :
    Ensures (Linked b servo replies)
      (writeServoRegister (feetechLine clockHz late) id reg value.toUInt32 1)
      fun result w => (∃ left, Linked b (servo.writeByte reg value) left w) ∧ result ≠ .ok := by
  refine writeServoRegister_ensures h.bus Linked.onBus_of reg value ?_
  have hhear := h'.write reg value
  rw [hagain] at hhear
  exact transact_unacked h.uart hid (servoPacket_ne_nil _ _) (h.write reg value) hhear hacked

theorem write_heard (hid : id ≠ SERVO_PROTOCOL_BROADCAST_ID) (h : Hears b id servo)
    {reg value : UInt8} (h' : Hears b id (servo.writeByte reg value))
    (hagain : (servo.writeByte reg value).writeByte reg value = servo.writeByte reg value) :
    Ensures (fun w => ∃ replies, Linked b servo replies w)
      (writeServoRegister (feetechLine clockHz late) id reg value.toUInt32 1)
      fun _ w => ∃ replies, Linked b (servo.writeByte reg value) replies w := by
  rintro w ⟨replies, hw⟩
  cases hacked : acked id (b.maxRetries.toNat + 1) replies with
  | none => exact (write_unacked hid h h' hagain hacked w hw).1
  | some rest => exact ⟨rest, (write_acked hid h h' hagain hacked w hw).1⟩

theorem write_unheard (hid : id ≠ SERVO_PROTOCOL_BROADCAST_ID) (h : ¬ Hears b id servo)
    (reg value : UInt8) :
    Ensures (Linked b servo replies)
      (writeServoRegister (feetechLine clockHz late) id reg value.toUInt32 1)
      fun result w => Linked b servo replies w ∧ result ≠ .ok := by
  cases hbus : b.initialised with
  | false =>
    intro w hw
    have hidle : w.bus.initialised = false := hw.onBus.initialised_eq.trans hbus
    have hrun : (servoBusWriteValue (feetechLine clockHz late) id reg value.toUInt32 1 none).run w =
        (⟨.errInvalidArg, none, none⟩, w) := by
      simp only [servoBusWriteValue, StateT.run_bind, StateT.run_get]
      simp [hidle]
      rfl
    unfold writeServoRegister
    rw [StateT.run_bind, hrun]
    exact ⟨hw, nofun⟩
  | true =>
    refine writeServoRegister_ensures hbus Linked.onBus_of reg value ?_
    cases huart : b.uart.initialised with
    | false => exact transact_dead huart _
    | true =>
      have hhear : servo.hear b.uart.baudrate (writePacket id reg value) = none := by
        rw [writePacket,
          hear_packet servo b.uart.baudrate SERVO_INST_WRITE (writeParams_length reg value)]
        exact if_neg fun hsame => h ⟨hbus, huart, hsame.1, hsame.2⟩
      exact transact_unheard huart hid (servoPacket_ne_nil _ _) hhear

end requests

section lock

theorem FeetechServo.writeByte_lock (servo : FeetechServo) (value : UInt8) :
    servo.writeByte FEETECH_REG_LOCK value = { servo with lock := value } := by
  have heeprom : feetechRegisterIsEeprom 0x37 = false := by decide
  simp [FeetechServo.writeByte, heeprom, FEETECH_REG_LOCK, FEETECH_REG_ID, FEETECH_REG_BAUD_RATE]

theorem FeetechServo.writeByte_id (hopen : servo.lock = FEETECH_LOCK_OPEN) (value : UInt8) :
    servo.writeByte FEETECH_REG_ID value = { servo with id := value } := by
  simp [FeetechServo.writeByte, hopen]

theorem FeetechServo.writeByte_baudRate (hopen : servo.lock = FEETECH_LOCK_OPEN) (value : UInt8) :
    servo.writeByte FEETECH_REG_BAUD_RATE value =
      { servo with rate := feetechBaudIndexToRate value } := by
  simp [FeetechServo.writeByte, hopen, FEETECH_REG_BAUD_RATE, FEETECH_REG_ID]

theorem FeetechServo.writeByte_mode (servo : FeetechServo) (value : UInt8) :
    servo.writeByte FEETECH_REG_MODE value = servo := by
  simp [FeetechServo.writeByte, FEETECH_REG_MODE, FEETECH_REG_ID, FEETECH_REG_BAUD_RATE,
    FEETECH_REG_LOCK]

theorem FeetechServo.open_not_locked (servo : FeetechServo) :
    ¬ { servo with lock := FEETECH_LOCK_OPEN }.Locked := by
  simp [FeetechServo.Locked, FEETECH_LOCK_OPEN, FEETECH_LOCK_CLOSED]

theorem Hears.relock (h : Hears b id servo) (value : UInt8) :
    Hears b id { servo with lock := value } :=
  ⟨h.bus, h.uart, h.id_eq, h.rate_eq⟩

theorem writeLock_again (servo : FeetechServo) (value : UInt8) :
    (servo.writeByte FEETECH_REG_LOCK value).writeByte FEETECH_REG_LOCK value =
      servo.writeByte FEETECH_REG_LOCK value := by
  rw [FeetechServo.writeByte_lock, FeetechServo.writeByte_lock]

theorem Hears.writeLock (h : Hears b id servo) (value : UInt8) :
    Hears b id (servo.writeByte FEETECH_REG_LOCK value) := by
  rw [FeetechServo.writeByte_lock]
  exact h.relock value

theorem lock_heard (hid : id ≠ SERVO_PROTOCOL_BROADCAST_ID) (h : Hears b id servo) :
    Ensures (fun w => ∃ replies, Linked b servo replies w)
      (feetechLockEeprom (feetechLine clockHz late) id) fun _ w => w.line.servo.Locked := by
  refine (write_heard hid h (h.writeLock _) (writeLock_again _ _)).mono ?_
  rintro _ w ⟨replies, hw⟩
  rw [hw.servo_eq, FeetechServo.writeByte_lock]
  rfl

theorem lock_unheard (hid : id ≠ SERVO_PROTOCOL_BROADCAST_ID) (h : ¬ Hears b id servo) :
    Ensures (fun w => ∃ replies, Linked b servo replies w)
      (feetechLockEeprom (feetechLine clockHz late) id) fun _ w => w.line.servo = servo := by
  rintro w ⟨replies, hw⟩
  exact (write_unheard hid h _ _ w hw).1.servo_eq

/-- What comes after the unlock, which is all there is when the unlock is not acknowledged: a servo
that has executed it is left open. -/
theorem unlock_then (hid : id ≠ SERVO_PROTOCOL_BROADCAST_ID)
    {call : BusM FeetechEnd ServoBusResult} {relocks : Stream' Bytes → Prop}
    (hcall : Hears b id servo → ∀ rest,
      Ensures (Linked b { servo with lock := FEETECH_LOCK_OPEN } rest) call
        fun _ w => w.line.servo.Locked ↔ relocks rest) :
    Ensures (Linked b servo replies)
      (feetechUnlockEeprom (feetechLine clockHz late) id >>= fun unlocked =>
        if unlocked ≠ .ok then pure unlocked else call)
      fun _ w => w.line.servo.Locked ↔
        (Hears b id servo ∧ ∃ rest, acked id (b.maxRetries.toNat + 1) replies = some rest ∧
          relocks rest) ∨ (¬ Hears b id servo ∧ servo.Locked) := by
  by_cases h : Hears b id servo
  · have hgoal : ∀ c : Prop, (Hears b id servo ∧ c) ∨ (¬ Hears b id servo ∧ servo.Locked) ↔ c := by
      intro c
      simp [h]
    simp only [hgoal]
    cases hacked : acked id (b.maxRetries.toNat + 1) replies with
    | none =>
      refine .bind (write_unacked hid h (h.writeLock _) (writeLock_again _ _) hacked)
        fun unlocked => .assume fun hfailed => ?_
      refine .ite (fun _ => .pure ?_) fun hok => absurd hfailed hok
      rintro w ⟨left, hw⟩
      rw [hw.servo_eq, FeetechServo.writeByte_lock]
      exact iff_of_false (FeetechServo.open_not_locked servo) nofun
    | some rest =>
      refine .bind (write_acked hid h (h.writeLock _) (writeLock_again _ _) hacked)
        fun unlocked => .assume fun hok => ?_
      refine .ite (fun hfailed => absurd hok hfailed) fun _ => ?_
      rw [FeetechServo.writeByte_lock]
      refine (hcall h rest).mono fun _ w hw => hw.trans ?_
      simp
  · have hgoal : ∀ c : Prop,
        (Hears b id servo ∧ c) ∨ (¬ Hears b id servo ∧ servo.Locked) ↔ servo.Locked := by
      intro c
      simp [h]
    simp only [hgoal]
    refine .bind (write_unheard hid h _ _) fun unlocked => .assume fun hfailed => ?_
    refine .ite (fun _ => .pure fun w hw => ?_) fun hok => absurd hfailed hok
    rw [hw.servo_eq]

end lock

section mode

theorem setMode_locked (hid : id ≠ SERVO_PROTOCOL_BROADCAST_ID) (mode : UInt8) :
    Ensures (Linked b servo replies) (feetechSetMode (feetechLine clockHz late) id mode)
      fun _ w => w.line.servo.Locked ↔
        (Hears b id servo ∧ ∃ rest, acked id (b.maxRetries.toNat + 1) replies = some rest ∧ True) ∨
          (¬ Hears b id servo ∧ servo.Locked) := by
  refine unlock_then hid fun h rest => ?_
  have hopen := h.relock FEETECH_LOCK_OPEN
  have hsame := FeetechServo.writeByte_mode { servo with lock := FEETECH_LOCK_OPEN } mode
  refine .bind (.weaken (write_heard hid hopen (hsame.symm ▸ hopen) (by rw [hsame, hsame])) ?_)
    fun written => ?_
  · exact fun w hw => ⟨rest, hw⟩
  rw [hsame]
  exact .bind (lock_heard hid hopen) fun relocked => .pure fun w hw => iff_of_true hw trivial

end mode

section identity

theorem newId_ne {newId : UInt8} (h : ¬ newId.toNat > FEETECH_ID_MAX) :
    newId ≠ SERVO_PROTOCOL_BROADCAST_ID := by
  rintro rfl
  exact h (by decide)

theorem setId_same (hid : id ≠ SERVO_PROTOCOL_BROADCAST_ID) (h : Hears b id servo)
    (hopen : servo.lock = FEETECH_LOCK_OPEN) :
    Ensures (Linked b servo replies)
      (writeServoRegister (feetechLine clockHz late) id FEETECH_REG_ID id.toUInt32 1)
      fun _ w => ∃ replies, Linked b servo replies w := by
  have hsame : servo.writeByte FEETECH_REG_ID id = servo := by
    rw [FeetechServo.writeByte_id hopen, h.id_eq]
  refine .mono (.weaken (write_heard hid h (hsame.symm ▸ h) (by rw [hsame, hsame])) ?_) ?_
  · exact fun w hw => ⟨replies, hw⟩
  · rw [hsame]
    exact fun _ _ hw => hw

theorem setId_moved (hid : id ≠ SERVO_PROTOCOL_BROADCAST_ID) (h : Hears b id servo)
    (hopen : servo.lock = FEETECH_LOCK_OPEN) {newId : UInt8} (hmoved : newId ≠ id) :
    Ensures (Linked b servo replies)
      (writeServoRegister (feetechLine clockHz late) id FEETECH_REG_ID newId.toUInt32 1)
      fun result w => Linked b { servo with id := newId } replies.tail w ∧
        (result = .ok ↔ acknowledges id replies.head = true) := by
  refine writeServoRegister_ensures h.bus Linked.onBus_of FEETECH_REG_ID newId ?_
  have hhear := h.write FEETECH_REG_ID newId
  rw [FeetechServo.writeByte_id hopen] at hhear
  have hgone : FeetechServo.hear { servo with id := newId } b.uart.baudrate
      (writePacket id FEETECH_REG_ID newId) = none := by
    rw [writePacket, hear_packet _ _ _ (writeParams_length _ _)]
    exact if_neg fun hsame => hmoved hsame.1.symm
  exact transact_once h.uart hid (servoPacket_ne_nil _ _) hhear hgone

theorem setId_locked (hid : id ≠ SERVO_PROTOCOL_BROADCAST_ID) {newId : UInt8}
    (hnew : newId.toNat ≤ FEETECH_ID_MAX) :
    Ensures (Linked b servo replies) (feetechSetId (feetechLine clockHz late) id newId)
      fun _ w => w.line.servo.Locked ↔
        (Hears b id servo ∧ ∃ rest, acked id (b.maxRetries.toNat + 1) replies = some rest ∧
          (newId = id ∨ acknowledges id rest.head = true)) ∨
        (¬ Hears b id servo ∧ servo.Locked) := by
  unfold feetechSetId
  refine .ite (fun hlarge => absurd hnew (Nat.not_le.mpr hlarge)) fun hvalid => ?_
  refine unlock_then hid fun h rest => ?_
  have hopen := h.relock FEETECH_LOCK_OPEN
  by_cases hmoved : newId = id
  · subst hmoved
    refine .bind (setId_same hid hopen rfl) fun written => ?_
    have hlocked : Ensures (fun w => ∃ replies, Linked b { servo with lock := FEETECH_LOCK_OPEN } replies w)
        (feetechLockEeprom (feetechLine clockHz late) newId) fun _ w => w.line.servo.Locked ↔
          newId = newId ∨ acknowledges newId rest.head = true :=
      (lock_heard hid hopen).mono fun _ w hw => iff_of_true hw (.inl rfl)
    exact .ite (fun _ => .bind hlocked fun _ => .pure fun w hw => hw) fun _ => hlocked
  · refine .bind (setId_moved hid hopen rfl hmoved) fun written => .assume fun hwritten => ?_
    refine .ite (fun hfailed => ?_) fun hok => ?_
    · have hgone : ¬ Hears b id { servo with id := newId, lock := FEETECH_LOCK_OPEN } :=
        fun hears => hmoved hears.id_eq.symm
      refine .bind (.weaken (lock_unheard hid hgone) fun w hw => ⟨_, hw⟩) fun _ => .pure fun w hw => ?_
      rw [hw]
      refine iff_of_false (FeetechServo.open_not_locked { servo with id := newId }) ?_
      rintro (hsame | hacked)
      · exact hmoved hsame
      · exact hfailed (hwritten.mpr hacked)
    · have hears : Hears b newId { servo with id := newId, lock := FEETECH_LOCK_OPEN } :=
        ⟨h.bus, h.uart, rfl, h.rate_eq⟩
      refine (Ensures.weaken (lock_heard (newId_ne hvalid) hears) fun w hw => ⟨_, hw⟩).mono
        fun _ w hw => iff_of_true hw (.inr (hwritten.mp (not_not.mp hok)))

end identity

section rates

/-- What comes after the host has been asked whether it reaches a rate. -/
theorem probe_locked {baudrate : UInt32} {call : UInt32 → BusM FeetechEnd ServoBusResult} {c : Prop}
    (hcall : (feetechLine clockHz late).Reaches b baudrate →
      (feetechLine clockHz late).Reaches b b.uart.baudrate → ∀ timing,
      Ensures (Linked (b.clocked b.uart.baudrate timing) servo replies) (call b.uart.baudrate)
        fun _ w => w.line.servo.Locked ↔ c) :
    Ensures (Linked b servo replies)
      (servoBusGetBaudrate >>= fun previous =>
        servoBusSetBaudrate (feetechLine clockHz late) baudrate >>= fun reachable =>
        if reachable ≠ .ok then pure reachable else
        servoBusSetBaudrate (feetechLine clockHz late) previous >>= fun restored =>
        if restored ≠ .ok then pure restored else call previous)
      fun _ w => w.line.servo.Locked ↔
        (((feetechLine clockHz late).Reaches b baudrate ∧
          (feetechLine clockHz late).Reaches b b.uart.baudrate) ∧ c) ∨
        (¬ ((feetechLine clockHz late).Reaches b baudrate ∧
          (feetechLine clockHz late).Reaches b b.uart.baudrate) ∧ servo.Locked) := by
  refine probe_then (fun hreach hback timing => ?_) fun hrefused result w hw => ?_
  · refine (hcall hreach hback timing).mono fun _ w hw => hw.trans ?_
    simp [hreach, hback]
  · rw [hw.1]
    tauto

theorem hears_clocked (timing : HalfDuplexUartTiming) :
    Hears (b.clocked b.uart.baudrate timing) id servo ↔ Hears b id servo :=
  ⟨fun h => ⟨h.bus, h.uart, h.id_eq, h.rate_eq⟩, fun h => ⟨h.bus, h.uart, h.id_eq, h.rate_eq⟩⟩

theorem Hears.ping (h : Hears b id servo) :
    servo.hear b.uart.baudrate (servoPacket id SERVO_INST_PING []) = some servo := by
  rw [h.request]
  simp [FeetechServo.execute, SERVO_INST_PING, SERVO_INST_WRITE, SERVO_INST_RESET]

theorem Hears.reset (h : Hears b id servo) :
    servo.hear b.uart.baudrate (servoPacket id SERVO_INST_RESET []) = some FeetechServo.factory := by
  rw [h.request]
  simp [FeetechServo.execute, SERVO_INST_WRITE, SERVO_INST_RESET]

theorem servoBusPing_ensures {pre : ServoWorld FeetechEnd → Prop}
    {post : ServoReply → ServoWorld FeetechEnd → Prop} (hready : b.initialised = true)
    (hpre : ∀ w, pre w → OnBus b w)
    (h : Ensures pre
      (transact (feetechLine clockHz late) (servoPacket id SERVO_INST_PING []) id none 0 none) post) :
    Ensures pre (servoBusPing (feetechLine clockHz late) id none) post := by
  refine .of_run (fun w hw => ?_) h
  have hinit : w.bus.initialised = true := (hpre w hw).initialised_eq.trans hready
  unfold servoBusPing servoProtocolBuildPing
  rw [servoProtocolBuild_eq (Nat.zero_le _)]
  simp [hinit]

theorem ping_acked (hid : id ≠ SERVO_PROTOCOL_BROADCAST_ID) (h : Hears b id servo)
    (hacked : acked id (b.maxRetries.toNat + 1) replies = some rest) :
    Ensures (Linked b servo replies) (servoBusPing (feetechLine clockHz late) id none)
      fun reply w => Linked b servo rest w ∧ reply.result = .ok :=
  servoBusPing_ensures h.bus Linked.onBus_of
    (transact_acked h.uart hid (servoPacket_ne_nil _ _) h.ping h.ping hacked)

theorem ping_unacked (hid : id ≠ SERVO_PROTOCOL_BROADCAST_ID) (h : Hears b id servo)
    (hacked : acked id (b.maxRetries.toNat + 1) replies = none) :
    Ensures (Linked b servo replies) (servoBusPing (feetechLine clockHz late) id none)
      fun reply w => (∃ left, Linked b servo left w) ∧ reply.result ≠ .ok :=
  servoBusPing_ensures h.bus Linked.onBus_of
    (transact_unacked h.uart hid (servoPacket_ne_nil _ _) h.ping h.ping hacked)

/-- The servo goes to the rate of that index as the write lands, whatever comes of the reply. -/
theorem writeBaudRate_once (hid : id ≠ SERVO_PROTOCOL_BROADCAST_ID) (h : Hears b id servo)
    (hopen : servo.lock = FEETECH_LOCK_OPEN) (index : UInt8) :
    Ensures (Linked b servo replies)
      (withoutRetries (writeServoRegister (feetechLine clockHz late) id FEETECH_REG_BAUD_RATE
        index.toUInt32 1))
      fun result w => Linked b { servo with rate := feetechBaudIndexToRate index } replies.tail w ∧
        WentOut result := by
  have hbare : Hears { b with maxRetries := 0 } id servo := ⟨h.bus, h.uart, h.id_eq, h.rate_eq⟩
  refine withoutRetries_beside (writeServoRegister_ensures hbare.bus Linked.onBus_of _ index ?_)
  have hhear := hbare.write FEETECH_REG_BAUD_RATE index
  rw [FeetechServo.writeByte_baudRate hopen] at hhear
  exact transact_single h.uart rfl hid (servoPacket_ne_nil _ _) hhear

theorem Ensures.retreat (hid : id ≠ SERVO_PROTOCOL_BROADCAST_ID) {previous : UInt32}
    (hback : (feetechLine clockHz late).Reaches b previous) {result : ServoBusResult} :
    Ensures (fun w => ∃ replies, Linked b servo replies w)
      (servoBusSetBaudrate (feetechLine clockHz late) previous >>= fun _ =>
        feetechLockEeprom (feetechLine clockHz late) id >>= fun _ => pure result)
      fun _ w => w.line.servo.Locked ↔ (id = servo.id ∧ servo.rate = previous) ∨ servo.Locked := by
  refine .any fun replies => .bind (setBaudrate_beside previous) fun _ => ?_
  rintro w (⟨-, -, timing, hw⟩ | ⟨-, hrefused, -⟩)
  · by_cases hears : Hears (b.clocked previous timing) id servo
    · exact iff_of_true (lock_heard hid hears w ⟨replies, hw⟩)
        (.inl ⟨hears.id_eq, hears.rate_eq.symm⟩)
    · have hsame : ((feetechLockEeprom (feetechLine clockHz late) id).run w).2.line.servo = servo :=
        lock_unheard hid hears w ⟨replies, hw⟩
      have hgone : ¬ (id = servo.id ∧ servo.rate = previous) :=
        fun h => hears ⟨hback.1, hback.2.1, h.1, h.2.symm⟩
      rw [or_iff_right hgone, ← hsame]
      rfl
  · exact absurd hback hrefused

theorem setBaudrate_locked (hid : id ≠ SERVO_PROTOCOL_BROADCAST_ID) {rate : UInt32} {index : UInt8}
    (hindex : feetechRateToBaudIndex rate = some index) :
    Ensures (Linked b servo replies) (feetechSetBaudrate (feetechLine clockHz late) id rate)
      fun _ w => w.line.servo.Locked ↔
        (((feetechLine clockHz late).Reaches b (feetechBaudIndexToRate index) ∧
          (feetechLine clockHz late).Reaches b b.uart.baudrate) ∧
          ((Hears b id servo ∧ ∃ rest, acked id (b.maxRetries.toNat + 1) replies = some rest ∧
            (feetechBaudIndexToRate index = b.uart.baudrate ∨
              (acked id (b.maxRetries.toNat + 1) rest.tail).isSome = true)) ∨
          (¬ Hears b id servo ∧ servo.Locked))) ∨
        (¬ ((feetechLine clockHz late).Reaches b (feetechBaudIndexToRate index) ∧
          (feetechLine clockHz late).Reaches b b.uart.baudrate) ∧ servo.Locked) := by
  unfold feetechSetBaudrate
  rw [hindex]
  refine probe_locked fun hreach hback timing => ?_
  have hhears : Hears (b.clocked b.uart.baudrate timing) id servo ↔ Hears b id servo :=
    hears_clocked timing
  rw [← hhears]
  refine unlock_then hid fun h rest => ?_
  refine .bind (writeBaudRate_once hid (h.relock _) rfl index) fun written => .assume fun hwent => ?_
  refine .ite (fun hfailed => absurd hfailed (not_or.mpr hwent)) fun _ => ?_
  refine setBaudrate_then (fun _ timing' => ?_) fun hrefused => absurd hreach hrefused
  refine .ite (fun hbroadcast => absurd hbroadcast hid) fun _ => ?_
  have hthere : Hears ((b.clocked b.uart.baudrate timing).clocked (feetechBaudIndexToRate index)
      timing') id { servo with rate := feetechBaudIndexToRate index, lock := FEETECH_LOCK_OPEN } :=
    ⟨h.bus, h.uart, h.id_eq, rfl⟩
  cases hacked : acked id (b.maxRetries.toNat + 1) rest.tail with
  | some left =>
    refine .bind (ping_acked hid hthere hacked) fun answered => .assume fun hok => ?_
    refine .ite (fun hfailed => absurd hok hfailed) fun _ => ?_
    refine (Ensures.weaken (lock_heard hid hthere) fun w hw => ⟨left, hw⟩).mono fun _ w hw => ?_
    exact iff_of_true hw (.inr rfl)
  | none =>
    refine .bind (ping_unacked hid hthere hacked) fun answered => .assume fun hfailed => ?_
    refine .ite (fun _ => ?_) fun hok => absurd hfailed hok
    have hreach' : (feetechLine clockHz late).Reaches ((b.clocked b.uart.baudrate timing).clocked
        (feetechBaudIndexToRate index) timing') b.uart.baudrate := hback
    refine (Ensures.retreat hid hreach').mono fun _ w hw => hw.trans ?_
    constructor
    · rintro (⟨-, hsame⟩ | hlocked)
      · exact .inl hsame
      · exact absurd hlocked (FeetechServo.open_not_locked
          { servo with rate := feetechBaudIndexToRate index })
    · rintro (hsame | hanswered)
      · exact .inl ⟨h.id_eq, hsame⟩
      · exact absurd hanswered nofun

end rates

section reset

theorem factory_locked : FeetechServo.factory.Locked := rfl

/-- The servo is as it left the factory, whatever comes of the reply. -/
theorem reset_once (hid : id ≠ SERVO_PROTOCOL_BROADCAST_ID) (h : Hears b id servo) :
    Ensures (Linked b servo replies) (servoBusFactoryReset (feetechLine clockHz late) id none)
      fun reply w => Linked b FeetechServo.factory replies.tail w ∧ WentOut reply.result := by
  have hbare : Hears { b with maxRetries := 0 } id servo := ⟨h.bus, h.uart, h.id_eq, h.rate_eq⟩
  have hcall : Ensures (Linked b servo replies)
      (withoutRetries (transact (feetechLine clockHz late) (servoPacket id SERVO_INST_RESET []) id
        none 0 none))
      fun reply w => Linked b FeetechServo.factory replies.tail w ∧ WentOut reply.result :=
    withoutRetries_beside (transact_single h.uart rfl hid (servoPacket_ne_nil _ _) hbare.reset)
  refine .of_run (fun w hw => ?_) hcall
  have hinit : w.bus.initialised = true := hw.onBus.initialised_eq.trans h.bus
  unfold servoBusFactoryReset
  rw [servoProtocolBuild_eq (Nat.zero_le _)]
  simp [hinit]

theorem pollReset_factory (hears : Hears b FEETECH_DEFAULT_ID FeetechServo.factory) (left : ℕ) :
    Ensures (fun w => ∃ replies, Linked b FeetechServo.factory replies w)
      (pollReset (feetechLine clockHz late) FEETECH_DEFAULT_ID left)
      fun _ w => ∃ replies, Linked b FeetechServo.factory replies w := by
  have hid : FEETECH_DEFAULT_ID ≠ SERVO_PROTOCOL_BROADCAST_ID := by decide
  induction left with
  | zero => exact .pure fun w hw => hw
  | succ left ih =>
    unfold pollReset
    have hsleep : Ensures (fun w => ∃ replies, Linked b FeetechServo.factory replies w)
        (modify fun w => { w with line := (feetechLine clockHz late).sleepMs 50 w.line } :
          BusM FeetechEnd Unit)
        fun _ w => ∃ replies, Linked b FeetechServo.factory replies w :=
      .modify fun w ⟨replies, hw⟩ => ⟨replies, hw.onBus, hw.servo_eq, hw.replies_eq⟩
    have hping : Ensures (fun w => ∃ replies, Linked b FeetechServo.factory replies w)
        (servoBusPing (feetechLine clockHz late) FEETECH_DEFAULT_ID none)
        fun _ w => ∃ replies, Linked b FeetechServo.factory replies w := by
      refine .any fun replies => ?_
      cases hacked : acked FEETECH_DEFAULT_ID (b.maxRetries.toNat + 1) replies with
      | none => exact (ping_unacked hid hears hacked).mono fun _ _ h => h.1
      | some rest => exact (ping_acked hid hears hacked).mono fun _ _ h => ⟨rest, h.1⟩
    refine .bind hsleep fun _ => .bind hping fun reply => ?_
    refine .ite (fun _ => .pure fun w hw => hw) fun _ => .read fun w => ?_
    exact .ite (fun _ => .pure fun w hw => hw) fun _ => ih

theorem factoryReset_locked (hid : id ≠ SERVO_PROTOCOL_BROADCAST_ID) :
    Ensures (Linked b servo replies) (feetechFactoryReset (feetechLine clockHz late) id)
      fun _ w => w.line.servo.Locked ↔
        (((feetechLine clockHz late).Reaches b FEETECH_DEFAULT_BAUDRATE ∧
          (feetechLine clockHz late).Reaches b b.uart.baudrate) ∧
          ((Hears b id servo ∧ ∃ rest, acked id (b.maxRetries.toNat + 1) replies = some rest ∧
            True) ∨
          (¬ Hears b id servo ∧ servo.Locked))) ∨
        (¬ ((feetechLine clockHz late).Reaches b FEETECH_DEFAULT_BAUDRATE ∧
          (feetechLine clockHz late).Reaches b b.uart.baudrate) ∧ servo.Locked) := by
  unfold feetechFactoryReset
  refine .ite (fun hbroadcast => absurd hbroadcast hid) fun _ => ?_
  refine probe_locked fun hreach hback timing => ?_
  have hhears : Hears (b.clocked b.uart.baudrate timing) id servo ↔ Hears b id servo :=
    hears_clocked timing
  rw [← hhears]
  refine unlock_then hid fun h rest => ?_
  refine .bind (reset_once hid (h.relock _)) fun sent => .assume fun hwent => ?_
  refine .ite (fun hfailed => absurd hfailed (not_or.mpr hwent)) fun _ => ?_
  refine setBaudrate_then (fun _ timing' => ?_) fun hrefused => absurd hreach hrefused
  have hthere : Hears ((b.clocked b.uart.baudrate timing).clocked FEETECH_DEFAULT_BAUDRATE timing')
      FEETECH_DEFAULT_ID FeetechServo.factory := ⟨h.bus, h.uart, rfl, rfl⟩
  refine .bind (.weaken (pollReset_factory hthere _) fun w hw => ⟨_, hw⟩) fun answered => ?_
  refine .ite (fun _ => .pure ?_) fun _ => ?_
  · rintro w ⟨left, hw⟩
    rw [hw.servo_eq]
    exact iff_of_true factory_locked trivial
  · have hreach' : (feetechLine clockHz late).Reaches ((b.clocked b.uart.baudrate timing).clocked
        FEETECH_DEFAULT_BAUDRATE timing') b.uart.baudrate := hback
    exact (Ensures.retreat hid hreach').mono fun _ w hw =>
      iff_of_true (hw.mpr (.inr factory_locked)) trivial

end reset

section calls

/-- The calls that open the EEPROM. -/
inductive FeetechCall where
  | setId (newId : UInt8)
  | setMode (mode : UInt8)
  | setBaudrate (rate : UInt32)
  | factoryReset

namespace FeetechCall

variable {ε : Type} (L : Line ε)

def run (id : UInt8) : FeetechCall → BusM ε ServoBusResult
  | .setId newId => feetechSetId L id newId
  | .setMode mode => feetechSetMode L id mode
  | .setBaudrate rate => feetechSetBaudrate L id rate
  | .factoryReset => feetechFactoryReset L id

/-- What the call asks for can be had: it goes on to open the EEPROM. -/
def Allowed (b : ServoBus) : FeetechCall → Prop
  | .setId newId => newId.toNat ≤ FEETECH_ID_MAX
  | .setMode _ => True
  | .setBaudrate rate =>
      ∃ index, feetechRateToBaudIndex rate = some index ∧
        L.Reaches b (feetechBaudIndexToRate index) ∧ L.Reaches b b.uart.baudrate
  | .factoryReset => L.Reaches b FEETECH_DEFAULT_BAUDRATE ∧ L.Reaches b b.uart.baudrate

/-- The replies that follow the one to the unlock let the call find the servo where it now is. -/
def Follows (b : ServoBus) (id : UInt8) (rest : Stream' Bytes) : FeetechCall → Prop
  | .setId newId => newId = id ∨ acknowledges id rest.head = true
  | .setMode _ => True
  | .setBaudrate rate =>
      (∃ index, feetechRateToBaudIndex rate = some index ∧
        feetechBaudIndexToRate index = b.uart.baudrate) ∨
      (acked id (b.maxRetries.toNat + 1) rest.tail).isSome = true
  | .factoryReset => True

/-- The servo hears the call, and its replies let the call lock it again. -/
def Relocks (b : ServoBus) (id : UInt8) (call : FeetechCall) (replies : Stream' Bytes) : Prop :=
  ∃ rest, acked id (b.maxRetries.toNat + 1) replies = some rest ∧ call.Follows b id rest

end FeetechCall

theorem opened_cases {allowed hears relocks locked : Prop} :
    (allowed ∧ ((hears ∧ relocks) ∨ (¬ hears ∧ locked))) ∨ (¬ allowed ∧ locked) ↔
      ((allowed ∧ hears) ∧ relocks) ∨ (¬ (allowed ∧ hears) ∧ locked) := by
  tauto

/-- A servo is locked after a call that opened it just when its replies let the call follow it; one
that the call did not open is as it was. -/
theorem feetechCall_locked_iff (clockHz : UInt32) (late : ℕ → Bool) (call : FeetechCall)
    (id : UInt8) (hid : id ≠ SERVO_PROTOCOL_BROADCAST_ID) (w : ServoWorld FeetechEnd) :
    ((call.run (feetechLine clockHz late) id).run w).2.line.servo.Locked ↔
      ((call.Allowed (feetechLine clockHz late) w.bus ∧ Hears w.bus id w.line.servo) ∧
        call.Relocks w.bus id w.line.replies) ∨
      (¬ (call.Allowed (feetechLine clockHz late) w.bus ∧ Hears w.bus id w.line.servo) ∧
        w.line.servo.Locked) := by
  have hstart : Linked w.bus w.line.servo w.line.replies w := ⟨.self w, rfl, rfl⟩
  cases call with
  | setId newId =>
    by_cases hnew : newId.toNat ≤ FEETECH_ID_MAX
    · refine (setId_locked hid hnew w hstart).trans ?_
      simp [FeetechCall.Allowed, FeetechCall.Relocks, FeetechCall.Follows, hnew]
    · have hrefused : ((feetechSetId (feetechLine clockHz late) id newId).run w).2 = w := by
        rw [feetechSetId, if_pos (Nat.not_le.mp hnew)]
        rfl
      rw [FeetechCall.run, hrefused]
      simp [FeetechCall.Allowed, hnew]
  | setMode mode =>
    refine (setMode_locked hid mode w hstart).trans ?_
    simp [FeetechCall.Allowed, FeetechCall.Relocks, FeetechCall.Follows]
  | setBaudrate rate =>
    cases hindex : feetechRateToBaudIndex rate with
    | none =>
      have hrefused : ((feetechSetBaudrate (feetechLine clockHz late) id rate).run w).2 = w := by
        rw [feetechSetBaudrate, hindex]
        rfl
      rw [FeetechCall.run, hrefused]
      simp [FeetechCall.Allowed, hindex]
    | some index =>
      refine (setBaudrate_locked hid hindex w hstart).trans ?_
      simp only [FeetechCall.Allowed, FeetechCall.Relocks, FeetechCall.Follows, hindex,
        Option.some.injEq, exists_eq_left']
      exact opened_cases
  | factoryReset =>
    refine (factoryReset_locked hid w hstart).trans ?_
    exact opened_cases

/-- The servo with the factory settings, on a bus of one attempt at its rate. -/
def factoryServo (replies : Stream' Bytes) : ServoWorld FeetechEnd where
  bus := {
    uart := ⟨FEETECH_DEFAULT_BAUDRATE, .discard, ⟨1, 0, FEETECH_DEFAULT_BAUDRATE, 0⟩, true⟩
    endianness := .little
    maxRetries := 0
    responseTimeoutUs := 5000
    stats := ⟨0, 0, 0, 0, 0, 0⟩
    initialised := true }
  sent := []
  line := ⟨FeetechServo.factory, [], replies, 0⟩

/-- The status packet of servo 1. -/
def factoryReply : Bytes := [0xFF, 0xFF, 0x01, 0x02, 0x00, 0xFC]

theorem acked_head (h : acknowledges id replies.head = true) (n : ℕ) :
    acked id (n + 1) replies = some replies.tail := if_pos h

theorem acknowledges_factoryReply : acknowledges FEETECH_DEFAULT_ID factoryReply = true := by
  decide

theorem feetechCall_locked_setId :
    (((FeetechCall.setId 2).run (feetechLine 125000000 fun _ => false) FEETECH_DEFAULT_ID).run
      (factoryServo (Stream'.const factoryReply))).2.line.servo.Locked := by
  have hacked : acked FEETECH_DEFAULT_ID 1 (Stream'.const factoryReply) =
      some (Stream'.const factoryReply) := acked_head acknowledges_factoryReply 0
  refine (feetechCall_locked_iff 125000000 (fun _ => false) (.setId 2) FEETECH_DEFAULT_ID
    (by decide) (factoryServo (Stream'.const factoryReply))).mpr (.inl ⟨⟨?_, ?_⟩, ?_⟩)
  · exact Nat.le_of_ble_eq_true rfl
  · exact ⟨rfl, rfl, rfl, rfl⟩
  · exact ⟨Stream'.const factoryReply, hacked, .inr acknowledges_factoryReply⟩

/-- The unlock is acknowledged, and the reply to the new ID is lost: the servo has moved, and the
relock goes to the old ID. -/
theorem setId_strands : ¬ ∀ (clockHz : UInt32) (late : ℕ → Bool) (call : FeetechCall) (id : UInt8),
    id ≠ SERVO_PROTOCOL_BROADCAST_ID → ∀ w : ServoWorld FeetechEnd,
      ((call.run (feetechLine clockHz late) id).run w).2.line.servo.Locked := by
  intro h
  let replies : Stream' Bytes := Stream'.cons factoryReply (Stream'.const [])
  have hid : FEETECH_DEFAULT_ID ≠ SERVO_PROTOCOL_BROADCAST_ID := by decide
  have hlocked := h 125000000 (fun _ => false) (.setId 2) FEETECH_DEFAULT_ID hid
    (factoryServo replies)
  have hnew : (2 : UInt8).toNat ≤ FEETECH_ID_MAX := by decide
  have hears : Hears (factoryServo replies).bus FEETECH_DEFAULT_ID FeetechServo.factory :=
    ⟨rfl, rfl, rfl, rfl⟩
  have hstart : Linked (factoryServo replies).bus FeetechServo.factory replies (factoryServo replies) :=
    ⟨.self _, rfl, rfl⟩
  have hset : Ensures (Linked (factoryServo replies).bus FeetechServo.factory replies)
      (feetechSetId (feetechLine 125000000 fun _ => false) FEETECH_DEFAULT_ID 2) _ :=
    setId_locked hid hnew
  have hends := hset _ hstart
  rw [FeetechCall.run] at hlocked
  rcases hends.mp hlocked with ⟨-, rest, hacked, hfollows⟩ | ⟨hdeaf, -⟩
  · have hfirst : acked FEETECH_DEFAULT_ID 1 replies = some (Stream'.const []) :=
      acked_head acknowledges_factoryReply 0
    obtain rfl := Option.some.inj (hfirst.symm.trans hacked)
    exact absurd hfollows (by decide)
  · exact hdeaf hears

end calls

end Pico
