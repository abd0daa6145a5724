import PicoFramework.Proofs.ServoBus
import PicoFramework.Proofs.ServoStream
import PicoFramework.Spec.FeetechServo

/-! What a transaction does to a servo, and which replies it takes for an acknowledgement. -/

namespace Pico

open Lib.Hoare

variable {clockHz : UInt32} {late : ℕ → Bool} {b : ServoBus} {e : FeetechEnd} {id : UInt8}

/-- The first bytes of a reply are a status packet of that servo. -/
def acknowledges (id : UInt8) (reply : Bytes) : Bool :=
  match servoProtocolParseStatus (reply.take SERVO_PROTOCOL_OVERHEAD) with
  | .error _ => false
  | .ok status => status.id = id

/-- What replies are left when one of the next `n` has acknowledged its request. -/
def acked (id : UInt8) : ℕ → Stream' Bytes → Option (Stream' Bytes)
  | 0, _ => none
  | n + 1, replies =>
      if acknowledges id replies.head = true then some replies.tail else acked id n replies.tail

/-- The bus, and what is at the other end. -/
def Facing (b : ServoBus) (e : FeetechEnd) (w : ServoWorld FeetechEnd) : Prop :=
  OnBus b w ∧ w.line = e

section exchange

/-- A request has gone out, and its reply has been read or has not come. -/
def FeetechEnd.exchange (e : FeetechEnd) (baudrate : UInt32) (request : Bytes) : FeetechEnd :=
  match e.servo.hear baudrate request with
  | none => { e with arriving := [] }
  | some servo => { e with servo := servo, arriving := [], replies := e.replies.tail }

theorem exchange_arriving (baudrate : UInt32) (request : Bytes) :
    (e.exchange baudrate request).arriving = [] := by
  unfold FeetechEnd.exchange
  split <;> rfl

/-- What comes in of the reply to a request. -/
def FeetechEnd.arrival (e : FeetechEnd) (baudrate : UInt32) (request : Bytes) : Bytes :=
  match e.servo.hear baudrate request with
  | none => []
  | some _ => e.replies.head

theorem parse_length {data : Bytes} {status : ServoStatusPacket}
    (h : servoProtocolParseStatus data = .ok status) : SERVO_PROTOCOL_OVERHEAD ≤ data.length := by
  obtain ⟨-, -, -, hpacket⟩ := parseStatus_ok h
  have hle := hpacket.length_le
  rw [servoPacket_length] at hle
  exact (Nat.le_add_left _ _).trans hle

theorem judgeReply_ok (reply : Bytes) (errorOut : Option UInt8) :
    (judgeReply reply id none 0 errorOut).result = .ok ↔
      ∃ status, servoProtocolParseStatus reply = .ok status ∧ status.id = id := by
  unfold judgeReply
  split
  · rename_i h
    simp [h]
  · rename_i h
    simp [h]
  · rename_i status h
    simp only [h]
    split
    · rename_i hid
      simp [hid]
    · rename_i hid
      have hcount : ¬ status.paramCount < 0 := Nat.not_lt_zero _
      rw [if_neg hcount]
      simp [not_not.mp hid]

theorem acknowledges_iff (reply : Bytes) : acknowledges id reply = true ↔
    ∃ status, servoProtocolParseStatus (reply.take SERVO_PROTOCOL_OVERHEAD) = .ok status ∧
      status.id = id := by
  unfold acknowledges
  split <;> rename_i h <;> simp [h]

theorem write_facing (hready : b.uart.initialised = true) {request : Bytes} (hrequest : request ≠ []) :
    Ensures (Facing b e) (halfDuplexUartWrite (feetechLine clockHz late) request) fun result w =>
      Facing b { e.exchange b.uart.baudrate request with
        arriving := e.arrival b.uart.baudrate request } w ∧ result = .ok := by
  unfold halfDuplexUartWrite
  refine .get_bind fun w hw => ?_
  have huart := hw.1.uart_eq
  refine .ite (fun hidle => ?_) fun _ => .ite (fun hempty => ?_) fun _ => ?_
  · rw [huart, hready] at hidle
    exact absurd hidle (by decide)
  · exact absurd (List.eq_nil_of_length_eq_zero hempty) hrequest
  intro w hsame
  subst hsame
  have hline : ((feetechLine clockHz late).transmit w.bus.uart.baudrate request w.line) =
      (true, { e.exchange b.uart.baudrate request with
        arriving := e.arrival b.uart.baudrate request }) := by
    rw [huart, hw.2]
    simp only [feetechLine, FeetechEnd.exchange, FeetechEnd.arrival]
    cases e.servo.hear b.uart.baudrate request <;> rfl
  rw [hline]
  dsimp only
  split <;> exact ⟨⟨hw.1, rfl⟩, rfl⟩

theorem read_facing (hready : b.uart.initialised = true) (timeoutUs : UInt32) :
    Ensures (Facing b e)
      (halfDuplexUartReadExact (feetechLine clockHz late) SERVO_PROTOCOL_OVERHEAD timeoutUs) fun read w => Facing b { e with arriving := [] } w ∧
        read = if SERVO_PROTOCOL_OVERHEAD ≤ e.arriving.length then
          (.ok, e.arriving.take SERVO_PROTOCOL_OVERHEAD) else (.errTimeout, e.arriving) := by
  unfold halfDuplexUartReadExact
  refine .get_bind fun w hw => ?_
  refine .ite (fun hidle => ?_) fun _ => .ite (fun hempty => absurd hempty (by decide)) fun _ => ?_
  · rw [hw.1.uart_eq, hready] at hidle
    exact absurd hidle (by decide)
  rintro _ rfl
  rw [← hw.2]
  dsimp only [feetechLine]
  split <;> exact ⟨⟨hw.1, rfl⟩, rfl⟩

theorem flush_facing (hempty : e.arriving = []) :
    Ensures (Facing b e) (halfDuplexUartFlushRx (feetechLine clockHz late)) fun _ w =>
      Facing b e w := by
  unfold halfDuplexUartFlushRx
  refine .get_bind fun w hw => ?_
  refine .ite (fun _ => ?_) fun _ => .pure ?_
  · intro w hsame
    subst hsame
    refine ⟨hw.1, ?_⟩
    change { w.line with arriving := [] } = e
    rw [hw.2, ← hempty]
  · rintro _ rfl
    exact hw

/-- Whether a request is acknowledged. -/
def FeetechEnd.answers (e : FeetechEnd) (baudrate : UInt32) (request : Bytes) (id : UInt8) : Bool :=
  acknowledges id (e.arrival baudrate request)

/-- A result that does not say that nothing went out. -/
def WentOut (result : ServoBusResult) : Prop := result ≠ .errTransport ∧ result ≠ .errInvalidArg

theorem judgeReply_wentOut (reply : Bytes) (errorOut : Option UInt8) :
    WentOut (judgeReply reply id none 0 errorOut).result ∧
      (judgeReply reply id none 0 errorOut).params = none := by
  unfold judgeReply WentOut
  split
  · exact ⟨⟨nofun, nofun⟩, rfl⟩
  · exact ⟨⟨nofun, nofun⟩, rfl⟩
  · split
    · exact ⟨⟨nofun, nofun⟩, rfl⟩
    · split <;> exact ⟨⟨nofun, nofun⟩, rfl⟩

theorem attempt_facing (hready : b.uart.initialised = true) (hid : id ≠ SERVO_PROTOCOL_BROADCAST_ID)
    {request : Bytes} (hrequest : request ≠ []) (errorOut : Option UInt8) :
    Ensures (Facing b e) (attempt (feetechLine clockHz late) request id none 0 errorOut)
      fun reply w => Facing b (e.exchange b.uart.baudrate request) w ∧
        (reply.result = .ok ↔ e.answers b.uart.baudrate request id = true) ∧ WentOut reply.result ∧
        reply.params = none := by
  unfold attempt
  refine .bind (write_facing hready hrequest) fun sent => .assume fun hsent => ?_
  refine .ite (fun hfailed => absurd hsent hfailed) fun _ => ?_
  refine .ite (fun hbroadcast => absurd hbroadcast hid) fun _ => ?_
  refine .ite (fun hroom => absurd hroom (by decide)) fun _ => ?_
  refine .read fun w => ?_
  refine .bind (read_facing hready _) fun read => .assume fun hread => ?_
  have hend : { e.exchange b.uart.baudrate request with arriving := [] } =
      e.exchange b.uart.baudrate request := by
    rw [← exchange_arriving b.uart.baudrate request]
  have hpost : ∀ w, Facing b { e.exchange b.uart.baudrate request with arriving := [] } w →
      Facing b (e.exchange b.uart.baudrate request) w := fun w hw => hend ▸ hw
  by_cases hlong : SERVO_PROTOCOL_OVERHEAD ≤ (e.arrival b.uart.baudrate request).length
  · rw [if_pos hlong] at hread
    subst hread
    refine .ite (fun hfailed => absurd rfl hfailed) fun _ => .pure fun w hw => ?_
    refine ⟨hpost w hw, ?_, (judgeReply_wentOut _ _).1, (judgeReply_wentOut _ _).2⟩
    exact (judgeReply_ok _ errorOut).trans (acknowledges_iff _).symm
  · rw [if_neg hlong] at hread
    subst hread
    refine .ite (fun _ => .pure fun w hw => ?_) fun hread => absurd hread (by simp)
    have htimeout : transportError .errTimeout = .errTimeout := rfl
    rw [htimeout]
    refine ⟨hpost w hw, iff_of_false nofun fun hanswers => ?_, ⟨nofun, nofun⟩, rfl⟩
    obtain ⟨status, hparse, -⟩ := (acknowledges_iff _).mp hanswers
    have hlength := parse_length hparse
    rw [List.length_take] at hlength
    omega

end exchange

section transactions

/-- A request has gone out up to `n` times, until it was acknowledged, and whether it was. -/
def FeetechEnd.exchanges (baudrate : UInt32) (request : Bytes) (id : UInt8) :
    ℕ → FeetechEnd → Bool × FeetechEnd
  | 0, e => (false, e)
  | n + 1, e =>
      if e.answers baudrate request id then (true, e.exchange baudrate request)
      else (e.exchange baudrate request).exchanges baudrate request id n

theorem updateServoStats_facing (update : ServoBusStats → ServoBusStats) :
    Ensures (Facing b e) (updateServoStats update) fun _ w => Facing b e w := by
  refine .modify fun w hw => ⟨?_, hw.2⟩
  exact updateServoStats_onBus update w hw.1

theorem transactFrom_facing (hready : b.uart.initialised = true)
    (hid : id ≠ SERVO_PROTOCOL_BROADCAST_ID) {request : Bytes} (hrequest : request ≠ [])
    (attempts left : ℕ) (last : ServoReply) (hparams : last.params = none)
    (hlast : last.result ≠ .ok ∧ WentOut last.result) :
    Ensures (Facing b e) (transactFrom (feetechLine clockHz late) request id 0 attempts left last)
      fun reply w => Facing b (e.exchanges b.uart.baudrate request id left).2 w ∧
        (reply.result = .ok ↔ (e.exchanges b.uart.baudrate request id left).1 = true) ∧
        WentOut reply.result := by
  induction left generalizing e attempts last with
  | zero => exact .pure fun w hw => ⟨hw, iff_of_false hlast.1 Bool.false_ne_true, hlast.2⟩
  | succ left ih =>
    unfold transactFrom FeetechEnd.exchanges
    rw [hparams]
    refine .bind (updateServoStats_facing _) fun _ => ?_
    refine .bind (attempt_facing hready hid hrequest last.error) fun reply => ?_
    refine .assume fun hanswered => ?_
    obtain ⟨hresult, hwent, hreply⟩ := hanswered
    refine .ite (fun hok => .pure fun w hw => ?_) fun hfailed => ?_
    · rw [if_pos (hresult.mp hok)]
      exact ⟨hw, iff_of_true hok rfl, hwent⟩
    · rw [if_neg fun hanswers => hfailed (hresult.mpr hanswers)]
      refine .bind (updateServoStats_facing _) fun _ => ?_
      refine .ite (fun hinvalid => absurd hinvalid hwent.2) fun _ => ?_
      refine .bind (flush_facing (exchange_arriving _ _)) fun _ => ?_
      exact ih (attempts + 1) reply hreply ⟨hfailed, hwent⟩

theorem transact_facing (hready : b.uart.initialised = true)
    (hid : id ≠ SERVO_PROTOCOL_BROADCAST_ID) {request : Bytes} (hrequest : request ≠ [])
    (errorOut : Option UInt8) :
    Ensures (Facing b e) (transact (feetechLine clockHz late) request id none 0 errorOut)
      fun reply w =>
        Facing b (e.exchanges b.uart.baudrate request id (b.maxRetries.toNat + 1)).2 w ∧
        (reply.result = .ok ↔
          (e.exchanges b.uart.baudrate request id (b.maxRetries.toNat + 1)).1 = true) ∧
        WentOut reply.result := by
  unfold transact
  refine .get_bind fun w hw => ?_
  dsimp only
  rw [hw.1.maxRetries_eq]
  refine (transactFrom_facing hready hid hrequest 0 _ _ rfl (by exact ⟨nofun, nofun, nofun⟩)).weaken ?_
  rintro _ rfl
  exact hw

end transactions

section hearing

theorem hear_packet (servo : FeetechServo) (baudrate : UInt32) (instruction : UInt8)
    {params : Bytes} (hparams : params.length ≤ SERVO_PROTOCOL_MAX_PARAMS) :
    servo.hear baudrate (servoPacket id instruction params) =
      if id = servo.id ∧ baudrate = servo.rate then some (servo.execute instruction params)
      else none := by
  unfold FeetechServo.hear
  rw [servoProtocolParseStatus_packet hparams]

variable {baudrate : UInt32} {request : Bytes}

theorem exchanges_unheard (h : e.servo.hear baudrate request = none) (n : ℕ) :
    e.exchanges baudrate request id (n + 1) = (false, { e with arriving := [] }) := by
  have hanswers : ∀ e : FeetechEnd, e.servo.hear baudrate request = none →
      e.answers baudrate request id = false := by
    intro e h
    rw [FeetechEnd.answers, FeetechEnd.arrival, h]
    rfl
  induction n generalizing e with
  | zero =>
    rw [FeetechEnd.exchanges, hanswers e h, FeetechEnd.exchange, h]
    rfl
  | succ n ih =>
    rw [FeetechEnd.exchanges, hanswers e h, FeetechEnd.exchange, h]
    exact ih h

variable (id) in
theorem exchanges_heard {servo : FeetechServo} (h : e.servo.hear baudrate request = some servo)
    (hagain : servo.hear baudrate request = some servo) (n : ℕ) :
    ∃ replies, e.exchanges baudrate request id (n + 1) =
        ((acked id (n + 1) e.replies).isSome, ⟨servo, [], replies, e.sleeps⟩) ∧
      ∀ rest ∈ acked id (n + 1) e.replies, replies = rest := by
  induction n generalizing e with
  | zero =>
    unfold FeetechEnd.exchanges FeetechEnd.answers FeetechEnd.arrival FeetechEnd.exchange acked
    rw [h]
    dsimp only
    split
    · exact ⟨_, rfl, by simp⟩
    · exact ⟨_, rfl, by simp [acked]⟩
  | succ n ih =>
    rw [FeetechEnd.exchanges, acked, FeetechEnd.answers, FeetechEnd.arrival, FeetechEnd.exchange, h]
    dsimp only
    split
    · exact ⟨_, rfl, by simp⟩
    · exact ih hagain

variable (id) in
theorem exchanges_once {servo : FeetechServo} (h : e.servo.hear baudrate request = some servo)
    (hgone : servo.hear baudrate request = none) (n : ℕ) :
    e.exchanges baudrate request id (n + 1) =
      (acknowledges id e.replies.head, ⟨servo, [], e.replies.tail, e.sleeps⟩) := by
  rw [FeetechEnd.exchanges, FeetechEnd.answers, FeetechEnd.arrival, FeetechEnd.exchange, h]
  dsimp only
  cases hhead : acknowledges id e.replies.head with
  | true => rfl
  | false =>
    cases n with
    | zero => rfl
    | succ n => exact exchanges_unheard hgone n

end hearing

section links

/-- The bus, the servo at the other end and the replies to come. -/
abbrev Linked (b : ServoBus) (servo : FeetechServo) (replies : Stream' Bytes) :
    ServoWorld FeetechEnd → Prop :=
  Beside b fun _ line => line.servo = servo ∧ line.replies = replies

variable {servo servo' : FeetechServo} {replies rest : Stream' Bytes} {request : Bytes}
  {errorOut : Option UInt8}

theorem Linked.onBus {w : ServoWorld FeetechEnd} (h : Linked b servo replies w) : OnBus b w := h.1

theorem Linked.servo_eq {w : ServoWorld FeetechEnd} (h : Linked b servo replies w) :
    w.line.servo = servo := h.2.1

theorem Linked.replies_eq {w : ServoWorld FeetechEnd} (h : Linked b servo replies w) :
    w.line.replies = replies := h.2.2

theorem Linked.facing {w : ServoWorld FeetechEnd} (h : Linked b servo replies w) :
    Facing b w.line w := ⟨h.onBus, rfl⟩

/-- A request that the servo hears, and hears again in the state that it leaves, with a reply that
acknowledges it. -/
theorem transact_acked (hready : b.uart.initialised = true)
    (hid : id ≠ SERVO_PROTOCOL_BROADCAST_ID) (hrequest : request ≠ [])
    (hhear : servo.hear b.uart.baudrate request = some servo')
    (hagain : servo'.hear b.uart.baudrate request = some servo')
    (hacked : acked id (b.maxRetries.toNat + 1) replies = some rest) :
    Ensures (Linked b servo replies)
      (transact (feetechLine clockHz late) request id none 0 errorOut)
      fun reply w => Linked b servo' rest w ∧ reply.result = .ok := by
  intro w hw
  obtain ⟨⟨hbus, hline⟩, hresult, -⟩ :=
    transact_facing hready hid hrequest errorOut w hw.facing
  rw [← hw.servo_eq] at hhear
  obtain ⟨left, hleft, hrest⟩ := exchanges_heard id hhear hagain b.maxRetries.toNat
  rw [hw.replies_eq, hacked] at hleft hrest
  rw [hleft] at hline hresult
  refine ⟨⟨hbus, by rw [hline], ?_⟩, hresult.mpr rfl⟩
  rw [hline]
  exact hrest rest rfl

/-- None of the replies acknowledges it, and the servo has executed it nevertheless. -/
theorem transact_unacked (hready : b.uart.initialised = true)
    (hid : id ≠ SERVO_PROTOCOL_BROADCAST_ID) (hrequest : request ≠ [])
    (hhear : servo.hear b.uart.baudrate request = some servo')
    (hagain : servo'.hear b.uart.baudrate request = some servo')
    (hacked : acked id (b.maxRetries.toNat + 1) replies = none) :
    Ensures (Linked b servo replies)
      (transact (feetechLine clockHz late) request id none 0 errorOut)
      fun reply w => (∃ left, Linked b servo' left w) ∧ reply.result ≠ .ok := by
  intro w hw
  obtain ⟨⟨hbus, hline⟩, hresult, -⟩ :=
    transact_facing hready hid hrequest errorOut w hw.facing
  rw [← hw.servo_eq] at hhear
  obtain ⟨left, hleft, -⟩ := exchanges_heard id hhear hagain b.maxRetries.toNat
  rw [hw.replies_eq, hacked] at hleft
  rw [hleft] at hline hresult
  exact ⟨⟨left, hbus, by rw [hline], by rw [hline]⟩, fun hok => absurd (hresult.mp hok) nofun⟩

theorem transact_once (hready : b.uart.initialised = true)
    (hid : id ≠ SERVO_PROTOCOL_BROADCAST_ID) (hrequest : request ≠ [])
    (hhear : servo.hear b.uart.baudrate request = some servo')
    (hgone : servo'.hear b.uart.baudrate request = none) :
    Ensures (Linked b servo replies)
      (transact (feetechLine clockHz late) request id none 0 errorOut)
      fun reply w => Linked b servo' replies.tail w ∧
        (reply.result = .ok ↔ acknowledges id replies.head = true) := by
  intro w hw
  obtain ⟨⟨hbus, hline⟩, hresult, -⟩ :=
    transact_facing hready hid hrequest errorOut w hw.facing
  rw [← hw.servo_eq] at hhear
  have honce := exchanges_once id hhear hgone b.maxRetries.toNat
  rw [hw.replies_eq] at honce
  rw [honce] at hline hresult
  exact ⟨⟨hbus, by rw [hline], by rw [hline]⟩, hresult⟩

theorem transact_single (hready : b.uart.initialised = true) (hretries : b.maxRetries = 0)
    (hid : id ≠ SERVO_PROTOCOL_BROADCAST_ID) (hrequest : request ≠ [])
    (hhear : servo.hear b.uart.baudrate request = some servo') :
    Ensures (Linked b servo replies)
      (transact (feetechLine clockHz late) request id none 0 errorOut)
      fun reply w => Linked b servo' replies.tail w ∧ WentOut reply.result := by
  intro w hw
  obtain ⟨⟨hbus, hline⟩, -, hwent⟩ :=
    transact_facing hready hid hrequest errorOut w hw.facing
  rw [← hw.servo_eq] at hhear
  have hexchange : (w.line.exchanges b.uart.baudrate request id (b.maxRetries.toNat + 1)).2 =
      ⟨servo', [], w.line.replies.tail, w.line.sleeps⟩ := by
    rw [hretries]
    unfold FeetechEnd.exchanges FeetechEnd.exchange
    rw [hhear]
    split <;> rfl
  rw [hexchange, hw.replies_eq] at hline
  exact ⟨⟨hbus, by rw [hline], by rw [hline]⟩, hwent⟩

theorem transact_unheard (hready : b.uart.initialised = true)
    (hid : id ≠ SERVO_PROTOCOL_BROADCAST_ID) (hrequest : request ≠ [])
    (hhear : servo.hear b.uart.baudrate request = none) :
    Ensures (Linked b servo replies)
      (transact (feetechLine clockHz late) request id none 0 errorOut)
      fun reply w => Linked b servo replies w ∧ reply.result ≠ .ok := by
  intro w hw
  obtain ⟨⟨hbus, hline⟩, hresult, -⟩ :=
    transact_facing hready hid hrequest errorOut w hw.facing
  rw [← hw.servo_eq] at hhear
  rw [exchanges_unheard hhear] at hline hresult
  refine ⟨⟨hbus, ?_, ?_⟩, fun hok => absurd (hresult.mp hok) nofun⟩
  · rw [hline]
    exact hw.servo_eq
  · rw [hline]
    exact hw.replies_eq

theorem transactFrom_dead (hdead : b.uart.initialised = false) (request : Bytes)
    (attempts left : ℕ) (last : ServoReply) (hlast : last.result ≠ .ok) :
    Ensures (Linked b servo replies)
      (transactFrom (feetechLine clockHz late) request id 0 attempts left last)
      fun reply w => Linked b servo replies w ∧ reply.result ≠ .ok := by
  have hwrite : Ensures (Linked b servo replies)
      (halfDuplexUartWrite (feetechLine clockHz late) request)
      fun result w => Linked b servo replies w ∧ result = .errInvalidArg := by
    unfold halfDuplexUartWrite
    refine .get_bind fun w hw => .ite (fun _ => .pure ?_) fun hready => ?_
    · rintro _ rfl
      exact ⟨hw, rfl⟩
    · rw [hw.onBus.uart_eq, hdead] at hready
      exact absurd rfl hready
  have hattempt : ∀ paramsOut errorOut, Ensures (Linked b servo replies)
      (attempt (feetechLine clockHz late) request id paramsOut 0 errorOut)
      fun reply w => Linked b servo replies w ∧ reply.result = .errTransport := by
    intro paramsOut errorOut
    unfold attempt
    refine .bind hwrite fun sent => .assume fun hsent => ?_
    refine .ite (fun _ => .pure fun w hw => ⟨hw, ?_⟩) fun hok => ?_
    · rw [hsent]
      rfl
    · rw [hsent] at hok
      exact absurd (by decide) hok
  have hstats : ∀ update, Ensures (Linked b servo replies) (updateServoStats update)
      fun _ w => Linked b servo replies w :=
    fun update => .modify fun w hw =>
      ⟨updateServoStats_onBus update w hw.onBus, hw.servo_eq, hw.replies_eq⟩
  have hflush : Ensures (Linked b servo replies)
      (halfDuplexUartFlushRx (feetechLine clockHz late)) fun _ w => Linked b servo replies w := by
    unfold halfDuplexUartFlushRx
    refine .get_bind fun w hw => .ite (fun hready => ?_) fun _ => .pure ?_
    · rw [hw.onBus.uart_eq, hdead] at hready
      exact absurd hready Bool.false_ne_true
    · rintro _ rfl
      exact hw
  induction left generalizing attempts last with
  | zero => exact .pure fun w hw => ⟨hw, hlast⟩
  | succ left ih =>
    unfold transactFrom
    refine .bind (hstats _) fun _ => .bind (hattempt _ _) fun reply => .assume fun hreply => ?_
    have hfailed : reply.result ≠ .ok := by
      rw [hreply]
      decide
    refine .ite (fun hok => absurd hok hfailed) fun _ => .bind (hstats _) fun _ => ?_
    refine .ite (fun _ => .pure fun w hw => ⟨hw, hfailed⟩) fun _ => .bind hflush fun _ => ?_
    exact ih (attempts + 1) reply hfailed

theorem transact_dead (hdead : b.uart.initialised = false) (request : Bytes) :
    Ensures (Linked b servo replies)
      (transact (feetechLine clockHz late) request id none 0 errorOut)
      fun reply w => Linked b servo replies w ∧ reply.result ≠ .ok :=
  .read fun _ => transactFrom_dead hdead request 0 _ _ (by exact nofun)

end links

end Pico
