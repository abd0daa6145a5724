import PicoFramework.Lib.Retry
import PicoFramework.Proofs.ServoBus
import PicoFramework.Proofs.ServoStream
import PicoFramework.Proofs.ServoSyncWrite

/-! The retries of the servo bus: how often a request is sent, what is counted of it, and which bytes
are taken for the answer. -/

namespace Pico

open Lib.Hoare Lib.Retry

variable {ε : Type} {L : Line ε} {w : ServoWorld ε}

section rounds

variable (L)

/-- An attempt is begun. -/
def ServoBusStats.begun (number : ℕ) (stats : ServoBusStats) : ServoBusStats :=
  { stats with
    retries := if number > 0 then stats.retries + 1 else stats.retries
    transactions := stats.transactions + 1 }

/-- One turn of the loop of `transact`. -/
def servoRound (request : Bytes) (id paramCount : UInt8) (number : ℕ) (last : ServoReply) :
    BusM ε ServoReply := do
  updateServoStats (.begun number)
  let reply ← attempt L request id last.params paramCount last.error
  if reply.result = .ok then
    return reply
  updateServoStats (countFailure reply.result)
  if reply.result = .errInvalidArg then
    return reply
  halfDuplexUartFlushRx L
  return reply

/-- The loop is not gone through again. -/
def ServoReply.settles (reply : ServoReply) : Bool :=
  reply.result = .ok ∨ reply.result = .errInvalidArg

theorem transactFrom_eq_loop (request : Bytes) (id paramCount : UInt8) (number left : ℕ)
    (last : ServoReply) :
    transactFrom L request id paramCount number left last =
      loop (servoRound L request id paramCount) ServoReply.settles number left last := by
  induction left generalizing number last with
  | zero => rfl
  | succ left ih =>
    rw [transactFrom, loop, servoRound]
    simp only [bind_assoc]
    congr 1
    funext _
    congr 1
    funext reply
    by_cases hok : reply.result = .ok
    · simp [hok, ServoReply.settles]
    by_cases hinvalid : reply.result = .errInvalidArg
    · simp [hinvalid, ServoReply.settles]
    · simp [hok, hinvalid, ServoReply.settles, ih]

/-- What the attempts of a transaction come to, in their order. -/
def servoAttempts (request : Bytes) (id : UInt8) (params : Option Bytes) (paramCount : UInt8)
    (errorOut : Option UInt8) (w : ServoWorld ε) : List ServoBusResult :=
  (outcomes (servoRound L request id paramCount) ServoReply.settles 0 (w.bus.maxRetries.toNat + 1)
    ⟨.errTimeout, params, errorOut.map fun _ => 0⟩ w).map (·.result)

end rounds

section counting

/-- The statistics with these attempts in them. -/
def ServoBusStats.counting (stats : ServoBusStats) (attempts : List ServoBusResult) :
    ServoBusStats where
  transactions := stats.transactions + UInt32.ofNat attempts.length
  retries := stats.retries + UInt32.ofNat (attempts.length - 1)
  timeouts := stats.timeouts + UInt32.ofNat (attempts.count .errTimeout)
  checksumErrors := stats.checksumErrors + UInt32.ofNat (attempts.count .errChecksum)
  malformed := stats.malformed +
    UInt32.ofNat (attempts.count .errMalformed + attempts.count .errShortReply)
  wrongId := stats.wrongId + UInt32.ofNat (attempts.count .errWrongId)

theorem ServoBusStats.counting_nil (stats : ServoBusStats) : stats.counting [] = stats := by
  simp [counting]

theorem retries_step (retries : UInt32) (number : ℕ) :
    (if 0 < number then retries + (UInt32.ofNat (number - 1) + 1)
      else retries + UInt32.ofNat (number - 1)) = retries + UInt32.ofNat number := by
  cases number with
  | zero => rfl
  | succ number => simp [UInt32.ofNat_add]

theorem ServoBusStats.counting_append (stats : ServoBusStats) (attempts : List ServoBusResult)
    (result : ServoBusResult) :
    countFailure result ((stats.counting attempts).begun attempts.length) =
      stats.counting (attempts ++ [result]) := by
  have hretries := retries_step stats.retries attempts.length
  have hswap : ∀ n m : ℕ,
      UInt32.ofNat n + (UInt32.ofNat m + 1) = UInt32.ofNat n + 1 + UInt32.ofNat m := by
    intro n m
    rw [UInt32.add_comm (UInt32.ofNat m), UInt32.add_assoc]
  cases result <;>
    simp [countFailure, begun, counting, hretries, hswap, UInt32.add_assoc, List.count_append,
      UInt32.ofNat_add]

end counting

section attempts

variable {request : Bytes}

variable (L) in
/-- What came in last on the line, behind the request, is a packet of that servo. -/
def Answered (b : ServoBus) (request : Bytes) (id error : UInt8) (params : Bytes) (line : ε) :
    Prop :=
  ∃ before arrived,
    L.receive (replyTimeoutUs b (params.length + SERVO_PROTOCOL_OVERHEAD))
      (L.transmit b.uart.baudrate request before).2 = (arrived, line) ∧
    arrived.take (params.length + SERVO_PROTOCOL_OVERHEAD) = servoPacket id error params

/-- The results that an attempt at a broadcast can come to. -/
def ServoBusResult.unread (result : ServoBusResult) : Prop :=
  result = .ok ∨ result = .errTimeout ∨ result = .errTransport

variable (L) in
/-- What is made of an attempt: the reply that is passed on, and what there was on the line. -/
structure Attempted (b : ServoBus) (request : Bytes) (id paramCount : UInt8)
    (params : Option Bytes) (errorOut : Option UInt8) (reply : ServoReply) (line : ε) : Prop where
  kept : reply.result ≠ .ok ∨ id = SERVO_PROTOCOL_BROADCAST_ID →
    reply.params = params ∧ reply.error = errorOut
  unread : id = SERVO_PROTOCOL_BROADCAST_ID → reply.result.unread
  answered : reply.result = .ok → id ≠ SERVO_PROTOCOL_BROADCAST_ID →
    ∃ error answer, Answered L b request id error answer line ∧
      answer.length = paramCount.toNat ∧
      reply.params = params.map (fun out => answer ++ out.drop paramCount.toNat) ∧
      reply.error = errorOut.map fun _ => error

theorem transportError_unread (result : HalfDuplexUartResult) :
    (transportError result).unread := by
  unfold transportError
  split
  · exact .inr (.inl rfl)
  · exact .inr (.inr rfl)

theorem transportError_ne_ok (result : HalfDuplexUartResult) : transportError result ≠ .ok := by
  unfold transportError
  split <;> nofun

theorem judgeReply_answer {reply : Bytes} {id paramCount : UInt8} {params : Option Bytes}
    {errorOut : Option UInt8} (hlength : reply.length = paramCount.toNat + SERVO_PROTOCOL_OVERHEAD)
    (hok : (judgeReply reply id params paramCount errorOut).result = .ok) :
    ∃ error answer, reply = servoPacket id error answer ∧ answer.length = paramCount.toNat ∧
      (judgeReply reply id params paramCount errorOut).params =
        params.map (fun out => answer ++ out.drop paramCount.toNat) ∧
      (judgeReply reply id params paramCount errorOut).error = errorOut.map fun _ => error := by
  unfold judgeReply at hok ⊢
  cases hparse : servoProtocolParseStatus reply with
  | error result =>
    rw [hparse] at hok
    cases result <;> exact absurd hok nofun
  | ok status =>
    obtain ⟨hsmall, hcount, hsize, hbegins⟩ := parseStatus_ok hparse
    rw [hparse] at hok
    dsimp only at hok ⊢
    split_ifs at hok ⊢ with hid hshort
    have hle : paramCount.toNat ≤ status.params.length := by
      rw [hcount, UInt8.lt_iff_toNat_lt, UInt8.toNat_ofNat', not_lt] at hshort
      exact hshort.trans (Nat.mod_le _ _)
    -- as many bytes as the reply has to have are read, and no more
    have hexact : reply = servoPacket status.id status.error status.params := by
      refine (List.IsPrefix.eq_of_length_le hbegins ?_).symm
      rw [servoPacket_length, hlength, SERVO_PROTOCOL_OVERHEAD]
      omega
    have hanswer : status.params.length = paramCount.toNat := by
      have hwhole := congrArg List.length hexact
      rw [hlength, servoPacket_length, SERVO_PROTOCOL_OVERHEAD] at hwhole
      omega
    rw [not_not] at hid
    refine ⟨status.error, status.params, by rw [hexact, hid], hanswer, ?_, rfl⟩
    rw [← hanswer, List.take_length]

theorem judgeReply_kept {reply : Bytes} {id paramCount : UInt8} {params : Option Bytes}
    {errorOut : Option UInt8} (hfailed : (judgeReply reply id params paramCount errorOut).result ≠ .ok) :
    (judgeReply reply id params paramCount errorOut).params = params ∧
      (judgeReply reply id params paramCount errorOut).error = errorOut := by
  unfold judgeReply at hfailed ⊢
  split at hfailed
  · exact ⟨rfl, rfl⟩
  · exact ⟨rfl, rfl⟩
  · split_ifs at hfailed ⊢ with hid hshort
    · exact ⟨rfl, rfl⟩
    · exact ⟨rfl, rfl⟩
    · exact absurd rfl hfailed

/-- The packets that a number of attempts put on the wire. -/
def ServoWorld.sentBy (w : ServoWorld ε) (request : Bytes) (attempts : ℕ) : List Bytes :=
  w.sent ++ List.replicate (if w.bus.uart.initialised then attempts else 0) request

theorem halfDuplexUartWrite_spec (hrequest : request ≠ []) :
    Ensures (· = w) (halfDuplexUartWrite L request) fun result w' =>
      w'.bus = w.bus ∧ w'.sent = w.sentBy request 1 ∧
      (result = .ok → w'.line = (L.transmit w.bus.uart.baudrate request w.line).2) := by
  unfold halfDuplexUartWrite
  refine .get_bind ?_
  intro w hsame
  subst hsame
  refine .ite (fun hidle => .pure ?_) fun hready => ?_
  · intro w hsame
    subst hsame
    refine ⟨rfl, ?_, nofun⟩
    rw [Bool.not_eq_true'] at hidle
    simp [ServoWorld.sentBy, hidle]
  refine .ite (fun hempty => absurd (List.eq_nil_of_length_eq_zero hempty) hrequest) fun _ => ?_
  intro w hsame
  subst hsame
  have hsent : w.sent ++ [request] = w.sentBy request 1 := by
    rw [Bool.not_eq_true', Bool.not_eq_false] at hready
    simp [ServoWorld.sentBy, hready]
  dsimp only
  split <;> exact ⟨rfl, hsent, fun _ => rfl⟩

theorem halfDuplexUartReadExact_spec {len : ℕ} (hlen : len ≠ 0) (timeoutUs : UInt32) :
    Ensures (· = w) (halfDuplexUartReadExact L len timeoutUs) fun read w' =>
      w'.bus = w.bus ∧ w'.sent = w.sent ∧
      (read.1 = .ok → ∃ arrived, L.receive timeoutUs w.line = (arrived, w'.line) ∧
        read.2 = arrived.take len ∧ read.2.length = len) := by
  unfold halfDuplexUartReadExact
  refine .get_bind ?_
  intro w hsame
  subst hsame
  refine .ite (fun _ => .pure ?_) fun _ => .ite (fun hnone => absurd hnone hlen) fun _ => ?_
  · intro w hsame
    subst hsame
    exact ⟨rfl, rfl, nofun⟩
  intro w hsame
  subst hsame
  dsimp only
  split
  · rename_i hlong
    refine ⟨rfl, rfl, fun _ => ⟨_, rfl, rfl, ?_⟩⟩
    exact List.length_take_of_le hlong
  · exact ⟨rfl, rfl, nofun⟩

theorem Attempted.failed {b : ServoBus} {id paramCount : UInt8} {params : Option Bytes}
    {errorOut : Option UInt8} {result : ServoBusResult} {line : ε} (hfailed : result ≠ .ok)
    (hunread : id = SERVO_PROTOCOL_BROADCAST_ID → result.unread) :
    Attempted L b request id paramCount params errorOut ⟨result, params, errorOut⟩ line :=
  ⟨fun _ => ⟨rfl, rfl⟩, hunread, fun hok => absurd hok hfailed⟩

theorem attempt_spec (hrequest : request ≠ []) (id paramCount : UInt8) (params : Option Bytes)
    (errorOut : Option UInt8) :
    Ensures (· = w) (attempt L request id params paramCount errorOut) fun reply w' =>
      w'.bus = w.bus ∧ w'.sent = w.sentBy request 1 ∧
      Attempted L w.bus request id paramCount params errorOut reply w'.line := by
  unfold attempt
  refine .bind (halfDuplexUartWrite_spec hrequest) fun sent => ?_
  refine .ite (fun _ => .pure fun w' hw => ?_) fun hsent => ?_
  · exact ⟨hw.1, hw.2.1, .failed (transportError_ne_ok sent) fun _ => transportError_unread sent⟩
  rw [not_not] at hsent
  refine .ite (fun hbroadcast => .pure fun w' hw => ?_) fun hid => ?_
  · exact ⟨hw.1, hw.2.1, fun _ => ⟨rfl, rfl⟩, fun _ => .inl rfl,
      fun _ hid => absurd hbroadcast hid⟩
  refine .ite (fun _ => .pure fun w' hw => ?_) fun _ => ?_
  · exact ⟨hw.1, hw.2.1, .failed nofun fun hbroadcast => absurd hbroadcast hid⟩
  refine .get_bind fun middle hmiddle => ?_
  obtain ⟨hbus, hwire, hline⟩ := hmiddle
  refine .bind (halfDuplexUartReadExact_spec (Nat.succ_ne_zero _) _) fun read => ?_
  refine .ite (fun _ => .pure fun w' hw => ?_) fun hread => .pure fun w' hw => ?_
  · exact ⟨hw.1.trans hbus, hw.2.1.trans hwire,
      .failed (transportError_ne_ok read.1) fun hbroadcast => absurd hbroadcast hid⟩
  obtain ⟨arrived, hreceive, hbytes, hlength⟩ := hw.2.2 (not_not.mp hread)
  refine ⟨hw.1.trans hbus, hw.2.1.trans hwire, ?_, fun hbroadcast => absurd hbroadcast hid, ?_⟩
  · rintro (hfailed | hbroadcast)
    · exact judgeReply_kept hfailed
    · exact absurd hbroadcast hid
  · intro hok _
    obtain ⟨error, answer, hpacket, hanswer, hparams, herror⟩ := judgeReply_answer hlength hok
    refine ⟨error, answer, ⟨w.line, arrived, ?_, ?_⟩, hanswer, hparams, herror⟩
    · rw [← hline hsent, ← hbus, hanswer]
      exact hreceive
    · rw [hanswer, ← hpacket]
      exact hbytes.symm

end attempts

section transactions

variable {request : Bytes} {id paramCount : UInt8} {params : Option Bytes} {errorOut : Option UInt8}

theorem Attempted.restate {b b' : ServoBus} {reply : ServoReply} {line : ε}
    (huart : b'.uart = b.uart) (htimeout : b'.responseTimeoutUs = b.responseTimeoutUs)
    (h : Attempted L b request id paramCount params errorOut reply line) :
    Attempted L b' request id paramCount params errorOut reply line := by
  refine ⟨h.kept, h.unread, fun hok hid => ?_⟩
  obtain ⟨error, answer, hanswered, hrest⟩ := h.answered hok hid
  refine ⟨error, answer, ?_, hrest⟩
  unfold Answered replyTimeoutUs at hanswered ⊢
  rw [huart, htimeout]
  exact hanswered

theorem ServoWorld.sentBy_succ (w : ServoWorld ε) (request : Bytes) (attempts : ℕ) :
    w.sentBy request attempts ++
      List.replicate (if w.bus.uart.initialised then 1 else 0) request =
        w.sentBy request (attempts + 1) := by
  unfold sentBy
  split <;> simp [List.replicate_succ']

variable (w request) in
/-- The bus of the transaction, with these statistics and so many of its requests on the wire. -/
def Having (stats : ServoBusStats) (attempts : ℕ) (w' : ServoWorld ε) : Prop :=
  w'.bus = { w.bus with stats := stats } ∧ w'.sent = w.sentBy request attempts

theorem attempt_having (hrequest : request ≠ []) (stats : ServoBusStats) (attempts : ℕ) :
    Ensures (Having w request stats attempts) (attempt L request id params paramCount errorOut)
      fun reply w' => Having w request stats (attempts + 1) w' ∧
        Attempted L w.bus request id paramCount params errorOut reply w'.line := by
  rintro w₁ ⟨hbus, hsent⟩
  obtain ⟨hbus', hsent', hattempted⟩ := attempt_spec hrequest id paramCount params errorOut w₁ rfl
  refine ⟨⟨hbus'.trans hbus, ?_⟩, hattempted.restate (by rw [hbus]) (by rw [hbus])⟩
  rw [hsent', ServoWorld.sentBy, hsent, hbus]
  exact w.sentBy_succ request attempts

variable (L w request id paramCount params errorOut) in
/-- How far a transaction has come, with what its attempts came to and the last reply. -/
structure Tried (results : List ServoBusResult) (reply : ServoReply) (w' : ServoWorld ε) : Prop where
  having : Having w request (w.bus.stats.counting results) results.length w'
  unread : id = SERVO_PROTOCOL_BROADCAST_ID → ∀ result ∈ results, result.unread
  attempted : Attempted L w.bus request id paramCount params errorOut reply w'.line

theorem Tried.next {results : List ServoBusResult} {last reply : ServoReply} {w₀ w' : ServoWorld ε}
    (h : Tried L w request id paramCount params errorOut results last w₀)
    (hhaving : Having w request
      (countFailure reply.result ((w.bus.stats.counting results).begun results.length))
      (results.length + 1) w')
    (hattempted : Attempted L w.bus request id paramCount params errorOut reply w'.line) :
    Tried L w request id paramCount params errorOut (results ++ [reply.result]) reply w' := by
  rw [ServoBusStats.counting_append] at hhaving
  refine ⟨?_, fun hid result hresult => ?_, hattempted⟩
  · rw [List.length_append, List.length_singleton]
    exact hhaving
  · rcases List.mem_append.mp hresult with hbefore | hnow
    · exact h.unread hid result hbefore
    · rw [List.mem_singleton.mp hnow]
      exact hattempted.unread hid

theorem halfDuplexUartFlushRx_tried {results : List ServoBusResult} {reply : ServoReply}
    (hfailed : reply.result ≠ .ok) :
    Ensures (Tried L w request id paramCount params errorOut results reply)
      (halfDuplexUartFlushRx L) fun _ w' =>
        Tried L w request id paramCount params errorOut results reply w' := by
  unfold halfDuplexUartFlushRx
  refine .get_bind fun w₁ h => .ite (fun _ => ?_) fun _ => .pure ?_
  · intro w₁ hsame
    subst hsame
    exact ⟨h.having, h.unread, h.attempted.kept, h.attempted.unread,
      fun hok => absurd hok hfailed⟩
  · intro w₁ hsame
    subst hsame
    exact h

theorem servoRound_tried (hrequest : request ≠ []) (results : List ServoBusResult)
    {last : ServoReply} (hlast : last.result ≠ .ok) :
    Ensures (Tried L w request id paramCount params errorOut results last)
      (servoRound L request id paramCount results.length last) fun reply w' =>
        Tried L w request id paramCount params errorOut (results ++ [reply.result]) reply w' := by
  intro w₀ h
  obtain ⟨hparams, herror⟩ := h.attempted.kept (.inl hlast)
  suffices hround : Ensures (Having w request (w.bus.stats.counting results) results.length)
      (servoRound L request id paramCount results.length last) fun reply w' =>
        Tried L w request id paramCount params errorOut (results ++ [reply.result]) reply w' from
    hround w₀ h.having
  have hstats : ∀ (update : ServoBusStats → ServoBusStats) (stats : ServoBusStats) (attempts : ℕ),
      Ensures (Having w request stats attempts) (updateServoStats update : BusM ε Unit)
        fun _ w₁ => Having w request (update stats) attempts w₁ :=
    fun update stats attempts => .modify fun w₁ hw => ⟨by rw [hw.1], hw.2⟩
  unfold servoRound
  rw [hparams, herror]
  refine .bind (hstats _ _ _) fun _ => .bind (attempt_having hrequest _ _) fun reply => ?_
  refine .ite (fun hok => .pure fun w₁ hw => h.next ?_ hw.2) fun hfailed => ?_
  · rw [hok]
    exact hw.1
  have hcounted : Ensures (fun w₁ => Having w request
        ((w.bus.stats.counting results).begun results.length) (results.length + 1) w₁ ∧
        Attempted L w.bus request id paramCount params errorOut reply w₁.line)
      (updateServoStats (countFailure reply.result) : BusM ε Unit) fun _ w₁ =>
        Tried L w request id paramCount params errorOut (results ++ [reply.result]) reply w₁ :=
    .modify fun w₁ hw => h.next ⟨by rw [hw.1.1], hw.1.2⟩ hw.2
  refine .bind hcounted fun _ => ?_
  refine .ite (fun _ => .pure fun w₁ hw => hw) fun _ => ?_
  exact .bind (halfDuplexUartFlushRx_tried hfailed) fun _ => .pure fun w₁ hw => hw

theorem transact_tried (hrequest : request ≠ []) :
    Ensures (· = w) (transact L request id params paramCount errorOut) fun reply w' =>
      Tried L w request id paramCount params (errorOut.map fun _ => 0)
        (servoAttempts L request id params paramCount errorOut w) reply w' ∧
      (servoAttempts L request id params paramCount errorOut w).getLast? = some reply.result := by
  unfold transact
  refine .get_bind ?_
  intro w hsame
  subst hsame
  rw [transactFrom_eq_loop]
  intro w₀ hsame
  subst hsame
  have hstart : Tried L w₀ request id paramCount params (errorOut.map fun _ => 0) []
      ⟨.errTimeout, params, errorOut.map fun _ => 0⟩ w₀ := by
    refine ⟨⟨by rw [ServoBusStats.counting_nil], ?_⟩, fun _ _ h => absurd h List.not_mem_nil,
      .failed nofun fun _ => .inr (.inl rfl)⟩
    simp [ServoWorld.sentBy]
  refine ⟨?_, ?_⟩
  · have hround : ∀ (history : List ServoReply) (last : ServoReply), last.settles = false →
        Ensures (fun w' => Tried L w₀ request id paramCount params (errorOut.map fun _ => 0)
            (history.map (·.result)) last w')
          (servoRound L request id paramCount history.length last) fun reply w' =>
            Tried L w₀ request id paramCount params (errorOut.map fun _ => 0)
              ((history ++ [reply]).map (·.result)) reply w' := by
      intro history last hlast
      have hfailed : last.result ≠ .ok := by
        intro hok
        simp [ServoReply.settles, hok] at hlast
      have hnext : Ensures (fun w' => Tried L w₀ request id paramCount params
            (errorOut.map fun _ => 0) (history.map (·.result)) last w')
          (servoRound L request id paramCount (history.map (·.result)).length last) _ :=
        servoRound_tried hrequest _ hfailed
      rw [List.length_map] at hnext
      refine hnext.mono fun reply w' h => ?_
      rw [List.map_append]
      exact h
    exact loop_keeps hround [] (w₀.bus.maxRetries.toNat + 1) rfl hstart
  · rw [servoAttempts, List.getLast?_map, getLast?_outcomes]
    rfl

end transactions

section calls

inductive BusCall where
  | ping (id : UInt8)
  | read (id reg : UInt8) (data : Option Bytes) (count : UInt8)
  | write (id reg : UInt8) (data : Option Bytes) (count : UInt8)
  | syncWrite (reg width : UInt8) (targets : Option (List ServoSyncTarget)) (count : UInt8)
  | factoryReset (id : UInt8)

namespace BusCall

variable (L) in
/-- The call, with the pointer for the error byte where it takes one. -/
def run (errorOut : Option UInt8) : BusCall → BusM ε ServoReply
  | ping id => servoBusPing L id errorOut
  | read id reg data count => servoBusRead L id reg data count errorOut
  | write id reg data count => servoBusWrite L id reg data count errorOut
  | syncWrite reg width targets count => do
      let result ← servoBusSyncWrite L reg width targets count
      return ⟨result, none, none⟩
  | factoryReset id => servoBusFactoryReset L id errorOut

/-- The packet that is sent, when the arguments are accepted. -/
def request (b : ServoBus) : BusCall → Option Bytes
  | ping id => if b.initialised then some (servoPacket id SERVO_INST_PING []) else none
  | read id reg data count =>
      if b.initialised ∧ data.isSome ∧ count ≠ 0 ∧ id ≠ SERVO_PROTOCOL_BROADCAST_ID then
        some (servoPacket id SERVO_INST_READ [reg, count])
      else none
  | write id reg data count =>
      if b.initialised ∧ data.isSome ∧ count ≠ 0 ∧ count.toNat + 1 ≤ SERVO_PROTOCOL_MAX_PARAMS then
        some (servoPacket id SERVO_INST_WRITE (reg :: (data.getD []).take count.toNat))
      else none
  | syncWrite reg width targets count =>
      if b.initialised ∧ targets.isSome ∧ count ≠ 0 ∧ servoProtocolWidthOk width ∧
          servoProtocolSyncWriteParams width count ≤ SERVO_PROTOCOL_MAX_PARAMS then
        some (servoPacket SERVO_PROTOCOL_BROADCAST_ID SERVO_INST_SYNC_WRITE
          (reg :: width :: ((targets.getD []).take count.toNat).flatMap fun target =>
            target.id :: servoProtocolEncodeValue target.value width b.endianness))
      else none
  | factoryReset id => if b.initialised then some (servoPacket id SERVO_INST_RESET []) else none

/-- The id that is called. -/
def id : BusCall → UInt8
  | ping id | read id _ _ _ | write id _ _ _ | factoryReset id => id
  | syncWrite _ _ _ _ => SERVO_PROTOCOL_BROADCAST_ID

/-- Where what is read goes, and how much is asked for. -/
def data : BusCall → Option Bytes
  | read _ _ data _ => data
  | _ => none

def count : BusCall → UInt8
  | read _ _ _ count => count
  | _ => 0

/-- The pointer that is handed on. -/
def errorByte (errorOut : Option UInt8) : BusCall → Option UInt8
  | syncWrite _ _ _ _ => none
  | factoryReset _ => errorOut.map fun _ => 0
  | _ => errorOut

/-- What the transaction of a call runs in. -/
def around {α : Type} (p : BusM ε α) : BusCall → BusM ε α
  | factoryReset _ => withoutRetries p
  | _ => p

/-- How often the request may be sent. -/
def budget (b : ServoBus) : BusCall → ℕ
  | factoryReset _ => 1
  | _ => b.maxRetries.toNat + 1

/-- What the transaction of a call begins with. -/
def start (w : ServoWorld ε) : BusCall → ServoWorld ε
  | factoryReset _ => { w with bus.maxRetries := 0 }
  | _ => w

theorem request_ne_nil {call : BusCall} {b : ServoBus} {request : Bytes}
    (h : call.request b = some request) : request ≠ [] := by
  have hpacket : ∀ id instruction params, servoPacket id instruction params ≠ [] := fun _ =>
    servoPacket_ne_nil
  cases call <;>
    · simp only [BusCall.request] at h
      split at h
      · rw [← Option.some.inj h]
        exact hpacket _ _ _
      · exact absurd h nofun

theorem run_syncWrite (errorOut : Option UInt8) (reg width : UInt8)
    (targets : Option (List ServoSyncTarget)) (count : UInt8) :
    ((syncWrite reg width targets count).run L errorOut).run w =
      (fun out => (⟨out.1, none, none⟩, out.2))
        ((servoBusSyncWrite L reg width targets count).run w) := rfl

theorem run_refused {call : BusCall} (h : call.request w.bus = none) (errorOut : Option UInt8) :
    (call.run L errorOut).run w = (⟨.errInvalidArg, call.data, call.errorByte errorOut⟩, w) := by
  cases call with
  | ping id =>
    have hidle : w.bus.initialised = false := by simpa [BusCall.request] using h
    change StateT.run (ite _ _ _) w = _
    rw [hidle]
    rfl
  | read id reg data count =>
    change StateT.run (ite _ _ _) w = _
    by_cases hargs : (!w.bus.initialised || data.isNone || count = 0) = true
    · rw [if_pos hargs]
      rfl
    by_cases hid : id = SERVO_PROTOCOL_BROADCAST_ID
    · rw [if_neg hargs, if_pos hid]
      rfl
    · simp only [Bool.or_eq_true, Bool.not_eq_true', decide_eq_true_eq, not_or,
        Bool.not_eq_false] at hargs
      simp [BusCall.request, hargs, hid] at h
  | write id reg data count =>
    change StateT.run (ite _ _ _) w = _
    by_cases hargs : (!w.bus.initialised || data.isNone || count = 0) = true
    · rw [if_pos hargs]
      rfl
    rw [if_neg hargs]
    cases data with
    | none => rfl
    | some data =>
      simp only [Option.isNone_some, Bool.or_eq_true, Bool.not_eq_true', decide_eq_true_eq, not_or,
        Bool.not_eq_false] at hargs
      have hmany : count.toNat + 1 > SERVO_PROTOCOL_MAX_PARAMS := by
        simpa [BusCall.request, hargs] using h
      rw [servoProtocolBuildWrite, if_neg hargs.2, if_pos hmany]
      rfl
  | syncWrite reg width targets count =>
    rw [run_syncWrite]
    suffices hsync : (servoBusSyncWrite L reg width targets count).run w = (.errInvalidArg, w) by
      rw [hsync]
      rfl
    change StateT.run (ite _ _ _) w = _
    by_cases hargs : (!w.bus.initialised || targets.isNone || count = 0) = true
    · rw [if_pos hargs]
      rfl
    rw [if_neg hargs]
    cases targets with
    | none => rfl
    | some targets =>
      simp only [Option.isNone_some, Bool.or_eq_true, Bool.not_eq_true', decide_eq_true_eq, not_or,
        Bool.not_eq_false] at hargs
      rw [servoProtocolBuildSyncWrite, if_neg hargs.2]
      by_cases hwidth : servoProtocolWidthOk width = true
      · have hmany : servoProtocolSyncWriteParams width count > SERVO_PROTOCOL_MAX_PARAMS := by
          simpa [BusCall.request, hargs, hwidth] using h
        rw [hwidth, if_neg (by decide), if_pos hmany]
        rfl
      · rw [Bool.not_eq_true] at hwidth
        rw [hwidth]
        rfl
  | factoryReset id =>
    have hidle : w.bus.initialised = false := by simpa [BusCall.request] using h
    change StateT.run (ite _ _ _) w = _
    rw [hidle]
    rfl

theorem run_accepted {call : BusCall} {request : Bytes} (h : call.request w.bus = some request)
    (errorOut : Option UInt8) :
    (call.run L errorOut).run w =
      (call.around (transact L request call.id call.data call.count (call.errorByte errorOut))).run
        w := by
  cases call with
  | ping id =>
    simp only [BusCall.request, Option.ite_none_right_eq_some, Option.some.injEq] at h
    obtain ⟨hready, rfl⟩ := h
    change StateT.run (ite _ _ _) w = _
    rw [hready]
    rfl
  | read id reg data count =>
    simp only [BusCall.request, Option.ite_none_right_eq_some, Option.some.injEq] at h
    obtain ⟨⟨hready, hdata, hcount, hid⟩, rfl⟩ := h
    have hbuild : servoProtocolBuildRead SERVO_PROTOCOL_MAX_PACKET_SIZE id reg count =
        .ok (servoPacket id SERVO_INST_READ [reg, count]) := by
      rw [servoProtocolBuildRead, if_neg hcount]
      exact servoProtocolBuild_eq (Nat.le_of_ble_eq_true rfl)
    obtain ⟨data, rfl⟩ := Option.isSome_iff_exists.mp hdata
    change StateT.run (ite _ _ _) w = _
    rw [hready, hbuild, if_neg (by simpa using hcount), if_neg hid]
    rfl
  | write id reg data count =>
    simp only [BusCall.request, Option.ite_none_right_eq_some, Option.some.injEq] at h
    obtain ⟨⟨hready, hdata, hcount, hroom⟩, rfl⟩ := h
    obtain ⟨data, rfl⟩ := Option.isSome_iff_exists.mp hdata
    have hbuild : servoProtocolBuildWrite SERVO_PROTOCOL_MAX_PACKET_SIZE id reg (some data) count =
        .ok (servoPacket id SERVO_INST_WRITE (reg :: data.take count.toNat)) := by
      rw [servoProtocolBuildWrite, if_neg hcount, if_neg (not_lt.mpr hroom)]
      refine servoProtocolBuild_eq ?_
      rw [List.length_cons, List.length_take]
      omega
    change StateT.run (ite _ _ _) w = _
    rw [hready, hbuild, if_neg (by simpa using hcount)]
    rfl
  | syncWrite reg width targets count =>
    simp only [BusCall.request, Option.ite_none_right_eq_some, Option.some.injEq] at h
    obtain ⟨⟨hready, htargets, hcount, hwidth, hroom⟩, hrequest⟩ := h
    obtain ⟨targets, rfl⟩ := Option.isSome_iff_exists.mp htargets
    rw [Option.getD_some] at hrequest
    have hbuild : servoProtocolBuildSyncWrite SERVO_PROTOCOL_MAX_PACKET_SIZE reg width (some targets)
        count w.bus.endianness = .ok request := by
      rw [servoProtocolBuildSyncWrite, if_neg hcount, hwidth, if_neg (by decide),
        if_neg (not_lt.mpr hroom), ← hrequest]
      refine servoProtocolBuild_eq (le_trans ?_ hroom)
      have hgroups := length_syncGroups hwidth w.bus.endianness (targets.take count.toNat)
      have htaken : (targets.take count.toNat).length ≤ count.toNat := List.length_take_le _ _
      calc _ = 2 + (width.toNat + 1) * (targets.take count.toNat).length := by
            rw [← hgroups, List.length_cons, List.length_cons, Nat.add_comm 2]
            rfl
        _ ≤ _ := Nat.add_le_add_left (Nat.mul_le_mul_left _ htaken) _
    have hne : request ≠ [] := by
      rw [← hrequest]
      exact List.cons_ne_nil _ _
    have htransact : Ensures (· = w) (transact L request SERVO_PROTOCOL_BROADCAST_ID none 0 none) _ :=
      transact_tried hne
    obtain ⟨hparams, herror⟩ := (htransact w rfl).1.attempted.kept (.inr rfl)
    have hsync : (servoBusSyncWrite L reg width (some targets) count).run w =
        (fun out => (out.1.result, out.2))
          ((transact L request SERVO_PROTOCOL_BROADCAST_ID none 0 none).run w) := by
      change StateT.run (ite _ _ _) w = _
      rw [hready, hbuild, if_neg (by simpa using hcount)]
      rfl
    rw [run_syncWrite, hsync]
    refine Prod.ext ?_ rfl
    exact congrArg₂ (ServoReply.mk _) hparams.symm herror.symm
  | factoryReset id =>
    simp only [BusCall.request, Option.ite_none_right_eq_some, Option.some.injEq] at h
    obtain ⟨hready, rfl⟩ := h
    change StateT.run (ite _ _ _) w = _
    rw [hready]
    rfl

variable (L) in
/-- What the attempts of a call come to. -/
def attempts (request : Bytes) (errorOut : Option UInt8) (w : ServoWorld ε) (call : BusCall) :
    List ServoBusResult :=
  servoAttempts L request call.id call.data call.count (call.errorByte errorOut) (call.start w)

/-- What a call leaves whose arguments are accepted. -/
structure Transacted (L : Line ε) (call : BusCall) (w : ServoWorld ε) (request : Bytes)
    (attempts : List ServoBusResult) (reply : ServoReply) (w' : ServoWorld ε) : Prop where
  bounded : attempts.length ≤ call.budget w.bus
  last : attempts.getLast? = some reply.result
  failed : ∀ result ∈ attempts.dropLast, result ≠ .ok
  counted : w'.bus = { w.bus with stats := w.bus.stats.counting attempts }
  sent : w'.sent = w.sentBy request attempts.length
  unanswered : call.id = SERVO_PROTOCOL_BROADCAST_ID →
    ∀ result ∈ attempts.dropLast, result = .errTimeout ∨ result = .errTransport
  answered : reply.result = .ok → call.id ≠ SERVO_PROTOCOL_BROADCAST_ID →
    ∃ error params, Answered L w.bus request call.id error params w'.line ∧
      params.length = call.count.toNat ∧
      reply.params = call.data.map fun out => params ++ out.drop call.count.toNat

theorem start_budget (call : BusCall) (w : ServoWorld ε) :
    (call.start w).bus.maxRetries.toNat + 1 = call.budget w.bus := by
  cases call <;> rfl

theorem attempts_failed (call : BusCall) (request : Bytes) (errorOut : Option UInt8)
    (w : ServoWorld ε) :
    ∀ result ∈ (call.attempts L request errorOut w).dropLast, result ≠ .ok := by
  intro result hresult hok
  rw [attempts, servoAttempts, ← List.map_dropLast, List.mem_map] at hresult
  obtain ⟨reply, hreply, rfl⟩ := hresult
  have hunsettled := unsettled_before_last _ _ _ _ reply hreply
  simp [ServoReply.settles, hok] at hunsettled

theorem around_tried {call : BusCall} {request : Bytes} (hrequest : request ≠ [])
    (errorOut : Option UInt8) :
    Ensures (· = w)
      (call.around (transact L request call.id call.data call.count (call.errorByte errorOut)))
      fun reply w' =>
        Tried L w request call.id call.count call.data ((call.errorByte errorOut).map fun _ => 0)
          (call.attempts L request errorOut w) reply w' ∧
        (call.attempts L request errorOut w).getLast? = some reply.result := by
  have htransact : Ensures (· = call.start w)
      (transact L request call.id call.data call.count (call.errorByte errorOut)) _ :=
    transact_tried hrequest
  cases call with
  | factoryReset id =>
    intro w₀ hsame
    subst hsame
    obtain ⟨⟨⟨hbus, hsent⟩, hunread, hattempted⟩, hlast⟩ := htransact _ rfl
    refine ⟨⟨⟨?_, hsent⟩, hunread, ?_⟩, hlast⟩
    · exact congrArg (fun bus : ServoBus => { bus with maxRetries := w₀.bus.maxRetries }) hbus
    · exact Attempted.restate (b := { w₀.bus with maxRetries := 0 }) rfl rfl hattempted
  | _ => exact htransact

theorem run_transacted {call : BusCall} {request : Bytes} (h : call.request w.bus = some request)
    (errorOut : Option UInt8) :
    Transacted L call w request (call.attempts L request errorOut w)
      ((call.run L errorOut).run w).1 ((call.run L errorOut).run w).2 := by
  rw [run_accepted h]
  obtain ⟨⟨⟨hbus, hsent⟩, hunread, hattempted⟩, hlast⟩ :=
    around_tried (request_ne_nil h) errorOut w rfl
  refine ⟨?_, hlast, attempts_failed call request errorOut w, hbus, hsent, ?_, ?_⟩
  · rw [attempts, servoAttempts, List.length_map, ← start_budget]
    exact length_outcomes_le _ _ _ _
  · intro hid result hresult
    rcases hunread hid result (List.mem_of_mem_dropLast hresult) with hok | hfailed
    · exact absurd hok (attempts_failed call request errorOut w result hresult)
    · exact hfailed
  · intro hok hid
    obtain ⟨error, params, hanswered, hlength, hparams, -⟩ := hattempted.answered hok hid
    exact ⟨error, params, hanswered, hlength, hparams⟩

end BusCall

theorem attempt_broadcast (request : Bytes) (params : Option Bytes) (paramCount : UInt8)
    (errorOut : Option UInt8) :
    attempt L request SERVO_PROTOCOL_BROADCAST_ID params paramCount errorOut =
      halfDuplexUartWrite L request >>= fun sent =>
        pure ⟨if sent = .ok then .ok else transportError sent, params, errorOut⟩ := by
  unfold attempt
  congr 1
  funext sent
  by_cases hsent : sent = .ok
  · simp [hsent]
  · simp [hsent]

theorem attempt_broadcast_ok (request : Bytes) (params : Option Bytes) (paramCount : UInt8)
    (errorOut : Option UInt8) (w : ServoWorld ε) :
    ((attempt L request SERVO_PROTOCOL_BROADCAST_ID params paramCount errorOut).run w).1.result =
      .ok ↔ ((halfDuplexUartWrite L request).run w).1 = .ok := by
  rw [attempt_broadcast]
  change (if ((halfDuplexUartWrite L request).run w).1 = .ok then ServoBusResult.ok
    else transportError ((halfDuplexUartWrite L request).run w).1) = .ok ↔ _
  split
  · rename_i hsent
    exact iff_of_true rfl hsent
  · rename_i hfailed
    exact iff_of_false (transportError_ne_ok _) hfailed

theorem servoRound_fst (request : Bytes) (id paramCount : UInt8) (number : ℕ) (last : ServoReply)
    (w : ServoWorld ε) :
    ((servoRound L request id paramCount number last).run w).1 =
      ((attempt L request id last.params paramCount last.error).run
        { w with bus.stats := w.bus.stats.begun number }).1 := by
  change ((do
    let reply ← attempt L request id last.params paramCount last.error
    if reply.result = .ok then return reply
    updateServoStats (countFailure reply.result)
    if reply.result = .errInvalidArg then return reply
    halfDuplexUartFlushRx L
    return reply : BusM ε ServoReply).run { w with bus.stats := w.bus.stats.begun number }).1 = _
  rw [StateT.run_bind]
  generalize (attempt L request id last.params paramCount last.error).run
    { w with bus.stats := w.bus.stats.begun number } = attempted
  obtain ⟨reply, w'⟩ := attempted
  change ((ite _ _ _ : BusM ε ServoReply).run w').1 = reply
  split_ifs with hok
  · rfl
  · rfl
  · change ((halfDuplexUartFlushRx L >>= fun _ => pure reply : BusM ε ServoReply).run _).1 = reply
    rw [StateT.run_bind]
    rfl

/-- A round of a broadcast is the last exactly when its write succeeds. -/
theorem servoRound_broadcast_settles (request : Bytes) (paramCount : UInt8) (number : ℕ)
    (last : ServoReply) (w : ServoWorld ε) :
    ((servoRound L request SERVO_PROTOCOL_BROADCAST_ID paramCount number last).run w).1.settles =
        true ↔
      ((halfDuplexUartWrite L request).run
        { w with bus.stats := w.bus.stats.begun number }).1 = .ok := by
  rw [servoRound_fst, ← attempt_broadcast_ok request last.params paramCount last.error,
    ServoReply.settles, decide_eq_true_iff, or_iff_left]
  rw [attempt_broadcast]
  change ¬ (if ((halfDuplexUartWrite L request).run _).1 = .ok then ServoBusResult.ok
    else transportError ((halfDuplexUartWrite L request).run _).1) = .errInvalidArg
  split_ifs with hsent
  · exact nofun
  · unfold transportError
    split_ifs
    · exact nofun
    · exact nofun

theorem halfDuplexUartWrite_ok_iff {request : Bytes} (hrequest : request ≠ []) (w : ServoWorld ε) :
    ((halfDuplexUartWrite L request).run w).1 = .ok ↔ w.bus.uart.initialised = true ∧
      (w.bus.uart.echo = .keep ∨ (L.transmit w.bus.uart.baudrate request w.line).1 = true) := by
  change ((ite _ _ _ : BusM ε HalfDuplexUartResult).run w).1 = .ok ↔ _
  split_ifs with hidle hempty hkeep
  · rw [Bool.not_eq_true'] at hidle
    exact iff_of_false nofun fun h => Bool.noConfusion (hidle.symm.trans h.1)
  · exact absurd (List.eq_nil_of_length_eq_zero hempty) hrequest
  · rw [Bool.not_eq_true', Bool.not_eq_false] at hidle
    exact iff_of_true rfl ⟨hidle, .inl hkeep⟩
  · rw [Bool.not_eq_true', Bool.not_eq_false] at hidle
    rw [and_iff_right hidle, or_iff_right hkeep]
    change (if (L.transmit w.bus.uart.baudrate request w.line).1 = true then
      HalfDuplexUartResult.ok else .errTimeout) = .ok ↔ _
    split_ifs with hecho
    · exact iff_of_true rfl hecho
    · exact iff_of_false nofun hecho

theorem BusCall.sent_once_iff {call : BusCall} {request : Bytes}
    (hrequest : call.request w.bus = some request) (hid : call.id = SERVO_PROTOCOL_BROADCAST_ID)
    (errorOut : Option UInt8) :
    ((call.run L errorOut).run w).2.sent.length ≤ w.sent.length + 1 ↔
      (w.bus.uart.initialised = true → w.bus.uart.echo = .keep ∨
        (L.transmit w.bus.uart.baudrate request w.line).1 = true ∨ call.budget w.bus = 1) := by
  have hstart : (call.start w).bus.uart = w.bus.uart ∧ (call.start w).line = w.line := by
    cases call <;> exact ⟨rfl, rfl⟩
  have hattempts : (call.attempts L request errorOut w).length ≤ 1 ↔
      (w.bus.uart.initialised = true ∧ (w.bus.uart.echo = .keep ∨
        (L.transmit w.bus.uart.baudrate request w.line).1 = true)) ∨ call.budget w.bus = 1 := by
    rw [attempts, servoAttempts, List.length_map, length_outcomes_le_one_iff, hid,
      servoRound_broadcast_settles, halfDuplexUartWrite_ok_iff (request_ne_nil hrequest),
      ← start_budget]
    dsimp only
    rw [hstart.1, hstart.2]
    exact or_congr_right (Nat.add_eq_right).symm
  rw [(call.run_transacted hrequest errorOut).sent, ServoWorld.sentBy, List.length_append,
    List.length_replicate, Nat.add_le_add_iff_left]
  split_ifs with hready
  · rw [hattempts, and_iff_right hready, or_assoc]
    exact ⟨fun h _ => h, fun h => h hready⟩
  · exact iff_of_true (Nat.zero_le 1) fun h => absurd h hready

/-- The retries of the servo bus are bounded, counted and sound. Arguments that are not accepted
leave everything as it was. Otherwise there are at most `max_retries` + 1 attempts, one for a
factory reset, every one but the last failed; each is counted once, with its failure in one counter
at most; and what is returned for a reply is the parameters of a packet of that servo, as many as
were asked for. A broadcast is sent again only when its write has failed, and does go out twice
where its first echo is lost and a retry is left. -/
theorem servo_retries_bounded (L : Line ε) (call : BusCall) (errorOut : Option UInt8)
    (w : ServoWorld ε) :
    (match call.request w.bus with
      | none => ((call.run L errorOut).run w).1.result = .errInvalidArg ∧
          ((call.run L errorOut).run w).2 = w
      | some request => call.Transacted L w request (call.attempts L request errorOut w)
          ((call.run L errorOut).run w).1 ((call.run L errorOut).run w).2) ∧
    ((call.run L errorOut).run w).2.bus.maxRetries = w.bus.maxRetries ∧
    (∀ (request : Bytes) (w' : ServoWorld ε),
      ((attempt L request SERVO_PROTOCOL_BROADCAST_ID call.data call.count errorOut).run
          w').1.result = .ok ↔ ((halfDuplexUartWrite L request).run w').1 = .ok) ∧
    ∀ request, call.request w.bus = some request → call.id = SERVO_PROTOCOL_BROADCAST_ID →
      (((call.run L errorOut).run w).2.sent.length ≤ w.sent.length + 1 ↔
        (w.bus.uart.initialised = true → w.bus.uart.echo = .keep ∨
          (L.transmit w.bus.uart.baudrate request w.line).1 = true ∨ call.budget w.bus = 1)) := by
  refine ⟨?_, ?_, fun request w' => attempt_broadcast_ok request _ _ _ w',
    fun request hrequest hid => BusCall.sent_once_iff hrequest hid errorOut⟩
  · cases hrequest : call.request w.bus with
    | none =>
      dsimp only
      rw [call.run_refused hrequest]
      exact ⟨rfl, rfl⟩
    | some request => exact call.run_transacted hrequest errorOut
  · cases hrequest : call.request w.bus with
    | none => rw [call.run_refused hrequest]
    | some request => rw [(call.run_transacted hrequest errorOut).counted]

/-- A line that loses the first echo, and no other. -/
def lateEchoLine : Line Bool where
  clockHz := 125000000
  transmit _ _ echoes := (echoes, true)
  receive _ echoes := ([], echoes)
  flush echoes := echoes
  sleepMs _ echoes := echoes
  timeReached _ := true

/-- Two positions sent at once over that line: without a retry they go out once, with one twice. -/
theorem servo_retries_bounded_syncWrite :
    (((BusCall.syncWrite 42 2 (some [⟨1, 512⟩, ⟨2, 300⟩]) 2).run lateEchoLine none).run
      ⟨⟨⟨57142, .discard, ⟨273, 112, 57142, 0⟩, true⟩, .little, 0, 0, ⟨0, 0, 0, 0, 0, 0⟩, true⟩, [],
        false⟩).2.sent.length ≤ 0 + 1 ∧
    ¬ (((BusCall.syncWrite 42 2 (some [⟨1, 512⟩, ⟨2, 300⟩]) 2).run lateEchoLine none).run
      ⟨⟨⟨57142, .discard, ⟨273, 112, 57142, 0⟩, true⟩, .little, 1, 0, ⟨0, 0, 0, 0, 0, 0⟩, true⟩, [],
        false⟩).2.sent.length ≤ 0 + 1 := by
  constructor
  · apply ((servo_retries_bounded lateEchoLine _ none _).2.2.2 _ rfl rfl).mpr
    exact fun _ => .inr (.inr rfl)
  · intro honce
    exact absurd (((servo_retries_bounded lateEchoLine _ none _).2.2.2 _ rfl rfl).mp honce rfl)
      (by decide)

/-- A broadcast that goes out is sent once more when its echo is lost. -/
theorem servo_broadcast_sent_twice :
    ¬ ∀ (ε : Type) (L : Line ε) (w : ServoWorld ε),
      ((servoBusPing L SERVO_PROTOCOL_BROADCAST_ID none).run w).1.result = .ok →
        ((servoBusPing L SERVO_PROTOCOL_BROADCAST_ID none).run w).2.sent.length ≤
          w.sent.length + 1 := by
  intro h
  exact absurd (h Bool lateEchoLine ⟨⟨⟨57142, .discard, ⟨273, 112, 57142, 0⟩, true⟩, .little, 1, 0,
    ⟨0, 0, 0, 0, 0, 0⟩, true⟩, [], false⟩) (by decide)

end calls

end Pico
