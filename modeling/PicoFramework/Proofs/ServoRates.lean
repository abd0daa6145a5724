import PicoFramework.Lib.Run
import PicoFramework.Proofs.ServoObserver

/-! Which rate the host is left at, by the calls that move a servo to another one. -/

namespace Pico

open Lib.Hoare Lib.Mirror Lib.Run

variable {ε : Type} {L : Line ε} {b : ServoBus}

section sightings

/-- The bytes that come in are a packet of that servo without parameters. -/
def Exchange.Answers (exchange : Exchange) (id : UInt8) : Prop :=
  ∃ error, exchange.arrived.take SERVO_PROTOCOL_OVERHEAD = servoPacket id error []

/-- A ping that went out at that rate, and was answered. -/
def Exchange.Confirms (exchange : Exchange) (baudrate : UInt32) (id : UInt8) : Prop :=
  exchange.baudrate = baudrate ∧ exchange.packet = servoPacket id SERVO_INST_PING [] ∧
    exchange.Answers id

theorem judgeReply_bare {reply : Bytes} {id : UInt8} {params : Option Bytes}
    {errorOut : Option UInt8} (hlength : reply.length = SERVO_PROTOCOL_OVERHEAD) :
    (judgeReply reply id params 0 errorOut).result = .ok ↔ ∃ error, reply = servoPacket id error [] := by
  constructor
  · intro hok
    obtain ⟨error, answer, hpacket, hanswer, -⟩ := judgeReply_answer (by simpa using hlength) hok
    rw [List.eq_nil_of_length_eq_zero hanswer] at hpacket
    exact ⟨error, hpacket⟩
  · rintro ⟨error, rfl⟩
    rw [judgeReply, servoProtocolParseStatus_packet (Nat.zero_le _)]
    dsimp only
    rw [if_neg (not_not.mpr rfl), if_neg (by decide)]

/-- What an observer has noted since `old`: requests at the rate of the bus, one of which has been
answered just if `ok`. -/
def Noted (b : ServoBus) (request : Bytes) (id : UInt8) (old : List Exchange) (ok : Prop)
    (w : ServoWorld (Observed ε)) : Prop :=
  OnBus b w ∧ ∃ new, w.line.exchanges = old ++ new ∧
    (∀ exchange ∈ new, exchange.baudrate = b.uart.baudrate ∧ exchange.packet = request) ∧
    (ok ↔ ∃ exchange ∈ new, exchange.Answers id)

variable {request : Bytes} {id : UInt8} {old : List Exchange}

theorem write_observed (hrequest : request ≠ []) :
    Ensures (fun w => OnBus b w ∧ w.line.exchanges = old) (halfDuplexUartWrite L.observed request)
      fun result w => (OnBus b w ∧ w.line.exchanges = old) ∧
        (result = .ok → w.line.baudrate = b.uart.baudrate ∧ w.line.packet = request) := by
  unfold halfDuplexUartWrite
  refine .get_bind fun w hw => .ite (fun _ => .pure ?_) fun _ => ?_
  · intro w hsame
    subst hsame
    exact ⟨hw, nofun⟩
  refine .ite (fun hempty => absurd (List.eq_nil_of_length_eq_zero hempty) hrequest) fun _ => ?_
  intro w hsame
  subst hsame
  have hafter := hw.1.uart_eq
  dsimp only
  split <;> exact ⟨hw, fun _ => ⟨congrArg HalfDuplexUart.baudrate hafter, rfl⟩⟩

theorem read_observed (timeoutUs : UInt32) :
    Ensures (fun w => (OnBus b w ∧ w.line.exchanges = old) ∧
        w.line.baudrate = b.uart.baudrate ∧ w.line.packet = request)
      (halfDuplexUartReadExact L.observed SERVO_PROTOCOL_OVERHEAD timeoutUs) fun read w =>
        OnBus b w ∧ ((read.1 ≠ .ok ∧ w.line.exchanges = old) ∨
          ∃ arrived, w.line.exchanges = old ++ [⟨b.uart.baudrate, request, arrived⟩] ∧
            (read.1 = .ok ↔ SERVO_PROTOCOL_OVERHEAD ≤ arrived.length) ∧
            (read.1 = .ok → read.2 = arrived.take SERVO_PROTOCOL_OVERHEAD)) := by
  unfold halfDuplexUartReadExact
  refine .get_bind fun w hw => .ite (fun _ => .pure ?_) fun _ => ?_
  · intro w hsame
    subst hsame
    exact ⟨hw.1.1, .inl ⟨nofun, hw.1.2⟩⟩
  refine .ite (fun hnone => absurd hnone (by decide)) fun _ => ?_
  obtain ⟨⟨hbus, hold⟩, hrate, hpacket⟩ := hw
  intro w hsame
  subst hsame
  have hnoted : (L.observed.receive timeoutUs w.line).2.exchanges =
      old ++ [⟨b.uart.baudrate, request, (L.observed.receive timeoutUs w.line).1⟩] := by
    rw [← hold, ← hrate, ← hpacket]
    rfl
  dsimp only
  split
  · rename_i hlong
    exact ⟨hbus, .inr ⟨_, hnoted, iff_of_true rfl hlong, fun _ => rfl⟩⟩
  · rename_i hshort
    exact ⟨hbus, .inr ⟨_, hnoted, iff_of_false nofun hshort, nofun⟩⟩

theorem exists_exchange_append {P : Exchange → Prop} (before new : List Exchange) :
    (∃ exchange ∈ before ++ new, P exchange) ↔
      (∃ exchange ∈ before, P exchange) ∨ ∃ exchange ∈ new, P exchange := by
  simp only [List.mem_append, or_and_right, exists_or]

theorem attempt_noted (hrequest : request ≠ []) (hid : id ≠ SERVO_PROTOCOL_BROADCAST_ID)
    (params : Option Bytes) (errorOut : Option UInt8) :
    Ensures (Noted b request id old False) (attempt L.observed request id params 0 errorOut)
      fun reply w => Noted b request id old (reply.result = .ok) w := by
  rintro w₀ ⟨hbus₀, before, hbefore, hsame, hunanswered⟩
  have hnone : ¬ ∃ exchange ∈ before, exchange.Answers id := fun h => hunanswered.mpr h
  suffices hattempt : Ensures (fun w => OnBus b w ∧ w.line.exchanges = old ++ before)
      (attempt L.observed request id params 0 errorOut)
      fun reply w => Noted b request id old (reply.result = .ok) w from
    hattempt w₀ ⟨hbus₀, hbefore⟩
  have hquiet : ∀ {result : ServoBusResult} {w : ServoWorld (Observed ε)}, result ≠ .ok →
      OnBus b w → w.line.exchanges = old ++ before → Noted b request id old (result = .ok) w :=
    fun hfailed hbus hold => ⟨hbus, before, hold, hsame, iff_of_false hfailed hnone⟩
  unfold attempt
  refine .bind (write_observed hrequest) fun sent => ?_
  refine .ite (fun _ => .pure fun w hw => ?_) fun hsent => ?_
  · exact hquiet (transportError_ne_ok sent) hw.1.1 hw.1.2
  suffices hrest : Ensures (fun w : ServoWorld (Observed ε) =>
      (OnBus b w ∧ w.line.exchanges = old ++ before) ∧
        w.line.baudrate = b.uart.baudrate ∧ w.line.packet = request) _ _ from
    hrest.weaken fun w hw => ⟨hw.1, hw.2 (not_not.mp hsent)⟩
  refine .ite (fun hbroadcast => absurd hbroadcast hid) fun _ => ?_
  refine .ite (fun hroom => absurd hroom (by decide)) fun _ => .read fun middle => ?_
  refine .bind (read_observed _) fun read => ?_
  -- bytes that have come in are one exchange more
  have hnoted : ∀ {result : ServoBusResult} {w : ServoWorld (Observed ε)} {arrived : Bytes},
      OnBus b w → w.line.exchanges = old ++ before ++ [⟨b.uart.baudrate, request, arrived⟩] →
      (result = .ok ↔ ∃ error, arrived.take SERVO_PROTOCOL_OVERHEAD = servoPacket id error []) →
      Noted b request id old (result = .ok) w := by
    intro result w arrived hbus hnow hok
    refine ⟨hbus, before ++ [⟨b.uart.baudrate, request, arrived⟩], by rw [hnow, List.append_assoc],
      fun exchange hexchange => ?_, hok.trans ?_⟩
    · rcases List.mem_append.mp hexchange with hearlier | hlast
      · exact hsame exchange hearlier
      · rw [List.mem_singleton.mp hlast]
        exact ⟨rfl, rfl⟩
    · rw [exists_exchange_append, or_iff_right hnone]
      simp only [List.mem_singleton, exists_eq_left]
      rfl
  refine .ite (fun hread => .pure fun w hw => ?_) fun hread => .pure fun w hw => ?_
  · rcases hw with ⟨hbus, ⟨-, hold⟩ | ⟨arrived, hnow, hlong, -⟩⟩
    · exact hquiet (transportError_ne_ok read.1) hbus hold
    · refine hnoted hbus hnow (iff_of_false (transportError_ne_ok read.1) ?_)
      rintro ⟨error, hpacket⟩
      have hlength := congrArg List.length hpacket
      rw [servoPacket_length, List.length_take, List.length_nil] at hlength
      exact hread (hlong.mpr (min_eq_left_iff.mp hlength))
  · rw [not_not] at hread
    rcases hw with ⟨hbus, ⟨hfailed, -⟩ | ⟨arrived, hnow, hlong, htaken⟩⟩
    · exact absurd hread hfailed
    · refine hnoted hbus hnow ?_
      rw [htaken hread]
      exact judgeReply_bare (List.length_take_of_le (hlong.mp hread))

theorem transactFrom_noted (hrequest : request ≠ []) (hid : id ≠ SERVO_PROTOCOL_BROADCAST_ID)
    (attempts left : ℕ) {last : ServoReply} (hlast : last.result ≠ .ok) :
    Ensures (Noted b request id old False) (transactFrom L.observed request id 0 attempts left last)
      fun reply w => Noted b request id old (reply.result = .ok) w := by
  have hcounted : ∀ (update : ServoBusStats → ServoBusStats) (ok : Prop),
      Ensures (Noted b request id old ok) (updateServoStats update : BusM (Observed ε) Unit)
        fun _ w => Noted b request id old ok w := by
    intro update ok
    refine .modify ?_
    rintro w ⟨⟨stats, hbus⟩, hnoted⟩
    exact ⟨⟨update stats, by rw [hbus]⟩, hnoted⟩
  have hflushed : Ensures (Noted b request id old False) (halfDuplexUartFlushRx L.observed)
      fun _ w => Noted b request id old False w := by
    refine .get_bind fun w hw => .ite (fun _ => ?_) fun _ => .pure fun w' hsame => hsame ▸ hw
    intro w' hsame
    subst hsame
    exact hw
  induction left generalizing attempts last with
  | zero =>
    refine .pure fun w hw => ?_
    rw [eq_false hlast]
    exact hw
  | succ left ih =>
    refine .bind (hcounted _ _) fun _ => .bind (attempt_noted hrequest hid _ _) fun reply => ?_
    refine .ite (fun _ => .pure fun w hw => hw) fun hfailed => ?_
    refine .bind (hcounted _ _) fun _ => .ite (fun _ => .pure fun w hw => hw) fun _ => ?_
    rw [eq_false hfailed]
    exact .bind hflushed fun _ => ih (attempts + 1) hfailed

/-- What a transaction without parameters leaves with an observer. -/
theorem transact_noted (hrequest : request ≠ []) (hid : id ≠ SERVO_PROTOCOL_BROADCAST_ID)
    (errorOut : Option UInt8) :
    Ensures (fun w => OnBus b w ∧ w.line.exchanges = old)
      (transact L.observed request id none 0 errorOut)
      fun reply w => Noted b request id old (reply.result = .ok) w := by
  refine .read fun w => .weaken (transactFrom_noted hrequest hid _ _ nofun) fun w hw => ?_
  exact ⟨hw.1, [], by rw [List.append_nil]; exact hw.2, fun _ h => absurd h List.not_mem_nil, by simp⟩

end sightings

section seeking

variable {request : Bytes} {id target : UInt8} {old : List Exchange} {rate : UInt32} {c : Prop}

/-- Whether a ping of that servo has been answered at that rate since `old` is known to be `c`. -/
def Sought (old : List Exchange) (rate : UInt32) (id : UInt8) (c : Prop) :
    List Bytes → Observed ε → Prop :=
  fun _ o => ∃ new, o.exchanges = old ++ new ∧
    ((∃ exchange ∈ new, exchange.Confirms rate id) ↔ c)

theorem transact_unsought (hrequest : request ≠ [])
    (hother : request ≠ servoPacket id SERVO_INST_PING [])
    (htarget : target ≠ SERVO_PROTOCOL_BROADCAST_ID) (errorOut : Option UInt8) :
    Ensures (Beside b (Sought old rate id c)) (transact L.observed request target none 0 errorOut)
      fun _ w => Beside b (Sought old rate id c) w := by
  rintro w ⟨hbus, before, hbefore, hc⟩
  obtain ⟨hbus', new, hnew, hsame, -⟩ :=
    transact_noted (L := L) hrequest htarget errorOut w ⟨hbus, hbefore⟩
  have hnone : ¬ ∃ exchange ∈ new, exchange.Confirms rate id := by
    rintro ⟨exchange, hexchange, hconfirms⟩
    exact hother ((hsame exchange hexchange).2.symm.trans hconfirms.2.1)
  refine ⟨hbus', before ++ new, by rw [hnew, List.append_assoc], ?_⟩
  rw [exists_exchange_append, or_iff_left hnone]
  exact hc

theorem transact_sought (hrate : b.uart.baudrate = rate) (hid : id ≠ SERVO_PROTOCOL_BROADCAST_ID)
    (errorOut : Option UInt8) :
    Ensures (Beside b (Sought old rate id False))
      (transact L.observed (servoPacket id SERVO_INST_PING []) id none 0 errorOut)
      fun reply w => Beside b (Sought old rate id (reply.result = .ok)) w := by
  rintro w ⟨hbus, before, hbefore, hnone⟩
  have hping : servoPacket id SERVO_INST_PING [] ≠ [] := servoPacket_ne_nil _ _
  obtain ⟨hbus', new, hnew, hsame, hok⟩ :=
    transact_noted (L := L) hping hid errorOut w ⟨hbus, hbefore⟩
  refine ⟨hbus', before ++ new, by rw [hnew, List.append_assoc], ?_⟩
  rw [exists_exchange_append, or_iff_right hnone.mp, hok]
  constructor
  · rintro ⟨exchange, hexchange, hconfirms⟩
    exact ⟨exchange, hexchange, hconfirms.2.2⟩
  · rintro ⟨exchange, hexchange, hanswers⟩
    obtain ⟨hbaudrate, hpacket⟩ := hsame exchange hexchange
    exact ⟨exchange, hexchange, hbaudrate.trans hrate, hpacket, hanswers⟩

theorem servoPacket_ne_ping {instruction : UInt8} (hinstruction : instruction ≠ SERVO_INST_PING)
    (params : Bytes) : servoPacket target instruction params ≠ servoPacket id SERVO_INST_PING [] := by
  intro hsame
  have hfifth := congrArg (fun packet : Bytes => packet.getD ServoProtocol.OFFSET_INSTRUCTION 0) hsame
  exact hinstruction hfifth

theorem writeServoRegister_unsought (hready : b.initialised = true)
    (htarget : target ≠ SERVO_PROTOCOL_BROADCAST_ID) (reg : UInt8) (value : UInt32) :
    Ensures (Beside b (Sought old rate id c)) (writeServoRegister L.observed target reg value 1)
      fun _ w => Beside b (Sought old rate id c) w := by
  refine .bind ?_ fun _ => .pure fun w hw => hw
  intro w hw
  rw [servoBusWriteValue_run (hw.1.initialised_eq.trans hready) target reg value rfl none]
  exact transact_unsought (servoPacket_ne_nil _ _) (servoPacket_ne_ping (by decide) _) htarget none w hw

theorem withoutRetries_unsought {α : Type} {call : BusM (Observed ε) α}
    (h : ∀ retries, Ensures (Beside { b with maxRetries := retries } (Sought old rate id c)) call
      fun _ w => Beside { b with maxRetries := retries } (Sought old rate id c) w) :
    Ensures (Beside b (Sought old rate id c)) (withoutRetries call)
      fun _ w => Beside b (Sought old rate id c) w := by
  have hcall : Ensures (Beside { b with maxRetries := 0 } (Sought old rate id c)) call
      fun _ w => Beside { b with maxRetries := 0 } (Sought old rate id c) w ∧ True :=
    (h 0).mono fun _ _ hw => ⟨hw, trivial⟩
  exact (withoutRetries_beside hcall).mono fun _ _ hw => hw.1

theorem servoBusFactoryReset_unsought (hready : b.initialised = true)
    (htarget : target ≠ SERVO_PROTOCOL_BROADCAST_ID) (errorOut : Option UInt8) :
    Ensures (Beside b (Sought old rate id c)) (servoBusFactoryReset L.observed target errorOut)
      fun _ w => Beside b (Sought old rate id c) w := by
  refine .get_bind fun w hw => .ite (fun hidle => ?_) fun _ => ?_
  · rw [hw.1.initialised_eq, hready] at hidle
    exact absurd hidle (by decide)
  rw [servoProtocolBuild_eq (Nat.zero_le _)]
  refine (withoutRetries_unsought fun retries => transact_unsought (servoPacket_ne_nil _ _)
    (servoPacket_ne_ping (by decide) _) htarget _).weaken ?_
  intro w' hsame
  subst hsame
  exact hw

theorem servoBusPing_sought (hready : b.initialised = true) (hrate : b.uart.baudrate = rate)
    (hid : id ≠ SERVO_PROTOCOL_BROADCAST_ID) (errorOut : Option UInt8) :
    Ensures (Beside b (Sought old rate id False)) (servoBusPing L.observed id errorOut)
      fun reply w => Beside b (Sought old rate id (reply.result = .ok)) w := by
  refine .get_bind fun w hw => .ite (fun hidle => ?_) fun _ => ?_
  · rw [hw.1.initialised_eq, hready] at hidle
    exact absurd hidle (by decide)
  rw [servoProtocolBuildPing, servoProtocolBuild_eq (Nat.zero_le _)]
  refine (transact_sought hrate hid errorOut).weaken ?_
  intro w' hsame
  subst hsame
  exact hw

theorem pollReset_sought (hready : b.initialised = true) (hrate : b.uart.baudrate = rate)
    (hid : id ≠ SERVO_PROTOCOL_BROADCAST_ID) (left : ℕ) :
    Ensures (Beside b (Sought old rate id False)) (pollReset L.observed id left)
      fun answered w => Beside b (Sought old rate id (answered = true)) w := by
  have hunanswered : ∀ w : ServoWorld (Observed ε), Beside b (Sought old rate id False) w →
      Beside b (Sought old rate id (false = true)) w := by
    intro w hw
    rw [eq_false Bool.false_ne_true]
    exact hw
  induction left with
  | zero => exact .pure hunanswered
  | succ left ih =>
    have hslept : Ensures (Beside b (Sought old rate id False))
        (modify fun w => { w with line := L.observed.sleepMs 50 w.line } : BusM (Observed ε) PUnit)
        fun _ w => Beside b (Sought old rate id False) w := .modify fun w hw => hw
    refine .bind hslept fun _ => .bind (servoBusPing_sought hready hrate hid none) fun reply => ?_
    refine .ite (fun hok => .pure fun w hw => ?_) fun hfailed => ?_
    · rw [eq_true rfl]
      rw [eq_true hok] at hw
      exact hw
    · rw [eq_false hfailed]
      refine .get_bind fun w hw => .ite (fun _ => .pure fun w' hsame => ?_) fun _ => ?_
      · exact hunanswered w' (hsame ▸ hw)
      · exact ih.weaken fun w' hsame => hsame ▸ hw

end seeking

section following

variable {id : UInt8} {old : List Exchange} {rate : UInt32} {c : Prop}

/-- The rate of the host is one that its driver takes. -/
def Line.Clocked (L : Line ε) (b : ServoBus) : Prop :=
  b.uart.initialised = true → b.uart.baudrate ≠ 0 ∧ (L.timing b.uart.baudrate).isSome = true

theorem Line.Reaches.clocked {baudrate : UInt32} (h : L.Reaches b baudrate)
    (timing : HalfDuplexUartTiming) : L.Clocked (b.clocked baudrate timing) :=
  fun _ => h.2.2

theorem Line.Clocked.reaches {baudrate : UInt32} (h : L.Clocked b) (hready : L.Reaches b baudrate) :
    L.Reaches b b.uart.baudrate :=
  ⟨hready.1, hready.2.1, h hready.2.1⟩

theorem Line.Clocked.onBus {δ : Type} {w : ServoWorld δ} (h : L.Clocked b) (hbus : OnBus b w) :
    L.Clocked w.bus := by
  unfold Line.Clocked
  rw [hbus.uart_eq]
  exact h

/-- Where a call that moves a servo has left the host, of the two rates there are. -/
structure Followed (L : Line ε) (b : ServoBus) (old : List Exchange) (rate : UInt32) (id : UInt8)
    (result : ServoBusResult) (w : ServoWorld (Observed ε)) : Prop where
  retries : w.bus.maxRetries = b.maxRetries
  clocked : L.Clocked w.bus
  rate : ∃ new, w.line.exchanges = old ++ new ∧
    ((∃ exchange ∈ new, exchange.Confirms rate id) → w.bus.uart.baudrate = rate) ∧
    ((¬ ∃ exchange ∈ new, exchange.Confirms rate id) → w.bus.uart.baudrate = b.uart.baudrate) ∧
    (result = .ok → ∃ exchange ∈ new, exchange.Confirms rate id)

theorem Followed.back {result : ServoBusResult} {w : ServoWorld (Observed ε)}
    (hclocked : L.Clocked b) (hfailed : result ≠ .ok) (hw : Beside b (Sought old rate id False) w) :
    Followed L b old rate id result w := by
  obtain ⟨hbus, new, hnew, hnone⟩ := hw
  refine ⟨hbus.maxRetries_eq, hclocked.onBus hbus, new, hnew, fun h => (hnone.mp h).elim,
    fun _ => ?_, fun hok => absurd hok hfailed⟩
  rw [hbus.uart_eq]

theorem Followed.restored {result : ServoBusResult} {w : ServoWorld (Observed ε)}
    {timing : HalfDuplexUartTiming} (hreach : L.Reaches b b.uart.baudrate) (hfailed : result ≠ .ok)
    (hw : Beside (b.clocked b.uart.baudrate timing) (Sought old rate id False) w) :
    Followed L b old rate id result w := by
  obtain ⟨hretries, hclocked, hrate⟩ := Followed.back (hreach.clocked timing) hfailed hw
  exact ⟨hretries, hclocked, hrate⟩

theorem Followed.there {result : ServoBusResult} {w : ServoWorld (Observed ε)}
    {timing : HalfDuplexUartTiming} (hreach : L.Reaches b rate)
    (hw : Beside (b.clocked rate timing) (Sought old rate id True) w) :
    Followed L b old rate id result w := by
  obtain ⟨hbus, new, hnew, hanswered⟩ := hw
  have hconfirmed := hanswered.mpr trivial
  refine ⟨hbus.maxRetries_eq, (hreach.clocked timing).onBus hbus, new, hnew, fun _ => ?_,
    fun h => absurd hconfirmed h, fun _ => hconfirmed⟩
  rw [hbus.uart_eq]
  rfl

variable {other : List Bytes → ε → Prop}

theorem reached_then {call : BusM ε ServoBusResult} {baudrate : UInt32}
    {post : ServoBusResult → ServoWorld ε → Prop} (hreach : L.Reaches b baudrate)
    (hcall : ∀ timing, Ensures (Beside (b.clocked baudrate timing) other) call post) :
    Ensures (Beside b other)
      (servoBusSetBaudrate L baudrate >>= fun result =>
        if result ≠ .ok then pure result else call) post :=
  setBaudrate_then (fun _ timing => hcall timing) fun hrefused => absurd hreach hrefused

theorem restore_then {α : Type} {call : BusM ε α} {baudrate : UInt32}
    {post : α → ServoWorld ε → Prop} (hreach : L.Reaches b baudrate)
    (hcall : ∀ timing, Ensures (Beside (b.clocked baudrate timing) other) call post) :
    Ensures (Beside b other) (servoBusSetBaudrate L baudrate >>= fun _ => call) post := by
  refine .bind (setBaudrate_beside baudrate) fun result => ?_
  rintro w (⟨-, -, timing, hw⟩ | ⟨-, hrefused, -⟩)
  · exact hcall timing w hw
  · exact absurd hreach hrefused

/-- A rate that is only tried leaves the host where it was. -/
theorem probe_follows {call : UInt32 → BusM (Observed ε) ServoBusResult} (hclocked : L.Clocked b)
    (hcall : L.Reaches b rate → L.Reaches b b.uart.baudrate → ∀ timing,
      Ensures (Beside (b.clocked b.uart.baudrate timing) (Sought old rate id False))
        (call b.uart.baudrate) (Followed L b old rate id)) :
    Ensures (Beside b (Sought old rate id False))
      (servoBusGetBaudrate >>= fun previous =>
        servoBusSetBaudrate L.observed rate >>= fun reachable =>
        if reachable ≠ .ok then pure reachable else
        servoBusSetBaudrate L.observed previous >>= fun restored =>
        if restored ≠ .ok then pure restored else call previous) (Followed L b old rate id) := by
  refine .bind servoBusGetBaudrate_beside fun previous => .assume fun hprevious => ?_
  refine .bind (setBaudrate_beside rate) fun reachable => .ite (fun hfailed => .pure ?_) ?_
  · rintro w (⟨hok, -⟩ | ⟨-, -, hw⟩)
    · exact absurd hok hfailed
    · exact .back hclocked hfailed hw
  · rintro hok w (⟨-, hreach, timing, hw⟩ | ⟨hfailed, -⟩)
    · obtain rfl := hprevious hreach.1
      have hback : L.Reaches b b.uart.baudrate := hclocked.reaches hreach
      have hrest : Ensures (Beside (b.clocked rate timing) (Sought old rate id False)) _
          (Followed L b old rate id) :=
        reached_then (L := L.observed) hback fun timing => hcall hreach hback timing
      exact hrest w hw
    · exact absurd hfailed hok

theorem ax12SetBaudrate_follows (hclocked : L.Clocked b) (hid : id ≠ SERVO_PROTOCOL_BROADCAST_ID)
    {value : UInt8} {asked : UInt32} (hvalue : ax12RateToBaudValue asked = some value) :
    Ensures (Beside b (Sought old (ax12BaudValueToRate value) id False))
      (ax12SetBaudrate L.observed id asked) (Followed L b old (ax12BaudValueToRate value) id) := by
  unfold ax12SetBaudrate
  rw [hvalue]
  refine probe_follows hclocked fun hreach hback timing => ?_
  refine .bind (withoutRetries_unsought fun retries => writeServoRegister_unsought
    (b := { b.clocked b.uart.baudrate timing with maxRetries := retries }) hreach.1 hid _ _)
    fun written => ?_
  refine .ite (fun hfailed => .pure fun w hw => .restored hback ?_ hw) fun _ => ?_
  · rcases hfailed with rfl | rfl <;> nofun
  refine reached_then (L := L.observed) hreach fun timing' => ?_
  refine .ite (fun hbroadcast => absurd hbroadcast hid) fun _ => ?_
  refine .bind (servoBusPing_sought (b := b.clocked _ timing') hreach.1 rfl hid none) fun reply => ?_
  refine .ite (fun hfailed => ?_) fun hok => ?_
  · rw [eq_false hfailed]
    exact restore_then (L := L.observed) (b := b.clocked _ timing') hback fun timing'' =>
      .pure fun w hw => .restored hback hfailed hw
  · rw [eq_true (not_not.mp hok)]
    exact .pure fun w hw => .there hreach hw

theorem ax12FactoryReset_follows (hclocked : L.Clocked b) (hid : id ≠ SERVO_PROTOCOL_BROADCAST_ID) :
    Ensures (Beside b (Sought old AX12_DEFAULT_BAUDRATE AX12_DEFAULT_ID False))
      (ax12FactoryReset L.observed id)
      (Followed L b old AX12_DEFAULT_BAUDRATE AX12_DEFAULT_ID) := by
  refine .ite (fun hbroadcast => absurd hbroadcast hid) fun _ => ?_
  refine probe_follows hclocked fun hreach hback timing => ?_
  refine .bind (servoBusFactoryReset_unsought (b := b.clocked _ timing) hreach.1 hid none)
    fun reply => ?_
  refine .ite (fun hfailed => .pure fun w hw => .restored hback ?_ hw) fun _ => ?_
  · rcases hfailed with h | h <;> rw [h] <;> nofun
  refine reached_then (L := L.observed) hreach fun timing' => ?_
  refine .bind (pollReset_sought (b := b.clocked _ timing') hreach.1 rfl (by decide) _)
    fun answered => .ite (fun hanswered => ?_) fun hlost => ?_
  · rw [eq_true hanswered]
    exact .pure fun w hw => .there hreach hw
  · rw [eq_false hlost]
    exact restore_then (L := L.observed) (b := b.clocked _ timing') hback fun timing'' =>
      .pure fun w hw => .restored hback nofun hw

theorem feetechSetBaudrate_follows (hclocked : L.Clocked b)
    (hid : id ≠ SERVO_PROTOCOL_BROADCAST_ID) {index : UInt8} {asked : UInt32}
    (hindex : feetechRateToBaudIndex asked = some index) :
    Ensures (Beside b (Sought old (feetechBaudIndexToRate index) id False))
      (feetechSetBaudrate L.observed id asked)
      (Followed L b old (feetechBaudIndexToRate index) id) := by
  unfold feetechSetBaudrate
  rw [hindex]
  refine probe_follows hclocked fun hreach hback timing => ?_
  have hwrite : ∀ {b' : ServoBus} {c : Prop} (reg : UInt8) (value : UInt32), b'.initialised = true →
      Ensures (Beside b' (Sought old (feetechBaudIndexToRate index) id c))
        (writeServoRegister L.observed id reg value 1) fun _ w =>
          Beside b' (Sought old (feetechBaudIndexToRate index) id c) w :=
    fun reg value hready => writeServoRegister_unsought hready hid reg value
  refine .bind (hwrite _ _ hreach.1) fun unlocked => ?_
  refine .ite (fun hfailed => .pure fun w hw => .restored hback hfailed hw) fun _ => ?_
  refine .bind (withoutRetries_unsought fun retries => @hwrite
    { b.clocked b.uart.baudrate timing with maxRetries := retries } _ _ _ hreach.1)
    fun written => ?_
  refine .ite (fun hfailed => .bind (hwrite _ _ hreach.1) fun _ => .pure fun w hw =>
    .restored hback ?_ hw) fun _ => ?_
  · rcases hfailed with rfl | rfl <;> nofun
  refine reached_then (L := L.observed) hreach fun timing' => ?_
  refine .ite (fun hbroadcast => absurd hbroadcast hid) fun _ => ?_
  refine .bind (servoBusPing_sought (b := b.clocked _ timing') hreach.1 rfl hid none) fun reply => ?_
  refine .ite (fun hfailed => ?_) fun hok => ?_
  · rw [eq_false hfailed]
    exact restore_then (L := L.observed) (b := b.clocked _ timing') hback fun timing'' =>
      .bind (hwrite _ _ hreach.1) fun _ => .pure fun w hw => .restored hback hfailed hw
  · rw [eq_true (not_not.mp hok)]
    exact (@hwrite (b.clocked _ timing') _ _ _ hreach.1).mono fun result w hw => .there hreach hw

theorem feetechFactoryReset_follows (hclocked : L.Clocked b)
    (hid : id ≠ SERVO_PROTOCOL_BROADCAST_ID) :
    Ensures (Beside b (Sought old FEETECH_DEFAULT_BAUDRATE FEETECH_DEFAULT_ID False))
      (feetechFactoryReset L.observed id)
      (Followed L b old FEETECH_DEFAULT_BAUDRATE FEETECH_DEFAULT_ID) := by
  refine .ite (fun hbroadcast => absurd hbroadcast hid) fun _ => ?_
  refine probe_follows hclocked fun hreach hback timing => ?_
  have hwrite : ∀ {b' : ServoBus} (reg : UInt8) (value : UInt32), b'.initialised = true →
      Ensures (Beside b' (Sought old FEETECH_DEFAULT_BAUDRATE FEETECH_DEFAULT_ID False))
        (writeServoRegister L.observed id reg value 1) fun _ w =>
          Beside b' (Sought old FEETECH_DEFAULT_BAUDRATE FEETECH_DEFAULT_ID False) w :=
    fun reg value hready => writeServoRegister_unsought hready hid reg value
  refine .bind (hwrite _ _ hreach.1) fun unlocked => ?_
  refine .ite (fun hfailed => .pure fun w hw => .restored hback hfailed hw) fun _ => ?_
  refine .bind (servoBusFactoryReset_unsought (b := b.clocked _ timing) hreach.1 hid none)
    fun reply => ?_
  refine .ite (fun hfailed => .bind (hwrite _ _ hreach.1) fun _ => .pure fun w hw =>
    .restored hback ?_ hw) fun _ => ?_
  · rcases hfailed with h | h <;> rw [h] <;> nofun
  refine reached_then (L := L.observed) hreach fun timing' => ?_
  refine .bind (pollReset_sought (b := b.clocked _ timing') hreach.1 rfl (by decide) _)
    fun answered => .ite (fun hanswered => ?_) fun hlost => ?_
  · rw [eq_true hanswered]
    exact .pure fun w hw => .there hreach hw
  · rw [eq_false hlost]
    exact restore_then (L := L.observed) (b := b.clocked _ timing') hback fun timing'' =>
      .bind (hwrite _ _ hreach.1) fun _ => .pure fun w hw => .restored hback nofun hw

end following

section runs

/-- What happens to the UART of a bus. -/
inductive HostEvent where
  | init (config : HalfDuplexUartConfig) (room : Bool)
  | setBaudrate (baudrate : UInt32)
  | deinit
  | other

/-- The UART is set up, clocked and let go of by its driver, and by nothing else. -/
def HostStep (L : Line ε) (w : ServoWorld ε) : HostEvent → ServoWorld ε → Prop
  | .init config room, w' =>
      w'.bus.uart = (halfDuplexUartInit L config room).getD w.bus.uart
  | .setBaudrate baudrate, w' => w' = ((halfDuplexUartSetBaudrate L baudrate).run w).2
  | .deinit, w' => w'.bus.uart.initialised = false
  | .other, w' => w'.bus.uart = w.bus.uart

/-- A world that has come about from one with no UART in it. -/
def Started (L : Line ε) (w : ServoWorld ε) : Prop :=
  ∃ w₀ events, w₀.bus.uart.initialised = false ∧ Steps (HostStep L) w₀ events w

theorem halfDuplexUartInit_clocked {config : HalfDuplexUartConfig} {room : Bool}
    {uart : HalfDuplexUart} (h : halfDuplexUartInit L config room = some uart) :
    uart.baudrate ≠ 0 ∧ (L.timing uart.baudrate).isSome = true := by
  unfold halfDuplexUartInit at h
  cases htiming : L.timing config.baudrate with
  | none =>
    rw [htiming] at h
    split_ifs at h
  | some timing =>
    rw [htiming] at h
    split_ifs at h with hzero
    obtain rfl := Option.some.inj h
    exact ⟨hzero, by rw [htiming]; rfl⟩

theorem HostStep.clocked {w w' : ServoWorld ε} {event : HostEvent} (hclocked : L.Clocked w.bus)
    (h : HostStep L w event w') : L.Clocked w'.bus := by
  cases event with
  | init config room =>
    change w'.bus.uart = _ at h
    unfold Line.Clocked at hclocked ⊢
    rw [h]
    cases hinit : halfDuplexUartInit L config room with
    | none => exact hclocked
    | some uart => exact fun _ => halfDuplexUartInit_clocked hinit
  | setBaudrate baudrate =>
    obtain rfl := h
    rcases halfDuplexUartSetBaudrate_cases (L := L) (w := w) baudrate w rfl with
      ⟨-, hreach, timing, hset⟩ | ⟨-, -, hsame⟩
    · rw [hset]
      exact fun _ => hreach.2
    · rw [hsame]
      exact hclocked
  | deinit =>
    change w'.bus.uart.initialised = false at h
    intro hready
    rw [h] at hready
    exact absurd hready nofun
  | other =>
    change w'.bus.uart = _ at h
    unfold Line.Clocked at hclocked ⊢
    rw [h]
    exact hclocked

theorem Started.clocked {w : ServoWorld ε} (h : Started L w) : L.Clocked w.bus := by
  obtain ⟨w₀, events, hidle, hsteps⟩ := h
  have hstep : ∀ w e w', L.Clocked w.bus → HostStep L w e w' → L.Clocked w'.bus :=
    fun _ _ _ hclocked h => h.clocked hclocked
  refine hsteps.invariant hstep ?_
  intro hready
  rw [hidle] at hready
  exact absurd hready nofun

inductive RateCall where
  | ax12SetBaudrate (id : UInt8) (rate : UInt32)
  | ax12FactoryReset (id : UInt8)
  | feetechSetBaudrate (id : UInt8) (rate : UInt32)
  | feetechFactoryReset (id : UInt8)

namespace RateCall

variable (L) in
def run : RateCall → BusM ε ServoBusResult
  | ax12SetBaudrate id rate => Pico.ax12SetBaudrate L id rate
  | ax12FactoryReset id => Pico.ax12FactoryReset L id
  | feetechSetBaudrate id rate => Pico.feetechSetBaudrate L id rate
  | feetechFactoryReset id => Pico.feetechFactoryReset L id

def id : RateCall → UInt8
  | ax12SetBaudrate id _ | ax12FactoryReset id | feetechSetBaudrate id _ | feetechFactoryReset id => id

/-- The exact rate that the servo is moved to, where there is one. -/
def target : RateCall → Option UInt32
  | ax12SetBaudrate _ rate => (ax12RateToBaudValue rate).map ax12BaudValueToRate
  | feetechSetBaudrate _ rate => (feetechRateToBaudIndex rate).map feetechBaudIndexToRate
  | ax12FactoryReset _ => some AX12_DEFAULT_BAUDRATE
  | feetechFactoryReset _ => some FEETECH_DEFAULT_BAUDRATE

/-- The id that is pinged there. -/
def pinged : RateCall → UInt8
  | ax12SetBaudrate id _ | feetechSetBaudrate id _ => id
  | ax12FactoryReset _ => AX12_DEFAULT_ID
  | feetechFactoryReset _ => FEETECH_DEFAULT_ID

variable (L) in
/-- What an observer of the line notes while the call runs. -/
def exchanges (call : RateCall) (w : ServoWorld ε) : List Exchange :=
  ((call.run L.observed).run w.observed).2.line.exchanges

/-- A ping at the rate that the servo was to move to has been answered. -/
def Confirmed (call : RateCall) (exchanges : List Exchange) (rate : UInt32) : Prop :=
  call.target = some rate ∧ ∃ exchange ∈ exchanges, exchange.Confirms rate call.pinged

theorem run_reflects (call : RateCall) :
    Reflects ServoWorld.unobserved (call.run L.observed) (call.run L) := by
  cases call with
  | ax12SetBaudrate id rate => exact ax12SetBaudrate_reflects L id rate
  | ax12FactoryReset id => exact ax12FactoryReset_reflects L id
  | feetechSetBaudrate id rate => exact feetechSetBaudrate_reflects L id rate
  | feetechFactoryReset id => exact feetechFactoryReset_reflects L id

theorem run_observed (call : RateCall) (w : ServoWorld ε) :
    (call.run L).run w = (((call.run L.observed).run w.observed).1,
      ((call.run L.observed).run w.observed).2.unobserved) :=
  call.run_reflects w.observed

theorem run_follows {call : RateCall} (hid : call.id ≠ SERVO_PROTOCOL_BROADCAST_ID)
    {w : ServoWorld ε} (hclocked : L.Clocked w.bus) {rate : UInt32} (hrate : call.target = some rate) :
    Followed L w.bus [] rate call.pinged ((call.run L.observed).run w.observed).1
      ((call.run L.observed).run w.observed).2 := by
  have hstart : ∀ rate id, Beside w.bus (Sought [] rate id False) w.observed :=
    fun rate id => ⟨⟨w.bus.stats, rfl⟩, [], rfl, by simp⟩
  cases call with
  | ax12SetBaudrate id asked =>
    obtain ⟨value, hvalue, rfl⟩ := Option.map_eq_some_iff.mp hrate
    exact ax12SetBaudrate_follows hclocked hid hvalue _ (hstart _ _)
  | ax12FactoryReset id =>
    obtain rfl := Option.some.inj hrate
    exact ax12FactoryReset_follows hclocked hid _ (hstart _ _)
  | feetechSetBaudrate id asked =>
    obtain ⟨index, hindex, rfl⟩ := Option.map_eq_some_iff.mp hrate
    exact feetechSetBaudrate_follows hclocked hid hindex _ (hstart _ _)
  | feetechFactoryReset id =>
    obtain rfl := Option.some.inj hrate
    exact feetechFactoryReset_follows hclocked hid _ (hstart _ _)

theorem run_untargeted {call : RateCall} (htarget : call.target = none) (w : ServoWorld ε) :
    (call.run L).run w = (.errInvalidArg, w) := by
  cases call with
  | ax12SetBaudrate id asked =>
    rw [run, Pico.ax12SetBaudrate, Option.map_eq_none_iff.mp htarget]
    rfl
  | feetechSetBaudrate id asked =>
    rw [run, Pico.feetechSetBaudrate, Option.map_eq_none_iff.mp htarget]
    rfl
  | ax12FactoryReset | feetechFactoryReset => exact absurd htarget nofun

end RateCall

/-- Changing a servo's rate never strands the host: it is left at the exact new rate if a ping there
was answered, and at the rate it had before if not. -/
theorem servo_rate_followed (L : Line ε) (call : RateCall)
    (hid : call.id ≠ SERVO_PROTOCOL_BROADCAST_ID) (w : ServoWorld ε) (hstarted : Started L w) :
    (∀ rate, call.Confirmed (call.exchanges L w) rate →
      ((call.run L).run w).2.bus.uart.baudrate = rate) ∧
    ((¬ ∃ rate, call.Confirmed (call.exchanges L w) rate) →
      ((call.run L).run w).2.bus.uart.baudrate = w.bus.uart.baudrate) ∧
    (((call.run L).run w).1 = .ok → ∃ rate, call.Confirmed (call.exchanges L w) rate) ∧
    ((call.run L).run w).2.bus.maxRetries = w.bus.maxRetries := by
  cases htarget : call.target with
  | none =>
    rw [call.run_untargeted htarget]
    refine ⟨fun rate hconfirmed => ?_, fun _ => rfl, nofun, rfl⟩
    exact absurd (htarget.symm.trans hconfirmed.1) nofun
  | some rate =>
    obtain ⟨hretries, -, new, hnew, hthere, hback, hok⟩ :=
      RateCall.run_follows hid hstarted.clocked htarget
    have hexchanges : call.exchanges L w = new := hnew
    have hconfirmed : (∃ rate, call.Confirmed new rate) ↔
        ∃ exchange ∈ new, exchange.Confirms rate call.pinged := by
      constructor
      · rintro ⟨rate', htarget', hanswer⟩
        obtain rfl := Option.some.inj (htarget.symm.trans htarget')
        exact hanswer
      · exact fun hanswer => ⟨rate, htarget, hanswer⟩
    rw [call.run_observed, hexchanges, hconfirmed]
    refine ⟨fun rate' h => ?_, hback, hok, hretries⟩
    obtain rfl := Option.some.inj (htarget.symm.trans h.1)
    exact hthere h.2

/-- A line on which servo 5 answers every packet. -/
def answeringLine : Line Unit where
  clockHz := 125000000
  transmit _ _ _ := (true, ())
  receive _ _ := (servoPacket 5 0 [], ())
  flush _ := ()
  sleepMs _ _ := ()
  timeReached _ := true

/-- A bus at the factory rate. -/
def answeringWorld (initialised : Bool) : ServoWorld Unit where
  bus := servoBusInit ⟨⟨1000000, .discard, ⟨15, 160, 1000000, 0⟩, initialised⟩, .little, 2, 0⟩
  sent := []
  line := ()

/-- A servo that moves to 117647 baud is followed there. -/
theorem servo_rate_followed_moved :
    (RateCall.ax12SetBaudrate 5 115200).Confirmed
      ((RateCall.ax12SetBaudrate 5 115200).exchanges answeringLine (answeringWorld true)) 117647 ∧
    (((RateCall.ax12SetBaudrate 5 115200).run answeringLine).run (answeringWorld
      true)).2.bus.uart.baudrate = 117647 := by
  have hinit : (answeringWorld true).bus.uart = (halfDuplexUartInit answeringLine
      ⟨0, -1, 1000000, .discard⟩ true).getD (answeringWorld false).bus.uart := by decide
  have hstarted : Started answeringLine (answeringWorld true) :=
    ⟨answeringWorld false, [.init ⟨0, -1, 1000000, .discard⟩ true], rfl, .snoc (.nil _) hinit⟩
  obtain ⟨hthere, -, hok, -⟩ := servo_rate_followed answeringLine (.ax12SetBaudrate 5 115200)
    (by decide) (answeringWorld true) hstarted
  obtain ⟨rate, hconfirmed⟩ := hok (by decide)
  obtain rfl : 117647 = rate := Option.some.inj hconfirmed.1
  exact ⟨hconfirmed, hthere _ hconfirmed⟩

end runs

end Pico
