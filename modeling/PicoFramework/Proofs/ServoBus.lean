import PicoFramework.Lib.Hoare
import PicoFramework.Proofs.ServoProtocol
import PicoFramework.Spec.ServoBus

/-! What the calls of the servo bus keep, over any line, and when they refuse. -/

namespace Pico

open Lib.Hoare

variable {ε : Type} {L : Line ε} {b : ServoBus} {w : ServoWorld ε}

/-- The bus is this one, but for the statistics. -/
def OnBus (b : ServoBus) (w : ServoWorld ε) : Prop := ∃ stats, w.bus = { b with stats := stats }

theorem OnBus.self (w : ServoWorld ε) : OnBus w.bus w := ⟨w.bus.stats, rfl⟩

theorem OnBus.initialised_eq (h : OnBus b w) : w.bus.initialised = b.initialised := by
  obtain ⟨stats, h⟩ := h
  rw [h]

theorem OnBus.uart_eq (h : OnBus b w) : w.bus.uart = b.uart := by
  obtain ⟨stats, h⟩ := h
  rw [h]

theorem OnBus.maxRetries_eq (h : OnBus b w) : w.bus.maxRetries = b.maxRetries := by
  obtain ⟨stats, h⟩ := h
  rw [h]

section uart

theorem halfDuplexUartWrite_onBus (data : Bytes) :
    Ensures (OnBus b) (halfDuplexUartWrite L data) fun result w =>
      OnBus b w ∧ (result = .ok → b.uart.initialised = true) := by
  unfold halfDuplexUartWrite
  refine .get_bind fun w hw => ?_
  refine .ite (fun _ => .pure ?_) fun hinit => ?_
  · rintro _ rfl
    exact ⟨hw, nofun⟩
  have hready : b.uart.initialised = true := by
    rw [← hw.uart_eq]
    simpa using hinit
  refine .ite (fun _ => .pure ?_) fun _ => ?_
  · rintro _ rfl
    exact ⟨hw, fun _ => hready⟩
  · rintro _ rfl
    dsimp only
    split <;> exact ⟨hw, fun _ => hready⟩

theorem halfDuplexUartReadExact_onBus (len : ℕ) (timeoutUs : UInt32) :
    Ensures (OnBus b) (halfDuplexUartReadExact L len timeoutUs) fun _ w => OnBus b w := by
  unfold halfDuplexUartReadExact
  refine .get_bind fun w hw => ?_
  refine .ite (fun _ => .pure ?_) fun _ => .ite (fun _ => .pure ?_) fun _ => ?_
  · rintro _ rfl
    exact hw
  · rintro _ rfl
    exact hw
  · rintro _ rfl
    dsimp only
    split <;> exact hw

theorem halfDuplexUartFlushRx_onBus :
    Ensures (OnBus b) (halfDuplexUartFlushRx L) fun _ w => OnBus b w := by
  unfold halfDuplexUartFlushRx
  refine .get_bind fun w hw => ?_
  refine .ite (fun _ => ?_) fun _ => .pure ?_
  · rintro _ rfl
    exact hw
  · rintro _ rfl
    exact hw

end uart

section transactions

/-- A reply that has no room in the buffer for it, and is found not to after the request has gone
out. -/
def Oversized (b : ServoBus) (id paramCount : UInt8) : Prop :=
  id ≠ SERVO_PROTOCOL_BROADCAST_ID ∧ SERVO_PROTOCOL_MAX_PARAMS < paramCount.toNat ∧
    b.uart.initialised = true

theorem transportError_ne (result : HalfDuplexUartResult) :
    transportError result ≠ .errInvalidArg := by
  unfold transportError
  split <;> nofun

theorem judgeReply_ne (reply : Bytes) (id : UInt8) (paramsOut : Option Bytes) (paramCount : UInt8)
    (errorOut : Option UInt8) :
    (judgeReply reply id paramsOut paramCount errorOut).result ≠ .errInvalidArg := by
  unfold judgeReply
  split
  · nofun
  · nofun
  · split
    · nofun
    · split <;> nofun

theorem updateServoStats_onBus (update : ServoBusStats → ServoBusStats) :
    Ensures (OnBus b) (updateServoStats update : BusM ε Unit) fun _ w => OnBus b w := by
  refine .modify fun w hw => ?_
  obtain ⟨stats, hw⟩ := hw
  exact ⟨update stats, by rw [hw]⟩

theorem attempt_onBus (request : Bytes) (id : UInt8) (paramsOut : Option Bytes)
    (paramCount : UInt8) (errorOut : Option UInt8) :
    Ensures (OnBus b) (attempt L request id paramsOut paramCount errorOut) fun reply w =>
      OnBus b w ∧ (reply.result = .errInvalidArg → Oversized b id paramCount) := by
  unfold attempt
  refine .bind (halfDuplexUartWrite_onBus request) fun sent => .assume fun hready => ?_
  refine .ite (fun _ => .pure ?_) fun hsent => ?_
  · exact fun w hw => ⟨hw, fun h => absurd h (transportError_ne sent)⟩
  refine .ite (fun _ => .pure fun w hw => ⟨hw, nofun⟩) fun hid => ?_
  refine .ite (fun hroom => .pure fun w hw => ?_) fun _ => ?_
  · refine ⟨hw, fun _ => ⟨hid, ?_, hready (not_not.mp hsent)⟩⟩
    rw [servoProtocolPacketSize, SERVO_PROTOCOL_MAX_PACKET_SIZE] at hroom
    omega
  refine .read fun w => .bind (halfDuplexUartReadExact_onBus _ _) fun read => ?_
  refine .ite (fun _ => .pure ?_) fun _ => .pure ?_
  · exact fun w hw => ⟨hw, fun h => absurd h (transportError_ne read.1)⟩
  · exact fun w hw => ⟨hw, fun h => absurd h (judgeReply_ne _ _ _ _ _)⟩

theorem transactFrom_onBus (request : Bytes) (id paramCount : UInt8) (attempts left : ℕ)
    (last : ServoReply) (hlast : last.result = .errInvalidArg → Oversized b id paramCount) :
    Ensures (OnBus b) (transactFrom L request id paramCount attempts left last) fun reply w =>
      OnBus b w ∧ (reply.result = .errInvalidArg → Oversized b id paramCount) := by
  induction left generalizing attempts last with
  | zero => exact .pure fun w hw => ⟨hw, hlast⟩
  | succ left ih =>
    unfold transactFrom
    refine .bind (updateServoStats_onBus _) fun _ => ?_
    refine .bind (attempt_onBus request id last.params paramCount last.error) fun reply => ?_
    refine .ite (fun _ => .pure fun w hw => hw) fun _ => .assume fun hrefused => ?_
    refine .bind (updateServoStats_onBus _) fun _ => ?_
    refine .ite (fun _ => .pure fun w hw => ⟨hw, hrefused⟩) fun _ => ?_
    exact .bind halfDuplexUartFlushRx_onBus fun _ => ih (attempts + 1) reply hrefused

theorem transact_onBus (request : Bytes) (id : UInt8) (paramsOut : Option Bytes)
    (paramCount : UInt8) (errorOut : Option UInt8) :
    Ensures (OnBus b) (transact L request id paramsOut paramCount errorOut) fun reply w =>
      OnBus b w ∧ (reply.result = .errInvalidArg → Oversized b id paramCount) := by
  unfold transact
  refine .read fun w => ?_
  exact transactFrom_onBus request id paramCount 0 _ _ fun h => absurd h nofun

theorem transact_bare (request : Bytes) (id : UInt8) (errorOut : Option UInt8) :
    Ensures (OnBus b) (transact L request id none 0 errorOut) fun reply w =>
      OnBus b w ∧ reply.result ≠ .errInvalidArg := by
  refine (transact_onBus request id none 0 errorOut).mono fun reply w h => ⟨h.1, fun hinvalid => ?_⟩
  exact absurd (h.2 hinvalid).2.1 (by decide)

end transactions

section calls

/-- What a call leaves: the bus is the same, a refusal has left everything as it was, and what has
been carried out was asked of a bus that is ready. -/
structure Leaves (w : ServoWorld ε) (result : ServoBusResult) (w' : ServoWorld ε) : Prop where
  onBus : OnBus w.bus w'
  kept : result = .errInvalidArg → w' = w
  ready : result = .ok → w.bus.initialised = true

theorem Leaves.refusal (w : ServoWorld ε) : Leaves w .errInvalidArg w :=
  ⟨.self w, fun _ => rfl, nofun⟩

theorem Leaves.of_ready {result : ServoBusResult} {w' : ServoWorld ε} (h : OnBus w.bus w')
    (hne : result ≠ .errInvalidArg) (hready : w.bus.initialised = true) : Leaves w result w' :=
  ⟨h, fun hinvalid => absurd hinvalid hne, fun _ => hready⟩

theorem transact_leaves (hready : w.bus.initialised = true) (request : Bytes) (id : UInt8)
    (paramsOut : Option Bytes) {paramCount : UInt8} (errorOut : Option UInt8)
    (hcount : paramCount.toNat ≤ SERVO_PROTOCOL_MAX_PARAMS) :
    Ensures (· = w) (transact L request id paramsOut paramCount errorOut) fun reply w' =>
      Leaves w reply.result w' := by
  refine ((transact_onBus request id paramsOut paramCount errorOut).weaken ?_).mono
    fun reply w' h => .of_ready h.1 (fun hinvalid => ?_) hready
  · rintro _ rfl
    exact .self _
  · have hlarge := (h.2 hinvalid).2.1
    omega

theorem servoBusPing_leaves (id : UInt8) (errorOut : Option UInt8) :
    Ensures (· = w) (servoBusPing L id errorOut) fun reply w' => Leaves w reply.result w' := by
  unfold servoBusPing
  refine .get_bind ?_
  rintro _ rfl
  refine .ite (fun _ => .pure ?_) fun hready => ?_
  · rintro _ rfl
    exact .refusal _
  · split
    · rintro _ rfl
      exact .refusal _
    · exact transact_leaves (by simpa using hready) _ id none errorOut (by decide)

theorem servoBusPing_ready (hready : b.initialised = true) (id : UInt8) (errorOut : Option UInt8) :
    Ensures (OnBus b) (servoBusPing L id errorOut) fun reply w =>
      OnBus b w ∧ reply.result ≠ .errInvalidArg := by
  unfold servoBusPing
  refine .get_bind fun w hw => ?_
  refine .ite (fun hidle => ?_) fun _ => ?_
  · rw [hw.initialised_eq, hready] at hidle
    exact absurd hidle (by decide)
  · rw [servoProtocolBuildPing, servoProtocolBuild_eq (Nat.zero_le _)]
    refine (transact_bare _ id errorOut).weaken ?_
    rintro _ rfl
    exact hw

theorem servoBusRead_leaves (id reg : UInt8) (data : Option Bytes) {count : UInt8}
    (errorOut : Option UInt8) (hcount : count.toNat ≤ SERVO_PROTOCOL_MAX_PARAMS) :
    Ensures (· = w) (servoBusRead L id reg data count errorOut) fun reply w' =>
      Leaves w reply.result w' := by
  unfold servoBusRead
  refine .get_bind ?_
  rintro _ rfl
  refine .ite (fun _ => .pure ?_) fun hready => .ite (fun _ => .pure ?_) fun _ => ?_
  · rintro _ rfl
    exact .refusal _
  · rintro _ rfl
    exact .refusal _
  · split
    · rintro _ rfl
      exact .refusal _
    · exact transact_leaves (by simp_all) _ id data errorOut hcount

theorem servoBusWrite_leaves (id reg : UInt8) (data : Option Bytes) (count : UInt8)
    (errorOut : Option UInt8) :
    Ensures (· = w) (servoBusWrite L id reg data count errorOut) fun reply w' =>
      Leaves w reply.result w' := by
  unfold servoBusWrite
  refine .get_bind ?_
  rintro _ rfl
  refine .ite (fun _ => .pure ?_) fun hready => ?_
  · rintro _ rfl
    exact .refusal _
  · split
    · rintro _ rfl
      exact .refusal _
    · exact transact_leaves (by simp_all) _ id none errorOut (by decide)

theorem servoBusReadValue_leaves (id reg width : UInt8) (value : Option UInt32)
    (errorOut : Option UInt8) :
    Ensures (· = w) (servoBusReadValue L id reg width value errorOut) fun out w' =>
      Leaves w out.1 w' := by
  unfold servoBusReadValue
  refine .ite (fun _ => .pure ?_) fun hargs => ?_
  · rintro _ rfl
    exact .refusal _
  have hwidth : servoProtocolWidthOk width = true := by
    simp_all
  have hcount : width.toNat ≤ SERVO_PROTOCOL_MAX_PARAMS := (width_le_four hwidth).trans (by decide)
  refine .bind (servoBusRead_leaves id reg _ errorOut hcount) fun reply => ?_
  refine .ite (fun _ => .pure fun _ h => h) fun hok => .read fun _ => .pure ?_
  rw [not_not.mp hok]
  exact fun _ h => h

theorem servoBusWriteValue_leaves (id reg : UInt8) (value : UInt32) (width : UInt8)
    (errorOut : Option UInt8) :
    Ensures (· = w) (servoBusWriteValue L id reg value width errorOut) fun reply w' =>
      Leaves w reply.result w' := by
  unfold servoBusWriteValue
  refine .get_bind ?_
  rintro _ rfl
  refine .ite (fun _ => .pure ?_) fun _ => servoBusWrite_leaves _ _ _ _ _
  rintro _ rfl
  exact .refusal _

theorem servoBusSyncWrite_leaves (reg width : UInt8) (targets : Option (List ServoSyncTarget))
    (count : UInt8) :
    Ensures (· = w) (servoBusSyncWrite L reg width targets count) fun result w' =>
      Leaves w result w' := by
  unfold servoBusSyncWrite
  refine .get_bind ?_
  rintro _ rfl
  refine .ite (fun _ => .pure ?_) fun hready => ?_
  · rintro _ rfl
    exact .refusal _
  · split
    · rintro _ rfl
      exact .refusal _
    · exact .bind (transact_leaves (by simp_all) _ _ none none (by decide)) fun _ => .pure fun _ h => h

theorem withoutRetries_ready {α : Type} {call : BusM ε α} {kept : α → Prop}
    (h : ∀ retries, Ensures (OnBus { b with maxRetries := retries }) call fun a w =>
      OnBus { b with maxRetries := retries } w ∧ kept a) :
    Ensures (OnBus b) (withoutRetries call) fun a w => OnBus b w ∧ kept a := by
  intro w hw
  obtain ⟨stats, hbus⟩ := hw
  have hstart : OnBus { b with maxRetries := 0 } { w with bus.maxRetries := 0 } := ⟨stats, by rw [hbus]⟩
  obtain ⟨⟨stats', hbus'⟩, ha⟩ := h 0 _ hstart
  refine ⟨⟨stats', ?_⟩, ha⟩
  have hretries : w.bus.maxRetries = b.maxRetries := by rw [hbus]
  refine (congrArg (fun bus : ServoBus => { bus with maxRetries := w.bus.maxRetries }) hbus').trans ?_
  rw [hretries]

theorem factoryReset_onBus (request : Bytes) (id : UInt8) (errorOut : Option UInt8) :
    Ensures (OnBus b) (withoutRetries (transact L request id none 0 errorOut)) fun reply w =>
      OnBus b w ∧ reply.result ≠ .errInvalidArg :=
  withoutRetries_ready fun _ => transact_bare request id errorOut

theorem servoBusFactoryReset_ready (hready : b.initialised = true) (id : UInt8)
    (errorOut : Option UInt8) :
    Ensures (OnBus b) (servoBusFactoryReset L id errorOut) fun reply w =>
      OnBus b w ∧ reply.result ≠ .errInvalidArg := by
  unfold servoBusFactoryReset
  refine .get_bind fun w hw => ?_
  refine .ite (fun hidle => ?_) fun _ => ?_
  · rw [hw.initialised_eq, hready] at hidle
    exact absurd hidle (by decide)
  · rw [servoProtocolBuild_eq (Nat.zero_le _)]
    refine (factoryReset_onBus _ _ _).weaken ?_
    rintro _ rfl
    exact hw

theorem servoBusWriteValue_run (hready : w.bus.initialised = true) (id reg : UInt8) (value : UInt32)
    {width : UInt8} (hwidth : servoProtocolWidthOk width = true) (errorOut : Option UInt8) :
    (servoBusWriteValue L id reg value width errorOut).run w =
      (transact L (servoPacket id SERVO_INST_WRITE
        (reg :: servoProtocolEncodeValue value width w.bus.endianness)) id none 0 errorOut).run w := by
  have hcount : width ≠ 0 := by
    rintro rfl
    exact absurd hwidth (by decide)
  have hlength := length_encodeValue value w.bus.endianness hwidth
  have hwidthLe := width_le_four hwidth
  have hbuild : servoProtocolBuildWrite SERVO_PROTOCOL_MAX_PACKET_SIZE id reg
      (some (servoProtocolEncodeValue value width w.bus.endianness)) width =
        .ok (servoPacket id SERVO_INST_WRITE
          (reg :: servoProtocolEncodeValue value width w.bus.endianness)) := by
    have hroom : ¬ width.toNat + 1 > SERVO_PROTOCOL_MAX_PARAMS := by
      rw [SERVO_PROTOCOL_MAX_PARAMS]
      omega
    rw [servoProtocolBuildWrite, if_neg hcount, if_neg hroom, ← hlength, List.take_length]
    refine servoProtocolBuild_eq ?_
    rw [List.length_cons, hlength, SERVO_PROTOCOL_MAX_PARAMS]
    omega
  unfold servoBusWriteValue servoBusWrite
  simp [hready, hwidth, hcount, hbuild]

theorem servoBusWriteValue_ready (hready : b.initialised = true) (id reg : UInt8) (value : UInt32)
    {width : UInt8} (hwidth : servoProtocolWidthOk width = true) (errorOut : Option UInt8) :
    Ensures (OnBus b) (servoBusWriteValue L id reg value width errorOut) fun reply w =>
      OnBus b w ∧ reply.result ≠ .errInvalidArg := by
  intro w hw
  rw [servoBusWriteValue_run (hw.initialised_eq.trans hready) id reg value hwidth errorOut]
  exact transact_bare _ id errorOut w hw

end calls

section speed

variable (L b)

/-- The host can be clocked at that rate. -/
def Line.Reaches (baudrate : UInt32) : Prop :=
  b.initialised = true ∧ b.uart.initialised = true ∧ baudrate ≠ 0 ∧ (L.timing baudrate).isSome = true

variable {L b}

/-- The bus at another rate. -/
def ServoBus.clocked (b : ServoBus) (baudrate : UInt32) (timing : HalfDuplexUartTiming) : ServoBus :=
  { b with uart.baudrate := baudrate, uart.timing := timing }

theorem halfDuplexUartSetBaudrate_cases (baudrate : UInt32) :
    Ensures (· = w) (halfDuplexUartSetBaudrate L baudrate) fun result w' =>
      (result = .ok ∧ (w.bus.uart.initialised = true ∧ baudrate ≠ 0 ∧
        (L.timing baudrate).isSome = true) ∧
        ∃ timing, w' = { w with bus := w.bus.clocked baudrate timing }) ∨
      (result ≠ .ok ∧ ¬ (w.bus.uart.initialised = true ∧ baudrate ≠ 0 ∧
        (L.timing baudrate).isSome = true) ∧ w' = w) := by
  unfold halfDuplexUartSetBaudrate
  refine .get_bind ?_
  rintro _ rfl
  refine .ite (fun hargs => .pure ?_) fun hargs => ?_
  · rintro _ rfl
    refine .inr ⟨nofun, fun h => ?_, rfl⟩
    simp [h.1, h.2.1] at hargs
  · simp only [Bool.or_eq_true, Bool.not_eq_true', decide_eq_true_eq, not_or,
      Bool.not_eq_false] at hargs
    cases htiming : L.timing baudrate with
    | none =>
      rintro _ rfl
      exact .inr ⟨nofun, fun h => absurd h.2.2 (by decide), rfl⟩
    | some timing =>
      rintro _ rfl
      exact .inl ⟨rfl, ⟨hargs.1, hargs.2, rfl⟩, timing, rfl⟩

theorem servoBusSetBaudrate_cases (baudrate : UInt32) :
    Ensures (· = w) (servoBusSetBaudrate L baudrate) fun result w' =>
      (result = .ok ∧ L.Reaches w.bus baudrate ∧
        ∃ timing, w' = { w with bus := w.bus.clocked baudrate timing }) ∨
      (result ≠ .ok ∧ ¬ L.Reaches w.bus baudrate ∧ w' = w) := by
  unfold servoBusSetBaudrate
  refine .get_bind ?_
  rintro _ rfl
  refine .ite (fun hargs => .pure ?_) fun hargs => ?_
  · rintro _ rfl
    refine .inr ⟨nofun, fun h => ?_, rfl⟩
    simp [h.1, h.2.2.1] at hargs
  · simp only [Bool.or_eq_true, Bool.not_eq_true', decide_eq_true_eq, not_or,
      Bool.not_eq_false] at hargs
    refine .bind (halfDuplexUartSetBaudrate_cases baudrate) fun result => ?_
    refine .ite (fun hresult => .pure fun w' h => ?_) fun _ => .pure fun w' h => ?_
    · rcases h with ⟨hok, -⟩ | ⟨-, hreach, hsame⟩
      · exact absurd (hresult.symm.trans hok) nofun
      · exact .inr ⟨nofun, fun h => hreach h.2, hsame⟩
    · rcases h with ⟨rfl, hreach, hsame⟩ | ⟨hfailed, hreach, hsame⟩
      · exact .inl ⟨rfl, ⟨hargs.1, hreach⟩, hsame⟩
      · rw [if_neg hfailed]
        exact .inr ⟨nofun, fun h => hreach h.2, hsame⟩

/-- The bus, and what has gone out and is at the other end. -/
abbrev Beside (b : ServoBus) (other : List Bytes → ε → Prop) (w : ServoWorld ε) : Prop :=
  OnBus b w ∧ other w.sent w.line

variable {other : List Bytes → ε → Prop} {call : BusM ε ServoBusResult}
  {post : ServoBusResult → ServoWorld ε → Prop}

theorem setBaudrate_beside (baudrate : UInt32) :
    Ensures (Beside b other) (servoBusSetBaudrate L baudrate) fun result w =>
      (result = .ok ∧ L.Reaches b baudrate ∧ ∃ timing, Beside (b.clocked baudrate timing) other w) ∨
      (result ≠ .ok ∧ ¬ L.Reaches b baudrate ∧ Beside b other w) := by
  rintro w ⟨hbus, hother⟩
  have hreach : L.Reaches w.bus baudrate ↔ L.Reaches b baudrate := by
    rw [Line.Reaches, Line.Reaches, hbus.initialised_eq, hbus.uart_eq]
  rcases servoBusSetBaudrate_cases baudrate w rfl with ⟨hok, hreached, timing, hset⟩ | hfailed
  · obtain ⟨stats, hbus⟩ := hbus
    refine .inl ⟨hok, hreach.mp hreached, timing, ⟨stats, ?_⟩, ?_⟩
    · rw [hset, hbus]
      rfl
    · rw [hset]
      exact hother
  · obtain ⟨hresult, hrefused, hsame⟩ := hfailed
    rw [hreach] at hrefused
    rw [hsame]
    exact .inr ⟨hresult, hrefused, hbus, hother⟩

theorem setBaudrate_then {baudrate : UInt32}
    (hcall : L.Reaches b baudrate → ∀ timing,
      Ensures (Beside (b.clocked baudrate timing) other) call post)
    (hrefused : ¬ L.Reaches b baudrate → ∀ result w, other w.sent w.line → post result w) :
    Ensures (Beside b other)
      (servoBusSetBaudrate L baudrate >>= fun result =>
        if result ≠ .ok then pure result else call) post := by
  refine .bind (setBaudrate_beside baudrate) fun result => ?_
  refine .ite (fun hfailed => .pure fun w hw => ?_) fun hok w hw => ?_
  · rcases hw with ⟨hok, -⟩ | ⟨-, hreach, hw⟩
    · exact absurd hok hfailed
    · exact hrefused hreach result w hw.2
  · rcases hw with ⟨-, hreach, timing, hw⟩ | ⟨hfailed, -⟩
    · exact hcall hreach timing w hw
    · exact absurd hfailed hok

theorem servoBusGetBaudrate_beside :
    Ensures (Beside b other) (servoBusGetBaudrate : BusM ε UInt32) fun previous w =>
      Beside b other w ∧ (b.initialised = true → previous = b.uart.baudrate) := by
  refine .get_bind fun w hw => .pure ?_
  intro w' hsame
  subst hsame
  refine ⟨hw, fun hready => ?_⟩
  rw [hw.1.initialised_eq, hready, hw.1.uart_eq]
  rfl

/-- What comes after the host has been asked whether it reaches a rate. -/
theorem probe_then {baudrate : UInt32} {call : UInt32 → BusM ε ServoBusResult}
    (hcall : L.Reaches b baudrate → L.Reaches b b.uart.baudrate → ∀ timing,
      Ensures (Beside (b.clocked b.uart.baudrate timing) other) (call b.uart.baudrate) post)
    (hrefused : ¬ (L.Reaches b baudrate ∧ L.Reaches b b.uart.baudrate) →
      ∀ result w, other w.sent w.line → post result w) :
    Ensures (Beside b other)
      (servoBusGetBaudrate >>= fun previous =>
        servoBusSetBaudrate L baudrate >>= fun reachable =>
        if reachable ≠ .ok then pure reachable else
        servoBusSetBaudrate L previous >>= fun restored =>
        if restored ≠ .ok then pure restored else call previous) post := by
  refine .bind servoBusGetBaudrate_beside fun previous => .assume fun hsame => ?_
  refine setBaudrate_then (fun hreached timing => ?_) fun hrefuse => ?_
  · obtain rfl := hsame hreached.1
    refine setBaudrate_then (fun hback timing' => hcall hreached hback timing') fun hrefuse => ?_
    exact hrefused fun h => hrefuse h.2
  · exact hrefused fun h => hrefuse h.1

theorem withoutRetries_beside {α : Type} {call : BusM ε α} {other' : List Bytes → ε → Prop}
    {kept : α → Prop}
    (h : Ensures (Beside { b with maxRetries := 0 } other) call fun a w =>
      Beside { b with maxRetries := 0 } other' w ∧ kept a) :
    Ensures (Beside b other) (withoutRetries call) fun a w => Beside b other' w ∧ kept a := by
  rintro w ⟨⟨stats, hbus⟩, hother⟩
  have hstart : Beside { b with maxRetries := 0 } other { w with bus.maxRetries := 0 } :=
    ⟨⟨stats, by rw [hbus]⟩, hother⟩
  obtain ⟨⟨⟨stats', hbus'⟩, hother'⟩, ha⟩ := h _ hstart
  refine ⟨⟨⟨stats', ?_⟩, hother'⟩, ha⟩
  have hretries : w.bus.maxRetries = b.maxRetries := by rw [hbus]
  refine (congrArg (fun bus : ServoBus => { bus with maxRetries := w.bus.maxRetries }) hbus').trans ?_
  rw [hretries]

end speed

end Pico
