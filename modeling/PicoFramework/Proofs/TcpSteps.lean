import PicoFramework.Spec.TcpClient

/-! What each function of the client can do, said once. -/

namespace Pico

namespace TcpWorld

variable (w : TcpWorld) (a : LwipAnswers) (link : Link)

/-- `handle_failure` would set the retry timer of this client. -/
def backsOff (c : TcpClient) : Bool :=
  (c.config.autoReconnect || c.sessions = 0) && !c.retry.exhausted

/-- A failure changes the stream, the retry state and the state; it never leaves the client
connected, and waiting only if it backs off. -/
theorem handleFailure_cases (now : UInt32) : ∃ stream retry state,
    w.handleFailure now =
      w.setClient (fun c => { c with stream := stream, retry := retry, state := state }) ∧
    (state = .idle ∨ state = .gaveUp ∨ (state = .waiting ∧ backsOff w.client = true)) := by
  unfold handleFailure
  dsimp only
  split_ifs with hdone hexhausted
  · exact ⟨_, w.client.retry, .idle, rfl, .inl rfl⟩
  · exact ⟨_, w.client.retry, .gaveUp, rfl, .inr (.inl rfl)⟩
  · refine ⟨_, _, .waiting, rfl, .inr (.inr ⟨rfl, ?_⟩)⟩
    change ¬ (!w.client.config.autoReconnect && decide (w.client.sessions > 0)) = true at hdone
    change ¬ w.client.retry.exhausted = true at hexhausted
    unfold backsOff
    rw [Bool.not_eq_true] at hexhausted
    rw [hexhausted, Bool.not_false, Bool.and_true, Bool.or_eq_true, decide_eq_true_eq]
    rw [Bool.and_eq_true, Bool.not_eq_true', decide_eq_true_eq, not_and] at hdone
    rcases Bool.eq_false_or_eq_true w.client.config.autoReconnect with hauto | hauto
    · exact .inl hauto
    · refine .inr ?_
      exact UInt32.le_zero_iff.mp (UInt32.not_lt.mp (hdone hauto))

theorem pumpOutput_cases : ∃ stream,
    w.pumpOutput link = w.setClient fun c => { c with stream := stream } := by
  unfold pumpOutput
  split
  · exact ⟨_, rfl⟩
  cases w.client.stream with
  | none => exact ⟨_, rfl⟩
  | some stream =>
    dsimp only
    split
    · exact ⟨_, rfl⟩
    · exact ⟨_, rfl⟩

theorem tcpClientWrite_cases (data : Bytes) : ∃ stream,
    w.tcpClientWrite data link = w.setClient fun c => { c with stream := stream } := by
  unfold tcpClientWrite
  cases w.client.initialised with
  | false => exact ⟨_, rfl⟩
  | true =>
    cases w.client.stream with
    | none => exact ⟨_, rfl⟩
    | some stream =>
      dsimp only
      split
      · obtain ⟨stream', hpumped⟩ := pumpOutput_cases
          (w.setClient fun c => { c with stream := some (stream.write data).2 }) link
        exact ⟨stream', hpumped⟩
      · exact ⟨_, rfl⟩

theorem tcpClientReadBytes_cases (length : ℕ) : ∃ stream,
    w.tcpClientReadBytes length = w.setClient fun c => { c with stream := stream } := by
  unfold tcpClientReadBytes
  cases w.client.initialised with
  | false => exact ⟨_, rfl⟩
  | true =>
    cases w.client.stream with
    | none => exact ⟨_, rfl⟩
    | some stream => exact ⟨_, rfl⟩

theorem onRecv_cases (p : Pbuf) : ∃ stream,
    (w.onRecv p).2 = w.setClient fun c => { c with stream := stream } := by
  unfold onRecv
  cases w.client.stream with
  | none => exact ⟨_, rfl⟩
  | some stream =>
    dsimp only
    split
    · exact ⟨_, rfl⟩
    · exact ⟨_, rfl⟩

/-- The world once the client has let go of its PCB. -/
def released (w : TcpWorld) : TcpWorld :=
  { w with live := w.client.pcb.elim w.live w.live.erase }.setClient fun c => { c with pcb := none }

theorem releasePcb_eq (graceful closeOk : Bool) : (w.releasePcb graceful closeOk).2 = w.released := by
  unfold releasePcb released
  cases hpcb : w.client.pcb with
  | none =>
    change w = { w with client := { w.client with pcb := none } }
    rw [← hpcb]
  | some pcb => rfl

/-- The world once a PCB was asked to connect. -/
def dialing (w : TcpWorld) (a : LwipAnswers) : TcpWorld :=
  ({ w with live := w.live ++ [w.issued], issued := w.issued + 1 }.setClient fun c =>
    { c with
      pcb := some w.issued
      attemptStartedMs := a.now
      state := .connecting }).attempted

theorem startConnect_cases :
    (a.newOk = false ∧ w.startConnect a = (.errNoMemory, w)) ∨
      (a.newOk = true ∧ (w.startConnect a = (.ok, w.dialing a) ∨
        w.startConnect a = (.errFailed, (w.dialing a).released))) := by
  unfold startConnect
  dsimp only
  split_ifs with hnew hconnect
  · exact .inl ⟨by simpa using hnew, rfl⟩
  · exact .inr ⟨by simpa using hnew, .inl rfl⟩
  · refine .inr ⟨by simpa using hnew, .inr ?_⟩
    rw [releasePcb_eq]
    rfl

/-- An answer about a host: no PCB to be had or no such host, and the attempt has failed; or a
PCB that was asked to connect, and perhaps given up again. -/
theorem onDns_cases (ip : Option UInt32) : ∃ host,
    ((ip = none ∨ a.newOk = false) ∧
      w.onDns ip a = (w.setClient fun c => { c with hostIpv4 := host }).handleFailure a.later) ∨
    ((ip ≠ none ∧ a.newOk = true) ∧
      (w.onDns ip a = (w.setClient fun c => { c with hostIpv4 := host }).dialing a ∨
        w.onDns ip a =
          ((w.setClient fun c => { c with hostIpv4 := host }).dialing a).released.handleFailure
            a.later)) := by
  cases ip with
  | none => exact ⟨w.client.hostIpv4, .inl ⟨.inl rfl, rfl⟩⟩
  | some ip =>
    refine ⟨ip, ?_⟩
    unfold onDns
    dsimp only
    rcases startConnect_cases (w.setClient fun c => { c with hostIpv4 := ip }) a with
      ⟨hnew, heq⟩ | ⟨hnew, heq | heq⟩
    · rw [heq]
      exact .inl ⟨.inr hnew, rfl⟩
    · rw [heq]
      exact .inr ⟨⟨nofun, hnew⟩, .inl rfl⟩
    · rw [heq]
      exact .inr ⟨⟨nofun, hnew⟩, .inr rfl⟩

theorem beginAttempt_cases :
    (∃ ip, a.dns = .found ip ∧ w.beginAttempt a = w.attempted.onDns (some ip) a) ∨
    (a.dns = .inProgress ∧ w.beginAttempt a =
      { w.attempted with lookups := w.lookups + 1 }.setClient fun c =>
        { c with attemptStartedMs := a.now, state := .resolving }) ∨
    (a.dns = .failed ∧ w.beginAttempt a = w.attempted.handleFailure a.later) := by
  unfold beginAttempt
  cases hdns : a.dns with
  | found ip => exact .inl ⟨ip, rfl, rfl⟩
  | inProgress => exact .inr (.inl ⟨rfl, rfl⟩)
  | failed => exact .inr (.inr ⟨rfl, rfl⟩)

end TcpWorld

/-- A client opened by name, with lwIP's answer to the lookup. -/
def lookingUp (onClosed : Bool) (dns : DnsAnswer) : TcpMove :=
  .openClient
    ⟨some (cstr "h"), 7, some [0, 0], some [0, 0], 0, false, onClosed, true, ⟨0, 0, 0⟩⟩
    ⟨0, 0, dns, true, true, true⟩

def goodAnswers : LwipAnswers := ⟨0, 0, .found 1, true, true, true⟩

/-- Opened, looked up, connected and closed, in this order. -/
def usedOnce : List TcpMove :=
  [lookingUp false .inProgress, .dns (some 1) goodAnswers,
    .connected 0 false goodAnswers ⟨0, fun _ => 0⟩, .close goodAnswers]

end Pico
