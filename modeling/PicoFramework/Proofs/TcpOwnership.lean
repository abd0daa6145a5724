import PicoFramework.Lib.Run
import PicoFramework.Proofs.TcpSteps

/-! Who owns the PCBs: those that lwIP holds for a client are the one it points to. `start_connect`
overwrites that pointer without a look at it, so a connection may be started only by a client
that has let go of the one before. -/

namespace Pico

open Lib.Run

def DnsAnswer.isFound : DnsAnswer → Bool
  | .found _ => true
  | _ => false

/-- The step starts no connection over a PCB that the client still holds, and does not drop the
PCB of a client that goes on calling itself connected. -/
def LetsGoFirst (w : TcpWorld) (move : TcpMove) : Prop :=
  move.enabled w = true →
    match move with
    | .openClient config _ =>
        w.client.initialised = true → (config.host.map CString.length).getD 0 ≠ 0 →
        config.port ≠ 0 → w.client.state = .connected →
        (tcpStreamInit config.rxBuffer config.txBuffer).isSome = true
    | .poll a _ =>
        w.client.initialised = true → w.client.state = .waiting → w.client.retry.due a.now = true →
        a.dns.isFound = true → a.newOk = true → w.client.pcb = none
    | .dns ip a => ip ≠ none → a.newOk = true → w.client.pcb = none
    | .error _ _ => ¬ (w.client.state = .connected ∧ w.client.config.onClosed = true)
    | _ => True

instance (w : TcpWorld) : (move : TcpMove) → Decidable (LetsGoFirst w move)
  | .openClient .. | .close .. | .deinit .. | .poll .. | .write .. | .readBytes .. | .dns ..
  | .connected .. | .recv .. | .recvClosed .. | .sent .. | .error .. | .afterCallback .. => by
      unfold LetsGoFirst
      infer_instance

/-- What lwIP holds is what the client points to, and a connected client points to the PCB that
reported the connection. -/
structure Owned (w : TcpWorld) : Prop where
  live_eq : w.live = w.client.pcb.toList
  reported : w.client.state = .connected → w.client.pcb ≠ none ∧ w.client.pcb = w.reported

section owned

variable {w w' : TcpWorld}

theorem Owned.of_eq (h : Owned w) (hlive : w'.live = w.live) (hpcb : w'.client.pcb = w.client.pcb)
    (hstate : w'.client.state = w.client.state) (hreported : w'.reported = w.reported) :
    Owned w' where
  live_eq := by rw [hlive, hpcb, h.live_eq]
  reported := by
    intro hconnected
    rw [hpcb, hreported]
    exact h.reported (hstate.symm.trans hconnected)

theorem Owned.of_state (hlive : w.live = w.client.pcb.toList) (hstate : w.client.state ≠ .connected) :
    Owned w where
  live_eq := hlive
  reported := fun hconnected => absurd hconnected hstate

theorem live_released (h : w.live = w.client.pcb.toList) : w.released.live = [] := by
  unfold TcpWorld.released
  change w.client.pcb.elim w.live w.live.erase = []
  rw [h]
  cases w.client.pcb with
  | none => rfl
  | some pcb =>
    change [pcb].erase pcb = []
    simp

theorem Owned.pcb_eq (h : Owned w) {pcb : ℕ} (hmem : pcb ∈ w.live) : w.client.pcb = some pcb := by
  rw [h.live_eq] at hmem
  exact Option.mem_toList.mp hmem

theorem Owned.freed (h : Owned w) {pcb : ℕ} (hmem : pcb ∈ w.live) : w.live.erase pcb = [] := by
  rw [h.live_eq, h.pcb_eq hmem, Option.toList_some]
  simp

theorem Owned.handleFailure (hlive : w.live = w.client.pcb.toList) (now : UInt32) :
    Owned (w.handleFailure now) := by
  obtain ⟨stream, retry, state, heq, hstate⟩ := w.handleFailure_cases now
  rw [heq]
  refine Owned.of_state hlive ?_
  rcases hstate with rfl | rfl | ⟨rfl, -⟩
  · exact nofun
  · exact nofun
  · exact nofun

theorem Owned.pumpOutput (h : Owned w) (link : TcpWorld.Link) : Owned (w.pumpOutput link) := by
  obtain ⟨stream, heq⟩ := w.pumpOutput_cases link
  rw [heq]
  exact h.of_eq rfl rfl rfl rfl

theorem live_dialing (hlive : w.live = w.client.pcb.toList) (hfree : w.client.pcb = none)
    (a : LwipAnswers) : (w.dialing a).live = (w.dialing a).client.pcb.toList := by
  change w.live ++ [w.issued] = [w.issued]
  rw [hlive, hfree]
  rfl

theorem Owned.onDns (hlive : w.live = w.client.pcb.toList) (ip : Option UInt32) (a : LwipAnswers)
    (hfree : ip ≠ none → a.newOk = true → w.client.pcb = none) : Owned (w.onDns ip a) := by
  obtain ⟨host, ⟨-, heq⟩ | ⟨⟨hip, hnew⟩, hdials⟩⟩ := w.onDns_cases a ip
  · rw [heq]
    apply Owned.handleFailure
    exact hlive
  have hdialing := live_dialing (w := w.setClient fun c => { c with hostIpv4 := host }) hlive
    (hfree hip hnew) a
  rcases hdials with heq | heq
  · rw [heq]
    exact Owned.of_state hdialing nofun
  · rw [heq]
    apply Owned.handleFailure
    exact live_released hdialing

theorem Owned.beginAttempt (hlive : w.live = w.client.pcb.toList) (a : LwipAnswers)
    (hfree : a.dns.isFound = true → a.newOk = true → w.client.pcb = none) :
    Owned (w.beginAttempt a) := by
  rcases w.beginAttempt_cases a with ⟨ip, hfound, heq⟩ | ⟨-, heq⟩ | ⟨-, heq⟩
  · rw [heq]
    rw [hfound] at hfree
    apply Owned.onDns
    · exact hlive
    · exact fun _ hnew => hfree rfl hnew
  · rw [heq]
    exact Owned.of_state hlive nofun
  · rw [heq]
    apply Owned.handleFailure
    exact hlive

theorem Owned.open (h : Owned w) (config : TcpClientConfig) (a : LwipAnswers)
    (hbuffers : w.client.initialised = true → (config.host.map CString.length).getD 0 ≠ 0 →
      config.port ≠ 0 → w.client.state = .connected →
      (tcpStreamInit config.rxBuffer config.txBuffer).isSome = true) :
    Owned (w.tcpClientOpen config a).2 := by
  have hreleased := live_released h.live_eq
  unfold TcpWorld.tcpClientOpen
  split
  · exact h
  rename_i hinit
  split
  · exact h
  rename_i hargs
  obtain ⟨hhost, hport⟩ := not_or.mp hargs
  rw [TcpWorld.releasePcb_eq]
  cases hstream : tcpStreamInit config.rxBuffer config.txBuffer with
  | none =>
    refine Owned.of_state hreleased fun hconnected => ?_
    have hsome := hbuffers (by simpa using hinit) hhost hport hconnected
    rw [hstream] at hsome
    exact absurd hsome nofun
  | some stream =>
    apply Owned.beginAttempt
    · exact hreleased
    · exact fun _ _ => rfl

theorem Owned.close (h : Owned w) (a : LwipAnswers) : Owned (w.tcpClientClose a).2 := by
  unfold TcpWorld.tcpClientClose
  split
  · exact h
  · rw [TcpWorld.releasePcb_eq]
    exact Owned.of_state (live_released h.live_eq) nofun

theorem Owned.deinit (h : Owned w) (a : LwipAnswers) : Owned (w.tcpClientDeinit a) := by
  unfold TcpWorld.tcpClientDeinit
  split
  · exact h
  · rw [TcpWorld.releasePcb_eq]
    exact Owned.of_state (live_released h.live_eq) nofun

theorem Owned.poll (h : Owned w) (a : LwipAnswers) (link : TcpWorld.Link)
    (hfree : w.client.initialised = true → w.client.state = .waiting →
      w.client.retry.due a.now = true → a.dns.isFound = true → a.newOk = true →
      w.client.pcb = none) : Owned (w.tcpClientPoll a link) := by
  have htimeout : Owned
      (if a.now - w.client.attemptStartedMs ≥ w.client.config.connectTimeoutMs then
        (w.releasePcb false a.closeOk).2.handleFailure a.later else w) := by
    split
    · rw [TcpWorld.releasePcb_eq]
      apply Owned.handleFailure
      exact live_released h.live_eq
    · exact h
  unfold TcpWorld.tcpClientPoll
  split
  · exact h
  rename_i hinit
  cases hstate : w.client.state with
  | resolving => exact htimeout
  | connecting => exact htimeout
  | waiting =>
    dsimp only
    split
    · rename_i hdue
      apply Owned.beginAttempt h.live_eq
      exact hfree (by simpa using hinit) hstate hdue
    · exact h
  | connected => exact h.pumpOutput link
  | idle => exact h
  | gaveUp => exact h

theorem Owned.onConnected (h : Owned w) {pcb : ℕ} (hmem : pcb ∈ w.live) (err : Bool)
    (a : LwipAnswers) (link : TcpWorld.Link) : Owned (w.onConnected pcb err a link) := by
  unfold TcpWorld.onConnected
  cases err with
  | true =>
    apply Owned.handleFailure
    exact h.freed hmem
  | false =>
    have hpcb := h.pcb_eq hmem
    have hheld : w.client.pcb ≠ none := fun hnone => absurd (hpcb.symm.trans hnone) nofun
    rw [if_neg nofun]
    dsimp only
    split
    · exact ⟨h.live_eq, fun _ => ⟨hheld, hpcb⟩⟩
    · apply Owned.pumpOutput
      exact ⟨h.live_eq, fun _ => ⟨hheld, hpcb⟩⟩

theorem Owned.onRecvClosed (h : Owned w) (a : LwipAnswers) : Owned (w.onRecvClosed a) := by
  have hreleased := live_released h.live_eq
  unfold TcpWorld.onRecvClosed
  rw [TcpWorld.releasePcb_eq]
  dsimp only
  split
  · exact Owned.of_state hreleased nofun
  · apply Owned.handleFailure
    exact hreleased

theorem Owned.onError (h : Owned w) {pcb : ℕ} (hmem : pcb ∈ w.live) (a : LwipAnswers)
    (hquiet : ¬ (w.client.state = .connected ∧ w.client.config.onClosed = true)) :
    Owned (w.onError pcb a) := by
  unfold TcpWorld.onError
  dsimp only
  split
  · rename_i hcallback
    obtain ⟨hconnected, honClosed⟩ := hcallback
    exact absurd ⟨hconnected, honClosed⟩ hquiet
  · apply Owned.handleFailure
    exact h.freed hmem

theorem Owned.afterCallback (h : Owned w) (a : LwipAnswers) (link : TcpWorld.Link) :
    Owned (w.afterCallback a link) := by
  unfold TcpWorld.afterCallback
  cases w.inside with
  | none => exact h
  | some callback =>
    cases callback with
    | onClosed =>
      apply Owned.handleFailure
      exact h.live_eq
    | onConnect =>
      apply Owned.pumpOutput
      exact h.of_eq rfl rfl rfl rfl

theorem Owned.step (h : Owned w) (move : TcpMove) (hmove : LetsGoFirst w move) :
    Owned (w.step move) := by
  unfold TcpWorld.step
  split
  swap
  · exact h
  rename_i henabled
  have hfirst := hmove henabled
  cases move with
  | openClient config a => exact h.open config a hfirst
  | close a => exact h.close a
  | deinit a => exact h.deinit a
  | poll a link => exact h.poll a link hfirst
  | write data link =>
    obtain ⟨stream, heq⟩ := w.tcpClientWrite_cases link data
    change Owned (w.tcpClientWrite data link)
    rw [heq]
    exact h.of_eq rfl rfl rfl rfl
  | readBytes length =>
    obtain ⟨stream, heq⟩ := w.tcpClientReadBytes_cases length
    change Owned (w.tcpClientReadBytes length)
    rw [heq]
    exact h.of_eq rfl rfl rfl rfl
  | dns ip a => exact Owned.onDns (w := { w with lookups := w.lookups - 1 }) h.live_eq ip a hfirst
  | connected pcb err a link => exact h.onConnected (of_decide_eq_true henabled).2 err a link
  | recv pcb p =>
    obtain ⟨stream, heq⟩ := w.onRecv_cases p
    change Owned (w.onRecv p).2
    rw [heq]
    exact h.of_eq rfl rfl rfl rfl
  | recvClosed pcb a => exact h.onRecvClosed a
  | sent pcb link => exact h.pumpOutput link
  | error pcb a => exact h.onError (of_decide_eq_true henabled).2 a hfirst
  | afterCallback a link => exact h.afterCallback a link

end owned

/-- After a run in which the client lets go first, lwIP holds the client's PCB and no other, and
a connected client has the PCB that reported the connection. -/
theorem tcpClient_owns_pcb (moves : List TcpMove)
    (hmoves : Meets TcpWorld.step LetsGoFirst tcpClientInit moves) {w : TcpWorld}
    (hw : moves.foldl TcpWorld.step tcpClientInit = w) :
    (∀ pcb, pcb ∈ w.live ↔ w.client.pcb = some pcb) ∧ w.live.length ≤ 1 ∧
    (w.client.state = .connected → w.client.pcb ≠ none ∧ w.client.pcb = w.reported) := by
  have hstep : ∀ (w : TcpWorld) (move : TcpMove), LetsGoFirst w move → Owned w →
      Owned (w.step move) := fun _ move hmove h => h.step move hmove
  have howned : Owned w := by
    rw [← hw]
    exact hmoves.invariant hstep (Owned.of_state rfl nofun)
  refine ⟨fun pcb => ?_, ?_, howned.reported⟩
  · rw [howned.live_eq]
    exact Option.mem_toList
  · rw [howned.live_eq]
    cases w.client.pcb with
    | none => exact Nat.zero_le 1
    | some pcb => exact Nat.le_refl 1

theorem tcpClient_owns_pcb_once :
    (usedOnce.foldl TcpWorld.step tcpClientInit).live.length ≤ 1 :=
  (tcpClient_owns_pcb usedOnce ⟨by decide, by decide, by decide, by decide, trivial⟩ rfl).2.1

/-- Two lookups, of two opens, and the answer to each starts a connection. -/
theorem tcpClient_leaks_pcb :
    ¬ ∀ (moves : List TcpMove) (w : TcpWorld), moves.foldl TcpWorld.step tcpClientInit = w →
      (∀ pcb, pcb ∈ w.live ↔ w.client.pcb = some pcb) ∧ w.live.length ≤ 1 ∧
      (w.client.state = .connected → w.client.pcb ≠ none ∧ w.client.pcb = w.reported) := by
  intro hclaim
  have hsingle := (hclaim [lookingUp false .inProgress, lookingUp false .inProgress,
    .dns (some 1) goodAnswers, .dns (some 1) goodAnswers] _ rfl).2.1
  exact absurd hsingle (by decide)

/-- A reset reported in the middle of a connection: while `on_closed` runs the client is
connected without a PCB. -/
example :
    let w := [lookingUp true (.found 1), .connected 0 false goodAnswers ⟨0, fun _ => 0⟩,
      .error 0 goodAnswers].foldl TcpWorld.step tcpClientInit
    w.client.state = .connected ∧ w.client.pcb = none := by decide

end Pico
