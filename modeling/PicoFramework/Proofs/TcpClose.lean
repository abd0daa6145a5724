import PicoFramework.Lib.Run
import PicoFramework.Proofs.TcpSteps

/-! What closing a client is worth. A callback of lwIP that arrives after the close goes through
the same code as one that arrives before it, so a closed client stays closed only while these
callbacks neither start a connection nor set the retry timer. -/

namespace Pico

open Lib.Run

/-- A failure now would set the retry timer that `tcp_client_poll` looks at. -/
def TcpWorld.rearms (w : TcpWorld) : Bool := w.client.initialised && TcpWorld.backsOff w.client

/-- The step leaves a closed client closed: it starts no connection, and no failure it deals
with is one to be tried again. -/
def Undisturbed (w : TcpWorld) (move : TcpMove) : Prop :=
  move.enabled w = true → w.isOpen = false →
    match move with
    | .dns ip a => (ip = none ∨ a.newOk = false) ∧ w.rearms = false
    | .connected _ err _ _ => err = true ∧ w.rearms = false
    | .recvClosed _ _ => w.client.config.onClosed = true ∨ w.rearms = false
    | .error _ _ => w.rearms = false
    | .afterCallback _ _ => w.inside = some .onClosed → w.rearms = false
    | _ => True

instance (w : TcpWorld) : (move : TcpMove) → Decidable (Undisturbed w move)
  | .openClient .. | .close .. | .deinit .. | .poll .. | .write .. | .readBytes .. | .dns ..
  | .connected .. | .recv .. | .recvClosed .. | .sent .. | .error .. | .afterCallback .. => by
      unfold Undisturbed
      infer_instance

/-- No state from which the client goes on by itself. -/
def TcpClient.AtRest (c : TcpClient) : Prop :=
  c.state = .idle ∨ c.state = .gaveUp ∨ (c.state = .waiting ∧ c.initialised = false)

structure Quiet (w : TcpWorld) : Prop where
  strayed_eq : w.strayed = false
  atRest : w.isOpen = false → w.client.AtRest

section quiet

variable {w w' : TcpWorld}

theorem Quiet.of_open (hstrayed : w.strayed = false) (hopen : w.isOpen = true) : Quiet w where
  strayed_eq := hstrayed
  atRest := fun hclosed => absurd (hopen.symm.trans hclosed) nofun

theorem Quiet.of_atRest (hstrayed : w.strayed = false) (hrest : w.client.AtRest) : Quiet w where
  strayed_eq := hstrayed
  atRest := fun _ => hrest

theorem Quiet.of_eq (h : Quiet w) (hstrayed : w'.strayed = w.strayed) (hopen : w'.isOpen = w.isOpen)
    (hstate : w'.client.state = w.client.state)
    (hinit : w'.client.initialised = w.client.initialised) : Quiet w' where
  strayed_eq := hstrayed.trans h.strayed_eq
  atRest := by
    intro hclosed
    have hrest := h.atRest (hopen.symm.trans hclosed)
    unfold TcpClient.AtRest at hrest ⊢
    rwa [hstate, hinit]

theorem Quiet.handleFailure (hstrayed : w.strayed = false)
    (hrearms : w.isOpen = false → w.rearms = false) (now : UInt32) : Quiet (w.handleFailure now) := by
  obtain ⟨stream, retry, state, heq, hstate⟩ := w.handleFailure_cases now
  rw [heq]
  refine ⟨hstrayed, fun hclosed => ?_⟩
  rcases hstate with rfl | rfl | ⟨rfl, hbacksOff⟩
  · exact .inl rfl
  · exact .inr (.inl rfl)
  · refine .inr (.inr ⟨rfl, ?_⟩)
    have hquiet := hrearms hclosed
    rwa [TcpWorld.rearms, hbacksOff, Bool.and_true] at hquiet

theorem Quiet.pumpOutput (h : Quiet w) (link : TcpWorld.Link) : Quiet (w.pumpOutput link) := by
  obtain ⟨stream, heq⟩ := w.pumpOutput_cases link
  rw [heq]
  exact h.of_eq rfl rfl rfl rfl

theorem Quiet.released (h : Quiet w) : Quiet w.released := h.of_eq rfl rfl rfl rfl

theorem Quiet.onDns (h : Quiet w) (ip : Option UInt32) (a : LwipAnswers)
    (hquiet : w.isOpen = false → (ip = none ∨ a.newOk = false) ∧ w.rearms = false) :
    Quiet (w.onDns ip a) := by
  obtain ⟨host, ⟨-, heq⟩ | ⟨⟨hip, hnew⟩, hdials⟩⟩ := w.onDns_cases a ip
  · rw [heq]
    refine Quiet.handleFailure ?_ ?_ a.later
    · exact h.strayed_eq
    · exact fun hclosed => (hquiet hclosed).2
  have hopen : w.isOpen = true := by
    rcases Bool.eq_false_or_eq_true w.isOpen with hopen | hclosed
    · exact hopen
    · rcases (hquiet hclosed).1 with hnone | hfull
      · exact absurd hnone hip
      · exact absurd (hnew.symm.trans hfull) nofun
  have hstrayed : (w.strayed || !w.isOpen) = false := by
    rw [h.strayed_eq, hopen]
    rfl
  rcases hdials with heq | heq
  · rw [heq]
    exact Quiet.of_open hstrayed hopen
  · rw [heq]
    refine Quiet.handleFailure ?_ ?_ a.later
    · exact hstrayed
    · exact fun hclosed => absurd (hopen.symm.trans hclosed) nofun

theorem Quiet.beginAttempt (h : Quiet w) (hopen : w.isOpen = true) (a : LwipAnswers) :
    Quiet (w.beginAttempt a) := by
  have hattempted : Quiet w.attempted := by
    refine Quiet.of_open ?_ hopen
    change (w.strayed || !w.isOpen) = false
    rw [h.strayed_eq, hopen]
    rfl
  rcases w.beginAttempt_cases a with ⟨ip, -, heq⟩ | ⟨-, heq⟩ | ⟨-, heq⟩
  · rw [heq]
    exact hattempted.onDns (some ip) a fun hclosed => absurd (hopen.symm.trans hclosed) nofun
  · rw [heq]
    exact Quiet.of_open hattempted.strayed_eq hopen
  · rw [heq]
    exact Quiet.handleFailure hattempted.strayed_eq
      (fun hclosed => absurd (hopen.symm.trans hclosed) nofun) a.later

theorem Quiet.open (h : Quiet w) (config : TcpClientConfig) (a : LwipAnswers) :
    Quiet (w.tcpClientOpen config a).2 := by
  unfold TcpWorld.tcpClientOpen
  split
  · exact h
  split
  · exact h
  rw [TcpWorld.releasePcb_eq]
  cases tcpStreamInit config.rxBuffer config.txBuffer with
  | none => exact h.of_eq rfl rfl rfl rfl
  | some stream =>
    refine Quiet.beginAttempt (Quiet.of_open ?_ rfl) rfl a
    exact h.strayed_eq

theorem Quiet.close (h : Quiet w) (a : LwipAnswers) : Quiet (w.tcpClientClose a).2 := by
  unfold TcpWorld.tcpClientClose
  split
  · exact h
  · rw [TcpWorld.releasePcb_eq]
    exact Quiet.of_atRest h.strayed_eq (.inl rfl)

theorem Quiet.deinit (h : Quiet w) (a : LwipAnswers) : Quiet (w.tcpClientDeinit a) := by
  unfold TcpWorld.tcpClientDeinit
  split
  · exact h
  · rw [TcpWorld.releasePcb_eq]
    exact Quiet.of_atRest h.strayed_eq (.inl rfl)

theorem Quiet.poll (h : Quiet w) (a : LwipAnswers) (link : TcpWorld.Link) :
    Quiet (w.tcpClientPoll a link) := by
  unfold TcpWorld.tcpClientPoll
  split
  · exact h
  rename_i hinit
  have hopen : w.client.state ≠ .idle → w.client.state ≠ .gaveUp → w.isOpen = true := by
    intro hidle hgaveUp
    rw [← Bool.not_eq_false]
    intro hclosed
    rcases h.atRest hclosed with hstate | hstate | ⟨-, hdown⟩
    · exact hidle hstate
    · exact hgaveUp hstate
    · rw [hdown] at hinit
      exact hinit rfl
  have htimeout : w.isOpen = true →
      Quiet (if a.now - w.client.attemptStartedMs ≥ w.client.config.connectTimeoutMs then
        (w.releasePcb false a.closeOk).2.handleFailure a.later else w) := by
    intro hopen
    split
    · rw [TcpWorld.releasePcb_eq]
      refine Quiet.handleFailure ?_ ?_ a.later
      · exact h.strayed_eq
      · exact fun hclosed => absurd (hopen.symm.trans hclosed) nofun
    · exact h
  cases hstate : w.client.state with
  | resolving =>
    rw [hstate] at hopen
    exact htimeout (hopen nofun nofun)
  | connecting =>
    rw [hstate] at hopen
    exact htimeout (hopen nofun nofun)
  | waiting =>
    rw [hstate] at hopen
    dsimp only
    split
    · exact h.beginAttempt (hopen nofun nofun) a
    · exact h
  | connected => exact h.pumpOutput link
  | idle => exact h
  | gaveUp => exact h

theorem Quiet.onConnected (h : Quiet w) (pcb : ℕ) (err : Bool) (a : LwipAnswers)
    (link : TcpWorld.Link) (hquiet : w.isOpen = false → err = true ∧ w.rearms = false) :
    Quiet (w.onConnected pcb err a link) := by
  unfold TcpWorld.onConnected
  cases err with
  | true =>
    refine Quiet.handleFailure ?_ ?_ a.later
    · exact h.strayed_eq
    · exact fun hclosed => (hquiet hclosed).2
  | false =>
    have hopen : w.isOpen = true := by
      rw [← Bool.not_eq_false]
      intro hclosed
      exact absurd (hquiet hclosed).1 nofun
    rw [if_neg nofun]
    dsimp only
    split
    · exact Quiet.of_open h.strayed_eq hopen
    · apply Quiet.pumpOutput
      exact Quiet.of_open h.strayed_eq hopen

theorem Quiet.onRecvClosed (h : Quiet w) (a : LwipAnswers)
    (hquiet : w.isOpen = false → w.client.config.onClosed = true ∨ w.rearms = false) :
    Quiet (w.onRecvClosed a) := by
  unfold TcpWorld.onRecvClosed
  rw [TcpWorld.releasePcb_eq]
  dsimp only
  split
  · exact Quiet.of_atRest h.strayed_eq (.inl rfl)
  · rename_i hcallback
    refine Quiet.handleFailure ?_ ?_ a.later
    · exact h.strayed_eq
    · exact fun hclosed => (hquiet hclosed).resolve_left hcallback

theorem Quiet.onError (h : Quiet w) (pcb : ℕ) (a : LwipAnswers)
    (hquiet : w.isOpen = false → w.rearms = false) : Quiet (w.onError pcb a) := by
  unfold TcpWorld.onError
  dsimp only
  split
  · exact h.of_eq rfl rfl rfl rfl
  · refine Quiet.handleFailure ?_ ?_ a.later
    · exact h.strayed_eq
    · exact hquiet

theorem Quiet.afterCallback (h : Quiet w) (a : LwipAnswers) (link : TcpWorld.Link)
    (hquiet : w.isOpen = false → w.inside = some .onClosed → w.rearms = false) :
    Quiet (w.afterCallback a link) := by
  unfold TcpWorld.afterCallback
  cases hinside : w.inside with
  | none => exact h
  | some callback =>
    cases callback with
    | onClosed =>
      refine Quiet.handleFailure ?_ ?_ a.later
      · exact h.strayed_eq
      · exact fun hclosed => hquiet hclosed hinside
    | onConnect =>
      apply Quiet.pumpOutput
      exact h.of_eq rfl rfl rfl rfl

theorem Quiet.step (h : Quiet w) (move : TcpMove) (hmove : Undisturbed w move) :
    Quiet (w.step move) := by
  unfold TcpWorld.step
  split
  swap
  · exact h
  rename_i henabled
  have hquiet := hmove henabled
  cases move with
  | openClient config a => exact h.open config a
  | close a => exact h.close a
  | deinit a => exact h.deinit a
  | poll a link => exact h.poll a link
  | write data link =>
    obtain ⟨stream, heq⟩ := w.tcpClientWrite_cases link data
    change Quiet (w.tcpClientWrite data link)
    rw [heq]
    exact h.of_eq rfl rfl rfl rfl
  | readBytes length =>
    obtain ⟨stream, heq⟩ := w.tcpClientReadBytes_cases length
    change Quiet (w.tcpClientReadBytes length)
    rw [heq]
    exact h.of_eq rfl rfl rfl rfl
  | dns ip a =>
    have hanswered : Quiet { w with lookups := w.lookups - 1 } := h.of_eq rfl rfl rfl rfl
    exact hanswered.onDns ip a hquiet
  | connected pcb err a link => exact h.onConnected pcb err a link hquiet
  | recv pcb p =>
    obtain ⟨stream, heq⟩ := w.onRecv_cases p
    change Quiet ((w.onRecv p).2)
    rw [heq]
    exact h.of_eq rfl rfl rfl rfl
  | recvClosed pcb a => exact h.onRecvClosed a hquiet
  | sent pcb link => exact h.pumpOutput link
  | error pcb a => exact h.onError pcb a hquiet
  | afterCallback a link => exact h.afterCallback a link hquiet

end quiet

/-- After a run that disturbs no closed client, no attempt was ever started while the client was
closed, and a closed client is not connected. -/
theorem tcpClient_stays_closed (moves : List TcpMove)
    (hmoves : Meets TcpWorld.step Undisturbed tcpClientInit moves) :
    (moves.foldl TcpWorld.step tcpClientInit).strayed = false ∧
    ((moves.foldl TcpWorld.step tcpClientInit).isOpen = false →
      (moves.foldl TcpWorld.step tcpClientInit).client.state ≠ .connected) := by
  have hstep : ∀ (w : TcpWorld) (move : TcpMove), Undisturbed w move → Quiet w → Quiet (w.step move) :=
    fun _ move hmove h => h.step move hmove
  have hquiet := hmoves.invariant hstep (Quiet.of_atRest rfl (.inl rfl))
  refine ⟨hquiet.strayed_eq, fun hclosed hconnected => ?_⟩
  rcases hquiet.atRest hclosed with hstate | hstate | ⟨hstate, -⟩
  · exact absurd (hconnected.symm.trans hstate) nofun
  · exact absurd (hconnected.symm.trans hstate) nofun
  · exact absurd (hconnected.symm.trans hstate) nofun

theorem tcpClient_stays_closed_once :
    (usedOnce.foldl TcpWorld.step tcpClientInit).client.state ≠ .connected :=
  (tcpClient_stays_closed usedOnce ⟨by decide, by decide, by decide, by decide, trivial⟩).2
    (by decide)

/-- The answer to a lookup comes after the close, and the client connects. -/
theorem tcpClient_reopens :
    ¬ ∀ moves : List TcpMove,
      (moves.foldl TcpWorld.step tcpClientInit).strayed = false ∧
      ((moves.foldl TcpWorld.step tcpClientInit).isOpen = false →
        (moves.foldl TcpWorld.step tcpClientInit).client.state ≠ .connected) := by
  intro hclaim
  have hclosed := (hclaim [lookingUp false .inProgress, .close goodAnswers,
    .dns (some 1) goodAnswers, .connected 0 false goodAnswers ⟨0, fun _ => 0⟩]).2 (by decide)
  exact hclosed (by decide)

/-- Closed in `on_closed`: the failure being dealt with sets the timer again. -/
example :
    ([lookingUp true (.found 1), .connected 0 false goodAnswers ⟨0, fun _ => 0⟩,
      .recvClosed 0 goodAnswers, .close goodAnswers, .afterCallback goodAnswers ⟨0, fun _ => 0⟩,
      .poll ⟨100000, 0, .found 1, true, true, true⟩ ⟨0, fun _ => 0⟩].foldl
        TcpWorld.step tcpClientInit).strayed = true := by decide

end Pico
