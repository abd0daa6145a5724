import PicoFramework.Proofs.Streams
import PicoFramework.Spec.TcpClient

/-! The receiving side of a client: what its buffer is over whole runs, and which segments it
takes once it is drained. -/

namespace Pico

open Lib.Queue Lib.Run

/-- The bytes the application gave for receiving. -/
def TcpClientConfig.rxSize (config : TcpClientConfig) : ℕ := (config.rxBuffer.map List.length).getD 0

/-- The incoming buffer is a queue on all of the storage configured. -/
def InputReady (config : TcpClientConfig) (stream : TcpStream) : Prop :=
  ∃ q, HoldsQueue stream.incoming q ∧ q.capacity + 1 = config.rxSize

section input

variable {config : TcpClientConfig} {stream : TcpStream}

theorem InputReady.setConnected (h : InputReady config stream) (connected : Bool) :
    InputReady config (stream.setConnected connected) := by
  obtain ⟨q, hholds, hsize⟩ := h
  cases connected with
  | true => exact ⟨_, hholds.clear, hsize⟩
  | false => exact ⟨q, hholds, hsize⟩

theorem InputReady.flush (h : InputReady config stream) (room : ℕ) (answers : ℕ → UInt16) :
    InputReady config (stream.flush room answers).2.2 := by
  obtain ⟨q, hholds, hsize⟩ := h
  exact ⟨q, (flush_keeps stream room answers).incoming_eq ▸ hholds, hsize⟩

theorem InputReady.write (h : InputReady config stream) (data : Bytes) :
    InputReady config (stream.write data).2 := h

theorem InputReady.readBytes (h : InputReady config stream) (length : ℕ) :
    InputReady config (stream.readBytes length).2 := by
  obtain ⟨q, hholds, hsize⟩ := h
  exact ⟨_, (ringBufferCall_read length hholds).2, hsize⟩

theorem InputReady.onReceived (h : InputReady config stream) (data : Bytes) :
    InputReady config (stream.onReceived data).2 := by
  obtain ⟨q, hholds, hsize⟩ := h
  unfold TcpStream.onReceived
  split_ifs
  · exact ⟨q, hholds, hsize⟩
  · exact ⟨_, (hholds.write data).2, hsize⟩

theorem InputReady.onReceived_all (h : InputReady config stream) (payloads : List Bytes) :
    InputReady config (payloads.foldl (fun s payload => (s.onReceived payload).2) stream) := by
  induction payloads generalizing stream with
  | nil => exact h
  | cons payload payloads ih => exact ih (h.onReceived payload)

theorem tcpStreamInit_ready {rx tx : Option Bytes} (hinit : tcpStreamInit rx tx = some stream)
    (hrx : config.rxBuffer = rx) : InputReady config stream := by
  unfold tcpStreamInit at hinit
  simp only [Option.bind_eq_bind, Option.bind_eq_some_iff] at hinit
  obtain ⟨i, hi, o, ho, hstream⟩ := hinit
  obtain rfl := Option.some.inj hstream
  have hholds := ringBufferInit_holds hi
  have htwo := (ringBufferInit_buffered hi).two_le
  refine ⟨_, hholds, ?_⟩
  rw [TcpClientConfig.rxSize, hrx, ringBufferInit_size hi]
  change i.size - 1 + 1 = i.size
  omega

/-- Room for a segment is room for all of it, whatever the buffer holds. -/
theorem InputReady.canAccept_iff (h : InputReady config stream) (length : ℕ) :
    stream.canAccept length = true ↔ stream.incoming.content.length + length < config.rxSize := by
  obtain ⟨q, hholds, hsize⟩ := h
  have hfits := q.fits
  unfold TcpStream.canAccept
  rw [decide_eq_true_eq, hholds.free_eq.1, hholds.content_eq, Fifo.free]
  omega

end input

/-- The buffer of a client's stream, if it has one, is as configured. -/
def TcpWorld.Ready (w : TcpWorld) : Prop :=
  ∀ stream, w.client.stream = some stream → InputReady w.client.config stream

section ready

variable {w : TcpWorld}

theorem ready_of_eq {w' : TcpWorld} (h : w.Ready) (hstream : w'.client.stream = w.client.stream)
    (hconfig : w'.client.config = w.client.config) : w'.Ready := by
  intro stream hs
  rw [hconfig]
  exact h stream (hstream ▸ hs)

theorem ready_of_map {w' : TcpWorld} (h : w.Ready) {f : TcpStream → TcpStream}
    (hf : ∀ s, InputReady w.client.config s → InputReady w.client.config (f s))
    (hstream : w'.client.stream = w.client.stream.map f)
    (hconfig : w'.client.config = w.client.config) : w'.Ready := by
  intro stream hs
  rw [hstream, Option.map_eq_some_iff] at hs
  obtain ⟨before, hbefore, rfl⟩ := hs
  rw [hconfig]
  exact hf before (h before hbefore)

theorem Ready.setConnected (h : w.Ready) (connected : Bool) : (w.setConnected connected).Ready :=
  ready_of_map h (fun _ hs => hs.setConnected connected) rfl rfl

theorem Ready.handleFailure (h : w.Ready) (now : UInt32) : (w.handleFailure now).Ready := by
  have hdown := Ready.setConnected h false
  unfold TcpWorld.handleFailure
  dsimp only
  split_ifs
  · exact ready_of_eq hdown rfl rfl
  · exact ready_of_eq hdown rfl rfl
  · exact ready_of_eq hdown rfl rfl

theorem Ready.releasePcb (h : w.Ready) (graceful closeOk : Bool) :
    (w.releasePcb graceful closeOk).2.Ready := by
  unfold TcpWorld.releasePcb
  cases w.client.pcb with
  | none => exact h
  | some pcb => exact ready_of_eq h rfl rfl

theorem Ready.startConnect (h : w.Ready) (a : LwipAnswers) : (w.startConnect a).2.Ready := by
  unfold TcpWorld.startConnect
  dsimp only
  split_ifs
  · exact h
  · exact ready_of_eq h rfl rfl
  · apply Ready.releasePcb
    exact ready_of_eq h rfl rfl

theorem Ready.onDns (h : w.Ready) (ip : Option UInt32) (a : LwipAnswers) : (w.onDns ip a).Ready := by
  cases ip with
  | none => exact Ready.handleFailure h a.later
  | some ip =>
    have hstarted : ((w.setClient fun c => { c with hostIpv4 := ip }).startConnect a).2.Ready := by
      apply Ready.startConnect
      exact ready_of_eq h rfl rfl
    unfold TcpWorld.onDns
    dsimp only
    split_ifs
    · exact Ready.handleFailure hstarted a.later
    · exact hstarted

theorem beginAttempt_found {a : LwipAnswers} {ip : UInt32} (hdns : a.dns = .found ip) :
    w.beginAttempt a = w.attempted.onDns (some ip) a := by
  unfold TcpWorld.beginAttempt
  rw [hdns]
  rfl

theorem Ready.beginAttempt (h : w.Ready) (a : LwipAnswers) : (w.beginAttempt a).Ready := by
  have hattempted : w.attempted.Ready := ready_of_eq h rfl rfl
  cases hdns : a.dns with
  | found ip =>
    rw [beginAttempt_found hdns]
    exact Ready.onDns hattempted (some ip) a
  | inProgress =>
    unfold TcpWorld.beginAttempt
    rw [hdns]
    exact ready_of_eq h rfl rfl
  | failed =>
    unfold TcpWorld.beginAttempt
    rw [hdns]
    exact Ready.handleFailure hattempted a.later

theorem Ready.pumpOutput (h : w.Ready) (link : TcpWorld.Link) : (w.pumpOutput link).Ready := by
  unfold TcpWorld.pumpOutput
  split_ifs
  · exact h
  · cases hstream : w.client.stream with
    | none => exact h
    | some stream =>
      dsimp only
      split_ifs
      · exact h
      · exact ready_of_map h (fun _ hs => hs.flush link.room.toNat link.answers)
          (by rw [hstream]; rfl) rfl

theorem Ready.onRecv (h : w.Ready) (p : Pbuf) : (w.onRecv p).2.Ready := by
  unfold TcpWorld.onRecv
  cases hstream : w.client.stream with
  | none => exact h
  | some stream =>
    dsimp only
    split_ifs
    · exact h
    · exact ready_of_map h (fun _ hs => hs.onReceived_all p.payloads) (by rw [hstream]; rfl) rfl

theorem Ready.open (h : w.Ready) (config : TcpClientConfig) (a : LwipAnswers) :
    (w.tcpClientOpen config a).2.Ready := by
  unfold TcpWorld.tcpClientOpen
  split
  · exact h
  split
  · exact h
  cases hinit : tcpStreamInit config.rxBuffer config.txBuffer with
  | none =>
    intro stream hs
    exact absurd hs nofun
  | some stream =>
    refine Ready.beginAttempt (fun s hs => ?_) a
    obtain rfl := Option.some.inj hs
    exact tcpStreamInit_ready hinit rfl

theorem Ready.close (h : w.Ready) (a : LwipAnswers) : (w.tcpClientClose a).2.Ready := by
  unfold TcpWorld.tcpClientClose
  split
  · exact h
  · exact ready_of_eq (Ready.setConnected (Ready.releasePcb h true a.closeOk) false) rfl rfl

theorem Ready.deinit (h : w.Ready) (a : LwipAnswers) : (w.tcpClientDeinit a).Ready := by
  unfold TcpWorld.tcpClientDeinit
  split
  · exact h
  · exact ready_of_eq (Ready.setConnected (Ready.releasePcb h true a.closeOk) false) rfl rfl

theorem Ready.poll (h : w.Ready) (a : LwipAnswers) (link : TcpWorld.Link) :
    (w.tcpClientPoll a link).Ready := by
  unfold TcpWorld.tcpClientPoll
  split
  · exact h
  have htimeout : (if a.now - w.client.attemptStartedMs ≥ w.client.config.connectTimeoutMs then
      (w.releasePcb false a.closeOk).2.handleFailure a.later else w).Ready := by
    split
    · exact Ready.handleFailure (Ready.releasePcb h _ _) a.later
    · exact h
  cases w.client.state with
  | resolving => exact htimeout
  | connecting => exact htimeout
  | waiting =>
    dsimp only
    split
    · exact Ready.beginAttempt h a
    · exact h
  | connected => exact Ready.pumpOutput h link
  | idle => exact h
  | gaveUp => exact h

theorem Ready.write (h : w.Ready) (data : Bytes) (link : TcpWorld.Link) :
    (w.tcpClientWrite data link).Ready := by
  unfold TcpWorld.tcpClientWrite
  cases w.client.initialised with
  | false => exact h
  | true =>
    cases hstream : w.client.stream with
    | none => exact h
    | some stream =>
      have hwritten : (w.setClient fun c => { c with stream := some (stream.write data).2 }).Ready :=
        ready_of_map h (fun _ hs => hs.write data) (by rw [hstream]; rfl) rfl
      dsimp only
      split
      · exact Ready.pumpOutput hwritten link
      · exact hwritten

theorem Ready.readBytes (h : w.Ready) (length : ℕ) : (w.tcpClientReadBytes length).Ready := by
  unfold TcpWorld.tcpClientReadBytes
  cases w.client.initialised with
  | false => exact h
  | true =>
    cases hstream : w.client.stream with
    | none => exact h
    | some stream =>
      exact ready_of_map h (fun _ hs => hs.readBytes length) (by rw [hstream]; rfl) rfl

theorem Ready.onConnected (h : w.Ready) (pcb : ℕ) (err : Bool) (a : LwipAnswers)
    (link : TcpWorld.Link) : (w.onConnected pcb err a link).Ready := by
  unfold TcpWorld.onConnected
  split
  · apply Ready.handleFailure
    exact ready_of_eq h rfl rfl
  · have hup : (({ w with reported := some pcb }.setClient fun c =>
        { c with
          retry := c.retry.reset, state := .connected
          sessions := c.sessions + 1 }).setConnected true).Ready := by
      apply Ready.setConnected
      exact ready_of_eq h rfl rfl
    dsimp only
    split
    · exact ready_of_eq hup rfl rfl
    · exact Ready.pumpOutput hup link

theorem Ready.onRecvClosed (h : w.Ready) (a : LwipAnswers) : (w.onRecvClosed a).Ready := by
  have hreleased : ((w.releasePcb true a.closeOk).2.setState .idle).Ready :=
    ready_of_eq (Ready.releasePcb h true a.closeOk) rfl rfl
  unfold TcpWorld.onRecvClosed
  dsimp only
  split
  · exact ready_of_eq hreleased rfl rfl
  · exact Ready.handleFailure hreleased a.later

theorem Ready.onError (h : w.Ready) (pcb : ℕ) (a : LwipAnswers) : (w.onError pcb a).Ready := by
  unfold TcpWorld.onError
  dsimp only
  split
  · exact ready_of_eq h rfl rfl
  · apply Ready.handleFailure
    exact ready_of_eq h rfl rfl

theorem Ready.afterCallback (h : w.Ready) (a : LwipAnswers) (link : TcpWorld.Link) :
    (w.afterCallback a link).Ready := by
  unfold TcpWorld.afterCallback
  cases w.inside with
  | none => exact h
  | some callback =>
    cases callback with
    | onClosed =>
      apply Ready.handleFailure
      exact ready_of_eq h rfl rfl
    | onConnect =>
      apply Ready.pumpOutput
      exact ready_of_eq h rfl rfl

theorem Ready.perform (h : w.Ready) (move : TcpMove) : (w.perform move).Ready := by
  cases move with
  | openClient config a => exact Ready.open h config a
  | close a => exact Ready.close h a
  | deinit a => exact Ready.deinit h a
  | poll a link => exact Ready.poll h a link
  | write data link => exact Ready.write h data link
  | readBytes length => exact Ready.readBytes h length
  | dns ip a =>
    refine Ready.onDns ?_ ip a
    exact ready_of_eq h rfl rfl
  | connected pcb err a link => exact Ready.onConnected h pcb err a link
  | recv pcb p => exact Ready.onRecv h p
  | recvClosed pcb a => exact Ready.onRecvClosed h a
  | sent pcb link => exact Ready.pumpOutput h link
  | error pcb a => exact Ready.onError h pcb a
  | afterCallback a link => exact Ready.afterCallback h a link

theorem Ready.step (h : w.Ready) (move : TcpMove) : (w.step move).Ready := by
  unfold TcpWorld.step
  split
  · exact Ready.perform h move
  · exact h

theorem Ready.moves (moves : List TcpMove) : (moves.foldl TcpWorld.step tcpClientInit).Ready := by
  have hstep : ∀ (w : TcpWorld) (move : TcpMove), w.Ready → (w.step move).Ready :=
    fun _ move h => Ready.step h move
  refine foldl_invariant hstep moves ?_
  intro stream hs
  exact absurd hs (Option.some_ne_none stream).symm

end ready

/-- A segment is taken by a drained client if and only if it is smaller than the buffer; one
that is not is declined whatever the buffer holds. -/
theorem onRecv_drained (moves : List TcpMove) {w : TcpWorld} {stream : TcpStream}
    (hw : moves.foldl TcpWorld.step tcpClientInit = w) (hstream : w.client.stream = some stream)
    (p : Pbuf) :
    (stream.incoming.content = [] →
      ((w.onRecv p).1 = .ok ↔ p.totLen < w.client.config.rxSize)) ∧
    (w.client.config.rxSize ≤ p.totLen → w.onRecv p = (.mem, w)) := by
  have hready : InputReady w.client.config stream := by
    rw [← hw] at hstream ⊢
    exact Ready.moves moves stream hstream
  have haccept := hready.canAccept_iff p.totLen
  unfold TcpWorld.onRecv
  rw [hstream]
  dsimp only
  constructor
  · intro hdrained
    rw [hdrained, List.length_nil, Nat.zero_add] at haccept
    rw [← haccept]
    cases stream.canAccept p.totLen with
    | false => simp
    | true => simp
  · intro hlarge
    have hrefused : stream.canAccept p.totLen = false := by
      rw [Bool.eq_false_iff]
      intro htrue
      have := haccept.mp htrue
      omega
    rw [hrefused]
    rfl

/-- A client connected at once to a host known by its address. -/
def dialed (rx tx : Bytes) : List TcpMove :=
  let config : TcpClientConfig :=
    ⟨some (cstr "h"), 7, some rx, some tx, 0, false, false, true, ⟨0, 0, 0⟩⟩
  let a : LwipAnswers := ⟨0, 0, .found 1, true, true, true⟩
  [.openClient config a, .connected 0 false a ⟨0, fun _ => 0⟩]

/-- A segment of two bytes that come in two parts. -/
def twoBytes (first second : UInt8) : Pbuf := ⟨[[first], [second]], by simp, by simp⟩

/-- A buffer that a segment has filled declines the next, and takes it when it has been read. -/
theorem onRecv_drained_refilled :
    let filled := dialed [0, 0, 0] [0, 0] ++ [.recv 0 (twoBytes 1 2)]
    ((filled.foldl TcpWorld.step tcpClientInit).onRecv (twoBytes 3 4)).1 = .mem ∧
      (((filled ++ [.readBytes 2]).foldl TcpWorld.step tcpClientInit).onRecv (twoBytes 3 4)).1 = .ok := by
  intro filled
  refine ⟨by decide +kernel, ?_⟩
  have hdrained : ((filled ++ [TcpMove.readBytes 2]).foldl TcpWorld.step tcpClientInit).client.stream.map
      (fun stream => stream.incoming.content) = some [] := by decide +kernel
  have hroom : (twoBytes 3 4).totLen <
      ((filled ++ [TcpMove.readBytes 2]).foldl TcpWorld.step tcpClientInit).client.config.rxSize := by
    decide +kernel
  generalize hw : (filled ++ [TcpMove.readBytes 2]).foldl TcpWorld.step tcpClientInit = w
    at hdrained hroom ⊢
  obtain ⟨stream, hstream, hempty⟩ := Option.map_eq_some_iff.mp hdrained
  exact ((onRecv_drained _ hw hstream (twoBytes 3 4)).1 hempty).mpr hroom

/-- With a receive buffer of two bytes a segment of two is never taken. -/
theorem onRecv_drained_refused :
    ¬ ∀ (moves : List TcpMove) (w : TcpWorld) (stream : TcpStream) (p : Pbuf),
      moves.foldl TcpWorld.step tcpClientInit = w → w.client.stream = some stream →
      stream.incoming.content = [] → (w.onRecv p).1 = .ok := by
  intro hclaim
  have haccepted := hclaim (dialed [0, 0] [0, 0]) _ _ ⟨[[1], [2]], by decide, by decide⟩ rfl rfl
    (by decide)
  exact absurd haccepted (by decide)

end Pico
