import PicoFramework.Proofs.RingFifo
import PicoFramework.Spec.Bluetooth

/-! The Bluetooth console does not stall. Whatever the order of calls and events, output that waits
on an open channel has an event of BTstack to wait for; and as many of these events as there are
bytes, each with a link that takes its packet, send it all. -/

namespace Pico

open Lib.Interleave Lib.Queue Lib.Run

namespace BtConsole

/-- What is still to be sent. -/
def pending (console : BtConsole) : Bytes := console.stream.outgoing.content

inductive Move where
  | write (data : Bytes)
  | read
  | poll
  | event (e : Event)

def move (console : BtConsole) : Move → BtConsole
  | .write data => console.write data
  | .read => console.read.2
  | .poll => console.poll
  | .event e => (console.handlePacket e).2

/-- BTstack opens a channel under a number that is not zero, and tells of an opportunity only whom
it owes one, with room in a frame. -/
def Allowed (console : BtConsole) : Move → Prop
  | .event (.channelOpened status channel) => status = 0 → channel ≠ 0
  | .event (.canSendNow channel mtu _) => channel ∈ console.requests ∧ mtu ≠ 0
  | _ => True

/-- One opportunity after another, each of them owed, with a link that takes every packet. -/
def drain : BtConsole → List UInt16 → List Bytes × BtConsole
  | console, [] => ([], console)
  | console, mtu :: mtus =>
      match console.requests with
      | [] => ([], console)
      | channel :: _ =>
          let (packet, console) := console.handlePacket (.canSendNow channel mtu true)
          let (packets, console) := console.drain mtus
          (packet.toList ++ packets, console)

/-- Output on an open channel is waiting for an event. -/
structure Awake (console : BtConsole) : Prop where
  initialised : console.initialised = true
  connected : console.stream.connected = decide (console.channelId ≠ 0)
  queue : ∃ q, HoldsQueue console.stream.outgoing q
  quiet : console.channelId = 0 → console.pending = []
  asked : console.channelId ≠ 0 → console.pending ≠ [] → console.requests ≠ []

section output

variable {console : BtConsole}

theorem insert_ne_nil {α : Type} [DecidableEq α] (a : α) (l : List α) : l.insert a ≠ [] :=
  List.ne_nil_of_mem List.mem_insert_self

theorem hasOutput_iff (h : ∃ q, HoldsQueue console.stream.outgoing q) :
    console.hasOutput = true ↔ console.pending ≠ [] := by
  obtain ⟨q, hq⟩ := h
  have hcontent : console.pending = q.content := hq.content_eq
  simp only [hasOutput, hq.free_eq.2, hcontent, gt_iff_lt, decide_eq_true_eq, ne_eq,
    List.length_pos_iff]

theorem Awake.ask (hinit : console.initialised = true)
    (hconnected : console.stream.connected = decide (console.channelId ≠ 0))
    (hqueue : ∃ q, HoldsQueue console.stream.outgoing q)
    (hquiet : console.channelId = 0 → console.pending = []) :
    (if console.channelId ≠ 0 && console.hasOutput then console.requestCanSend
      else console).Awake := by
  by_cases hask : (console.channelId ≠ 0 && console.hasOutput) = true
  · rw [if_pos hask]
    exact ⟨hinit, hconnected, hqueue, hquiet, fun _ _ => insert_ne_nil _ _⟩
  · rw [if_neg hask]
    refine ⟨hinit, hconnected, hqueue, hquiet, fun hopen hpending => absurd ?_ hask⟩
    rw [Bool.and_eq_true, hasOutput_iff hqueue]
    exact ⟨decide_eq_true hopen, hpending⟩

theorem closed_awake (hinit : console.initialised = true)
    (hqueue : ∃ q, HoldsQueue console.stream.outgoing q) (requests : List UInt16) :
    Awake { console with
      requests := requests
      channelId := 0
      stream := console.stream.setConnected false } := by
  obtain ⟨q, hq⟩ := hqueue
  have hclear := hq.clear
  refine ⟨hinit, rfl, ⟨_, hclear⟩, fun _ => ?_, fun hopen => absurd rfl hopen⟩
  exact hclear.content_eq.trans List.drop_length

/-- How much a packet may hold. -/
def packetRoom (mtu : UInt16) : ℕ :=
  if mtu.toNat < BT_PACKET_SIZE then mtu.toNat else BT_PACKET_SIZE

theorem packetRoom_pos {mtu : UInt16} (h : mtu ≠ 0) : 0 < packetRoom mtu := by
  have hpos : 0 < mtu.toNat := Nat.pos_of_ne_zero fun hzero =>
    h (UInt16.toNat_inj.mp (hzero.trans rfl))
  unfold packetRoom BT_PACKET_SIZE
  split
  · exact hpos
  · decide

theorem packetRoom_le (mtu : UInt16) : packetRoom mtu ≤ BT_PACKET_SIZE := by
  unfold packetRoom
  split
  · next h => exact h.le
  · exact le_refl _

/-- An opportunity takes what the link takes of one packet from the front. -/
theorem onCanSend_spec {stream : BtStream} {q : Fifo UInt8} (hq : HoldsQueue stream.outgoing q)
    (hconnected : stream.connected = true) {mtu : UInt16} (hmtu : mtu ≠ 0)
    (hcontent : q.content ≠ []) (accepted : UInt16) :
    ∃ stream', stream.onCanSend mtu accepted =
        (decide (0 < (q.content.drop (min accepted.toNat
          (q.content.take (packetRoom mtu)).length)).length),
          some (q.content.take (packetRoom mtu)), stream') ∧
      stream'.connected = true ∧
      HoldsQueue stream'.outgoing
        (q.discard (min accepted.toNat (q.content.take (packetRoom mtu)).length)) := by
  have hlength : 0 < q.content.length := List.length_pos_iff.mpr hcontent
  have hpos := packetRoom_pos hmtu
  have hroom : (if packetRoom mtu > q.content.length then q.content.length
      else packetRoom mtu) = min (packetRoom mtu) q.content.length := by
    split_ifs with hmore
    · omega
    · omega
  have htake : q.content.take (min (packetRoom mtu) q.content.length) =
      q.content.take (packetRoom mtu) := by
    rw [← List.take_eq_take_min]
  have hstaged : (q.content.take (packetRoom mtu)).length ≠ 0 := by
    rw [List.length_take]
    omega
  have hmin : (if accepted.toNat < (q.content.take (packetRoom mtu)).length then accepted.toNat
      else (q.content.take (packetRoom mtu)).length) =
      min accepted.toNat (q.content.take (packetRoom mtu)).length := by
    split_ifs with hless
    · omega
    · omega
  have hdiscard := hq.discard (min accepted.toNat (q.content.take (packetRoom mtu)).length)
  refine ⟨{ stream with
    mtu := mtu
    maySend := false
    outgoing := ((ringBufferDiscard (min accepted.toNat
      (q.content.take (packetRoom mtu)).length)).run stream.outgoing).2 }, ?_, hconnected, hdiscard⟩
  unfold BtStream.onCanSend
  simp only [hconnected, Bool.not_true, Bool.false_eq_true, if_false, hq.free_eq.2]
  rw [if_neg (by simp [hlength.ne', hmtu])]
  rw [show (if mtu.toNat < BT_PACKET_SIZE then mtu.toNat else BT_PACKET_SIZE) = packetRoom mtu
    from rfl, hroom, hq.peekBytes, htake, if_neg hstaged, hmin]
  simp only [hdiscard.free_eq.2, Fifo.discard_content, gt_iff_lt]

end output

section events

variable {console : BtConsole}

theorem canSendNow_eq (channel : UInt16) {mtu : UInt16} {taken more : Bool} {packet : Option Bytes}
    {stream : BtStream} (h : console.stream.onCanSend mtu
      (sendOverRfcomm console.channelId (console.offered mtu) taken) = (more, packet, stream)) :
    console.canSendNow channel mtu taken =
      (if sendOverRfcomm console.channelId (console.offered mtu) taken = 0 then none else packet,
        if more then
          requestCanSend { console with
            stream := stream
            requests := console.requests.filter (· ≠ channel) }
        else { console with
          stream := stream
          requests := console.requests.filter (· ≠ channel) }) := by
  unfold canSendNow
  dsimp only
  rw [h]

theorem canSendNow_spec (h : console.Awake) {q : Fifo UInt8}
    (hq : HoldsQueue console.stream.outgoing q) (hopen : console.channelId ≠ 0)
    {mtu : UInt16} (hmtu : mtu ≠ 0) (hcontent : q.content ≠ []) (channel : UInt16) (taken : Bool) :
    ∃ console', console.canSendNow channel mtu taken =
        (if taken then some (q.content.take (packetRoom mtu)) else none, console') ∧
      console'.Awake ∧ console'.channelId = console.channelId ∧
      HoldsQueue console'.stream.outgoing
        (q.discard (if taken then (q.content.take (packetRoom mtu)).length else 0)) := by
  have hconnected : console.stream.connected = true := by
    rw [h.connected]
    exact decide_eq_true hopen
  obtain ⟨_, hzero, -, -⟩ := onCanSend_spec hq hconnected hmtu hcontent 0
  have hoffered : console.offered mtu = (q.content.take (packetRoom mtu)).length := by
    rw [offered, hzero]
    rfl
  have hsmall : (q.content.take (packetRoom mtu)).length < 2 ^ 16 := by
    have hle := packetRoom_le mtu
    rw [List.length_take]
    unfold BT_PACKET_SIZE at hle
    omega
  have hanswer : (sendOverRfcomm console.channelId (console.offered mtu) taken).toNat =
      if taken then (q.content.take (packetRoom mtu)).length else 0 := by
    rw [sendOverRfcomm, if_neg hopen, hoffered]
    cases taken with
    | true => exact UInt16.toNat_ofNat_of_lt' hsmall
    | false => rfl
  have hstaged : (q.content.take (packetRoom mtu)).length ≠ 0 := by
    have hpos := packetRoom_pos hmtu
    have hlength := List.length_pos_iff.mpr hcontent
    rw [List.length_take]
    omega
  have hpacket : (if sendOverRfcomm console.channelId (console.offered mtu) taken = 0 then none
      else some (q.content.take (packetRoom mtu))) =
      if taken then some (q.content.take (packetRoom mtu)) else none := by
    cases taken with
    | true => exact if_neg fun hzero => hstaged (hanswer.symm.trans (congrArg UInt16.toNat hzero))
    | false => exact if_pos (UInt16.toNat_inj.mp hanswer)
  obtain ⟨stream', hstream, hup, hholds⟩ := onCanSend_spec hq hconnected hmtu hcontent
    (sendOverRfcomm console.channelId (console.offered mtu) taken)
  have hmin : min (sendOverRfcomm console.channelId (console.offered mtu) taken).toNat
      (q.content.take (packetRoom mtu)).length =
      if taken then (q.content.take (packetRoom mtu)).length else 0 := by
    rw [hanswer]
    cases taken with
    | true => exact min_self _
    | false => exact Nat.zero_min _
  rw [hmin] at hstream hholds
  generalize hleft : q.discard (if taken then (q.content.take (packetRoom mtu)).length else 0) =
    left at hholds ⊢
  have hcontent' : q.content.drop (if taken then (q.content.take (packetRoom mtu)).length else 0) =
      left.content := by
    rw [← hleft]
    rfl
  rw [hcontent'] at hstream
  have hopen' : decide (console.channelId ≠ 0) = true := decide_eq_true hopen
  refine ⟨_, (canSendNow_eq channel hstream).trans (congrArg (Prod.mk · _) hpacket), ?_, ?_, ?_⟩
  · by_cases hmore : 0 < left.content.length
    · rw [if_pos (decide_eq_true hmore)]
      exact ⟨h.initialised, hup.trans hopen'.symm, ⟨_, hholds⟩, fun hclosed => absurd hclosed hopen,
        fun _ _ => insert_ne_nil _ _⟩
    · rw [if_neg (by simpa using hmore)]
      refine ⟨h.initialised, hup.trans hopen'.symm, ⟨_, hholds⟩,
        fun hclosed => absurd hclosed hopen, fun _ hpending => absurd ?_ hpending⟩
      exact hholds.content_eq.trans (List.eq_nil_of_length_eq_zero (by omega))
  · split <;> rfl
  · split <;> exact hholds

theorem canSendNow_idle (h : console.Awake) {q : Fifo UInt8}
    (hq : HoldsQueue console.stream.outgoing q)
    (hidle : ¬(console.channelId ≠ 0 ∧ q.content ≠ [])) (channel mtu : UInt16) (taken : Bool) :
    ∃ console', console.canSendNow channel mtu taken = (none, console') ∧ console'.Awake ∧
      console'.channelId = console.channelId ∧ console'.pending = [] := by
  have hpending : console.pending = [] := by
    by_cases hopen : console.channelId = 0
    · exact h.quiet hopen
    · have hempty : q.content = [] := by
        by_contra hne
        exact hidle ⟨hopen, hne⟩
      exact hq.content_eq.trans hempty
  have hcount : (ringBufferCount.run console.stream.outgoing).1 = 0 := by
    rw [hq.free_eq.2, ← hq.content_eq, show console.stream.outgoing.content = [] from hpending]
    rfl
  have hstream : ∀ accepted, ∃ stream', console.stream.onCanSend mtu accepted =
      (false, none, stream') ∧ stream'.connected = console.stream.connected ∧
        stream'.outgoing = console.stream.outgoing := by
    intro accepted
    simp only [BtStream.onCanSend, hcount, true_or, if_true]
    split
    · exact ⟨_, rfl, rfl, rfl⟩
    · exact ⟨_, rfl, rfl, rfl⟩
  obtain ⟨stream', hcall, hup, hout⟩ := hstream _
  have hpending' := (congrArg RingBuffer.content hout).trans hpending
  refine ⟨_, (canSendNow_eq channel hcall).trans (congrArg (Prod.mk · _) (ite_self none)), ?_, rfl,
    hpending'⟩
  exact ⟨h.initialised, hup.trans h.connected, ⟨q, hout ▸ hq⟩, fun _ => hpending',
    fun _ hne => absurd hpending' hne⟩

theorem event_awake (h : console.Awake) {e : Event} (hallowed : console.Allowed (.event e)) :
    (console.handlePacket e).2.Awake := by
  obtain ⟨hinit, hconnected, hqueue, hquiet, hasked⟩ := id h
  cases e with
  | channelOpened status channel =>
    by_cases hok : status = 0
    · simp only [handlePacket, channelOpened, if_neg (not_not.mpr hok)]
      refine ⟨hinit, (decide_eq_true (hallowed hok)).symm, hqueue,
        fun hclosed => absurd hclosed (hallowed hok), fun _ hpending => ?_⟩
      exact hasked (fun hclosed => hpending (hquiet hclosed)) hpending
    · simp only [handlePacket, channelOpened, if_pos hok]
      exact closed_awake hinit hqueue console.requests
  | canSendNow channel mtu taken =>
    obtain ⟨hmem, hmtu⟩ := hallowed
    obtain ⟨q, hq⟩ := hqueue
    by_cases hsend : console.channelId ≠ 0 ∧ q.content ≠ []
    · obtain ⟨console', hcall, hawake, -⟩ :=
        canSendNow_spec h hq hsend.1 hmtu hsend.2 channel taken
      change (console.canSendNow channel mtu taken).2.Awake
      rw [hcall]
      exact hawake
    · obtain ⟨console', hcall, hawake, -⟩ := canSendNow_idle h hq hsend channel mtu taken
      change (console.canSendNow channel mtu taken).2.Awake
      rw [hcall]
      exact hawake
  | channelClosed channel => exact closed_awake hinit hqueue _
  | data packet =>
    simp only [handlePacket, dataPacket, BtStream.onReceived]
    split
    · exact ⟨hinit, hconnected, hqueue, hquiet, hasked⟩
    · exact ⟨hinit, hconnected, hqueue, hquiet, hasked⟩

end events

section runs

variable {console : BtConsole}

theorem write_awake (h : console.Awake) (data : Bytes) : (console.write data).Awake := by
  obtain ⟨q, hq⟩ := h.queue
  have hconnected := h.connected
  by_cases hopen : console.channelId = 0
  · have hdown : console.stream.connected = false := by
      rw [hconnected]
      exact decide_eq_false (not_not.mpr hopen)
    have hstream : (console.stream.write data).2.connected = console.stream.connected ∧
        (console.stream.write data).2.outgoing = console.stream.outgoing := by
      unfold BtStream.write streamWrite
      rw [hdown]
      exact ⟨rfl, rfl⟩
    refine Awake.ask h.initialised (hstream.1.trans hconnected) ⟨q, hstream.2 ▸ hq⟩ fun _ => ?_
    exact (congrArg RingBuffer.content hstream.2).trans (h.quiet hopen)
  · have hup : console.stream.connected = true := by
      rw [hconnected]
      exact decide_eq_true hopen
    have hwrote : ∃ q', HoldsQueue (console.stream.write data).2.outgoing q' := by
      have hnext := (hq.write data).2
      unfold BtStream.write streamWrite
      simp only [hup, Bool.not_true, Bool.false_eq_true, if_false]
      split
      · exact ⟨_, hnext⟩
      · exact ⟨_, hnext⟩
    exact Awake.ask h.initialised hconnected hwrote fun hclosed => absurd hclosed hopen

theorem move_awake (console : BtConsole) (m : Move) (hallowed : console.Allowed m)
    (h : console.Awake) : (console.move m).Awake := by
  cases m with
  | write data => exact write_awake h data
  | read => exact ⟨h.initialised, h.connected, h.queue, h.quiet, h.asked⟩
  | poll =>
    simp only [move, poll, h.initialised, Bool.not_true, Bool.false_eq_true, if_false]
    exact Awake.ask h.initialised h.connected h.queue h.quiet
  | event e => exact event_awake h hallowed

theorem init_awake {incoming outgoing : Option Bytes}
    (hinit : btConsoleInit incoming outgoing = some console) : console.Awake := by
  simp only [btConsoleInit, btStreamInit, Option.bind_eq_bind, Option.map_eq_some_iff,
    Option.bind_eq_some_iff] at hinit
  obtain ⟨stream, ⟨i, hi, o, ho, hstream⟩, rfl⟩ := hinit
  obtain rfl := Option.some.inj hstream
  have hholds := ringBufferInit_holds ho
  exact ⟨rfl, rfl, ⟨_, hholds⟩, fun _ => hholds.content_eq, fun hopen => absurd rfl hopen⟩

theorem drain_all (h : console.Awake) (hopen : console.channelId ≠ 0) {mtus : List UInt16}
    (hmtus : ∀ mtu ∈ mtus, mtu ≠ 0) (hlength : console.pending.length ≤ mtus.length) :
    (console.drain mtus).1.flatten = console.pending ∧ (console.drain mtus).2.pending = [] := by
  induction mtus generalizing console with
  | nil =>
    have hempty : console.pending = [] := List.eq_nil_of_length_eq_zero (by simpa using hlength)
    exact ⟨hempty.symm, hempty⟩
  | cons mtu mtus ih =>
    obtain ⟨q, hq⟩ := h.queue
    have hcontent : console.pending = q.content := hq.content_eq
    have hmtu : mtu ≠ 0 := hmtus mtu List.mem_cons_self
    have hrest : ∀ mtu ∈ mtus, mtu ≠ 0 := fun other hother =>
      hmtus other (List.mem_cons_of_mem _ hother)
    cases hrequests : console.requests with
    | nil =>
      have hempty : console.pending = [] := by
        by_contra hne
        exact h.asked hopen hne hrequests
      simp only [drain, hrequests]
      exact ⟨hempty.symm, hempty⟩
    | cons channel requests =>
      by_cases hempty : q.content = []
      · obtain ⟨console', hcall, hawake, hsame, hnone⟩ :=
          canSendNow_idle h hq (fun hsend => hsend.2 hempty) channel mtu true
        obtain ⟨hsent, hdone⟩ := ih hawake (hsame ▸ hopen) hrest (by rw [hnone]; exact Nat.zero_le _)
        simp only [drain, hrequests, handlePacket, hcall]
        rw [hcontent, hempty]
        exact ⟨hsent.trans hnone, hdone⟩
      · obtain ⟨console', hcall, hawake, hsame, hholds⟩ :=
          canSendNow_spec h hq hopen hmtu hempty channel true
        have hleft : console'.pending =
            q.content.drop (q.content.take (packetRoom mtu)).length := hholds.content_eq
        have hpos := packetRoom_pos hmtu
        have hshorter : console'.pending.length ≤ mtus.length := by
          rw [hcontent] at hlength
          have hlong := List.length_pos_iff.mpr hempty
          rw [List.length_cons] at hlength
          rw [hleft, List.length_drop, List.length_take]
          omega
        obtain ⟨hsent, hdone⟩ := ih hawake (hsame ▸ hopen) hrest hshorter
        simp only [drain, hrequests, handlePacket, hcall]
        refine ⟨?_, hdone⟩
        have hwhole := List.prefix_iff_eq_append.mp
          (List.take_prefix (packetRoom mtu) q.content)
        rw [List.flatten_append, hsent, hleft, hcontent]
        simpa using hwhole

/-- Output on an open channel has an event to wait for, and the events that it waits for send it
all, in order. -/
theorem btConsole_never_stalls {incoming outgoing : Option Bytes} {start : BtConsole}
    (hinit : btConsoleInit incoming outgoing = some start) (moves : List Move)
    (hallowed : Meets move Allowed start moves) (hopen : (moves.foldl move start).channelId ≠ 0)
    {mtus : List UInt16} (hmtus : ∀ mtu ∈ mtus, mtu ≠ 0)
    (hlength : (moves.foldl move start).pending.length ≤ mtus.length) :
    ((moves.foldl move start).pending ≠ [] → (moves.foldl move start).requests ≠ []) ∧
      ((moves.foldl move start).drain mtus).1.flatten = (moves.foldl move start).pending ∧
      ((moves.foldl move start).drain mtus).2.pending = [] := by
  have hawake := hallowed.invariant move_awake (init_awake hinit)
  exact ⟨hawake.asked hopen, drain_all hawake hopen hmtus hlength⟩

/-- Three bytes, two of them to a packet. -/
theorem btConsole_never_stalls_three :
    let start : BtConsole := ⟨⟨⟨[0, 0], 0, 0⟩, ⟨[0, 0, 0, 0], 0, 0⟩, 0, false, false, 0, 0⟩, 0, [], true⟩
    let moves : List Move := [.event (.channelOpened 0 1), .write [7, 8, 9]]
    ((moves.foldl move start).drain [2, 2, 2]).1.flatten = [7, 8, 9] := by
  intro start moves
  have hallowed : Meets move Allowed start moves := ⟨fun _ => by decide, trivial, trivial⟩
  have hmtus : ∀ mtu ∈ ([2, 2, 2] : List UInt16), mtu ≠ 0 := by
    intro mtu hmem
    rw [List.eq_of_mem_replicate (show mtu ∈ List.replicate 3 2 from hmem)]
    decide
  have hdrained := (@btConsole_never_stalls (some [0, 0]) (some [0, 0, 0, 0]) start rfl moves hallowed
    (by decide) _ hmtus (by decide)).2.1
  exact hdrained.trans (by decide)

end runs

end BtConsole

end Pico
