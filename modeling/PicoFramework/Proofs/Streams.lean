import PicoFramework.Lib.Outbox
import PicoFramework.Proofs.RingFifo
import PicoFramework.Spec.Bluetooth
import PicoFramework.Spec.TcpStream

/-! What the two streams do with their output. Whatever the link answers, the ledger of what they
took and sent stays balanced for as long as no connect finds output of the session before: the
streams clear their output when the link goes, not when it comes. -/

namespace Pico

open Lib.Interleave Lib.Queue Lib.Outbox Lib.Run

/-- The ledger agrees with a stream's outgoing buffer and its counter of bytes dropped. -/
structure StreamBalanced (outgoing : RingBuffer) (connected : Bool) (dropped : UInt32)
    (l : Ledger UInt8) : Prop where
  up_eq : l.up = connected
  queue : ∃ q, HoldsQueue outgoing q ∧ Balanced l q.content dropped

section output

variable {outgoing : RingBuffer} {connected : Bool} {dropped : UInt32} {l : Ledger UInt8}

theorem StreamBalanced.write (h : StreamBalanced outgoing connected dropped l) (data : Bytes) :
    StreamBalanced (streamWrite connected outgoing dropped data).2.1 connected
      (streamWrite connected outgoing dropped data).2.2
      (l.record (.wrote data (streamWrite connected outgoing dropped data).1)) := by
  obtain ⟨hup, q, hholds, hbalanced⟩ := h
  unfold streamWrite
  cases connected with
  | false =>
    have hwrote := hbalanced.wrote data (Nat.zero_le _) (fun _ => rfl)
    rw [List.take_zero, List.append_nil] at hwrote
    exact ⟨hup, q, hholds, hwrote⟩
  | true =>
    obtain ⟨hn, hnext⟩ := hholds.write data
    rcases hrun : (ringBufferWrite data).run outgoing with ⟨written, outgoing'⟩
    rw [hrun] at hn hnext
    change written = _ at hn
    have hwrote := hbalanced.wrote data (hn.trans_le (Nat.min_le_left _ _))
      (fun hdown => absurd (hup.symm.trans hdown) Bool.noConfusion)
    have hcontent : (q.write data).content = q.content ++ data.take written := by
      rw [hn, Nat.min_comm, ← List.take_eq_take_min]
      rfl
    rw [← hcontent] at hwrote
    rw [Bool.not_true, if_neg Bool.false_ne_true]
    dsimp only
    split_ifs with hshort
    · exact ⟨hup, _, hnext, hwrote⟩
    · rw [Nat.sub_eq_zero_of_le (Nat.not_lt.mp hshort), show UInt32.ofNat 0 = 0 from rfl,
        UInt32.add_zero] at hwrote
      exact ⟨hup, _, hnext, hwrote⟩

theorem StreamBalanced.sent (h : StreamBalanced outgoing connected dropped l) {chunk room : ℕ}
    (hchunk : chunk ≤ room) {segment : Bytes}
    (hsegment : ((ringBufferPeekBytes chunk).run outgoing).1 = segment) (n : ℕ) :
    StreamBalanced
      ((ringBufferDiscard (if n < segment.length then n else segment.length)).run outgoing).2
      connected dropped (l.record (.sent room segment n)) := by
  obtain ⟨hup, q, hholds, hbalanced⟩ := h
  have hpeek := hholds.peekBytes chunk
  rw [hsegment] at hpeek
  have hroom : segment.length ≤ room := by
    rw [hpeek, List.length_take]
    omega
  have hmin : (if n < segment.length then n else segment.length) = min n segment.length := by
    split_ifs with hlt
    · omega
    · omega
  rw [hmin]
  exact ⟨hup, _, hholds.discard _, hbalanced.sent (hpeek ▸ List.take_prefix _ _) hroom n⟩

theorem StreamBalanced.link_up (h : StreamBalanced outgoing connected dropped l)
    (hclean : outgoing.content = []) :
    StreamBalanced outgoing true dropped (l.record (.link true)) := by
  obtain ⟨-, q, hholds, hbalanced⟩ := h
  refine ⟨rfl, q, hholds, hbalanced.link_up_iff.mpr ?_⟩
  rw [← hholds.content_eq]
  exact hclean

theorem StreamBalanced.link_up_shows (h : StreamBalanced outgoing connected dropped l)
    (hnext : Balanced (l.record (.link true)) outgoing.content dropped) : outgoing.content = [] := by
  obtain ⟨-, q, hholds, hbalanced⟩ := h
  rw [hholds.content_eq] at hnext ⊢
  exact hbalanced.link_up_iff.mp hnext

theorem StreamBalanced.link_down (h : StreamBalanced outgoing connected dropped l) :
    StreamBalanced (ringBufferClear.run outgoing).2 false dropped (l.record (.link false)) := by
  obtain ⟨hup, q, hholds, hbalanced⟩ := h
  refine ⟨?_, _, hholds.clear, ?_⟩
  · rw [Ledger.record]
    split_ifs with hwas
    · rfl
    · exact Bool.eq_false_iff.mpr hwas
  · change Balanced _ (q.content.drop q.content.length) dropped
    rw [List.drop_length]
    exact hbalanced.link_down

end output

/-- The segments of one flush, each with what was left of the room the link reported. -/
def offers : ℕ → List (Bytes × UInt16) → List (Entry UInt8)
  | _, [] => []
  | room, (segment, accepted) :: sends =>
      .sent room segment accepted.toNat ::
        offers (room - min accepted.toNat segment.length) sends

section tcp

variable {stream : TcpStream} {l : Ledger UInt8}

abbrev TcpStream.Balanced (stream : TcpStream) (l : Ledger UInt8) : Prop :=
  StreamBalanced stream.outgoing stream.connected stream.droppedOutgoing l

/-- What a flush may change. -/
structure FlushKeeps (stream stream' : TcpStream) : Prop where
  incoming_eq : stream'.incoming = stream.incoming
  connected_eq : stream'.connected = stream.connected
  dropped_eq : stream'.droppedOutgoing = stream.droppedOutgoing

theorem flushLoop_keeps (answers : ℕ → UInt16) (fuel room : ℕ) (stream : TcpStream) :
    FlushKeeps stream (TcpStream.flushLoop answers fuel room stream).2.2 := by
  induction fuel generalizing answers room stream with
  | zero => exact ⟨rfl, rfl, rfl⟩
  | succ fuel ih =>
    rw [TcpStream.flushLoop]
    dsimp only
    generalize (if room < stream.pending then room else stream.pending) = part
    generalize (if part > TCP_STREAM_SEGMENT_MAX then TCP_STREAM_SEGMENT_MAX else part) = chunk
    generalize ((ringBufferPeekBytes chunk).run stream.outgoing).1 = segment
    generalize (if (answers 0).toNat < segment.length then (answers 0).toNat
      else segment.length) = taken
    split_ifs
    · exact ⟨rfl, rfl, rfl⟩
    · exact ⟨rfl, rfl, rfl⟩
    · exact ⟨rfl, rfl, rfl⟩
    · exact ⟨rfl, rfl, rfl⟩
    · obtain ⟨hincoming, hconnected, hdropped⟩ := ih (fun i => answers (i + 1)) (room - taken) _
      exact ⟨hincoming, hconnected, hdropped⟩

theorem flush_keeps (stream : TcpStream) (room : ℕ) (answers : ℕ → UInt16) :
    FlushKeeps stream (stream.flush room answers).2.2 := by
  unfold TcpStream.flush
  split_ifs
  · exact ⟨rfl, rfl, rfl⟩
  · exact flushLoop_keeps answers room room stream

theorem flushLoop_balanced (answers : ℕ → UInt16) (fuel room : ℕ) (h : stream.Balanced l) :
    (TcpStream.flushLoop answers fuel room stream).2.2.Balanced
      ((offers room (TcpStream.flushLoop answers fuel room stream).2.1).foldl Ledger.record l) := by
  induction fuel generalizing answers room stream l with
  | zero => exact h
  | succ fuel ih =>
    rw [TcpStream.flushLoop]
    dsimp only
    generalize hmin : (if room < stream.pending then room else stream.pending) = part
    generalize hchunk : (if part > TCP_STREAM_SEGMENT_MAX then TCP_STREAM_SEGMENT_MAX else part) =
      chunk
    have hle : chunk ≤ room := by
      have hpart : part ≤ room := by
        rw [← hmin]
        split_ifs with hlt
        · exact le_rfl
        · exact Nat.not_lt.mp hlt
      rw [← hchunk]
      split_ifs with hbig
      · omega
      · exact hpart
    generalize hsegment : ((ringBufferPeekBytes chunk).run stream.outgoing).1 = segment
    have hsent := h.sent hle hsegment (answers 0).toNat
    have htaken : (if (answers 0).toNat < segment.length then (answers 0).toNat
        else segment.length) = min (answers 0).toNat segment.length := by
      split_ifs with hlt
      · omega
      · omega
    rw [htaken] at hsent ⊢
    split_ifs with hroom hpending hstaged hless
    · exact h
    · exact h
    · exact h
    · exact hsent
    · exact ih (fun i => answers (i + 1)) (room - min (answers 0).toNat segment.length)
        (show TcpStream.Balanced { stream with
          outgoing := ((ringBufferDiscard (min (answers 0).toNat segment.length)).run
            stream.outgoing).2
          bytesSent := stream.bytesSent +
            UInt32.ofNat (min (answers 0).toNat segment.length) } _ from hsent)

/-- The loop of a flush ends of itself: more turns than the room has bytes change nothing. -/
theorem flushLoop_fuel (answers : ℕ → UInt16) {fuel fuel' room : ℕ} (hfuel : room ≤ fuel)
    (hfuel' : room ≤ fuel') (stream : TcpStream) :
    TcpStream.flushLoop answers fuel room stream = TcpStream.flushLoop answers fuel' room stream := by
  induction fuel generalizing answers fuel' room stream with
  | zero =>
    obtain rfl := Nat.le_zero.mp hfuel
    cases fuel' with
    | zero => rfl
    | succ fuel' => rw [TcpStream.flushLoop, TcpStream.flushLoop, if_pos rfl]
  | succ fuel ih =>
    cases fuel' with
    | zero =>
      obtain rfl := Nat.le_zero.mp hfuel'
      rw [TcpStream.flushLoop, TcpStream.flushLoop, if_pos rfl]
    | succ fuel' =>
      rw [TcpStream.flushLoop, TcpStream.flushLoop]
      dsimp only
      generalize hmin : (if room < stream.pending then room else stream.pending) = part
      generalize hchunk : (if part > TCP_STREAM_SEGMENT_MAX then TCP_STREAM_SEGMENT_MAX else part) =
        chunk
      generalize ((ringBufferPeekBytes chunk).run stream.outgoing).1 = segment
      generalize (if (answers 0).toNat < segment.length then (answers 0).toNat
        else segment.length) = taken
      split_ifs with hroom hpending hstaged hless
      · rfl
      · rfl
      · rfl
      · rfl
      · rw [ih _ (by omega) (show room - taken ≤ fuel' by omega)]

inductive TcpStreamCall where
  | write (data : Bytes)
  | flush (room : ℕ) (answers : ℕ → UInt16)
  | setConnected (connected : Bool)
  | onReceived (data : Bytes)
  | read
  | readBytes (length : ℕ)

/-- A call, with what it adds to the ledger. -/
def TcpStream.call (stream : TcpStream) : TcpStreamCall → List (Entry UInt8) × TcpStream
  | .write data => ([.wrote data (stream.write data).1], (stream.write data).2)
  | .flush room answers =>
      (offers room (stream.flush room answers).2.1, (stream.flush room answers).2.2)
  | .setConnected connected => ([.link connected], stream.setConnected connected)
  | .onReceived data => ([], (stream.onReceived data).2)
  | .read => ([], stream.read.2)
  | .readBytes length => ([], (stream.readBytes length).2)

/-- Output of the session before is not there any more when a connect starts the next. -/
def TcpStream.Clean (stream : TcpStream) : TcpStreamCall → Prop
  | .setConnected true => stream.outgoing.content = []
  | _ => True

/-- The ledger is balanced, and the incoming buffer is a queue. -/
structure TcpStream.Accounts (stream : TcpStream) (l : Ledger UInt8) : Prop where
  output : stream.Balanced l
  input : ∃ q, HoldsQueue stream.incoming q

theorem TcpStream.onReceived_whole (h : ∃ q, HoldsQueue stream.incoming q) (data : Bytes) :
    stream.onReceived data = (0, stream) ∨
      (stream.onReceived data).1 = data.length ∧
        (stream.onReceived data).2.incoming.content = stream.incoming.content ++ data := by
  obtain ⟨q, hholds⟩ := h
  unfold TcpStream.onReceived TcpStream.canAccept
  cases hroom : decide ((ringBufferFree.run stream.incoming).1 ≥ data.length) with
  | false => exact .inl rfl
  | true =>
    obtain ⟨hn, hnext⟩ := hholds.write data
    have hfits : data.length ≤ q.free := by
      rw [← hholds.free_eq.1]
      exact of_decide_eq_true hroom
    rw [Nat.min_eq_left hfits] at hn
    refine .inr ⟨hn, ?_⟩
    change ((ringBufferWrite data).run stream.incoming).2.content = _
    rw [hnext.content_eq, hholds.content_eq]
    change q.content ++ data.take q.free = _
    rw [List.take_of_length_le hfits]

theorem TcpStream.call_accounts (call : TcpStreamCall) (h : stream.Accounts l)
    (hclean : stream.Clean call) :
    (stream.call call).2.Accounts ((stream.call call).1.foldl Ledger.record l) := by
  obtain ⟨houtput, q, hinput⟩ := h
  cases call with
  | write data => exact ⟨houtput.write data, q, hinput⟩
  | flush room answers =>
    change TcpStream.Accounts (stream.flush room answers).2.2
      ((offers room (stream.flush room answers).2.1).foldl Ledger.record l)
    unfold TcpStream.flush
    split_ifs
    · exact ⟨houtput, q, hinput⟩
    · exact ⟨flushLoop_balanced answers room room houtput, q,
        (flushLoop_keeps answers room room stream).incoming_eq ▸ hinput⟩
  | setConnected connected =>
    cases connected with
    | true => exact ⟨houtput.link_up hclean, _, hinput.clear⟩
    | false => exact ⟨houtput.link_down, q, hinput⟩
  | onReceived data =>
    change TcpStream.Accounts (stream.onReceived data).2 l
    unfold TcpStream.onReceived
    split_ifs
    · exact ⟨houtput, q, hinput⟩
    · exact ⟨houtput, _, (hinput.write data).2⟩
  | read => exact ⟨houtput, _, (ringBufferCall_pop hinput).2⟩
  | readBytes length => exact ⟨houtput, _, (ringBufferCall_read length hinput).2⟩

theorem TcpStream.call_shows (call : TcpStreamCall) (h : stream.Accounts l)
    (hnext : Lib.Outbox.Balanced ((stream.call call).1.foldl Ledger.record l)
      (stream.call call).2.outgoing.content (stream.call call).2.droppedOutgoing) :
    stream.Clean call := by
  cases call with
  | setConnected connected =>
    cases connected with
    | true => exact h.output.link_up_shows hnext
    | false => trivial
  | _ => trivial

end tcp

section bluetooth

variable {stream : BtStream} {l : Ledger UInt8}

inductive BtStreamCall where
  | write (data : Bytes)
  | onCanSend (mtu accepted : UInt16)
  | setConnected (connected : Bool)
  | onReceived (data : Bytes)
  | read

def BtStream.call (stream : BtStream) : BtStreamCall → List (Entry UInt8) × BtStream
  | .write data => ([.wrote data (stream.write data).1], (stream.write data).2)
  | .onCanSend mtu accepted =>
      ((stream.onCanSend mtu accepted).2.1.toList.map (.sent mtu.toNat · accepted.toNat),
        (stream.onCanSend mtu accepted).2.2)
  | .setConnected connected => ([.link connected], stream.setConnected connected)
  | .onReceived data => ([], (stream.onReceived data).2)
  | .read => ([], stream.read.2)

def BtStream.Clean (stream : BtStream) : BtStreamCall → Prop
  | .setConnected true => stream.outgoing.content = []
  | _ => True

abbrev BtStream.Balanced (stream : BtStream) (l : Ledger UInt8) : Prop :=
  StreamBalanced stream.outgoing stream.connected stream.droppedOutgoing l

theorem BtStream.onCanSend_balanced (h : stream.Balanced l) (mtu accepted : UInt16) :
    (stream.onCanSend mtu accepted).2.2.Balanced
      (((stream.onCanSend mtu accepted).2.1.toList.map
        (.sent mtu.toNat · accepted.toNat)).foldl Ledger.record l) := by
  unfold BtStream.onCanSend
  dsimp only
  generalize hmtu : (if mtu.toNat < BT_PACKET_SIZE then mtu.toNat else BT_PACKET_SIZE) = part
  generalize hroom : (if part > (ringBufferCount.run stream.outgoing).1 then
    (ringBufferCount.run stream.outgoing).1 else part) = room
  have hle : room ≤ mtu.toNat := by
    have hpart : part ≤ mtu.toNat := by
      rw [← hmtu]
      split_ifs with hlt
      · exact le_rfl
      · exact Nat.not_lt.mp hlt
    rw [← hroom]
    split_ifs with hmore
    · omega
    · exact hpart
  generalize hpacket : ((ringBufferPeekBytes room).run stream.outgoing).1 = packet
  have hsent := h.sent hle hpacket accepted.toNat
  generalize (if accepted.toNat < packet.length then accepted.toNat else packet.length) = taken
    at hsent ⊢
  split_ifs
  · exact h
  · exact h
  · exact h
  · exact hsent

theorem BtStream.call_balanced (call : BtStreamCall) (h : stream.Balanced l)
    (hclean : stream.Clean call) :
    (stream.call call).2.Balanced ((stream.call call).1.foldl Ledger.record l) := by
  cases call with
  | write data => exact StreamBalanced.write h data
  | onCanSend mtu accepted => exact BtStream.onCanSend_balanced h mtu accepted
  | setConnected connected =>
    cases connected with
    | true => exact StreamBalanced.link_up h hclean
    | false => exact StreamBalanced.link_down h
  | onReceived data =>
    change BtStream.Balanced (stream.onReceived data).2 l
    unfold BtStream.onReceived
    dsimp only
    split_ifs
    · exact h
    · exact h
  | read => exact h

theorem BtStream.call_shows (call : BtStreamCall) (h : stream.Balanced l)
    (hnext : Lib.Outbox.Balanced ((stream.call call).1.foldl Ledger.record l)
      (stream.call call).2.outgoing.content (stream.call call).2.droppedOutgoing) :
    stream.Clean call := by
  cases call with
  | setConnected connected =>
    cases connected with
    | true => exact StreamBalanced.link_up_shows h hnext
    | false => trivial
  | _ => trivial

end bluetooth

theorem StreamBalanced.init {storage : Option Bytes} {outgoing : RingBuffer}
    (hinit : ringBufferInit storage = some outgoing) : StreamBalanced outgoing false 0 {} :=
  ⟨rfl, _, ringBufferInit_holds hinit, .empty⟩

theorem StreamBalanced.balanced {outgoing : RingBuffer} {connected : Bool} {dropped : UInt32}
    {l : Ledger UInt8} (h : StreamBalanced outgoing connected dropped l) :
    Balanced l outgoing.content dropped := by
  obtain ⟨-, q, hholds, hbalanced⟩ := h
  rw [hholds.content_eq]
  exact hbalanced

theorem tcpStreamInit_accounts {incoming outgoing : Option Bytes} {stream : TcpStream}
    (hinit : tcpStreamInit incoming outgoing = some stream) : stream.Accounts {} := by
  unfold tcpStreamInit at hinit
  simp only [Option.bind_eq_bind, Option.bind_eq_some_iff] at hinit
  obtain ⟨i, hi, o, ho, hstream⟩ := hinit
  obtain rfl := Option.some.inj hstream
  exact ⟨.init ho, _, ringBufferInit_holds hi⟩

theorem btStreamInit_balanced {incoming outgoing : Option Bytes} {stream : BtStream}
    (hinit : btStreamInit incoming outgoing = some stream) : stream.Balanced {} := by
  unfold btStreamInit at hinit
  simp only [Option.bind_eq_bind, Option.bind_eq_some_iff] at hinit
  obtain ⟨i, hi, o, ho, hstream⟩ := hinit
  obtain rfl := Option.some.inj hstream
  exact .init ho

/-- The ledger of a run is balanced, and a segment is taken whole or not at all. -/
structure TcpStream.Sound (stream : TcpStream) (l : Ledger UInt8) : Prop where
  balanced : Lib.Outbox.Balanced l stream.outgoing.content stream.droppedOutgoing
  whole : ∀ data, stream.onReceived data = (0, stream) ∨
    (stream.onReceived data).1 = data.length ∧
      (stream.onReceived data).2.incoming.content = stream.incoming.content ++ data

/-- In a run from a stream just initialised everything is accounted for all the way exactly when
no connect in it finds output of the session before. -/
theorem streams_balanced_iff (incoming outgoing : Option Bytes) :
    (∀ stream, tcpStreamInit incoming outgoing = some stream →
      ∀ calls, (∀ part, part <+: calls →
          (run TcpStream.call stream part).2.Sound
            (.ofEntries (run TcpStream.call stream part).1)) ↔
        Meets (fun stream call => (stream.call call).2) TcpStream.Clean stream calls) ∧
    (∀ stream, btStreamInit incoming outgoing = some stream →
      ∀ calls, (∀ part, part <+: calls →
          Balanced (.ofEntries (run BtStream.call stream part).1)
            (run BtStream.call stream part).2.outgoing.content
            (run BtStream.call stream part).2.droppedOutgoing) ↔
        Meets (fun stream call => (stream.call call).2) BtStream.Clean stream calls) := by
  constructor
  · intro stream hinit calls
    apply Meets.iff_run_shown (fun stream l (h : TcpStream.Accounts stream l) =>
      (⟨h.output.balanced, TcpStream.onReceived_whole h.input⟩ : TcpStream.Sound stream l))
    · intro stream l call h
      constructor
      · exact TcpStream.call_accounts call h
      · intro hnext
        exact TcpStream.call_shows call h hnext.balanced
    · exact tcpStreamInit_accounts hinit
  · intro stream hinit calls
    have hshown : ∀ (stream : BtStream) (l : Ledger UInt8), stream.Balanced l →
        Balanced l stream.outgoing.content stream.droppedOutgoing := fun _ _ h => h.balanced
    apply Meets.iff_run_shown hshown
    · intro stream l call h
      constructor
      · exact BtStream.call_balanced call h
      · exact BtStream.call_shows call h
    · exact btStreamInit_balanced hinit

/-- A link that takes one byte of two, goes, and comes back; and a packet of which it takes less
than its MTU. -/
theorem streams_balanced_iff_small :
    (∀ part, part <+: [.setConnected true, .write [1, 2, 3, 4], .flush 2 fun _ => 1,
        .setConnected false, .write [5], .setConnected true, .write [6], .flush 9 fun _ => 9] →
      (run TcpStream.call ⟨⟨[0, 0], 0, 0⟩, ⟨[0, 0, 0, 0], 0, 0⟩, false, 0, 0, 0⟩ part).2.Sound
        (.ofEntries
          (run TcpStream.call ⟨⟨[0, 0], 0, 0⟩, ⟨[0, 0, 0, 0], 0, 0⟩, false, 0, 0, 0⟩ part).1)) ∧
    ∀ part, part <+: [.setConnected true, .write [1, 2, 3, 4], .onCanSend 3 2,
        .setConnected false, .setConnected true, .write [5, 6], .onCanSend 9 2] →
      Balanced (.ofEntries
          (run BtStream.call ⟨⟨[0, 0], 0, 0⟩, ⟨[0, 0, 0, 0], 0, 0⟩, 0, false, false, 0, 0⟩ part).1)
        (run BtStream.call ⟨⟨[0, 0], 0, 0⟩, ⟨[0, 0, 0, 0], 0, 0⟩, 0, false, false, 0, 0⟩
          part).2.outgoing.content
        (run BtStream.call ⟨⟨[0, 0], 0, 0⟩, ⟨[0, 0, 0, 0], 0, 0⟩, 0, false, false, 0, 0⟩
          part).2.droppedOutgoing := by
  constructor
  · apply ((streams_balanced_iff (some [0, 0]) (some [0, 0, 0, 0])).1 _ rfl _).mpr
    exact ⟨rfl, trivial, trivial, trivial, trivial, rfl, trivial, trivial, trivial⟩
  · apply ((streams_balanced_iff (some [0, 0]) (some [0, 0, 0, 0])).2 _ rfl _).mpr
    exact ⟨rfl, trivial, trivial, trivial, rfl, trivial, trivial, trivial⟩

/-- Connected, one byte taken from the writer, and connected again before it was sent: the new
session sends a byte that nobody wrote in it. -/
theorem streams_send_in_next_session :
    (∃ stream, tcpStreamInit (some [0, 0]) (some [0, 0]) = some stream ∧
      ∃ entries stream', run TcpStream.call stream
          [.setConnected true, .write [1], .setConnected true, .flush 9 fun _ => 9] =
            (entries, stream') ∧
        (Ledger.ofEntries entries).current = ⟨[], [1]⟩ ∧
        ¬ Balanced (.ofEntries entries) stream'.outgoing.content stream'.droppedOutgoing) ∧
    ∃ stream, btStreamInit (some [0, 0]) (some [0, 0]) = some stream ∧
      ∃ entries stream', run BtStream.call stream
          [.setConnected true, .write [1], .setConnected true, .onCanSend 9 9] =
            (entries, stream') ∧
        (Ledger.ofEntries entries).current = ⟨[], [1]⟩ ∧
        ¬ Balanced (.ofEntries entries) stream'.outgoing.content stream'.droppedOutgoing := by
  have hunbalanced : ∀ {l : Ledger UInt8} {pending : Bytes} {dropped : UInt32},
      l.current = ⟨[], [1]⟩ → ¬ Balanced l pending dropped := by
    intro l pending dropped hcurrent hbalanced
    have heq := hbalanced.current_eq
    rw [hcurrent] at heq
    exact absurd heq (List.cons_ne_nil _ _).symm
  constructor
  · exact ⟨_, rfl, _, _, rfl, by decide, hunbalanced (by decide)⟩
  · exact ⟨_, rfl, _, _, rfl, by decide, hunbalanced (by decide)⟩

end Pico
