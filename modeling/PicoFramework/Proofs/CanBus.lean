import PicoFramework.Lib.Run
import PicoFramework.Proofs.CanQueue
import PicoFramework.Proofs.Mcp2515Header
import PicoFramework.Spec.CanBus

/-! The nodes of one CAN bus. At each of them the frame queue is between the callback and the main
loop, and what its controller brings is a part of what the others said. -/

namespace Pico

open Lib.Interleave Lib.Broadcast Lib.Bits Lib.Run

section frames

variable {m : CanMessage} {x y : Can2040Msg}

theorem canIdValue_valid (packed : UInt32) :
    canIdIsValid (canIdValue packed) (canIdIsExtended packed) = true := by
  unfold canIdIsValid canIdValue
  rw [decide_eq_true_eq, UInt32.le_iff_toNat_le]
  cases canIdIsExtended packed with
  | true =>
    rw [if_pos rfl, if_pos rfl, UInt32.toNat_and]
    exact Nat.and_le_right
  | false =>
    rw [if_neg Bool.false_ne_true, if_neg Bool.false_ne_true, UInt32.toNat_and]
    exact Nat.and_le_right

theorem received_valid (x : Can2040Msg) : canMessageIsValid x.received = true :=
  canMessageIsValid_iff.mpr ⟨canDlcToLength_le _, canIdValue_valid _⟩

theorem cleared_take {bytes : Bytes} {size n : ℕ} (hsize : bytes.length = size) (hn : n ≤ size) :
    (cleared size (bytes.take n)).take n = bytes.take n := by
  have hlength : (bytes.take n).length = n := by
    rw [List.length_take, hsize, Nat.min_eq_left hn]
  rw [cleared_eq (by rw [hlength]; exact hn), List.take_left' hlength]

theorem outgoing_remote (m : CanMessage) : canIdIsRemote m.outgoing.id = m.remote := by
  have hbits : ∀ extended remote : Bool, idBits extended &&& CAN_FLAG_RTR = 0 ∧
      decide (idFlags extended remote &&& CAN_FLAG_RTR ≠ 0) = remote := by decide
  obtain ⟨hid, hflags⟩ := hbits m.extended m.remote
  change decide (canIdPack m.id m.extended m.remote &&& CAN_FLAG_RTR ≠ 0) = m.remote
  rw [canIdPack_eq, or_and, UInt32.and_assoc, hid, UInt32.and_zero, UInt32.zero_or]
  exact hflags

theorem outgoing_dlc (hvalid : canMessageIsValid m = true) :
    canDlcToLength m.outgoing.dlc.toNat = m.length := by
  obtain ⟨hlength, -⟩ := canMessageIsValid_iff.mp hvalid
  change canDlcToLength m.length.toUInt32.toNat = m.length
  rw [UInt8.toNat_toUInt32, canDlcToLength_eq hlength]

theorem received_like (hvalid : canMessageIsValid m = true) (hlike : m.outgoing.Like y) :
    y.received = m.canonical := by
  obtain ⟨hlength, hid⟩ := canMessageIsValid_iff.mp hvalid
  obtain ⟨hextended, hvalue⟩ := canIdPack_parts hid m.remote
  have hremote := outgoing_remote m
  have hdlc : canDlcToLength y.dlc.toNat = m.length := by rw [hlike.dlc, outgoing_dlc hvalid]
  ext : 1
  · change canIdValue y.id = m.id
    rw [hlike.id]
    exact hvalue
  · exact hdlc
  · change canIdIsExtended y.id = m.extended
    rw [hlike.id]
    exact hextended
  · change canIdIsRemote y.id = m.remote
    rw [hlike.id, hremote]
  · change cleared 8 (if canIdIsRemote y.id then [] else
      y.data.take (canDlcToLength y.dlc.toNat).toNat) = cleared 8 m.body
    rw [hdlc, hlike.id, hremote]
    cases hm : m.remote with
    | true => rw [if_pos rfl, body_remote hm]
    | false =>
      have hdata := hlike.data (hremote.trans hm)
      have hcount : m.outgoing.dlc.toNat = m.length.toNat := UInt8.toNat_toUInt32 _
      have hbody : m.outgoing.data = cleared CAN_MAX_DATA_LENGTH (m.data.take m.length.toNat) := by
        change cleared 8 (if m.remote then [] else _) = _
        rw [hm, if_neg Bool.false_ne_true]
        rfl
      rw [hcount, hbody, cleared_take m.data_length hlength] at hdata
      rw [if_neg Bool.false_ne_true, body_data hm, hdata]

theorem canonical_canonical (hvalid : canMessageIsValid m = true) :
    m.canonical.canonical = m.canonical := by
  have hcanonical : canMessageIsValid m.canonical = true := hvalid
  rw [← decodeRecord_encodeRecord hcanonical, encodeRecord_canonical hvalid,
    decodeRecord_encodeRecord hvalid]

end frames

def CanBusLog.traffic (log : CanBusLog) : CanTraffic := ⟨log.pushed, log.received, log.dropped, []⟩

/-- What of a bus is not its queue. -/
def CanBus.rest (bus : CanBus) : List CanFilter × UInt32 × UInt32 :=
  (bus.filters, bus.filtered, bus.controllerErrors)

/-- Each frame that was called back with is accounted for. -/
structure Accounts (filters : List CanFilter) (rest : List CanFilter × UInt32 × UInt32)
    (log : CanBusLog) : Prop where
  filters_eq : rest.1 = filters
  filtered_eq : rest.2.1 = UInt32.ofNat log.filtered
  errors_eq : rest.2.2 = UInt32.ofNat log.errors
  rejected : log.filtered = log.frames.countP fun x => !canFiltersAccept filters x.id
  pushed : log.pushed.Sublist
    ((log.frames.filter fun x => canFiltersAccept filters x.id).map Can2040Msg.received)
  queued : log.pushed.length + log.dropped =
    log.frames.countP fun x => canFiltersAccept filters x.id

section sides

variable {filters : List CanFilter}

def queuePart (s : CanBus × CanBusLog) : CanQueue × CanTraffic := (s.1.rxQueue, s.2.traffic)

abbrev canBusKept (filters : List CanFilter) (s : CanBus × CanBusLog) : Prop :=
  canKept (queuePart s) ∧ Accounts filters s.1.rest s.2

abbrev canCallbackRely (filters : List CanFilter) (s t : CanBus × CanBusLog) : Prop :=
  canProducerRely (queuePart s) (queuePart t) ∧ Accounts filters t.1.rest t.2

abbrev canReceiverRely (filters : List CanFilter) (s t : CanBus × CanBusLog) : Prop :=
  canConsumerRely (queuePart s) (queuePart t) ∧ Accounts filters t.1.rest t.2

theorem canBusCompatible :
    Compatible (canBusKept filters) (canCallbackRely filters) (canReceiverRely filters) :=
  ((canCompatible.view CanBusLog.traffic).focus
    fun s : CanBus × CanBusLog => (s.1.rxQueue, s.2)).frame fun s => Accounts filters s.1.rest s.2

theorem onRxQueue_spec {α : Type} {p : Prog CanQueue α}
    {rely guar : CanQueue × CanTraffic → CanQueue × CanTraffic → Prop}
    {post : α → CanQueue × CanTraffic → CanQueue × CanTraffic → Prop} {s t : CanBus × CanBusLog}
    (h : wp rely guar p post (queuePart s) (queuePart t)) (hframe : Accounts filters t.1.rest t.2) :
    wp (fun s t => rely (queuePart s) (queuePart t) ∧ Accounts filters t.1.rest t.2)
      (fun s t => guar (queuePart s) (queuePart t) ∧ Accounts filters t.1.rest t.2) (onRxQueue p)
      (fun a s t => post a (queuePart s) (queuePart t) ∧ Accounts filters t.1.rest t.2) s t :=
  wp_focus
    (show ∀ (q : CanQueue) (b : CanBus), CanBus.rxQueue { b with rxQueue := q } = q from
      fun _ _ => rfl)
    (show ∀ (q : CanQueue) (b : CanBus), CanBus.rest { b with rxQueue := q } = b.rest from
      fun _ _ => rfl)
    (@wp_view _ _ _ _ _ _ CanBusLog.traffic _ _ (s.1.rxQueue, s.2) (t.1.rxQueue, t.2) h) hframe

section ends

variable {rest : List CanFilter × UInt32 × UInt32} {log : CanBusLog} {x : Can2040Msg}

theorem Accounts.reject (h : Accounts filters rest log)
    (hreject : canFiltersAccept filters x.id = false) :
    Accounts filters (rest.1, rest.2.1 + 1, rest.2.2)
      { log with frames := log.frames ++ [x], filtered := log.filtered + 1 } where
  filters_eq := h.filters_eq
  filtered_eq := by
    change rest.2.1 + 1 = UInt32.ofNat (log.filtered + 1)
    rw [h.filtered_eq, UInt32.ofNat_add]
    rfl
  errors_eq := h.errors_eq
  rejected := by
    change log.filtered + 1 = (log.frames ++ [x]).countP _
    rw [List.countP_append, ← h.rejected, List.countP_singleton, hreject]
    rfl
  pushed := by
    change log.pushed.Sublist (((log.frames ++ [x]).filter _).map _)
    rw [List.filter_append, List.filter_singleton, hreject, List.map_append]
    exact h.pushed.trans (List.sublist_append_left _ _)
  queued := by
    change log.pushed.length + log.dropped = (log.frames ++ [x]).countP _
    rw [List.countP_append, ← h.queued, List.countP_singleton, hreject]
    rfl

theorem Accounts.accept (h : Accounts filters rest log)
    (haccept : canFiltersAccept filters x.id = true) (ok : Bool) :
    Accounts filters rest (({ log with frames := log.frames ++ [x] } : CanBusLog).ended
      ⟨.rx, some x⟩ (.queued ok)) := by
  have hrejected : log.filtered =
      (log.frames ++ [x]).countP fun x => !canFiltersAccept filters x.id := by
    rw [List.countP_append, ← h.rejected, List.countP_singleton, haccept]
    rfl
  have hcount : ((log.frames ++ [x]).countP fun x => canFiltersAccept filters x.id) =
      log.pushed.length + log.dropped + 1 := by
    rw [List.countP_append, ← h.queued, List.countP_singleton, haccept]
    rfl
  have hframes : ((log.frames ++ [x]).filter fun x => canFiltersAccept filters x.id).map
      Can2040Msg.received =
      (log.frames.filter fun x => canFiltersAccept filters x.id).map Can2040Msg.received ++
        [x.received] := by
    rw [List.filter_append, List.filter_singleton, haccept, List.map_append]
    rfl
  cases ok with
  | true =>
    refine ⟨h.filters_eq, h.filtered_eq, h.errors_eq, hrejected, ?_, ?_⟩
    · change (log.pushed ++ [x.received]).Sublist (((log.frames ++ [x]).filter _).map _)
      rw [hframes]
      exact h.pushed.append_right _
    · change (log.pushed ++ [x.received]).length + log.dropped = (log.frames ++ [x]).countP _
      rw [hcount, List.length_append, List.length_singleton]
      omega
  | false =>
    refine ⟨h.filters_eq, h.filtered_eq, h.errors_eq, hrejected, ?_, ?_⟩
    · change log.pushed.Sublist (((log.frames ++ [x]).filter _).map _)
      rw [hframes]
      exact h.pushed.trans (List.sublist_append_left _ _)
    · change log.pushed.length + (log.dropped + 1) = (log.frames ++ [x]).countP _
      rw [hcount]
      omega

theorem Accounts.error (h : Accounts filters rest log) :
    Accounts filters (rest.1, rest.2.1, rest.2.2 + 1) { log with errors := log.errors + 1 } where
  filters_eq := h.filters_eq
  filtered_eq := h.filtered_eq
  errors_eq := by
    change rest.2.2 + 1 = UInt32.ofNat (log.errors + 1)
    rw [h.errors_eq, UInt32.ofNat_add]
    rfl
  rejected := h.rejected
  pushed := h.pushed
  queued := h.queued

theorem Accounts.receive (h : Accounts filters rest log) (more : List CanMessage) :
    Accounts filters rest { log with received := log.received ++ more } :=
  ⟨h.filters_eq, h.filtered_eq, h.errors_eq, h.rejected, h.pushed, h.queued⟩

theorem ended_traffic (x : Can2040Msg) (ok : Bool) (log : CanBusLog) :
    (({ log with frames := log.frames ++ [x] } : CanBusLog).ended ⟨.rx, some x⟩
      (.queued ok)).traffic = canProducer.commit x.received ok log.traffic := by
  unfold canProducer
  simp only [received_valid]
  cases ok with
  | true => rfl
  | false => rfl

end ends

theorem Orderly.uncounted {queue : UInt32 × Bool} {r : CanTraffic} (h : Orderly queue r) :
    Orderly queue { r with counts := [] } :=
  ⟨h.initialised, h.dropped_eq, h.valid, h.in_order, fun _ hn => absurd hn List.not_mem_nil⟩

theorem frames_nothing {call : Can2040Call} (h : call.frame = []) (log : CanBusLog) :
    { log with frames := log.frames ++ call.frame } = log := by
  rw [h, List.append_nil]

theorem canCallback_sound :
    Upheld (canBusKept filters) (canCallbackRely filters) (canReceiverRely filters)
      canCallback := by
  intro call s hs
  have hrefl := canBusCompatible.refl_right s hs
  have hignored : call.frame = [] → canReceiverRely filters s
      (s.1, canCallback.commit call .ignored s.2) := by
    intro hframe
    change canReceiverRely filters s (s.1, { s.2 with frames := s.2.frames ++ call.frame })
    rw [frames_nothing hframe]
    exact hrefl
  obtain ⟨notify, message⟩ := call
  change wp _ _ (can2040Callback notify message) _ s s
  unfold can2040Callback
  cases notify with
  | tx =>
    rw [if_neg (by decide), if_pos (by decide), wp_pure]
    exact hignored rfl
  | error =>
    rw [if_pos rfl, wp_bind, wp_store]
    refine ⟨hrefl, fun t ht => ?_⟩
    have hkept := canBusCompatible.inv_left s t ht
    have hcommit : canCallback.commit ⟨.error, message⟩ .error t.2 =
        { t.2 with errors := t.2.errors + 1 } :=
      congrArg (fun log => CanBusLog.ended ⟨.error, message⟩ log .error)
        (frames_nothing rfl t.2)
    rw [wp_pure, hcommit]
    exact ⟨canCompatible.refl_right _ hkept.1, hkept.2.error⟩
  | rx =>
    rw [if_neg (by decide), if_neg (by decide)]
    cases message with
    | none =>
      rw [Option.elim_none, wp_pure]
      exact hignored rfl
    | some x =>
      rw [Option.elim_some, wp_bind, wp_load]
      refine ⟨hrefl, fun t ht => ?_⟩
      have hkept := canBusCompatible.inv_left s t ht
      have hfilters : t.1.filters = filters := hkept.2.filters_eq
      rw [hfilters]
      cases haccept : canFiltersAccept filters x.id with
      | false =>
        rw [Bool.not_false, if_pos rfl, wp_bind, wp_store]
        refine ⟨canBusCompatible.refl_right t hkept, fun u hu => ?_⟩
        have hkept' := canBusCompatible.inv_left t u hu
        rw [wp_pure]
        exact ⟨canCompatible.refl_right _ hkept'.1, hkept'.2.reject haccept⟩
      | true =>
        rw [Bool.not_true, if_neg Bool.false_ne_true, wp_bind]
        refine wp_mono (onRxQueue_spec (canQueuePush_spec x.received hkept.1) hkept.2)
          fun ok s' t' h => ?_
        obtain ⟨⟨hcommit, -⟩, haccounts⟩ := h
        rw [wp_pure]
        refine ⟨?_, haccounts.accept haccept ok⟩
        change canConsumerRely (queuePart s') (t'.1.rxQueue, CanBusLog.traffic _)
        rw [show CanBusLog.traffic (canCallback.commit ⟨.rx, some x⟩ (.queued ok) t'.2) =
          canProducer.commit x.received ok t'.2.traffic from ended_traffic x ok t'.2]
        exact hcommit

theorem canReceiver_sound :
    Upheld (canBusKept filters) (canReceiverRely filters) (canCallbackRely filters)
      canReceiver := by
  intro _ s hs
  change wp _ _ (canBusReceive true) _ s s
  unfold canBusReceive
  rw [Bool.not_true, if_neg Bool.false_ne_true, wp_bind]
  have hpop : wp canConsumerRely canProducerRely canQueuePop (fun message s' t' =>
      canProducerRely s' (t'.1, { t'.2 with popped := t'.2.popped ++ message.toList, counts := [] }))
      (queuePart s) (queuePart s) := by
    unfold canQueuePop
    rw [wp_bind]
    refine wp_mono (canQueuePop_spec hs.1) fun answer s' t' h => ?_
    rw [wp_pure]
    obtain ⟨⟨hrely, horderly⟩, -⟩ := h
    exact ⟨⟨hrely.holds, hrely.head_eq, hrely.storage_eq, hrely.acc_eq, hrely.obt_grows⟩,
      horderly.uncounted⟩
  refine wp_mono (onRxQueue_spec hpop hs.2) fun message s' t' h => ?_
  rw [wp_pure]
  exact ⟨h.1, h.2.receive _⟩

end sides

section nodes

variable {filters : List CanFilter} {node : CanNode} {heard : List Can2040Msg}

/-- The frame that the callback is busy with. -/
def begunFrame {α : Type} (running : Option (Can2040Call × α)) : List Can2040Msg :=
  (running.map fun r => r.1.frame).getD []

/-- What the controller brought has been called back with, or is about to be. -/
structure CanNode.Sound (filters : List CanFilter) (node : CanNode) (heard : List Can2040Msg) :
    Prop where
  consistent : Consistent canCallback canReceiver (canBusKept filters) (canCallbackRely filters)
    (canReceiverRely filters) node.sides
  heard : node.sides.record.frames ++ begunFrame node.sides.left ++ node.incoming = heard

theorem ended_frames (call : Can2040Call) (log : CanBusLog) (ending : CallbackEnd) :
    (log.ended call ending).frames = log.frames := by
  cases ending with
  | error => rfl
  | ignored => rfl
  | filtered => rfl
  | queued ok => cases ok <;> rfl

theorem settle_frames (call : Can2040Call) (p : Prog CanBus CallbackEnd) (log : CanBusLog) :
    (canCallback.settle call p log).2.frames ++ begunFrame (canCallback.settle call p log).1 =
      log.frames ++ call.frame := by
  cases p with
  | ret ending =>
    change (canCallback.commit call ending log).frames ++ [] = _
    rw [List.append_nil]
    exact ended_frames call _ ending
  | step update next => rfl

theorem settle_received (p : Prog CanBus (CanResult × Option CanMessage)) (log : CanBusLog) :
    (canReceiver.settle ⟨⟩ p log).2.frames = log.frames := by
  cases p with
  | ret answer => rfl
  | step update next => rfl

theorem CanNode.Sound.begin (h : node.Sound filters heard) (hidle : node.sides.left = none)
    (call : Can2040Call) {rest : List Can2040Msg} (hincoming : node.incoming = call.frame ++ rest) :
    (CanNode.move (.startLeft call) { node with incoming := rest }).Sound filters heard where
  consistent := h.consistent.move canBusCompatible canCallback_sound canReceiver_sound
    (.startLeft call)
  heard := by
    have hheard := h.heard
    obtain ⟨⟨memory, log, left, right⟩, incoming⟩ := node
    change left = none at hidle
    change incoming = _ at hincoming
    subst hidle hincoming
    change (canCallback.settle call (canCallback.program call) log).2.frames ++
      begunFrame (canCallback.settle call (canCallback.program call) log).1 ++ rest = heard
    rw [settle_frames, ← hheard]
    change _ = log.frames ++ [] ++ (call.frame ++ rest)
    rw [List.append_nil, List.append_assoc]

theorem CanNode.Sound.go (h : node.Sound filters heard) (m : Move Can2040Call PUnit)
    (hm : ∀ call, m ≠ .startLeft call) : (node.move m).Sound filters heard where
  consistent := h.consistent.move canBusCompatible canCallback_sound canReceiver_sound m
  heard := by
    have hheard := h.heard
    obtain ⟨⟨memory, log, left, right⟩, incoming⟩ := node
    cases m with
    | startLeft call => exact absurd rfl (hm call)
    | stepLeft =>
      cases left with
      | none => exact hheard
      | some running =>
        obtain ⟨call, p⟩ := running
        cases p with
        | ret ending => exact hheard
        | step update next =>
          change (canCallback.settle call (next memory) log).2.frames ++
            begunFrame (canCallback.settle call (next memory) log).1 ++ incoming = heard
          rw [settle_frames]
          exact hheard
    | startRight op =>
      cases right with
      | some running => exact hheard
      | none =>
        change (canReceiver.settle ⟨⟩ (canReceiver.program ⟨⟩) log).2.frames ++ begunFrame left ++
          incoming = heard
        rw [settle_received]
        exact hheard
    | stepRight =>
      cases right with
      | none => exact hheard
      | some running =>
        obtain ⟨op, p⟩ := running
        cases p with
        | ret answer => exact hheard
        | step update next =>
          change (canReceiver.settle ⟨⟩ (next memory) log).2.frames ++ begunFrame left ++
            incoming = heard
          rw [settle_received]
          exact hheard

theorem CanNode.Sound.arrive (h : node.Sound filters heard) (more : List Can2040Msg) :
    CanNode.Sound filters { node with incoming := node.incoming ++ more } (heard ++ more) where
  consistent := h.consistent
  heard := by
    change node.sides.record.frames ++ begunFrame node.sides.left ++ (node.incoming ++ more) = _
    rw [← List.append_assoc, h.heard]

theorem CanNode.Sound.quiet {config : CanBusConfig} {queue : CanQueue} (bitrate : UInt32)
    (hqueue : canQueueInit config.rxStorage = some queue) :
    (CanNode.quiet (config.opened bitrate queue)).Sound config.filters [] where
  consistent := Consistent.idle
    ⟨canQueueInit_kept hqueue, rfl, rfl, rfl, rfl, List.Sublist.refl _, rfl⟩
  heard := rfl

end nodes

section copies

variable {ι : Type}

theorem copies_received {filters : List CanFilter} {way : List (ι × CanMessage)}
    {frames : List Can2040Msg}
    (hcopies : List.Forall₂ (fun e x => e.2.outgoing.Like x) way frames)
    (hvalid : ∀ e ∈ way, canMessageIsValid e.2 = true)
    (haccept : ∀ x ∈ frames, canFiltersAccept filters x.id = true) :
    (∀ e ∈ way, canFiltersAccept filters e.2.packed = true) ∧
      frames.map Can2040Msg.received = way.map fun e => e.2.canonical := by
  induction hcopies with
  | nil => exact ⟨fun _ he => absurd he List.not_mem_nil, rfl⟩
  | @cons e x way frames hcopy _ ih =>
    obtain ⟨hway, hframes⟩ := ih (fun e he => hvalid e (List.mem_cons_of_mem _ he))
      fun x hx => haccept x (List.mem_cons_of_mem _ hx)
    refine ⟨fun e' he' => ?_, ?_⟩
    · rcases List.mem_cons.mp he' with rfl | hlater
      · have hx := haccept x List.mem_cons_self
        rwa [hcopy.id] at hx
      · exact hway e' hlater
    · rw [List.map_cons, List.map_cons, received_like (hvalid e List.mem_cons_self) hcopy, hframes]

end copies

section network

variable {ι : Type} [DecidableEq ι] {filters : ι → List CanFilter} {net net' : CanNetwork ι}
  {event : CanEvent ι} {told : List (ι × CanMessage)}

/-- What is said of the whole network, when this is what has gone out. -/
structure CanNetwork.Conveys (filters : ι → List CanFilter) (net : CanNetwork ι)
    (told : List (ι × CanMessage)) : Prop where
  medium : Conveyed CanMessage.outgoing Can2040Msg.Like net.medium told
  valid : ∀ i, ∀ m ∈ net.medium.sent i, canMessageIsValid m = true
  node : ∀ j, (net.node j).Sound (filters j) (net.medium.heard j)

theorem CanNetwork.Conveys.update (h : net.Conveys filters told) (j : ι) (f : CanNode → CanNode)
    (hf : (f (net.node j)).Sound (filters j) (net.medium.heard j)) :
    (net.update j f).Conveys filters told where
  medium := h.medium
  valid := h.valid
  node k := by
    change (Function.update net.node j (f (net.node j)) k).Sound _ _
    by_cases hk : k = j
    · subst hk
      rw [Function.update_self]
      exact hf
    · rw [Function.update_of_ne hk]
      exact h.node k

/-- What `can_bus_send` does: a valid message gets a slot, or nothing changes. -/
theorem canBusSend_cases (bus : CanBus) (slots : List Can2040Msg) (message : CanMessage) :
    canBusSend true bus slots message = (.ok, slots ++ [message.outgoing]) ∧
        canMessageIsValid message = true ∧ bus.txPin ≠ CAN_NO_TX_PIN ∧
        slots.length < CAN2040_TX_SLOTS ∨
      ∃ result, result ≠ .ok ∧ canBusSend true bus slots message = (result, slots) := by
  unfold canBusSend can2040Transmit
  cases hvalid : canMessageIsValid message with
  | false => exact .inr ⟨.errInvalidArg, by decide, rfl⟩
  | true =>
    simp only [Bool.not_true, Bool.false_eq_true, if_false]
    split_ifs with hpin hfree
    · exact .inr ⟨.errMonitorMode, by decide, rfl⟩
    · exact .inl ⟨rfl, trivial, hpin, hfree⟩
    · exact .inr ⟨.errTxFull, by decide, rfl⟩

theorem CanNetwork.Conveys.send (h : net.Conveys filters told) (i : ι) (message : CanMessage) :
    (net.posted i message (canBusSend true (net.node i).sides.memory (net.medium.outgoing i)
      message)).Conveys filters told := by
  rcases canBusSend_cases (net.node i).sides.memory (net.medium.outgoing i) message with
    ⟨hsend, hvalid, -, -⟩ | ⟨result, hresult, hsend⟩
  · rw [hsend]
    refine ⟨h.medium.put i message, fun j m hm => ?_, h.node⟩
    change m ∈ Function.update net.medium.sent i _ j at hm
    by_cases hj : j = i
    · subst hj
      rw [Function.update_self] at hm
      rcases List.mem_append.mp hm with hold | hnew
      · exact h.valid j m hold
      · rw [List.mem_singleton.mp hnew]
        exact hvalid
    · rw [Function.update_of_ne hj] at hm
      exact h.valid j m hm
  · rw [hsend]
    have hsame : net.posted i message (result, net.medium.outgoing i) = net := by
      unfold CanNetwork.posted
      rw [if_neg hresult, Function.update_eq_self]
    rw [hsame]
    exact h

theorem CanNetwork.Conveys.step (h : net.Conveys filters told) (hstep : CanStep net event net') :
    ∃ told', net'.Conveys filters told' := by
  cases hstep with
  | send i message => exact ⟨told, h.send i message⟩
  | speak i x rest copies hfirst hcopies =>
    obtain ⟨m, -, hmedium⟩ := h.medium.speak hfirst hcopies
    exact ⟨_, hmedium, h.valid, fun j => (h.node j).arrive _⟩
  | arrive j x rest hincoming hidle =>
    exact ⟨told, h.update j _ ((h.node j).begin hidle ⟨.rx, some x⟩ hincoming)⟩
  | notify j call hcall hidle =>
    refine ⟨told, h.update j _ ?_⟩
    have hincoming : (net.node j).incoming = call.frame ++ (net.node j).incoming := by
      rw [hcall, List.nil_append]
    exact (h.node j).begin hidle call hincoming
  | interrupt j => exact ⟨told, h.update j _ ((h.node j).go _ (by simp))⟩
  | receive j => exact ⟨told, h.update j _ ((h.node j).go _ (by simp))⟩
  | mainLoop j => exact ⟨told, h.update j _ ((h.node j).go _ (by simp))⟩

theorem CanNetwork.Conveys.run {start : CanNetwork ι} {events : List (CanEvent ι)}
    (hstart : start.Conveys filters []) (hrun : Steps CanStep start events net) :
    ∃ told, net.Conveys filters told := by
  induction hrun with
  | nil => exact ⟨[], hstart⟩
  | snoc _ hstep ih =>
    obtain ⟨told, h⟩ := ih
    exact h.step hstep

theorem CanNetwork.Conveys.way (h : net.Conveys filters told) (j : ι) :
    ∃ way : List (ι × CanMessage), way.Sublist told ∧
      (∀ e ∈ way, e.1 ≠ j ∧ canFiltersAccept (filters j) e.2.packed = true) ∧
      (net.node j).sides.record.pushed = way.map fun e => e.2.canonical := by
  obtain ⟨all, hall, hothers, hlike⟩ := h.medium.heard j
  have hnode := h.node j
  obtain ⟨frames, hframes, hpushed⟩ :=
    List.sublist_map_iff.mp hnode.consistent.holds.2.pushed
  have hheard : frames.Sublist (net.medium.heard j) := by
    rw [← hnode.heard, List.append_assoc]
    exact (hframes.trans List.filter_sublist).trans (List.sublist_append_left _ _)
  obtain ⟨way, hway, hcopies⟩ := forall₂_sublist hlike hheard
  have hvalid : ∀ e ∈ way, canMessageIsValid e.2 = true := by
    intro e he
    obtain ⟨waiting, hsent, -⟩ := h.medium.queued e.1
    refine h.valid e.1 e.2 ?_
    rw [hsent]
    refine List.mem_append_left _ (List.mem_map.mpr ⟨e, ?_, rfl⟩)
    exact List.mem_filter.mpr ⟨hall.subset (hway.subset he), decide_eq_true rfl⟩
  obtain ⟨haccept, hreceived⟩ := copies_received hcopies hvalid fun x hx =>
    (List.mem_filter.mp (hframes.subset hx)).2
  exact ⟨way, hway.trans hall, fun e he => ⟨hothers e (hway.subset he), haccept e he⟩,
    hpushed.trans hreceived⟩

/-- On a wire with any number of nodes, in whatever order they send and receive and wherever the
interrupts fall, each node receives messages that the others sent, as they were sent, in the order
in which they went out and none twice. The rest of the frames that its controller called back with
are counted, and what was queued and is not yet received is in the queue. -/
theorem can_messages_arrive {config : ι → CanBusConfig} {bitrate : ι → UInt32}
    {queue : ι → CanQueue} {events : List (CanEvent ι)}
    (hqueue : ∀ j, canQueueInit (config j).rxStorage = some (queue j))
    (hrun : Steps CanStep (.quiet fun j => (config j).opened (bitrate j) (queue j)) events net) :
    ∃ told : List (ι × CanMessage),
      net.medium.said = told.map (fun e => (e.1, e.2.outgoing)) ∧
      (∀ i, from_ told i <+: net.medium.sent i) ∧
      ∀ j, ∃ way : List (ι × CanMessage), way.Sublist told ∧
        (∀ e ∈ way, e.1 ≠ j ∧ canFiltersAccept (config j).filters e.2.packed = true) ∧
        (net.node j).sides.record.received <+: way.map (fun e => e.2.canonical) ∧
        (net.node j).sides.memory.rxQueue.buffer.content =
          (way.drop (net.node j).sides.record.received.length).flatMap
            (fun e => encodeRecord e.2.canonical) ∧
        ∃ dropped filtered, way.length + dropped + filtered =
            (net.node j).sides.record.frames.length ∧
          (net.node j).sides.record.frames <+: net.medium.heard j ∧
          (net.node j).sides.memory.rxQueue.dropped = UInt32.ofNat dropped ∧
          (net.node j).sides.memory.filtered = UInt32.ofNat filtered := by
  have hstart : (CanNetwork.quiet fun j => (config j).opened (bitrate j) (queue j)).Conveys
      (fun j => (config j).filters) [] :=
    ⟨.silent, fun i m hm => absurd hm List.not_mem_nil, fun j => .quiet (bitrate j) (hqueue j)⟩
  obtain ⟨told, h⟩ := hstart.run hrun
  refine ⟨told, h.medium.said, fun i => ?_, fun j => ?_⟩
  · obtain ⟨waiting, hsent, -⟩ := h.medium.queued i
    rw [hsent]
    exact List.prefix_append _ _
  obtain ⟨way, hway, haccept, hpushed⟩ := h.way j
  obtain ⟨hkept, haccounts⟩ := (h.node j).consistent.holds
  have hcanonical : ((net.node j).sides.record.pushed.map CanMessage.canonical) =
      way.map fun e => e.2.canonical := by
    rw [hpushed, List.map_map]
    refine List.map_congr_left fun e he => canonical_canonical ?_
    change canMessageIsValid e.2.canonical = true
    have hmem : e.2.canonical ∈ (net.node j).sides.record.pushed := by
      rw [hpushed]
      exact List.mem_map.mpr ⟨e, he, rfl⟩
    exact hkept.2.valid _ hmem
  refine ⟨way, hway, haccept, ?_, ?_, (net.node j).sides.record.dropped,
    (net.node j).sides.record.filtered, ?_, ?_, hkept.2.dropped_eq, haccounts.filtered_eq⟩
  · rw [← hcanonical]
    exact hkept.2.in_order
  · have hcontent := hkept.content_eq
    change _ = ((net.node j).sides.record.pushed.drop
      (net.node j).sides.record.received.length).flatMap encodeRecord at hcontent
    refine hcontent.trans ?_
    rw [hpushed, ← List.map_drop, List.flatMap_map]
  · have hlength : way.length = (net.node j).sides.record.pushed.length := by
      rw [hpushed, List.length_map]
    have hcount := List.length_eq_countP_add_countP (l := (net.node j).sides.record.frames)
      fun x => canFiltersAccept (config j).filters x.id
    rw [hlength, haccounts.queued, haccounts.rejected]
    simpa only [decide_not, Bool.decide_eq_true] using hcount.symm
  · rw [← (h.node j).heard, List.append_assoc]
    exact List.prefix_append _ _

theorem interrupts_steps {start : CanNetwork ι} {events : List (CanEvent ι)}
    (h : Steps CanStep start events net) (j : ι) (n : ℕ) :
    Steps CanStep start (events ++ List.replicate n (.interrupt j))
      ((CanNetwork.update j (CanNode.move .stepLeft))^[n] net) := by
  induction n with
  | zero =>
    rw [List.replicate_zero, List.append_nil]
    exact h
  | succ n ih =>
    rw [List.replicate_succ', ← List.append_assoc, Function.iterate_succ_apply']
    exact ih.snoc (.interrupt _ j)

theorem mainLoops_steps {start : CanNetwork ι} {events : List (CanEvent ι)}
    (h : Steps CanStep start events net) (j : ι) (n : ℕ) :
    Steps CanStep start (events ++ List.replicate n (.mainLoop j))
      ((CanNetwork.update j (CanNode.move .stepRight))^[n] net) := by
  induction n with
  | zero =>
    rw [List.replicate_zero, List.append_nil]
    exact h
  | succ n ih =>
    rw [List.replicate_succ', ← List.append_assoc, Function.iterate_succ_apply']
    exact ih.snoc (.mainLoop _ j)

end network

/-- Two nodes, with room for one frame each. -/
def twoNodes : CanNetwork Bool := .quiet fun _ =>
  CanBusConfig.opened ⟨0, 4, 5, 0, [], some (List.replicate 17 0), 0⟩ 500000
    ⟨⟨List.replicate 17 0, 0, 0⟩, 0, true⟩

/-- One message, to the other node's main loop. -/
theorem can_messages_arrive_two :
    ∃ net : CanNetwork Bool, ∃ way : List (Bool × CanMessage),
      (net.node false).sides.record.received =
        [⟨0x123, 2, false, false, [7, 9, 0, 0, 0, 0, 0, 0], rfl⟩] ∧
      (∀ e ∈ way, e.1 ≠ false) ∧
      (net.node false).sides.record.received <+: way.map fun e => e.2.canonical := by
  have hsend := (Steps.nil twoNodes).snoc
    (CanStep.send twoNodes true ⟨0x123, 2, false, false, [7, 9, 9, 9, 9, 9, 9, 9], rfl⟩)
  have hspeak := hsend.snoc (CanStep.speak _ true
    (CanMessage.outgoing ⟨0x123, 2, false, false, [7, 9, 9, 9, 9, 9, 9, 9], rfl⟩) []
    (fun j => if j then none else
      some (CanMessage.outgoing ⟨0x123, 2, false, false, [7, 9, 9, 9, 9, 9, 9, 9], rfl⟩)) rfl
    (by
      intro j y hy
      cases j with
      | true => exact absurd hy (by simp)
      | false =>
        obtain rfl := Option.some.inj hy
        exact ⟨by decide, rfl, rfl, fun _ => rfl⟩))
  have harrive := hspeak.snoc (CanStep.arrive _ false _ [] rfl rfl)
  have hcalled := interrupts_steps harrive false 30
  have hreceive := hcalled.snoc (CanStep.receive _ false)
  have hdone := mainLoops_steps hreceive false 30
  obtain ⟨told, -, -, hnode⟩ := can_messages_arrive (fun _ => rfl) hdone
  obtain ⟨way, -, hway, hreceived, -⟩ := hnode false
  refine ⟨_, way, ?_, fun e he => (hway e he).1, hreceived⟩
  decide +kernel

end Pico
