import PicoFramework.Proofs.CanLoss

/-! In which order frames pass through the controller. The two receive buffers are looked at from
`RXB0` on, and the three transmit buffers are sent from the highest number down, so that a frame can
get past an older one, but only so. -/

namespace Pico

open Lib.Device Lib.Interleave Lib.Slots Mcp2515Chip

section order

/-- The buffers that two received frames were in. -/
def RxBuffers (chip : Mcp2515Chip) (a b : ℕ) (bufferA bufferB : RxBuffer) : Prop :=
  chip.stored[a]?.map RxFrame.buffer = some bufferA ∧
    chip.stored[b]?.map RxFrame.buffer = some bufferB

/-- The first of two sent frames was in a buffer with a higher number. -/
def HigherTxBuffer (chip : Mcp2515Chip) (a b : ℕ) : Prop :=
  ∃ bufferA bufferB, chip.requested[a]?.map TxRequest.buffer = some bufferA ∧
    chip.requested[b]?.map TxRequest.buffer = some bufferB ∧ bufferB < bufferA

/-- Frames are returned in the order in which they were stored, but that frames of `RXB0` get past
an older one in `RXB1`; and they go out in the order in which they were accepted, but that one in a
buffer with a higher number gets past an older one. -/
structure KeepsOrder (w : Mcp2515Host) : Prop where
  returned : w.running = none →
    (returned w.record).map some = w.memory.chip.taken.map w.memory.chip.messageAt
  received : w.memory.chip.taken.Pairwise fun a b =>
    a < b ∨ RxBuffers w.memory.chip a b .rxb0 .rxb1
  accepted : w.running = none →
    List.Forall₂ (fun message request => txBytes message <+: request.bytes) (accepted w.record)
      w.memory.chip.requested
  sent : w.memory.chip.sent.Pairwise fun a b =>
    a.1 < b.1 ∨ HigherTxBuffer w.memory.chip a.1 b.1
  content : ∀ e ∈ w.memory.chip.sent,
    w.memory.chip.requested[e.1]?.map TxRequest.bytes = some e.2

/-- Over every run, with whatever filters. -/
theorem mcp2515_keepsOrder (plan : Mcp2515FilterPlan) (mode : Mcp2515Mode)
    (schedule : List Mcp2515Turn) : KeepsOrder (mcp2515Run plan mode schedule) := by
  have hattended := mcp2515Run_attended plan mode schedule
  generalize mcp2515Run plan mode schedule = w at hattended
  have hrest := logged_of_idle hattended
  obtain ⟨hrx, htx⟩ := hattended.holds
  refine ⟨fun hidle => (hrest hidle).returned_eq, ?_, fun hidle => ?_, ?_, htx.sent⟩
  · refine hrx.ordered.taken.imp fun hab => hab.imp_right ?_
    rintro ⟨bufferA, bufferB, hA, hB, rfl, rfl⟩
    exact ⟨List.getElem?_map.symm.trans hA, List.getElem?_map.symm.trans hB⟩
  · have hsent := (hrest hidle).sent_eq
    rwa [List.append_nil] at hsent
  · have hordered : (w.memory.chip.sent.map Prod.fst).Pairwise fun a b =>
        a < b ∨ w.memory.chip.tx.Overtakes (fun a b => b < a) a b := htx.ordered.taken
    refine (List.pairwise_map.mp hordered).imp fun hab => hab.imp_right ?_
    rintro ⟨bufferA, bufferB, hA, hB, hlt⟩
    exact ⟨bufferA, bufferB, List.getElem?_map.symm.trans hA, List.getElem?_map.symm.trans hB, hlt⟩

/-- Two frames come in, the first one is read out, and a third one comes in to the free buffer. -/
def rolloverSchedule : List Mcp2515Turn :=
  let receive : List Mcp2515Turn := .start .receive :: List.replicate 6 .step
  [.event (.receive (extendedFrame 1)), .event (.receive (extendedFrame 2))] ++ receive ++
    [.event (.receive (extendedFrame 3))] ++ receive ++ receive

/-- Two frames are accepted before the bus is free. -/
def backlogSchedule : List Mcp2515Turn :=
  let send (id : UInt32) : List Mcp2515Turn :=
    .start (.send (extendedFrame id)) :: List.replicate 5 .step
  send 1 ++ send 2 ++ [.event .start, .event .complete, .event .start, .event .complete]

/-- The third frame is returned before the second; the second frame accepted goes out first. -/
theorem mcp2515_reorders :
    mcp2515FilterPlan [] = some openPlan ∧
    returned (mcp2515Run openPlan .normal rolloverSchedule).record =
      [extendedFrame 1, extendedFrame 3, extendedFrame 2] ∧
    (mcp2515Run openPlan .normal rolloverSchedule).memory.chip.stored.map RxFrame.frame =
      [extendedFrame 1, extendedFrame 2, extendedFrame 3] ∧
    accepted (mcp2515Run openPlan .normal backlogSchedule).record =
      [extendedFrame 1, extendedFrame 2] ∧
    (mcp2515Run openPlan .normal backlogSchedule).memory.chip.sent.map Prod.fst = [1, 0] :=
  ⟨rfl, by decide, by decide, by decide, by decide⟩

end order

end Pico
