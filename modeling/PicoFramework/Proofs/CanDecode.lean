import PicoFramework.Proofs.CanOrder
import PicoFramework.Proofs.Mcp2515Header

/-! What the driver makes of the frames that the controller has stored. The registers of a receive
buffer differ from those of a transmit buffer in where they flag a remote request. -/

namespace Pico

open Lib.Bits Lib.Device Lib.Interleave Mcp2515Chip

section decoding

/-- The message is the frame; a remote request has no data. -/
structure Decoded (frame message : CanMessage) : Prop where
  id : message.id = frame.id
  extended : message.extended = frame.extended
  remote : message.remote = frame.remote
  length : message.length = frame.length
  data : frame.remote = false →
    message.data.take message.length.toNat = frame.data.take frame.length.toNat

/-- The registers from `SIDH` to `DLC`, as the controller fills them. -/
def layoutHeader (frame : CanMessage) : Bytes := (layout frame).take MCP2515_FRAME_HEADER_SIZE

/-- And those that follow. -/
def layoutData (frame : CanMessage) : Bytes :=
  if frame.remote then [] else frame.data.take (frame.length &&& DLC_MASK).toNat

variable {frame : CanMessage} {bytes : Bytes}

theorem layout_parts (frame : CanMessage) : layout frame = layoutHeader frame ++ layoutData frame := by
  unfold layoutHeader layoutData layout
  cases frame.extended <;> rfl

theorem layoutHeader_length (frame : CanMessage) :
    (layoutHeader frame).length = MCP2515_FRAME_HEADER_SIZE := by
  unfold layoutHeader layout
  cases frame.extended <;> rfl

theorem and_dlcMask : ∀ length : UInt8, length.toNat ≤ CAN_MAX_DATA_LENGTH →
    length &&& DLC_MASK = length :=
  forall_byte (by decide)

theorem layoutHeader_eq (hvalid : canMessageIsValid frame = true)
    (hkind : frame.remote = true → frame.extended = true) :
    layoutHeader frame = mcp2515FramePackHeader frame := by
  rw [canMessageIsValid, Bool.and_eq_true, decide_eq_true_eq] at hvalid
  obtain ⟨hextended, hvalue⟩ := canIdPack_parts hvalid.2 frame.remote
  have hle := UInt32.le_iff_toNat_le.mp (of_decide_eq_true hvalid.2)
  rw [packHeader_eq, mcp2515FramePackId, CanMessage.packed, hextended, hvalue]
  unfold layoutHeader layout
  cases hframe : frame.extended with
  | false =>
    have hdata : frame.remote = false := by
      cases hremote : frame.remote with
      | false => rfl
      | true => exact absurd (hframe.symm.trans (hkind hremote)) Bool.false_ne_true
    rw [hdata]
    simp only [Bool.false_eq_true, if_false, UInt8.or_zero]
    rfl
  | true =>
    rw [hframe] at hle
    change frame.id.toNat ≤ 0x1FFFFFFF at hle
    have hsid : (frame.id >>> 18) &&& (0x7FF : UInt32) = frame.id >>> 18 := by
      refine and_low_of_lt 11 rfl ?_
      rw [toNat_shiftRight _ 18 rfl]
      omega
    have heid : (frame.id &&& 0x3FFFF).toNat = frame.id.toNat % 2 ^ 18 := toNat_and_low _ 18 rfl
    have h0 : (frame.id >>> 18) >>> 3 = frame.id >>> 21 := by
      apply UInt32.toNat_inj.mp
      rw [toNat_shiftRight _ 3 rfl, toNat_shiftRight _ 18 rfl, toNat_shiftRight _ 21 rfl]
      omega
    have h1 : ((frame.id &&& 0x3FFFF) >>> 16) &&& (0x3 : UInt32) = (frame.id >>> 16) &&& 0x3 := by
      apply UInt32.toNat_inj.mp
      rw [toNat_and_low _ 2 rfl, toNat_and_low _ 2 rfl, toNat_shiftRight _ 16 rfl,
        toNat_shiftRight _ 16 rfl, heid]
      omega
    have h2 : ((frame.id &&& 0x3FFFF) >>> 8).toUInt8 = (frame.id >>> 8).toUInt8 := by
      apply UInt8.toNat_inj.mp
      rw [UInt32.toNat_toUInt8, UInt32.toNat_toUInt8, toNat_shiftRight _ 8 rfl,
        toNat_shiftRight _ 8 rfl, heid]
      omega
    have h3 : (frame.id &&& 0x3FFFF).toUInt8 = frame.id.toUInt8 := by
      apply UInt8.toNat_inj.mp
      rw [UInt32.toNat_toUInt8, UInt32.toNat_toUInt8, heid]
      omega
    simp only [if_true, hsid, h0, h1, h2, h3]
    rfl

theorem read_header (h : layout frame <+: bytes) :
    Registers.read (fun i => bytes.getD i.toNat 0) 0 MCP2515_FRAME_HEADER_SIZE =
      layoutHeader frame := by
  obtain ⟨rest, rfl⟩ := h
  rw [layout_parts]
  match layoutHeader frame, layoutHeader_length frame with
  | [_, _, _, _, _], _ => rfl

theorem read_data (h : layout frame <+: bytes) {count : ℕ} (hcount : count ≤ CAN_MAX_DATA_LENGTH)
    (hdata : count ≤ (layoutData frame).length) :
    Registers.read (fun i => bytes.getD i.toNat 0) 5 count = (layoutData frame).take count := by
  obtain ⟨rest, rfl⟩ := h
  have hheader : (layoutHeader frame).length = 5 := layoutHeader_length frame
  change count ≤ 8 at hcount
  rw [layout_parts, List.append_assoc]
  apply List.ext_getElem
  · rw [read_length, List.length_take, Nat.min_eq_left hdata]
  · intro i hi hi'
    rw [read_length] at hi
    have hread := @read_get
      (fun i => (layoutHeader frame ++ (layoutData frame ++ rest)).getD i.toNat 0) 5 _ _ hi
    rw [List.getD_eq_getElem _ _ (by rw [read_length]; exact hi)] at hread
    have haddress : (5 + UInt8.ofNat i).toNat = 5 + i := by
      rw [UInt8.toNat_add, UInt8.toNat_ofNat']
      change (5 + i % 256) % 256 = 5 + i
      omega
    rw [hread, haddress, List.getD_append_right _ _ _ _ (by omega), hheader,
      Nat.add_sub_cancel_left, List.getD_append _ _ _ _ (by omega),
      List.getD_eq_getElem _ _ (by omega), List.getElem_take]

theorem layoutData_length (hvalid : canMessageIsValid frame = true) (hremote : frame.remote = false) :
    layoutData frame = frame.data.take frame.length.toNat ∧
      (layoutData frame).length = frame.length.toNat := by
  rw [canMessageIsValid, Bool.and_eq_true, decide_eq_true_eq] at hvalid
  have hdata : layoutData frame = frame.data.take frame.length.toNat := by
    rw [layoutData, hremote, if_neg Bool.false_ne_true, and_dlcMask frame.length hvalid.1]
  refine ⟨hdata, ?_⟩
  rw [hdata, List.length_take, frame.data_length]
  exact Nat.min_eq_left hvalid.1

theorem take_cleared {size : ℕ} (h : bytes.length ≤ size) :
    (cleared size bytes).take bytes.length = bytes := by
  rw [cleared, List.take_take, Nat.min_eq_left h, List.take_left']
  rfl

theorem messageOf_header (h : layout frame <+: bytes) {message : CanMessage}
    (hmessage : mcp2515FrameUnpackHeader (layoutHeader frame) = message) :
    (messageOf bytes).id = message.id ∧ (messageOf bytes).extended = message.extended ∧
    (messageOf bytes).remote = message.remote ∧ (messageOf bytes).length = message.length ∧
    (messageOf bytes).data = if !message.remote && message.length > 0 then
      cleared CAN_MAX_DATA_LENGTH
        (Registers.read (fun i => bytes.getD i.toNat 0) 5 message.length.toNat)
      else message.data := by
  rw [← read_header h] at hmessage
  subst hmessage
  unfold messageOf readMessage
  dsimp only
  split <;> exact ⟨rfl, rfl, rfl, rfl, rfl⟩

theorem messageOf_remote (h : layout frame <+: bytes) (hextended : frame.extended = false) :
    (messageOf bytes).remote = false := by
  have hdlc : ∀ length : UInt8, decide ((length &&& 0x0F) &&& DLC_RTR ≠ 0) = false :=
    forall_byte (by decide)
  have hlast : (layoutHeader frame).getD 4 0 = frame.length &&& 0x0F := by
    unfold layoutHeader layout
    rw [hextended]
    rfl
  rw [(messageOf_header h rfl).2.2.1]
  unfold mcp2515FrameUnpackHeader
  dsimp only
  rw [hlast]
  exact hdlc frame.length

theorem messageOf_decoded (h : layout frame <+: bytes) (hvalid : canMessageIsValid frame = true)
    (hkind : frame.remote = true → frame.extended = true) : Decoded frame (messageOf bytes) := by
  have hunpack := unpackHeader_packHeader hvalid
  rw [← layoutHeader_eq hvalid hkind] at hunpack
  obtain ⟨hid, hextended, hremote, hlength, hread⟩ := messageOf_header h hunpack
  refine ⟨hid, hextended, hremote, hlength, fun hdata => ?_⟩
  obtain ⟨hbytes, hcount⟩ := layoutData_length hvalid hdata
  rw [canMessageIsValid, Bool.and_eq_true, decide_eq_true_eq] at hvalid
  rw [hlength, hread]
  dsimp only
  rw [hdata, Bool.not_false, Bool.true_and]
  split
  · have hall := read_data h hvalid.1 hcount.ge
    rw [List.take_of_length_le hcount.le] at hall
    rw [hall, ← hbytes, ← hcount]
    exact take_cleared (hcount ▸ hvalid.1)
  · rename_i hempty
    have hzero : frame.length.toNat = 0 := by
      rw [decide_eq_true_eq, gt_iff_lt, UInt8.lt_iff_toNat_lt] at hempty
      exact Nat.eq_zero_of_not_pos hempty
    rw [hzero, List.take_zero, List.take_zero]

end decoding

section storing

/-- What was stored of a frame is laid out as the frame. -/
def LaidOut (chip : Mcp2515Chip) : Prop :=
  ∀ stored ∈ chip.stored, layout stored.frame <+: stored.bytes

variable {chip : Mcp2515Chip}

theorem LaidOut.store (h : LaidOut chip) (buffer : RxBuffer) (frame : CanMessage) :
    LaidOut (chip.store buffer frame) := by
  intro stored hstored
  rcases List.mem_append.mp hstored with hold | hnew
  · exact h stored hold
  · rw [List.mem_singleton.mp hnew]
    exact prefix_read_write (layout_length frame)

theorem LaidOut.react (h : LaidOut chip) (event : Event) : LaidOut (chip.react event) := by
  cases event with
  | receive frame =>
    change LaidOut (chip.receive frame)
    rcases receive_cases chip frame with hnone | ⟨buffer, -, hstore⟩ | ⟨buffer, hover⟩
    · rw [hnone]
      exact h
    · rw [hstore]
      exact h.store buffer frame
    · rw [hover]
      exact h
  | start =>
    change LaidOut chip.startTransmission
    unfold startTransmission
    split <;> exact h
  | stop => exact h
  | complete =>
    change LaidOut chip.completeTransmission
    unfold completeTransmission
    split <;> exact h
  | error bits => exact h
  | mode => exact h

/-- No step of a program has to do with what was stored. -/
abbrev Retains {α : Type} (p : Prog Mcp2515 α) : Prop :=
  Makes (fun m m' => m'.chip.stored = m.chip.stored) (fun _ => True) p

theorem MildProgram.retains {α : Type} {p : Prog Mcp2515 α} (h : MildProgram p) : Retains p :=
  Makes.mono h fun _ _ hm => hm.rx.stored_eq

theorem retains_spi {α : Type} {command : Mcp2515Chip → α × Mcp2515Chip}
    (h : ∀ chip, (command chip).2.stored = chip.stored) : Retains (spi command) :=
  ⟨fun m => h m.chip, fun _ => trivial⟩

theorem retains_receive : Retains mcp2515BusReceive := by
  rw [mcp2515BusReceive_eq]
  refine (mild_load Mcp2515.bus).retains.bind fun bus _ => ?_
  split
  · exact .pure trivial
  refine mild_updateStats.retains.bind fun _ _ => ?_
  refine mild_readStatus.retains.bind fun status _ => ?_
  split
  · exact .pure trivial
  · refine (retains_spi fun _ => rfl).bind fun _ _ => ?_
    refine (retains_spi fun _ => rfl).bind fun _ _ => ?_
    exact (mild_setStats _).retains.bind fun _ _ => .pure trivial

theorem retains_send (message : CanMessage) : Retains (mcp2515BusSend message) := by
  refine (mild_load Mcp2515.bus).retains.bind fun bus _ => ?_
  split
  · exact .pure trivial
  split
  · exact .pure trivial
  split
  · exact .pure trivial
  refine mild_readStatus.retains.bind fun status _ => ?_
  split
  · exact .pure trivial
  · refine (retains_spi fun _ => rfl).bind fun _ _ => ?_
    refine (retains_spi fun _ => rfl).bind fun _ _ => ?_
    exact (mild_setBus fun _ => rfl).retains.bind fun _ _ => .pure trivial

theorem retains_calls (call : Mcp2515Call) : Retains (mcp2515Program call) := by
  have hmild := mild_calls call
  cases call with
  | send message => exact retains_send message
  | receive => exact retains_receive
  | canSend => exact MildProgram.retains hmild
  | available => exact MildProgram.retains hmild
  | setMode mode => exact MildProgram.retains hmild
  | getStats => exact MildProgram.retains hmild
  | clearStats => exact MildProgram.retains hmild

/-- What a step leaves behind. -/
def LeavesLaidOut (_ t : Mcp2515 × Mcp2515Log) : Prop := LaidOut t.1.chip

theorem laidOut_attuned :
    Attuned mcp2515React (fun s => LaidOut s.1.chip) (fun s => LaidOut s.1.chip) LeavesLaidOut
      LeavesLaidOut where
  inv_rely _ _ h := h
  inv_guar _ _ h := h
  refl _ h := h
  trans _ _ _ _ h := h
  rest_rely _ _ _ h := h
  event _ event h := h.react event

theorem mcp2515Driver_laidOut :
    Fulfilled mcp2515Driver LeavesLaidOut LeavesLaidOut fun s => LaidOut s.1.chip := by
  intro call s hs
  have hstep : ∀ (s : Mcp2515 × Mcp2515Log) (m : Mcp2515), LaidOut s.1.chip →
      m.chip.stored = s.1.chip.stored → LeavesLaidOut s (m, s.2) ∧ LaidOut m.chip := by
    intro s m h hstored
    have hm : LaidOut m.chip := by
      unfold LaidOut
      rw [hstored]
      exact h
    exact ⟨hm, hm⟩
  have hcall : wp LeavesLaidOut LeavesLaidOut (mcp2515Program call)
      (fun _ s t => True ∧ LeavesLaidOut s t ∧ LaidOut t.1.chip) s s :=
    (retains_calls call).wp hstep (fun _ _ _ h => h) hs hs
  exact wp_mono hcall fun _ _ _ hend => hend.2

theorem mcp2515Run_laidOut (plan : Mcp2515FilterPlan) (mode : Mcp2515Mode)
    (schedule : List Mcp2515Turn) : LaidOut (mcp2515Run plan mode schedule).memory.chip := by
  have hstart : LaidOut (mcp2515Started plan mode).chip := by
    have hnone := (mcp2515Started_noFrames plan mode).rxHistory
    simp only [rxHistory, Prod.mk.injEq] at hnone
    intro stored hstored
    rw [hnone.1] at hstored
    exact absurd hstored List.not_mem_nil
  have hidle : Attended mcp2515Driver (fun s => LaidOut s.1.chip) (fun s => LaidOut s.1.chip)
      LeavesLaidOut LeavesLaidOut (Host.idle (mcp2515Started plan mode) []) := ⟨hstart, hstart⟩
  exact (hidle.turns laidOut_attuned mcp2515Driver_laidOut schedule).holds

end storing

section delivery

/-- Over every run, of every message that the calls return: it came from a frame that the controller
had stored, and if that frame is valid, the message is the frame unless the frame is a remote
request with a standard identifier. -/
theorem mcp2515_decoded_iff (plan : Mcp2515FilterPlan) (mode : Mcp2515Mode)
    (schedule : List Mcp2515Turn) :
    let w := mcp2515Run plan mode schedule
    w.running = none → List.Forall₂ (fun message n => ∃ stored,
      w.memory.chip.stored[n]? = some stored ∧
      (canMessageIsValid stored.frame = true →
        (Decoded stored.frame message ↔
          (stored.frame.remote = true → stored.frame.extended = true))))
      (returned w.record) w.memory.chip.taken := by
  intro w hidle
  have hlaid : LaidOut w.memory.chip := mcp2515Run_laidOut plan mode schedule
  have hreturned := (logged_of_idle (mcp2515Run_attended plan mode schedule) hidle).returned_eq
  generalize returned w.record = messages at hreturned ⊢
  generalize w.memory.chip.taken = taken at hreturned ⊢
  have hpairs := List.forall₂_map_left_iff.mp
    (List.forall₂_map_right_iff.mp (List.forall₂_eq_eq_eq ▸ hreturned))
  refine hpairs.imp fun message n hmessage => ?_
  obtain ⟨stored, hstored, rfl⟩ := Option.map_eq_some_iff.mp hmessage.symm
  have hlayout := hlaid stored (List.mem_of_getElem? hstored)
  refine ⟨stored, hstored, fun hvalid => ⟨fun hdecoded hremote => ?_, ?_⟩⟩
  · cases hextended : stored.frame.extended with
    | true => rfl
    | false =>
      have hlost := messageOf_remote hlayout hextended
      exact absurd (hlost.symm.trans (hdecoded.remote.trans hremote)) Bool.false_ne_true
  · exact messageOf_decoded hlayout hvalid

/-- A remote request for eight bytes with a standard identifier. -/
def standardRequest : CanMessage := { standardFrame 0x123 with length := 8, remote := true }

/-- A frame comes in and is read out. -/
def requestSchedule (frame : CanMessage) : List Mcp2515Turn :=
  .event (.receive frame) :: .start .receive :: List.replicate 6 .step

def requestRun (frame : CanMessage) : Mcp2515Host :=
  mcp2515Run openPlan .normal (requestSchedule frame)

/-- An extended data frame is decoded. -/
theorem mcp2515_decoded_extended : ∃ message,
    returned (requestRun (extendedFrame 1)).record = [message] ∧
      Decoded (extendedFrame 1) message := by
  have hall := mcp2515_decoded_iff openPlan .normal (requestSchedule (extendedFrame 1)) (by decide)
  have htaken : (requestRun (extendedFrame 1)).memory.chip.taken = [0] := by decide
  have hframes : (requestRun (extendedFrame 1)).memory.chip.stored.map RxFrame.frame =
      [extendedFrame 1] := by decide
  change List.Forall₂ _ (returned (requestRun (extendedFrame 1)).record)
    (requestRun (extendedFrame 1)).memory.chip.taken at hall
  rw [htaken] at hall
  generalize hreturned : returned (requestRun (extendedFrame 1)).record = messages at hall ⊢
  cases hall with
  | cons hmessage hnone =>
    cases hnone
    obtain ⟨stored, hstored, hdecoded⟩ := hmessage
    refine ⟨_, rfl, ?_⟩
    have hframe : stored.frame = extendedFrame 1 := by
      have hget := congrArg (fun frames => frames[0]?) hframes
      rw [List.getElem?_map] at hget
      change (((requestRun (extendedFrame 1)).memory.chip.stored)[0]?).map _ = _ at hget
      have hsome : ((requestRun (extendedFrame 1)).memory.chip.stored)[0]? = some stored := hstored
      rw [hsome] at hget
      exact Option.some.inj hget
    rw [hframe] at hdecoded
    exact (hdecoded (by decide)).mpr (by decide)

/-- The request comes out as a data frame of eight bytes. -/
theorem mcp2515_misreads_request :
    mcp2515FilterPlan [] = some openPlan ∧ canMessageIsValid standardRequest = true ∧
    (requestRun standardRequest).running = none ∧
    (requestRun standardRequest).memory.chip.stored.map RxFrame.frame = [standardRequest] ∧
    returned (requestRun standardRequest).record = [{ standardRequest with remote := false }] ∧
    ¬ Decoded standardRequest { standardRequest with remote := false } :=
  ⟨rfl, by decide, by decide, by decide, by decide, fun h => Bool.false_ne_true h.remote⟩

end delivery

end Pico
