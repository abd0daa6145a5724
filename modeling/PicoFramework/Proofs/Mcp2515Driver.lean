import PicoFramework.Lib.Device
import PicoFramework.Proofs.Mcp2515Instructions

/-! The driver's calls, one transaction after the other, while the controller goes on by itself. -/

namespace Pico

open Lib.Device Lib.Interleave Lib.Slots Mcp2515Chip

/-- The calls that were made so far, and their answers. -/
abbrev Mcp2515Log := List (Mcp2515Call × Mcp2515Answer)

def mcp2515Driver : Party Mcp2515 Mcp2515Log Mcp2515Call Mcp2515Answer where
  program := mcp2515Program
  commit call answer log := log ++ [(call, answer)]

def mcp2515React (m : Mcp2515) (event : Mcp2515Chip.Event) : Mcp2515 :=
  { m with chip := m.chip.react event }

/-- The messages that `mcp2515_bus_receive` has returned. -/
def returned (log : Mcp2515Log) : List CanMessage :=
  log.filterMap fun
    | (.receive, answer) => answer.message
    | _ => none

/-- The messages that `mcp2515_bus_send` has accepted. -/
def accepted (log : Mcp2515Log) : List CanMessage :=
  log.filterMap fun
    | (.send message, answer) => if answer.result = .ok then some message else none
    | _ => none

theorem returned_append (log log' : Mcp2515Log) :
    returned (log ++ log') = returned log ++ returned log' := List.filterMap_append

theorem accepted_append (log log' : Mcp2515Log) :
    accepted (log ++ log') = accepted log ++ accepted log' := List.filterMap_append

/-- What the driver makes of a frame as it was stored. -/
def messageOf (bytes : Bytes) : CanMessage := readMessage fun i => bytes.getD i.toNat 0

def Mcp2515Chip.messageAt (chip : Mcp2515Chip) (n : ℕ) : Option CanMessage :=
  chip.stored[n]?.map fun frame => messageOf frame.bytes

section reading

variable {registers registers' : Registers}

theorem readMessage_congr
    (h : ∀ i < 13, registers' (UInt8.ofNat i) = registers (UInt8.ofNat i)) :
    readMessage registers' = readMessage registers := by
  have hheader : registers'.read 0 5 = registers.read 0 5 :=
    read_congr fun i hi => by simpa using h i (by omega)
  have hdata : ∀ count ≤ 8, registers'.read 5 count = registers.read 5 count := by
    intro count hcount
    apply read_congr
    intro i hi
    have haddress : (5 : UInt8) + UInt8.ofNat i = UInt8.ofNat (5 + i) := (UInt8.ofNat_add 5 i).symm
    rw [haddress]
    exact h (5 + i) (by omega)
  have hlength : ∀ dlc, (canDlcToLength dlc).toNat ≤ 8 := by
    intro dlc
    unfold canDlcToLength CAN_MAX_DATA_LENGTH
    split
    · decide
    · rw [UInt8.toNat_ofNat']
      omega
  have hread := hdata (mcp2515FrameUnpackHeader (registers.read 0 5)).length.toNat (hlength _)
  simp only [readMessage, MCP2515_FRAME_HEADER_SIZE, hheader, hread]
  rfl

theorem readMessage_registers (chip : Mcp2515Chip) (buffer : RxBuffer) :
    readMessage (fun i => chip.regs (buffer.sidh + i)) = messageOf (chip.rxRegisters buffer) := by
  apply readMessage_congr
  intro i hi
  rw [UInt8.toNat_ofNat', Nat.mod_eq_of_lt (by omega)]
  exact (read_get hi).symm

end reading

section mild

/-- A step that has nothing to do with the frames in the buffers. -/
structure Mild (m m' : Mcp2515) : Prop where
  rx : RxSame m.chip m'.chip
  tx : TxSame m.chip m'.chip
  lastRead : m.chip.lastRead = none → m'.chip.lastRead = none
  initialised : m'.bus.initialised = m.bus.initialised

theorem Mild.refl (m : Mcp2515) : Mild m m := ⟨.refl _, .refl _, id, rfl⟩

theorem Mild.trans {m m' m'' : Mcp2515} (h : Mild m m') (h' : Mild m' m'') : Mild m m'' where
  rx := h.rx.trans h'.rx
  tx := h.tx.trans h'.tx
  lastRead hnone := h'.lastRead (h.lastRead hnone)
  initialised := h'.initialised.trans h.initialised

/-- Mild throughout, whatever comes out. -/
abbrev MildProgram {α : Type} (p : Prog Mcp2515 α) : Prop := Makes Mild (fun _ => True) p

theorem mild_load {α : Type} (f : Mcp2515 → α) : MildProgram (.load f) :=
  ⟨.refl, fun _ => trivial⟩

theorem mild_setBus {f : Mcp2515Bus → Mcp2515Bus}
    (hf : ∀ bus, (f bus).initialised = bus.initialised) : MildProgram (setBus f) :=
  ⟨fun m => ⟨.refl _, .refl _, id, hf m.bus⟩, fun _ => trivial⟩

theorem mild_setStats (f : Mcp2515Stats → Mcp2515Stats) : MildProgram (setStats f) :=
  mild_setBus fun _ => rfl

theorem mild_readRegister (reg : UInt8) : MildProgram (readRegister reg) := by
  refine ⟨fun m => ?_, fun _ => trivial⟩
  obtain ⟨hrx, htx⟩ := readRegister_same m.chip reg
  exact ⟨hrx, htx, fun _ => rfl, rfl⟩

theorem mild_readStatus : MildProgram readStatus := by
  refine ⟨fun m => ?_, fun _ => trivial⟩
  obtain ⟨hrx, htx⟩ := readStatus_same m.chip
  exact ⟨hrx, htx, fun _ => rfl, rfl⟩

theorem mild_bitModify {reg mask value : UInt8} (hplain : Frameless reg)
    (hflags : reg = REG_CANINTF → value = 0 ∧ ∀ buffer : RxBuffer, mask &&& buffer.flag = 0) :
    MildProgram (bitModify reg mask value) := by
  refine ⟨fun m => ?_, fun _ => trivial⟩
  have hsame : RxSame m.chip (m.chip.bitModify reg mask value) ∧
      TxSame m.chip (m.chip.bitModify reg mask value) := bitModify_same hplain hflags
  exact ⟨hsame.1, hsame.2, fun _ => rfl, rfl⟩

theorem mild_switchMode (reqop : UInt8) : MildProgram (switchMode reqop) := by
  have hawait : ∀ attempts, MildProgram (awaitMode reqop attempts) := by
    intro attempts
    induction attempts with
    | zero => exact .pure trivial
    | succ attempts ih =>
      refine (mild_readRegister REG_CANSTAT).bind fun canstat _ => ?_
      split
      · exact .pure trivial
      · exact ih
  refine (mild_bitModify frameless_canctrl fun hreg => ?_).bind fun _ _ => hawait 50
  exact absurd hreg (by decide)

/-- The flags that are to be cleared are none of the receive buffers'. -/
def SparesRx (mask : UInt8) : Prop := ∀ buffer : RxBuffer, mask &&& buffer.flag = 0

theorem SparesRx.or {mask flag : UInt8} (h : SparesRx mask) (hflag : SparesRx flag) :
    SparesRx (mask ||| flag) := by
  intro buffer
  rw [Lib.Bits.set_apart (hflag buffer)]
  exact h buffer

theorem countTransmitted_makes {canintf flag mask : UInt8} (hflag : SparesRx flag)
    (h : SparesRx mask) : Makes Mild SparesRx (countTransmitted canintf flag mask) := by
  unfold countTransmitted
  split
  · exact (mild_setStats _).bind fun _ _ => .pure (h.or hflag)
  · exact .pure h

theorem mild_updateStats : MildProgram updateStats := by
  have hflags : SparesRx 0 ∧ SparesRx CANINTF_TX0IF ∧ SparesRx CANINTF_TX1IF ∧
      SparesRx CANINTF_TX2IF ∧ SparesRx CANINTF_ERRIF := by
    refine ⟨?_, ?_, ?_, ?_, ?_⟩ <;> intro buffer <;> cases buffer <;> decide
  obtain ⟨hzero, htx0, htx1, htx2, herror⟩ := hflags
  have hclear : ∀ mask, SparesRx mask →
      MildProgram (if mask ≠ 0 then bitModify REG_CANINTF mask 0 else pure ⟨⟩) := by
    intro mask hmask
    split
    · exact mild_bitModify frameless_canintf fun _ => ⟨rfl, hmask⟩
    · exact .pure trivial
  refine (mild_readRegister REG_CANINTF).bind fun canintf _ => ?_
  refine (countTransmitted_makes htx0 hzero).bind fun mask0 hmask0 => ?_
  refine (countTransmitted_makes htx1 hmask0).bind fun mask1 hmask1 => ?_
  refine (countTransmitted_makes htx2 hmask1).bind fun mask2 hmask2 => ?_
  dsimp only
  split
  · refine (mild_readRegister REG_EFLG).bind fun eflg _ => ?_
    refine (mild_setStats _).bind fun _ _ => ?_
    refine (mild_bitModify frameless_eflg fun hreg => absurd hreg (by decide)).bind fun _ _ => ?_
    exact hclear _ (hmask2.or herror)
  · exact hclear _ hmask2

end mild

section rules

/-- The frames that the driver's next transaction throws away: what was stored in the buffer that
the last one has read out. -/
def Mcp2515Chip.endangered (chip : Mcp2515Chip) : List ℕ :=
  match chip.lastRead with
  | none => []
  | some buffer => (chip.rx.held buffer).toList

/-- The controller went on. -/
structure Undriven (s t : Mcp2515 × Mcp2515Log) : Prop where
  reacts : Reacts s.1.chip t.1.chip
  sound : Accounts t.1.chip
  bus_eq : t.1.bus = s.1.bus
  log_eq : t.2 = s.2

/-- The driver did. -/
structure Driven (s t : Mcp2515 × Mcp2515Log) : Prop where
  sound : Accounts t.1.chip
  lost_eq : t.1.chip.lost = s.1.chip.lost ++ s.1.chip.endangered

/-- The log and what was last received agree with what was taken from the controller, and the log
and what was last sent with what was handed to it. -/
structure Logged (lastRead : Option RxBuffer) (received sent : List CanMessage)
    (s : Mcp2515 × Mcp2515Log) : Prop where
  sound : Accounts s.1.chip
  lastRead_eq : s.1.chip.lastRead = lastRead
  initialised : s.1.bus.initialised = true
  received_eq : (returned s.2 ++ received).map some = s.1.chip.taken.map s.1.chip.messageAt
  sent_eq : List.Forall₂ (fun message request => txBytes message <+: request.bytes)
    (accepted s.2 ++ sent) s.1.chip.requested

variable {lastRead : Option RxBuffer} {received sent : List CanMessage}
  {s t : Mcp2515 × Mcp2515Log}

theorem messageAt_grown {chip chip' : Mcp2515Chip} (h : chip.stored <+: chip'.stored) {n : ℕ}
    (hn : n < chip.stored.length) : chip'.messageAt n = chip.messageAt n := by
  obtain ⟨rest, hrest⟩ := h
  unfold messageAt
  rw [← hrest, List.getElem?_append_left hn]

theorem taken_lt {chip : Mcp2515Chip} (h : Accounts chip) {n : ℕ} (hn : n ∈ chip.taken) :
    n < chip.stored.length := by
  have hlt := (h.rx.accounted.gone n (List.mem_append_left _ hn)).1
  rwa [rx, List.length_map] at hlt

theorem Logged.undriven (h : Logged lastRead received sent s) (hst : Undriven s t) :
    Logged lastRead received sent t where
  sound := hst.sound
  lastRead_eq := hst.reacts.lastRead.trans h.lastRead_eq
  initialised := (congrArg Mcp2515Bus.initialised hst.bus_eq).trans h.initialised
  received_eq := by
    have htaken : t.1.chip.taken = s.1.chip.taken := hst.reacts.rx.taken
    rw [hst.log_eq, h.received_eq, htaken]
    apply List.map_congr_left
    intro n hn
    exact (messageAt_grown hst.reacts.stored (taken_lt h.sound hn)).symm
  sent_eq := by
    rw [hst.log_eq, hst.reacts.requested]
    exact h.sent_eq

theorem endangered_nil {chip : Mcp2515Chip} (h : chip.lastRead = none) : chip.endangered = [] := by
  unfold endangered
  rw [h]

theorem Logged.driven (h : Logged none received sent s) : Driven s s where
  sound := h.sound
  lost_eq := by rw [endangered_nil h.lastRead_eq, List.append_nil]

theorem Logged.mild (h : Logged none received sent s) {m : Mcp2515} (hm : Mild s.1 m) :
    Driven s (m, s.2) ∧ Logged none received sent (m, s.2) := by
  have hsound : Accounts m.chip := ⟨h.sound.rx.same hm.rx, h.sound.tx.same hm.tx⟩
  have htaken : m.chip.taken = s.1.chip.taken := congrArg Bays.taken hm.rx.rx_eq
  have hlost : m.chip.lost = s.1.chip.lost := congrArg Bays.lost hm.rx.rx_eq
  have hhistory := hm.tx.history_eq
  simp only [txHistory, Prod.mk.injEq] at hhistory
  refine ⟨⟨hsound, ?_⟩, hsound, hm.lastRead h.lastRead_eq, hm.initialised.trans h.initialised,
    ?_, ?_⟩
  · rw [endangered_nil h.lastRead_eq, List.append_nil]
    exact hlost
  · change _ = m.chip.taken.map m.chip.messageAt
    rw [htaken, h.received_eq]
    unfold messageAt
    rw [hm.rx.stored_eq]
  · change List.Forall₂ _ _ m.chip.requested
    rw [hhistory.2.1]
    exact h.sent_eq

theorem mild_wp {α : Type} {p : Prog Mcp2515 α} (hp : MildProgram p) (hst : Driven s t)
    (ht : Logged none received sent t) :
    wp Undriven Driven p (fun _ s t => Driven s t ∧ Logged none received sent t) s t := by
  refine wp_mono (hp.wp (fun s m hs hm => hs.mild hm) (fun s t hs hst => hs.undriven hst) hst ht) ?_
  exact fun _ _ _ hend => hend.2

theorem wp_spi {α : Type} {command : Mcp2515Chip → α × Mcp2515Chip}
    {post : α → Mcp2515 × Mcp2515Log → Mcp2515 × Mcp2515Log → Prop} :
    wp Undriven Driven (spi command) post s t ↔ Driven s t ∧ ∀ u, Undriven t u →
      post (command u.1.chip).1 u ({ u.1 with chip := (command u.1.chip).2 }, u.2) := Iff.rfl

theorem Logged.commit {call : Mcp2515Call} {answer : Mcp2515Answer}
    (h : Logged none received sent t) (hreturned : returned [(call, answer)] = received)
    (haccepted : accepted [(call, answer)] = sent) :
    Logged none [] [] (t.1, t.2 ++ [(call, answer)]) where
  sound := h.sound
  lastRead_eq := h.lastRead_eq
  initialised := h.initialised
  received_eq := by
    rw [returned_append, hreturned, List.append_nil]
    exact h.received_eq
  sent_eq := by
    rw [accepted_append, haccepted, List.append_nil]
    exact h.sent_eq

end rules

section receiving

variable {lastRead : Option RxBuffer} {received sent : List CanMessage}
  {s t : Mcp2515 × Mcp2515Log} {buffer : RxBuffer} {k : ℕ}

/-- The buffer that `mcp2515_bus_receive` reads, by the status. -/
def chooseRxBuffer (status : UInt8) : Option RxBuffer :=
  if status &&& STATUS_RX0IF ≠ 0 then some .rxb0
  else if status &&& STATUS_RX1IF ≠ 0 then some .rxb1
  else none

/-- `RXB0` goes first. -/
theorem chooseRxBuffer_status (chip : Mcp2515Chip) :
    match chooseRxBuffer chip.readStatus.1 with
    | none => chip.full .rxb0 = false ∧ chip.full .rxb1 = false
    | some .rxb0 => chip.full .rxb0 = true
    | some .rxb1 => chip.full .rxb0 = false ∧ chip.full .rxb1 = true := by
  obtain ⟨hrx0, hrx1, -⟩ := readStatus_bits chip
  unfold chooseRxBuffer
  simp only [hrx0, hrx1]
  cases chip.full .rxb0 <;> cases chip.full .rxb1 <;> simp

theorem Logged.read (h : Logged none [] sent s) (hk : s.1.chip.rx.held buffer = some k)
    (hfirst : ∀ k m, buffer = .rxb1 → s.1.chip.rx.held .rxb1 = some k →
      s.1.chip.rx.held .rxb0 = some m → k < m) :
    let outcome := s.1.chip.readRxBuffer buffer readMessage
    Driven s ({ s.1 with chip := outcome.2 }, s.2) ∧
      Logged (some buffer) [outcome.1] sent ({ s.1 with chip := outcome.2 }, s.2) := by
  intro outcome
  have hrx : outcome.2.rx = s.1.chip.rx.take buffer := readRxBuffer_rx buffer readMessage
  have htaken : outcome.2.taken = s.1.chip.taken ++ [k] := by
    have htaken := congrArg Bays.taken hrx
    rw [Bays.take, hk] at htaken
    exact htaken
  have hsound : Accounts outcome.2 :=
    ⟨h.sound.rx.read readMessage hfirst, h.sound.tx.same (readRxBuffer_tx buffer readMessage)⟩
  have hmessage : s.1.chip.messageAt k = some outcome.1 := by
    have hcontent := h.sound.rx.content buffer k hk
    obtain ⟨frame, hframe, hbytes⟩ := Option.map_eq_some_iff.mp hcontent
    have houtcome : outcome.1 = messageOf (s.1.chip.rxRegisters buffer) :=
      readMessage_registers s.1.chip buffer
    rw [houtcome, ← hbytes]
    unfold messageAt
    rw [hframe]
    rfl
  refine ⟨⟨hsound, ?_⟩, hsound, rfl, h.initialised, ?_, h.sent_eq⟩
  · rw [endangered_nil h.lastRead_eq, List.append_nil]
    rfl
  · change (returned s.2 ++ [outcome.1]).map some = outcome.2.taken.map s.1.chip.messageAt
    rw [htaken, List.map_append, List.map_append, List.map_singleton, List.map_singleton, hmessage,
      ← h.received_eq, List.append_nil]

theorem Logged.clear (h : Logged (some buffer) received sent s) :
    let chip := s.1.chip.bitModify REG_CANINTF buffer.flag 0
    Driven s ({ s.1 with chip := chip }, s.2) ∧
      Logged none received sent ({ s.1 with chip := chip }, s.2) := by
  intro chip
  have hsound : Accounts chip :=
    ⟨h.sound.rx.clear buffer, h.sound.tx.same (bitModify_drop_tx buffer)⟩
  refine ⟨⟨hsound, ?_⟩, hsound, rfl, h.initialised, h.received_eq, h.sent_eq⟩
  have hlost : chip.lost = s.1.chip.lost ++ (s.1.chip.rx.held buffer).toList :=
    congrArg Bays.lost (bitModify_drop buffer)
  unfold endangered
  rw [h.lastRead_eq]
  exact hlost

/-- What `mcp2515_bus_receive` does with the buffer that it has chosen. -/
def readOut (buffer : RxBuffer) : Prog Mcp2515 Mcp2515Answer := do
  let message ← spi (Mcp2515Chip.readRxBuffer buffer readMessage)
  bitModify REG_CANINTF buffer.flag 0
  setStats fun stats => { stats with received := stats.received + 1 }
  pure { Mcp2515Answer.of .ok with message := some message }

theorem mcp2515BusReceive_eq : mcp2515BusReceive = (do
    let bus ← .load Mcp2515.bus
    if !bus.initialised then pure (.of .errNotInitialised)
    else
      updateStats
      let status ← readStatus
      match chooseRxBuffer status with
      | none => pure (.of .errRxEmpty)
      | some buffer => readOut buffer) := rfl

theorem readOut_spec (hst : Driven s t) (h : Logged none [] [] t)
    (hk : t.1.chip.rx.held buffer = some k)
    (hempty : buffer = .rxb1 → t.1.chip.rx.held .rxb0 = none) :
    wp Undriven Driven (readOut buffer)
      (fun answer s t => Driven s t ∧ Logged none answer.message.toList [] t) s t := by
  unfold readOut
  rw [wp_bind, wp_spi]
  refine ⟨hst, fun u hu => ?_⟩
  have hnow := h.undriven hu
  have hheld := hu.reacts.rx.held buffer k hk
  obtain ⟨hread, hafter⟩ := hnow.read hheld (by
    intro k' m hbuffer hk' hm
    -- what is in `RXB0` has come since the status was read
    subst hbuffer
    obtain rfl := Option.some.inj (hheld.symm.trans hk')
    have hlt := h.sound.rx.accounted.lt hk
    rcases hu.reacts.rx.fresh .rxb0 m hm with hold | hfresh
    · exact absurd ((hempty rfl).symm.trans hold) (Option.some_ne_none m).symm
    · exact hlt.trans_le hfresh)
  rw [wp_bind]
  refine wp_spi.mpr ⟨hread, fun v hv => ?_⟩
  obtain ⟨hclear, hdone⟩ := (hafter.undriven hv).clear
  rw [wp_bind]
  refine wp_mono (mild_wp (mild_setStats _) hclear hdone) fun _ s' t' hend => ?_
  exact hend

theorem mcp2515BusReceive_spec (h : Logged none [] [] s) :
    wp Undriven Driven mcp2515BusReceive
      (fun answer s t => Driven s t ∧ Logged none answer.message.toList [] t) s s := by
  rw [mcp2515BusReceive_eq, wp_bind, wp_load]
  refine ⟨h.driven, fun t ht => ?_⟩
  have hstart := h.undriven ht
  rw [hstart.initialised, Bool.not_true, if_neg Bool.false_ne_true, wp_bind]
  refine wp_mono (mild_wp mild_updateStats hstart.driven hstart) fun _ s' t' hstats => ?_
  obtain ⟨hdriven, hlogged⟩ := hstats
  rw [wp_bind]
  refine wp_spi.mpr ⟨hdriven, fun u hu => ?_⟩
  obtain ⟨hstatusRx, hstatusTx⟩ := readStatus_same u.1.chip
  obtain ⟨hread, hafter⟩ := (hlogged.undriven hu).mild
    (m := { u.1 with chip := u.1.chip.readStatus.2 }) ⟨hstatusRx, hstatusTx, fun _ => rfl, rfl⟩
  have hchosen := chooseRxBuffer_status u.1.chip
  change wp Undriven Driven (match chooseRxBuffer u.1.chip.readStatus.1 with
    | none => pure (.of .errRxEmpty)
    | some buffer => readOut buffer) _ u _
  match hbuffer : chooseRxBuffer u.1.chip.readStatus.1 with
  | none => exact ⟨hread, hafter⟩
  | some .rxb0 =>
    rw [hbuffer] at hchosen
    exact readOut_spec hread hafter (rx_held_of_full hchosen) nofun
  | some .rxb1 =>
    rw [hbuffer] at hchosen
    exact readOut_spec hread hafter (rx_held_of_full hchosen.2)
      fun _ => rx_held_of_not_full hchosen.1

end receiving

section sending

variable {s t : Mcp2515 × Mcp2515Log} {n : TxBuffer} {message : CanMessage}

theorem txBytes_length (message : CanMessage) : (txBytes message).length ≤ 13 := by
  have hdata : message.data.length = 8 := message.data_length
  have hdata' : (if !message.remote && message.length > 0 then
      message.data.take message.length.toNat else []).length ≤ 8 := by
    split
    · rw [List.length_take]
      omega
    · exact Nat.zero_le _
  unfold txBytes mcp2515FramePackHeader
  rw [List.length_append, List.length_append, packId_length, List.length_singleton]
  omega

theorem chooseTxBuffer_idle {next : UInt8} {chip : Mcp2515Chip}
    (h : chooseTxBuffer next chip.readStatus.1 = some n) : chip.txreq n = false := by
  obtain ⟨-, -, htx⟩ := readStatus_bits chip
  have hfound := List.find?_some h
  rw [decide_eq_true_eq] at hfound
  exact (htx n).mp hfound

theorem Logged.request (h : Logged none [] [] s) (hidle : s.1.chip.txreq n = false)
    (hbytes : txBytes message <+: s.1.chip.txRegisters n) :
    let chip := s.1.chip.requestToSend n
    Driven s ({ s.1 with chip := chip }, s.2) ∧
      Logged none [] [message] ({ s.1 with chip := chip }, s.2) := by
  intro chip
  have hrx : RxSame s.1.chip chip := requestToSend_rx n
  have hsound : Accounts chip := ⟨h.sound.rx.same hrx, h.sound.tx.request hidle⟩
  refine ⟨⟨hsound, ?_⟩, hsound, rfl, h.initialised, h.received_eq, ?_⟩
  · rw [endangered_nil h.lastRead_eq, List.append_nil]
    rfl
  · rw [← List.append_nil (accepted s.2)]
    exact List.rel_append (List.append_nil (accepted s.2) ▸ h.sent_eq) (.cons hbytes .nil)

/-- What `mcp2515_bus_send` does with the buffer that it has chosen. -/
def handOver (message : CanMessage) (n : TxBuffer) : Prog Mcp2515 Mcp2515Answer := do
  spi fun chip => (PUnit.unit, chip.loadTxBuffer n (txBytes message))
  spi fun chip => (PUnit.unit, chip.requestToSend n)
  setBus fun bus => { bus with nextTxBuffer := UInt8.ofNat ((n.val + 1) % 3) }
  pure (.of .ok)

theorem handOver_spec (hst : Driven s t) (h : Logged none [] [] t)
    (hidle : t.1.chip.txreq n = false) :
    wp Undriven Driven (handOver message n)
      (fun answer s t => answer = .of .ok ∧ Driven s t ∧ Logged none [] [message] t) s t := by
  have hlength := txBytes_length message
  unfold handOver
  rw [wp_bind, wp_spi]
  refine ⟨hst, fun u hu => ?_⟩
  have hfree := hu.reacts.idle n hidle
  obtain ⟨hload, hloaded⟩ := (h.undriven hu).mild
    (m := { u.1 with chip := u.1.chip.loadTxBuffer n (txBytes message) })
    ⟨loadTxBuffer_rx hlength, loadTxBuffer_tx hlength hfree, fun _ => rfl, rfl⟩
  rw [wp_bind, wp_spi]
  refine ⟨hload, fun v hv => ?_⟩
  have hbytes : txBytes message <+: v.1.chip.txRegisters n := by
    rw [hv.reacts.registers n]
    exact loadTxBuffer_registers hlength
  obtain ⟨hrequest, hrequested⟩ := (hloaded.undriven hv).request
    (hv.reacts.idle n ((loadTxBuffer_txreq hlength n).trans hfree)) hbytes
  rw [wp_bind]
  refine wp_mono (mild_wp (mild_setBus fun _ => rfl) hrequest hrequested) fun _ s' t' hend => ?_
  exact ⟨rfl, hend⟩

theorem mcp2515BusSend_eq (message : CanMessage) : mcp2515BusSend message = (do
    let bus ← .load Mcp2515.bus
    if !canMessageIsValid message then pure (.of .errInvalidArg)
    else if !bus.initialised then pure (.of .errNotInitialised)
    else if bus.mode = .listenOnly then pure (.of .errMonitorMode)
    else
      let status ← readStatus
      match chooseTxBuffer bus.nextTxBuffer status with
      | none => pure (.of .errTxFull)
      | some n => handOver message n) := rfl

theorem mcp2515BusSend_spec (h : Logged none [] [] s) :
    wp Undriven Driven (mcp2515BusSend message)
      (fun answer s t => answer.message = none ∧ Driven s t ∧
        Logged none [] (if answer.result = .ok then [message] else []) t) s s := by
  rw [mcp2515BusSend_eq, wp_bind, wp_load]
  refine ⟨h.driven, fun t ht => ?_⟩
  have hstart := h.undriven ht
  split
  · exact ⟨rfl, hstart.driven, hstart⟩
  split
  · exact ⟨rfl, hstart.driven, hstart⟩
  split
  · exact ⟨rfl, hstart.driven, hstart⟩
  rw [wp_bind]
  refine wp_spi.mpr ⟨hstart.driven, fun u hu => ?_⟩
  obtain ⟨hstatusRx, hstatusTx⟩ := readStatus_same u.1.chip
  obtain ⟨hread, hafter⟩ := (hstart.undriven hu).mild
    (m := { u.1 with chip := u.1.chip.readStatus.2 }) ⟨hstatusRx, hstatusTx, fun _ => rfl, rfl⟩
  dsimp only
  cases hbuffer : chooseTxBuffer t.1.bus.nextTxBuffer u.1.chip.readStatus.1 with
  | none => exact ⟨rfl, hread, hafter⟩
  | some n =>
    refine wp_mono (handOver_spec hread hafter (chooseTxBuffer_idle hbuffer)) fun answer s' t' => ?_
    rintro ⟨rfl, hend⟩
    exact ⟨rfl, hend⟩

end sending

section driver

variable {s : Mcp2515 × Mcp2515Log}

theorem mild_calls (call : Mcp2515Call) :
    match call with
    | .send _ => True
    | .receive => True
    | call => MildProgram (mcp2515Program call) := by
  cases call with
  | send message => trivial
  | receive => trivial
  | canSend =>
    refine (mild_load Mcp2515.bus).bind fun bus _ => ?_
    split
    · exact .pure trivial
    · exact mild_readStatus.bind fun _ _ => .pure trivial
  | available =>
    refine (mild_load Mcp2515.bus).bind fun bus _ => ?_
    split
    · exact .pure trivial
    · exact mild_readStatus.bind fun _ _ => .pure trivial
  | setMode mode =>
    refine (mild_load Mcp2515.bus).bind fun bus _ => ?_
    split
    · exact .pure trivial
    · refine (mild_switchMode _).bind fun result _ => ?_
      dsimp only
      split
      · have hset : MildProgram (setBus fun bus => { bus with mode := mode }) :=
          mild_setBus fun _ => rfl
        exact hset.bind fun _ _ => .pure trivial
      · have hnothing : MildProgram (pure PUnit.unit) := .pure trivial
        exact hnothing.bind fun _ _ => .pure trivial
  | getStats =>
    refine (mild_load Mcp2515.bus).bind fun bus _ => ?_
    split
    · exact .pure trivial
    · refine mild_updateStats.bind fun _ _ => ?_
      exact (mild_load Mcp2515.bus).bind fun _ _ => .pure trivial
  | clearStats => exact (mild_setStats _).bind fun _ _ => .pure trivial

/-- Every call keeps the account, whatever happens while it runs. -/
theorem mcp2515Driver_fulfilled : Fulfilled mcp2515Driver Undriven Driven (Logged none [] []) := by
  have hmild : ∀ call s, Logged none [] [] s → MildProgram (mcp2515Program call) →
      (∀ answer, returned [(call, answer)] = [] ∧ accepted [(call, answer)] = []) →
      wp Undriven Driven (mcp2515Program call) (fun answer s t =>
        Driven s (t.1, t.2 ++ [(call, answer)]) ∧
          Logged none [] [] (t.1, t.2 ++ [(call, answer)])) s s := by
    intro call s hs hprogram hlog
    refine wp_mono (mild_wp hprogram hs.driven hs) fun answer s' t' hend => ?_
    obtain ⟨hdriven, hlogged⟩ := hend
    exact ⟨⟨hdriven.sound, hdriven.lost_eq⟩, hlogged.commit (hlog answer).1 (hlog answer).2⟩
  intro call s hs
  cases call with
  | send message =>
    refine wp_mono (mcp2515BusSend_spec hs) fun answer s' t' hend => ?_
    obtain ⟨-, hdriven, hlogged⟩ := hend
    refine ⟨⟨hdriven.sound, hdriven.lost_eq⟩, hlogged.commit rfl ?_⟩
    unfold accepted
    split <;> rename_i hresult <;> simp [hresult]
  | receive =>
    refine wp_mono (mcp2515BusReceive_spec hs) fun answer s' t' hend => ?_
    obtain ⟨hdriven, hlogged⟩ := hend
    refine ⟨⟨hdriven.sound, hdriven.lost_eq⟩, hlogged.commit ?_ rfl⟩
    unfold returned
    cases hmessage : answer.message <;> simp [hmessage]
  | canSend => exact hmild _ s hs (mild_calls .canSend) fun _ => ⟨rfl, rfl⟩
  | available => exact hmild _ s hs (mild_calls .available) fun _ => ⟨rfl, rfl⟩
  | setMode mode => exact hmild _ s hs (mild_calls (.setMode mode)) fun _ => ⟨rfl, rfl⟩
  | getStats => exact hmild _ s hs (mild_calls .getStats) fun _ => ⟨rfl, rfl⟩
  | clearStats => exact hmild _ s hs (mild_calls .clearStats) fun _ => ⟨rfl, rfl⟩

theorem mcp2515_attuned :
    Attuned mcp2515React (fun s => Accounts s.1.chip) (Logged none [] []) Undriven Driven where
  inv_rely _ _ h := h.sound
  inv_guar _ _ h := h.sound
  refl _ h := ⟨.refl _, h, rfl, rfl⟩
  trans _ _ _ h h' :=
    ⟨h.reacts.trans h'.reacts, h'.sound, h'.bus_eq.trans h.bus_eq, h'.log_eq.trans h.log_eq⟩
  rest_rely _ _ hs hst := hs.undriven hst
  event _ event h :=
    let ⟨hreacts, hsound⟩ := h.react event
    ⟨hreacts, hsound, rfl, rfl⟩

/-- Whatever the calls and the arrivals. -/
def mcp2515Run (plan : Mcp2515FilterPlan) (mode : Mcp2515Mode)
    (schedule : List (Turn Mcp2515Call Mcp2515Chip.Event)) :
    Host Mcp2515 Mcp2515Log Mcp2515Call Mcp2515Answer :=
  (Host.idle (mcp2515Started plan mode) []).turns mcp2515Driver mcp2515React schedule

/-- Where the driver and its controller are in any run. -/
abbrev Mcp2515Attended (w : Host Mcp2515 Mcp2515Log Mcp2515Call Mcp2515Answer) : Prop :=
  Attended mcp2515Driver (fun s => Accounts s.1.chip) (Logged none [] []) Undriven Driven w

theorem logged_of_idle {w : Host Mcp2515 Mcp2515Log Mcp2515Call Mcp2515Answer}
    (h : Mcp2515Attended w) (hidle : w.running = none) :
    Logged none [] [] (w.memory, w.record) := by
  have hpoised := h.poised
  rw [hidle] at hpoised
  exact hpoised

theorem Logged.returned_eq {m : Mcp2515} {log : Mcp2515Log} (h : Logged none [] [] (m, log)) :
    (returned log).map some = m.chip.taken.map m.chip.messageAt := by
  have hreceived := h.received_eq
  rwa [List.append_nil] at hreceived

/-- No frame has been seen yet. -/
structure NoFrames (m : Mcp2515) : Prop where
  flags : m.chip.regs REG_CANINTF = 0
  requests : ∀ n : TxBuffer, m.chip.regs n.ctrl = 0
  rxHistory : m.chip.rxHistory = ([], fun _ => 0, [], [])
  txHistory : m.chip.txHistory = (none, [], fun _ => 0, [])
  lastRead : m.chip.lastRead = none
  initialised : m.bus.initialised = true

theorem NoFrames.logged {m : Mcp2515} (h : NoFrames m) : Logged none [] [] (m, []) := by
  have hrx := h.rxHistory
  have htx := h.txHistory
  simp only [Mcp2515Chip.rxHistory, Mcp2515Chip.txHistory, Prod.mk.injEq] at hrx htx
  obtain ⟨hstored, -, htaken, hlost⟩ := hrx
  obtain ⟨htransmitting, hrequested, -, hsent⟩ := htx
  have hfull : ∀ buffer, m.chip.rx.held buffer = none := by
    intro buffer
    apply rx_held_of_not_full
    unfold full
    rw [h.flags, UInt8.zero_and]
    rfl
  have hreq : ∀ n, m.chip.tx.held n = none := by
    intro n
    apply tx_held_of_not_txreq
    unfold txreq
    rw [h.requests, UInt8.zero_and]
    rfl
  refine ⟨⟨⟨?_, ?_, ?_⟩, ⟨?_, ?_, ?_, ?_, ?_⟩⟩, h.lastRead, h.initialised, ?_, ?_⟩
  · exact .empty hfull (by simp [rx, hstored]) htaken hlost
  · exact .empty htaken
  · exact fun buffer k hk => absurd ((hfull buffer).symm.trans hk) (Option.some_ne_none k).symm
  · exact .empty hreq (by simp [tx, hrequested]) (by simp [tx, hsent]) rfl
  · exact .empty (by simp [tx, hsent])
  · exact fun n k hk => absurd ((hreq n).symm.trans hk) (Option.some_ne_none k).symm
  · simp [hsent]
  · simp [htransmitting]
  · rw [htaken]
    rfl
  · rw [hrequested]
    exact .nil

theorem noFrames_writeRegisters {reg : UInt8} {values : Bytes} {count : ℕ}
    (hlength : values.length = count)
    (hapart : ∀ i < count, REG_CANINTF ≠ reg + UInt8.ofNat i ∧
      ∀ n : TxBuffer, n.ctrl ≠ reg + UInt8.ofNat i) :
    Makes (fun m m' => NoFrames m → NoFrames m') (fun _ => True) (writeRegisters reg values) := by
  refine ⟨fun m h => ?_, fun _ => trivial⟩
  refine ⟨?_, fun n => ?_, h.rxHistory, h.txHistory, rfl, h.initialised⟩
  · change m.chip.regs.write reg values REG_CANINTF = 0
    rw [write_other fun i hi => (hapart i (hlength ▸ hi)).1, h.flags]
  · change m.chip.regs.write reg values n.ctrl = 0
    rw [write_other fun i hi => (hapart i (hlength ▸ hi)).2 n, h.requests]

theorem configureFilters_makes (plan : Mcp2515FilterPlan) :
    Makes (fun m m' => NoFrames m → NoFrames m') (fun _ => True) (configureFilters plan) := by
  have hslots : ∀ slots : List (Fin 6),
      Makes (fun m m' => NoFrames m → NoFrames m') (fun _ => True)
        (slots.forM fun slot => writeFilter (filterReg slot) (plan.filterId slot)) := by
    have hapart : ∀ slot : Fin 6, ∀ i < 4, REG_CANINTF ≠ filterReg slot + UInt8.ofNat i ∧
        ∀ n : TxBuffer, n.ctrl ≠ filterReg slot + UInt8.ofNat i := by decide
    intro slots
    induction slots with
    | nil => exact .pure trivial
    | cons slot slots ih =>
      exact (noFrames_writeRegisters (packId_length _) (hapart slot)).bind fun _ _ => ih
  unfold configureFilters
  split
  · refine (noFrames_writeRegisters rfl (by decide)).bind fun _ _ => ?_
    exact noFrames_writeRegisters rfl (by decide)
  · refine (hslots _).bind fun _ _ => ?_
    refine (noFrames_writeRegisters (packId_length _) (by decide)).bind fun _ _ => ?_
    refine (noFrames_writeRegisters (packId_length _) (by decide)).bind fun _ _ => ?_
    refine (noFrames_writeRegisters rfl (by decide)).bind fun _ _ => ?_
    exact noFrames_writeRegisters rfl (by decide)

theorem mcp2515Started_noFrames (plan : Mcp2515FilterPlan) (mode : Mcp2515Mode) :
    NoFrames (mcp2515Started plan mode) := by
  have hrun := (configureFilters_makes plan).run (fun _ => id) (fun _ _ _ h h' hm => h' (h hm))
    { bus := ⟨mode, 0, ⟨0, 0, 0, 0, 0⟩, true⟩, chip := Mcp2515Chip.reset }
  apply hrun.2
  have hreset : Mcp2515Chip.reset.regs REG_CANINTF = 0 ∧
      ∀ n : TxBuffer, Mcp2515Chip.reset.regs n.ctrl = 0 := by decide
  exact ⟨hreset.1, hreset.2, rfl, rfl, rfl, rfl⟩

theorem mcp2515Run_attended (plan : Mcp2515FilterPlan) (mode : Mcp2515Mode)
    (schedule : List (Turn Mcp2515Call Mcp2515Chip.Event)) :
    Mcp2515Attended (mcp2515Run plan mode schedule) := by
  have hstart := (mcp2515Started_noFrames plan mode).logged
  refine Attended.turns mcp2515_attuned mcp2515Driver_fulfilled ?_ schedule
  exact ⟨hstart.sound, hstart⟩

end driver

end Pico
