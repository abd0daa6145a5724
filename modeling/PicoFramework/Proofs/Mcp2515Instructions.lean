import PicoFramework.Proofs.Mcp2515Chip
import PicoFramework.Spec.Mcp2515

/-! What each SPI instruction does to the frames in the controller's buffers. -/

namespace Pico

open Lib.Bits Lib.Slots

theorem packId_length (packed : UInt32) : (mcp2515FramePackId packed).length = 4 := by
  unfold mcp2515FramePackId
  dsimp only
  split <;> rfl

namespace Mcp2515Chip

section reading

variable (chip : Mcp2515Chip)

theorem readRegister_same (reg : UInt8) :
    RxSame chip (chip.readRegister reg).2 ∧ TxSame chip (chip.readRegister reg).2 :=
  ⟨⟨rfl, rfl, fun _ => rfl⟩, rfl, rfl, fun _ _ _ => rfl⟩

theorem readStatus_same : RxSame chip chip.readStatus.2 ∧ TxSame chip chip.readStatus.2 :=
  ⟨⟨rfl, rfl, fun _ => rfl⟩, rfl, rfl, fun _ _ _ => rfl⟩

/-- The status byte, of its flags and pending requests. -/
def statusByte (rx0 rx1 req0 req1 req2 tx0 tx1 tx2 : Bool) : UInt8 :=
  let bit (set : Bool) (mask : UInt8) : UInt8 := if set then mask else 0
  bit rx0 STATUS_RX0IF ||| bit rx1 STATUS_RX1IF ||| bit req0 STATUS_TXREQ0 ||| bit tx0 0x08 |||
    bit req1 STATUS_TXREQ1 ||| bit tx1 0x20 ||| bit req2 STATUS_TXREQ2 ||| bit tx2 0x80

theorem readStatus_eq : chip.readStatus.1 =
    statusByte (chip.full .rxb0) (chip.full .rxb1) (chip.txreq 0) (chip.txreq 1) (chip.txreq 2)
      (chip.regs REG_CANINTF &&& CANINTF_TX0IF ≠ 0) (chip.regs REG_CANINTF &&& CANINTF_TX1IF ≠ 0)
      (chip.regs REG_CANINTF &&& CANINTF_TX2IF ≠ 0) := by
  unfold statusByte full
  simp only [decide_eq_true_eq]
  rfl

theorem readStatus_bits :
    (chip.readStatus.1 &&& STATUS_RX0IF ≠ 0 ↔ chip.full .rxb0 = true) ∧
    (chip.readStatus.1 &&& STATUS_RX1IF ≠ 0 ↔ chip.full .rxb1 = true) ∧
    ∀ n, chip.readStatus.1 &&& TXREQ_BIT n = 0 ↔ chip.txreq n = false := by
  have hbits : ∀ rx0 rx1 req0 req1 req2 tx0 tx1 tx2 : Bool,
      let status := statusByte rx0 rx1 req0 req1 req2 tx0 tx1 tx2
      (status &&& STATUS_RX0IF ≠ 0 ↔ rx0 = true) ∧ (status &&& STATUS_RX1IF ≠ 0 ↔ rx1 = true) ∧
      ∀ n, status &&& TXREQ_BIT n = 0 ↔ ![req0, req1, req2] n = false := by
    decide
  have hpending : ∀ n, ![chip.txreq 0, chip.txreq 1, chip.txreq 2] n = chip.txreq n := by
    intro n
    fin_cases n <;> rfl
  rw [readStatus_eq]
  obtain ⟨hrx0, hrx1, htx⟩ := hbits (chip.full .rxb0) (chip.full .rxb1) (chip.txreq 0)
    (chip.txreq 1) (chip.txreq 2) _ _ _
  exact ⟨hrx0, hrx1, fun n => hpending n ▸ htx n⟩

end reading

section modifying

variable {chip : Mcp2515Chip}

theorem bitModify_same {reg mask value : UInt8} (hplain : Frameless reg)
    (hflags : reg = REG_CANINTF → value = 0 ∧ ∀ buffer : RxBuffer, mask &&& buffer.flag = 0) :
    RxSame chip (chip.bitModify reg mask value) ∧ TxSame chip (chip.bitModify reg mask value) := by
  have hfull : ∀ buffer : RxBuffer,
      (chip.bitModify reg mask value).regs REG_CANINTF &&& buffer.flag =
        chip.regs REG_CANINTF &&& buffer.flag := by
    intro buffer
    change Function.update chip.regs reg _ REG_CANINTF &&& _ = _
    by_cases hreg : REG_CANINTF = reg
    · subst hreg
      obtain ⟨rfl, hmask⟩ := hflags rfl
      rw [Function.update_self, clear_apart (hmask buffer)]
    · rw [Function.update_of_ne hreg]
  have hlost : (chip.bitModify reg mask value).lost = chip.lost := by
    have hnone : ∀ buffer : RxBuffer,
        (chip.full buffer && !(chip.bitModify reg mask value).full buffer) = false := by
      intro buffer
      have hsame : (chip.bitModify reg mask value).full buffer = chip.full buffer := by
        unfold full
        rw [hfull]
      rw [hsame, Bool.and_not_self]
    have hcleared : ([.rxb0, .rxb1] : List RxBuffer).filter (fun buffer =>
        chip.full buffer && !(chip.bitModify reg mask value).full buffer) = [] :=
      List.filter_eq_nil_iff.mpr fun buffer _ => by simp [hnone buffer]
    change chip.lost ++ (List.filter (fun buffer =>
      chip.full buffer && !(chip.bitModify reg mask value).full buffer) _).map chip.held = _
    rw [hcleared, List.map_nil, List.append_nil]
  refine ⟨.of ?_ hfull fun buffer => ?_, .update hplain rfl rfl⟩
  · unfold rxHistory
    rw [hlost]
    rfl
  · exact read_update (hplain.1 buffer)

theorem clear_flag (flags : UInt8) (buffer other : RxBuffer) :
    (flags &&& ~~~buffer.flag) &&& other.flag ≠ 0 ↔ other ≠ buffer ∧ flags &&& other.flag ≠ 0 := by
  revert flags
  cases buffer <;> cases other <;> exact forall_byte (by decide)

theorem held_of_clear (chip chip' : Mcp2515Chip) {buffer : RxBuffer} (hheld : chip'.held = chip.held)
    (hflags : chip'.regs REG_CANINTF = chip.regs REG_CANINTF &&& ~~~buffer.flag) :
    chip'.rx.held = Function.update chip.rx.held buffer none := by
  have hfull : ∀ other, chip'.full other = (decide (other ≠ buffer) && chip.full other) := by
    intro other
    rw [Bool.eq_iff_iff, Bool.and_eq_true, decide_eq_true_eq]
    unfold full
    rw [decide_eq_true_eq, decide_eq_true_eq, hflags]
    exact clear_flag _ _ _
  funext other
  change (if chip'.full other = true then some (chip'.held other) else none) = _
  rw [hfull, hheld]
  by_cases hsame : other = buffer
  · simp [hsame]
  · rw [Function.update_of_ne hsame, decide_eq_true hsame, Bool.true_and]
    rfl

theorem bitModify_drop (buffer : RxBuffer) :
    (chip.bitModify REG_CANINTF buffer.flag 0).rx = chip.rx.drop buffer := by
  have hflags : (chip.bitModify REG_CANINTF buffer.flag 0).regs REG_CANINTF =
      chip.regs REG_CANINTF &&& ~~~buffer.flag := by
    change Function.update chip.regs REG_CANINTF
      (chip.regs REG_CANINTF &&& ~~~buffer.flag ||| (0 &&& buffer.flag)) REG_CANINTF = _
    rw [Function.update_self, UInt8.zero_and, UInt8.or_zero]
  have hheld := held_of_clear chip (chip.bitModify REG_CANINTF buffer.flag 0) rfl hflags
  apply Bays.ext
  · rfl
  · exact hheld
  · rfl
  · have hcleared : ∀ other, (chip.full other &&
        !(chip.bitModify REG_CANINTF buffer.flag 0).full other) =
        (decide (other = buffer) && chip.full other) := by
      intro other
      have hother := congrFun hheld other
      cases hnow : chip.full other with
      | false => rw [Bool.false_and, Bool.and_false]
      | true =>
        by_cases hsame : other = buffer
        · subst hsame
          rw [Function.update_self] at hother
          cases hafter : (chip.bitModify REG_CANINTF other.flag 0).full other with
          | false => simp
          | true => exact absurd ((rx_held_of_full hafter).symm.trans hother) (by simp)
        · rw [Function.update_of_ne hsame, rx_held_of_full hnow] at hother
          rw [(full_of_rx_held hother).1, decide_eq_false hsame]
          rfl
    change chip.lost ++ (List.filter (fun other =>
      chip.full other && !(chip.bitModify REG_CANINTF buffer.flag 0).full other)
        [.rxb0, .rxb1]).map chip.held = chip.lost ++ (chip.rx.held buffer).toList
    simp only [hcleared]
    congr 1
    cases hfull : chip.full buffer with
    | false =>
      rw [rx_held_of_not_full hfull]
      cases buffer <;> simp [hfull]
    | true =>
      rw [rx_held_of_full hfull]
      cases buffer <;> simp [hfull]

theorem bitModify_drop_registers (buffer other : RxBuffer) :
    (chip.bitModify REG_CANINTF buffer.flag 0).rxRegisters other = chip.rxRegisters other :=
  read_update (frameless_canintf.1 other)

theorem bitModify_drop_tx (buffer : RxBuffer) :
    TxSame chip (chip.bitModify REG_CANINTF buffer.flag 0) :=
  .update frameless_canintf rfl rfl

theorem readRxBuffer_rx {α : Type} (buffer : RxBuffer) (reader : Registers → α) :
    (chip.readRxBuffer buffer reader).2.rx = chip.rx.take buffer := by
  have hflags : (chip.readRxBuffer buffer reader).2.regs REG_CANINTF =
      chip.regs REG_CANINTF &&& ~~~buffer.flag := by
    change Function.update chip.regs REG_CANINTF (chip.regs REG_CANINTF &&& ~~~buffer.flag)
      REG_CANINTF = _
    rw [Function.update_self]
  have hheld := held_of_clear chip (chip.readRxBuffer buffer reader).2 rfl hflags
  apply Bays.ext
  · rfl
  · exact hheld
  · change (if chip.full buffer = true then chip.taken ++ [chip.held buffer] else chip.taken) =
      chip.taken ++ (chip.rx.held buffer).toList
    cases hfull : chip.full buffer with
    | false =>
      rw [rx_held_of_not_full hfull, if_neg Bool.false_ne_true, Option.toList_none, List.append_nil]
    | true => rw [rx_held_of_full hfull, if_pos rfl, Option.toList_some]
  · rfl

theorem readRxBuffer_registers {α : Type} (buffer other : RxBuffer) (reader : Registers → α) :
    (chip.readRxBuffer buffer reader).2.rxRegisters other = chip.rxRegisters other :=
  read_update (frameless_canintf.1 other)

theorem readRxBuffer_tx {α : Type} (buffer : RxBuffer) (reader : Registers → α) :
    TxSame chip (chip.readRxBuffer buffer reader).2 :=
  .update frameless_canintf rfl rfl

end modifying

section transmitting

variable {chip : Mcp2515Chip} {n : TxBuffer} {values : Bytes}

theorem loadTxBuffer_rx (hlength : values.length ≤ 13) :
    RxSame chip (chip.loadTxBuffer n values) := by
  have hsidh : ∀ (n : TxBuffer) (buffer : RxBuffer), ∀ r ∈ bufferRegisters buffer.sidh,
      r ∉ bufferRegisters n.sidh := by
    intro n buffer
    suffices hall : (bufferRegisters buffer.sidh).Forall (· ∉ bufferRegisters n.sidh) from
      List.forall_iff_forall_mem.mp hall
    revert n
    cases buffer <;> decide
  refine .of rfl (fun buffer => ?_) fun buffer => ?_
  · change chip.regs.write n.sidh values REG_CANINTF &&& _ = _
    rw [write_not_mem hlength (frameless_canintf.2 n).1]
  · exact read_write hlength (hsidh n buffer)

theorem loadTxBuffer_tx (hlength : values.length ≤ 13) (hidle : chip.txreq n = false) :
    TxSame chip (chip.loadTxBuffer n values) := by
  have hctrl : ∀ n other : TxBuffer, other.ctrl ∉ bufferRegisters n.sidh := by decide
  have hsidh : ∀ n other : TxBuffer, other ≠ n → ∀ r ∈ bufferRegisters other.sidh,
      r ∉ bufferRegisters n.sidh := by
    intro n other hne
    suffices hall : (bufferRegisters other.sidh).Forall (· ∉ bufferRegisters n.sidh) from
      List.forall_iff_forall_mem.mp hall
    revert n other
    decide
  refine .of rfl (fun other => write_not_mem hlength (hctrl n other)) fun other k hk => ?_
  have hne : other ≠ n := by
    rintro rfl
    exact absurd ((txreq_of_tx_held hk).1.symm.trans hidle) Bool.noConfusion
  exact read_write hlength (hsidh n other hne)

theorem loadTxBuffer_registers (hlength : values.length ≤ 13) :
    values <+: (chip.loadTxBuffer n values).txRegisters n :=
  prefix_read_write hlength

theorem loadTxBuffer_txreq (hlength : values.length ≤ 13) (other : TxBuffer) :
    (chip.loadTxBuffer n values).txreq other = chip.txreq other := by
  have hctrl : ∀ n other : TxBuffer, other.ctrl ∉ bufferRegisters n.sidh := by decide
  unfold txreq
  change decide (chip.regs.write n.sidh values other.ctrl &&& _ ≠ 0) = _
  rw [write_not_mem hlength (hctrl n other)]

theorem requestToSend_rx (n : TxBuffer) : RxSame chip (chip.requestToSend n) := by
  have hctrl : ∀ (n : TxBuffer) (buffer : RxBuffer), n.ctrl ∉ bufferRegisters buffer.sidh := by
    intro n buffer
    revert n
    cases buffer <;> decide
  exact .update (hctrl n) (frameless_canintf.2 n).2 rfl rfl

theorem requestToSend_registers (n other : TxBuffer) :
    (chip.requestToSend n).txRegisters other = chip.txRegisters other := by
  have hctrl : ∀ n other : TxBuffer, n.ctrl ∉ bufferRegisters other.sidh := by decide
  exact read_update (hctrl n other)

theorem requestToSend_txreq (n other : TxBuffer) :
    (chip.requestToSend n).txreq other = (decide (other = n) || chip.txreq other) := by
  have hinj : ∀ n other : TxBuffer, other ≠ n → other.ctrl ≠ n.ctrl := by decide
  have hset : ∀ ctrl : UInt8, (ctrl ||| TXREQ) &&& TXREQ ≠ 0 := forall_byte (by decide)
  have hregs : (chip.requestToSend n).regs =
      Function.update chip.regs n.ctrl (chip.regs n.ctrl ||| TXREQ) := rfl
  unfold txreq
  rw [hregs]
  by_cases hsame : other = n
  · subst hsame
    rw [Function.update_self, decide_eq_true (hset _), decide_eq_true rfl, Bool.true_or]
  · rw [Function.update_of_ne (hinj n other hsame), decide_eq_false hsame, Bool.false_or]

theorem requestToSend_tx (n : TxBuffer) : (chip.requestToSend n).tx = chip.tx.put n := by
  apply Bays.ext
  · exact List.map_append
  · funext other
    change (if (chip.requestToSend n).txreq other = true then
      some (Function.update chip.loaded n chip.requested.length other) else none) = _
    rw [requestToSend_txreq]
    by_cases hsame : other = n
    · subst hsame
      rw [Bays.put_held_self, decide_eq_true rfl, Bool.true_or, if_pos rfl, Function.update_self]
      exact congrArg some (List.length_map _).symm
    · rw [Bays.put_held_of_ne _ hsame, decide_eq_false hsame, Bool.false_or,
        Function.update_of_ne hsame]
      rfl
  · rfl
  · rfl

end transmitting

section sound

variable {chip : Mcp2515Chip}

/-- A frame of `RXB1` may be read only when no older one is in `RXB0`. -/
theorem RxSound.read {α : Type} (h : RxSound chip) {buffer : RxBuffer} (reader : Registers → α)
    (hfirst : ∀ k m, buffer = .rxb1 → chip.rx.held .rxb1 = some k → chip.rx.held .rxb0 = some m →
      k < m) : RxSound (chip.readRxBuffer buffer reader).2 where
  accounted := by
    rw [readRxBuffer_rx]
    exact h.accounted.take buffer
  ordered := by
    rw [readRxBuffer_rx]
    apply h.ordered.take h.accounted
    intro k hk other m hne hm
    cases buffer with
    | rxb0 =>
      cases other with
      | rxb0 => exact absurd rfl hne
      | rxb1 => exact .inr ⟨rfl, rfl⟩
    | rxb1 =>
      cases other with
      | rxb0 => exact .inl (hfirst k m rfl hk hm)
      | rxb1 => exact absurd rfl hne
  content other k hk := by
    rw [readRxBuffer_rx] at hk
    have hne : other ≠ buffer := by
      rintro rfl
      simp at hk
    rw [Bays.take_held_of_ne _ hne] at hk
    rw [readRxBuffer_registers]
    exact h.content other k hk

theorem RxSound.clear (h : RxSound chip) (buffer : RxBuffer) :
    RxSound (chip.bitModify REG_CANINTF buffer.flag 0) where
  accounted := by
    rw [bitModify_drop]
    exact h.accounted.drop buffer
  ordered := by
    rw [bitModify_drop]
    exact h.ordered.drop buffer
  content other k hk := by
    rw [bitModify_drop] at hk
    have hne : other ≠ buffer := by
      rintro rfl
      simp at hk
    rw [Bays.drop_held_of_ne _ hne] at hk
    rw [bitModify_drop_registers]
    exact h.content other k hk

theorem TxSound.request (h : TxSound chip) {n : TxBuffer} (hidle : chip.txreq n = false) :
    TxSound (chip.requestToSend n) := by
  have hnew : (chip.requestToSend n).requested = chip.requested ++ [⟨n, chip.txRegisters n⟩] := rfl
  refine ⟨?_, ?_, fun other k hk => ?_, fun e he => ?_, fun other hother => ?_⟩
  · rw [requestToSend_tx]
    exact h.accounted.put (tx_held_of_not_txreq hidle)
  · rw [requestToSend_tx]
    exact h.ordered.put h.accounted n
  · rw [requestToSend_tx] at hk
    rw [hnew, requestToSend_registers]
    by_cases hsame : other = n
    · subst hsame
      rw [Bays.put_held_self] at hk
      obtain rfl := Option.some.inj hk
      change ((chip.requested ++ [_])[(chip.requested.map TxRequest.buffer).length]?).map _ = _
      rw [List.length_map, List.getElem?_concat_length]
      rfl
    · rw [Bays.put_held_of_ne _ hsame] at hk
      have hlt : k < chip.requested.length := by
        simpa [tx] using h.accounted.lt hk
      rw [List.getElem?_append_left hlt]
      exact h.content other k hk
  · have hold := h.sent e he
    obtain ⟨request, hrequest, -⟩ := Option.map_eq_some_iff.mp hold
    rw [hnew, List.getElem?_append_left (List.getElem?_eq_some_iff.mp hrequest).1, hold]
  · obtain ⟨k, hk, hlast⟩ := h.transmitting other hother
    have hne : other ≠ n := by
      rintro rfl
      exact absurd ((txreq_of_tx_held hk).1.symm.trans hidle) Bool.noConfusion
    rw [requestToSend_tx]
    refine ⟨k, (Bays.put_held_of_ne _ hne).trans hk, fun n' k' hlt hk' => ?_⟩
    by_cases hsame : n' = n
    · subst hsame
      rw [Bays.put_held_self] at hk'
      rw [← Option.some.inj hk']
      exact h.accounted.lt hk
    · rw [Bays.put_held_of_ne _ hsame] at hk'
      exact hlast n' k' hlt hk'

end sound

end Mcp2515Chip

end Pico
