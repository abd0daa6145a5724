import PicoFramework.Lib.Bits
import PicoFramework.Lib.Slots
import PicoFramework.Spec.Mcp2515Chip

/-! What each thing that happens in the controller does to the frames in its buffers. The receive
buffers and the transmit buffers are each slots for numbered frames, and a frame stays in its
registers as long as it is in its slot. -/

namespace Pico

open Lib.Bits Lib.Slots

section registers

variable {regs regs' : Registers} {reg other : UInt8} {bytes : Bytes}

theorem address_succ (reg : UInt8) (i : ℕ) :
    reg + UInt8.ofNat (i + 1) = reg + 1 + UInt8.ofNat i := by
  rw [Nat.add_comm, UInt8.ofNat_add, ← UInt8.add_assoc]
  rfl

theorem write_other (h : ∀ i < bytes.length, other ≠ reg + UInt8.ofNat i) :
    regs.write reg bytes other = regs other := by
  induction bytes generalizing regs reg with
  | nil => rfl
  | cons value values ih =>
    rw [Registers.write, ih, Function.update_of_ne]
    · simpa using h 0 (Nat.zero_lt_succ _)
    · intro i hi
      rw [← address_succ]
      exact h (i + 1) (Nat.succ_lt_succ hi)

theorem write_get {i : ℕ} (hi : i < bytes.length) (hlength : bytes.length ≤ 256) :
    regs.write reg bytes (reg + UInt8.ofNat i) = bytes.getD i 0 := by
  induction bytes generalizing regs reg i with
  | nil => exact absurd hi (Nat.not_lt_zero i)
  | cons value values ih =>
    rw [List.length_cons] at hi hlength
    rw [Registers.write]
    cases i with
    | zero =>
      have hreg : reg + UInt8.ofNat 0 = reg := by simp
      rw [hreg, write_other, Function.update_self]
      · rfl
      · intro j hj heq
        have hsame := congrArg UInt8.toNat heq
        have hlt := reg.toNat_lt
        simp only [UInt8.toNat_add, UInt8.toNat_ofNat', UInt8.reduceToNat] at hsame
        omega
    | succ i =>
      rw [address_succ]
      exact ih (Nat.lt_of_succ_lt_succ hi) (Nat.le_of_succ_le hlength)

theorem read_congr {count : ℕ}
    (h : ∀ i < count, regs' (reg + UInt8.ofNat i) = regs (reg + UInt8.ofNat i)) :
    regs'.read reg count = regs.read reg count := by
  induction count generalizing reg with
  | zero => rfl
  | succ count ih =>
    have hfirst : regs' reg = regs reg := by simpa using h 0 (Nat.zero_lt_succ _)
    rw [Registers.read, Registers.read, hfirst, ih]
    intro i hi
    rw [← address_succ]
    exact h (i + 1) (Nat.succ_lt_succ hi)

theorem read_length (regs : Registers) (reg : UInt8) (count : ℕ) :
    (regs.read reg count).length = count := by
  induction count generalizing reg with
  | zero => rfl
  | succ count ih => rw [Registers.read, List.length_cons, ih]

theorem read_get {count i : ℕ} (hi : i < count) :
    (regs.read reg count).getD i 0 = regs (reg + UInt8.ofNat i) := by
  induction count generalizing reg i with
  | zero => exact absurd hi (Nat.not_lt_zero i)
  | succ count ih =>
    cases i with
    | zero => simp [Registers.read]
    | succ i =>
      rw [address_succ]
      exact ih (Nat.lt_of_succ_lt_succ hi)

/-- The registers of a buffer, from `SIDH` on. -/
def bufferRegisters (sidh : UInt8) : List UInt8 := (List.range 13).map fun i => sidh + UInt8.ofNat i

theorem read_update {value : UInt8} (h : other ∉ bufferRegisters reg) :
    Registers.read (Function.update regs other value) reg 13 = regs.read reg 13 := by
  apply read_congr
  intro i hi
  refine Function.update_of_ne ?_ ..
  rintro rfl
  exact h (List.mem_map_of_mem (List.mem_range.mpr hi))

theorem write_not_mem (hlength : bytes.length ≤ 13) (h : other ∉ bufferRegisters reg) :
    regs.write reg bytes other = regs other := by
  apply write_other
  rintro i hi rfl
  exact h (List.mem_map_of_mem (List.mem_range.mpr (by omega)))

theorem read_write (hlength : bytes.length ≤ 13)
    (h : ∀ r ∈ bufferRegisters other, r ∉ bufferRegisters reg) :
    (regs.write reg bytes).read other 13 = regs.read other 13 := by
  apply read_congr
  intro i hi
  exact write_not_mem hlength (h _ (List.mem_map_of_mem (List.mem_range.mpr hi)))

theorem prefix_read_write (hlength : bytes.length ≤ 13) :
    bytes <+: (regs.write reg bytes).read reg 13 := by
  rw [List.prefix_iff_getElem?]
  intro i hi
  have hread : ((regs.write reg bytes).read reg 13).getD i 0 = bytes.getD i 0 := by
    rw [read_get (by omega), write_get hi (by omega)]
  have hlen : ((regs.write reg bytes).read reg 13).length = 13 := read_length _ _ _
  rw [List.getD_eq_getElem _ _ (by omega), List.getD_eq_getElem _ _ hi] at hread
  rw [List.getElem?_eq_getElem (by omega), hread]

end registers

namespace Mcp2515Chip

section views

/-- The receive buffers, as slots of the frames that were stored. -/
def rx (chip : Mcp2515Chip) : Bays RxBuffer where
  origins := chip.stored.map RxFrame.buffer
  held buffer := if chip.full buffer then some (chip.held buffer) else none
  taken := chip.taken
  lost := chip.lost

/-- The transmit buffers, as slots of the frames that were requested. -/
def tx (chip : Mcp2515Chip) : Bays TxBuffer where
  origins := chip.requested.map TxRequest.buffer
  held n := if chip.txreq n then some (chip.loaded n) else none
  taken := chip.sent.map Prod.fst
  lost := []

def rxRegisters (chip : Mcp2515Chip) (buffer : RxBuffer) : Bytes := chip.regs.read buffer.sidh 13

def txRegisters (chip : Mcp2515Chip) (n : TxBuffer) : Bytes := chip.regs.read n.sidh 13

def rxHistory (chip : Mcp2515Chip) : List RxFrame × (RxBuffer → ℕ) × List ℕ × List ℕ :=
  (chip.stored, chip.held, chip.taken, chip.lost)

def txHistory (chip : Mcp2515Chip) :
    Option TxBuffer × List TxRequest × (TxBuffer → ℕ) × List (ℕ × Bytes) :=
  (chip.transmitting, chip.requested, chip.loaded, chip.sent)

variable {chip chip' : Mcp2515Chip} {buffer : RxBuffer} {n : TxBuffer}

theorem rx_held_of_full (h : chip.full buffer = true) :
    chip.rx.held buffer = some (chip.held buffer) := if_pos h

theorem rx_held_of_not_full (h : chip.full buffer = false) : chip.rx.held buffer = none := by
  change (if chip.full buffer = true then _ else _) = _
  rw [h, if_neg Bool.false_ne_true]

theorem full_of_rx_held {k : ℕ} (h : chip.rx.held buffer = some k) :
    chip.full buffer = true ∧ chip.held buffer = k := by
  cases hfull : chip.full buffer with
  | false => exact absurd (h.symm.trans (rx_held_of_not_full hfull)) (Option.some_ne_none k)
  | true => exact ⟨rfl, Option.some.inj ((rx_held_of_full hfull).symm.trans h)⟩

theorem full_congr (h : chip'.rx.held buffer = chip.rx.held buffer) :
    chip'.full buffer = chip.full buffer := by
  cases hnow : chip.full buffer with
  | false =>
    rw [rx_held_of_not_full hnow] at h
    cases hthen : chip'.full buffer with
    | false => rfl
    | true => exact absurd ((rx_held_of_full hthen).symm.trans h) (Option.some_ne_none _)
  | true => exact (full_of_rx_held (h.trans (rx_held_of_full hnow))).1

theorem tx_held_of_txreq (h : chip.txreq n = true) : chip.tx.held n = some (chip.loaded n) :=
  if_pos h

theorem tx_held_of_not_txreq (h : chip.txreq n = false) : chip.tx.held n = none := by
  change (if chip.txreq n = true then _ else _) = _
  rw [h, if_neg Bool.false_ne_true]

theorem txreq_of_tx_held {k : ℕ} (h : chip.tx.held n = some k) :
    chip.txreq n = true ∧ chip.loaded n = k := by
  cases hreq : chip.txreq n with
  | false => exact absurd (h.symm.trans (tx_held_of_not_txreq hreq)) (Option.some_ne_none k)
  | true => exact ⟨rfl, Option.some.inj ((tx_held_of_txreq hreq).symm.trans h)⟩

end views

section same

/-- Nothing happened to the frames in the receive buffers. -/
structure RxSame (chip chip' : Mcp2515Chip) : Prop where
  rx_eq : chip'.rx = chip.rx
  stored_eq : chip'.stored = chip.stored
  registers : ∀ buffer, chip'.rxRegisters buffer = chip.rxRegisters buffer

/-- Nothing happened to the frames in the transmit buffers. -/
structure TxSame (chip chip' : Mcp2515Chip) : Prop where
  tx_eq : chip'.tx = chip.tx
  history_eq : chip'.txHistory = chip.txHistory
  registers : ∀ n k, chip.tx.held n = some k → chip'.txRegisters n = chip.txRegisters n

variable {chip chip' chip'' : Mcp2515Chip}

theorem RxSame.refl (chip : Mcp2515Chip) : RxSame chip chip := ⟨rfl, rfl, fun _ => rfl⟩

theorem TxSame.refl (chip : Mcp2515Chip) : TxSame chip chip := ⟨rfl, rfl, fun _ _ _ => rfl⟩

theorem RxSame.trans (h : RxSame chip chip') (h' : RxSame chip' chip'') : RxSame chip chip'' where
  rx_eq := h'.rx_eq.trans h.rx_eq
  stored_eq := h'.stored_eq.trans h.stored_eq
  registers buffer := (h'.registers buffer).trans (h.registers buffer)

theorem TxSame.trans (h : TxSame chip chip') (h' : TxSame chip' chip'') : TxSame chip chip'' where
  tx_eq := h'.tx_eq.trans h.tx_eq
  history_eq := h'.history_eq.trans h.history_eq
  registers n k hk := (h'.registers n k (h.tx_eq ▸ hk)).trans (h.registers n k hk)

theorem RxSame.of (hhistory : chip'.rxHistory = chip.rxHistory)
    (hfull : ∀ buffer : RxBuffer,
      chip'.regs REG_CANINTF &&& buffer.flag = chip.regs REG_CANINTF &&& buffer.flag)
    (hregisters : ∀ buffer, chip'.rxRegisters buffer = chip.rxRegisters buffer) :
    RxSame chip chip' := by
  simp only [rxHistory, Prod.mk.injEq] at hhistory
  obtain ⟨hstored, hheld, htaken, hlost⟩ := hhistory
  refine ⟨?_, hstored, hregisters⟩
  unfold rx full
  simp only [hstored, hheld, htaken, hlost, hfull]

theorem TxSame.of (hhistory : chip'.txHistory = chip.txHistory)
    (hctrl : ∀ n : TxBuffer, chip'.regs n.ctrl = chip.regs n.ctrl)
    (hregisters : ∀ n k, chip.tx.held n = some k → chip'.txRegisters n = chip.txRegisters n) :
    TxSame chip chip' := by
  refine ⟨?_, hhistory, hregisters⟩
  simp only [txHistory, Prod.mk.injEq] at hhistory
  obtain ⟨-, hrequested, hloaded, hsent⟩ := hhistory
  unfold tx txreq
  simp only [hrequested, hloaded, hsent, hctrl]

/-- A register that has nothing of a frame, and no request. -/
def Frameless (reg : UInt8) : Prop :=
  (∀ buffer : RxBuffer, reg ∉ bufferRegisters buffer.sidh) ∧
    ∀ n : TxBuffer, reg ∉ bufferRegisters n.sidh ∧ n.ctrl ≠ reg

theorem frameless_canintf : Frameless REG_CANINTF := ⟨fun buffer => by cases buffer <;> decide, by decide⟩

theorem frameless_eflg : Frameless REG_EFLG := ⟨fun buffer => by cases buffer <;> decide, by decide⟩

theorem frameless_canstat : Frameless REG_CANSTAT := ⟨fun buffer => by cases buffer <;> decide, by decide⟩

theorem frameless_canctrl : Frameless REG_CANCTRL := ⟨fun buffer => by cases buffer <;> decide, by decide⟩

theorem TxSame.update {reg value : UInt8} (hplain : Frameless reg)
    (hhistory : chip'.txHistory = chip.txHistory)
    (hregs : chip'.regs = Function.update chip.regs reg value) : TxSame chip chip' := by
  refine .of hhistory (fun n => ?_) fun n _ _ => ?_
  · rw [hregs, Function.update_of_ne (hplain.2 n).2]
  · unfold txRegisters
    rw [hregs, read_update (hplain.2 n).1]

theorem RxSame.update {reg value : UInt8} (hplain : ∀ buffer : RxBuffer,
      reg ∉ bufferRegisters buffer.sidh) (hne : reg ≠ REG_CANINTF)
    (hhistory : chip'.rxHistory = chip.rxHistory)
    (hregs : chip'.regs = Function.update chip.regs reg value) : RxSame chip chip' := by
  refine .of hhistory (fun buffer => ?_) fun buffer => ?_
  · rw [hregs, Function.update_of_ne hne.symm]
  · unfold rxRegisters
    rw [hregs, read_update (hplain buffer)]

/-- Flags of `CANINTF` other than those of the receive buffers. -/
theorem RxSame.flags {value : UInt8} (hhistory : chip'.rxHistory = chip.rxHistory)
    (hregs : chip'.regs = Function.update chip.regs REG_CANINTF value)
    (hflag : ∀ buffer : RxBuffer, value &&& buffer.flag = chip.regs REG_CANINTF &&& buffer.flag) :
    RxSame chip chip' := by
  refine .of hhistory (fun buffer => ?_) fun buffer => ?_
  · rw [hregs, Function.update_self, hflag]
  · unfold rxRegisters
    rw [hregs, read_update (frameless_canintf.1 buffer)]

end same

section bus

variable (chip : Mcp2515Chip) (buffer : RxBuffer) (frame : CanMessage)

theorem layout_length : (layout frame).length ≤ 13 := by
  have hdata : frame.data.length = 8 := frame.data_length
  unfold layout
  simp only [List.length_append]
  split <;> split <;> simp only [List.length_cons, List.length_nil, List.length_take] <;> omega

theorem store_regs : (chip.store buffer frame).regs =
    Function.update (chip.regs.write buffer.sidh (layout frame)) REG_CANINTF
      (chip.regs REG_CANINTF ||| buffer.flag) := by
  have hflags : chip.regs.write buffer.sidh (layout frame) REG_CANINTF = chip.regs REG_CANINTF :=
    write_not_mem (layout_length frame) (frameless_canintf.1 buffer)
  rw [← hflags]
  rfl

theorem store_full (other : RxBuffer) :
    (chip.store buffer frame).full other = (decide (other = buffer) || chip.full other) := by
  have hset : ∀ flags : UInt8, (flags ||| buffer.flag) &&& buffer.flag ≠ 0 := by
    cases buffer <;> exact forall_byte (by decide)
  unfold full
  rw [store_regs, Function.update_self]
  by_cases hsame : other = buffer
  · subst hsame
    simp [hset]
  · have hapart : buffer.flag &&& other.flag = 0 := by
      revert hsame
      cases buffer <;> cases other <;> decide
    rw [set_apart hapart, decide_eq_false hsame, Bool.false_or]

theorem store_rx : (chip.store buffer frame).rx = chip.rx.put buffer := by
  apply Bays.ext
  · exact List.map_append
  · funext other
    change (if (chip.store buffer frame).full other = true then
      some (Function.update chip.held buffer chip.stored.length other) else none) = _
    rw [store_full]
    by_cases hsame : other = buffer
    · subst hsame
      rw [Bays.put_held_self, decide_eq_true rfl, Bool.true_or, if_pos rfl, Function.update_self]
      exact congrArg some (List.length_map _).symm
    · rw [Bays.put_held_of_ne _ hsame, decide_eq_false hsame, Bool.false_or,
        Function.update_of_ne hsame]
      rfl
  · rfl
  · rfl

theorem store_registers_of_ne {other : RxBuffer} (h : other ≠ buffer) :
    (chip.store buffer frame).rxRegisters other = chip.rxRegisters other := by
  have hdisjoint : ∀ r ∈ bufferRegisters other.sidh, r ∉ bufferRegisters buffer.sidh := by
    suffices hall : (bufferRegisters other.sidh).Forall (· ∉ bufferRegisters buffer.sidh) from
      List.forall_iff_forall_mem.mp hall
    revert h
    cases buffer <;> cases other <;> decide
  unfold rxRegisters
  rw [store_regs, read_update (frameless_canintf.1 other), read_write (layout_length frame) hdisjoint]

theorem store_registers_self : (chip.store buffer frame).stored =
    chip.stored ++ [⟨frame, buffer, (chip.store buffer frame).rxRegisters buffer⟩] := by
  have hread : (chip.store buffer frame).rxRegisters buffer =
      (chip.regs.write buffer.sidh (layout frame)).read buffer.sidh 13 :=
    read_update (frameless_canintf.1 buffer)
  rw [hread]
  rfl

theorem store_ctrl (n : TxBuffer) : (chip.store buffer frame).regs n.ctrl = chip.regs n.ctrl := by
  have hctrl : ∀ n : TxBuffer, n.ctrl ∉ bufferRegisters buffer.sidh := by
    cases buffer <;> decide
  rw [store_regs, Function.update_of_ne (frameless_canintf.2 n).2,
    write_not_mem (layout_length frame) (hctrl n)]

theorem store_txRegisters (n : TxBuffer) :
    (chip.store buffer frame).txRegisters n = chip.txRegisters n := by
  have hsidh : ∀ n : TxBuffer, ∀ r ∈ bufferRegisters n.sidh, r ∉ bufferRegisters buffer.sidh := by
    intro n
    suffices hall : (bufferRegisters n.sidh).Forall (· ∉ bufferRegisters buffer.sidh) from
      List.forall_iff_forall_mem.mp hall
    revert n
    cases buffer <;> decide
  unfold txRegisters
  rw [store_regs, read_update (frameless_canintf.2 n).1, read_write (layout_length frame) (hsidh n)]

theorem store_tx : TxSame chip (chip.store buffer frame) :=
  .of rfl (store_ctrl chip buffer frame) fun n _ _ => store_txRegisters chip buffer frame n

end bus

section sound

/-- The receive side: each frame that was stored is in its buffer, was read, or was lost; only a
frame of `RXB0` is read before an older one of `RXB1`; what waits is as it was stored. -/
structure RxSound (chip : Mcp2515Chip) : Prop where
  accounted : Accounted chip.rx
  ordered : Ordered (fun a b => a = RxBuffer.rxb0 ∧ b = RxBuffer.rxb1) chip.rx
  content : ∀ buffer k, chip.rx.held buffer = some k →
    chip.stored[k]?.map RxFrame.bytes = some (chip.rxRegisters buffer)

/-- The transmit side. A frame that is being sent has no older one in a buffer with a higher
number. -/
structure TxSound (chip : Mcp2515Chip) : Prop where
  accounted : Accounted chip.tx
  ordered : Ordered (fun a b => b < a) chip.tx
  content : ∀ n k, chip.tx.held n = some k →
    chip.requested[k]?.map TxRequest.bytes = some (chip.txRegisters n)
  sent : ∀ e ∈ chip.sent, chip.requested[e.1]?.map TxRequest.bytes = some e.2
  transmitting : ∀ n, chip.transmitting = some n → ∃ k, chip.tx.held n = some k ∧
    ∀ n' k', n < n' → chip.tx.held n' = some k' → k < k'

variable {chip chip' : Mcp2515Chip}

theorem RxSound.same (h : RxSound chip) (hsame : RxSame chip chip') : RxSound chip' where
  accounted := hsame.rx_eq ▸ h.accounted
  ordered := hsame.rx_eq ▸ h.ordered
  content buffer k hk := by
    rw [hsame.stored_eq, hsame.registers]
    exact h.content buffer k (hsame.rx_eq ▸ hk)

theorem RxSound.store (h : RxSound chip) {buffer : RxBuffer} (hempty : chip.full buffer = false)
    (frame : CanMessage) : RxSound (chip.store buffer frame) where
  accounted := by
    rw [store_rx]
    exact h.accounted.put (rx_held_of_not_full hempty)
  ordered := by
    rw [store_rx]
    exact h.ordered.put h.accounted buffer
  content other k hk := by
    rw [store_rx] at hk
    rw [store_registers_self]
    by_cases hsame : other = buffer
    · subst hsame
      rw [Bays.put_held_self] at hk
      obtain rfl := Option.some.inj hk
      change ((chip.stored ++ [_])[(chip.stored.map RxFrame.buffer).length]?).map _ = _
      rw [List.length_map, List.getElem?_concat_length]
      rfl
    · rw [Bays.put_held_of_ne _ hsame] at hk
      have hlt : k < chip.stored.length := by
        simpa [rx] using h.accounted.lt hk
      rw [List.getElem?_append_left hlt, store_registers_of_ne _ _ _ hsame]
      exact h.content other k hk

theorem TxSound.same (h : TxSound chip) (hsame : TxSame chip chip') : TxSound chip' := by
  have hhistory := hsame.history_eq
  simp only [txHistory, Prod.mk.injEq] at hhistory
  obtain ⟨htransmitting, hrequested, -, hsent⟩ := hhistory
  refine ⟨hsame.tx_eq ▸ h.accounted, hsame.tx_eq ▸ h.ordered, fun n k hk => ?_, fun e he => ?_,
    fun n hn => ?_⟩
  · rw [hsame.tx_eq] at hk
    rw [hrequested, hsame.registers n k hk]
    exact h.content n k hk
  · rw [hrequested]
    exact h.sent e (hsent ▸ he)
  · rw [hsame.tx_eq]
    exact h.transmitting n (htransmitting ▸ hn)

theorem TxSound.retransmit (h : TxSound chip) {transmitting : Option TxBuffer}
    (hnext : ∀ n, transmitting = some n → ∃ k, chip.tx.held n = some k ∧
      ∀ n' k', n < n' → chip.tx.held n' = some k' → k < k') :
    TxSound { chip with transmitting := transmitting } :=
  ⟨h.accounted, h.ordered, h.content, h.sent, hnext⟩

theorem find_highest : ∀ (p : TxBuffer → Bool) (n : TxBuffer),
    ([2, 1, 0] : List TxBuffer).find? p = some n → ∀ n', n < n' → p n' = false := by
  decide

theorem TxSound.start (h : TxSound chip) : TxSound chip.startTransmission := by
  unfold startTransmission
  split
  · exact h
  · apply h.retransmit
    intro n hn
    have hreq : chip.txreq n = true := List.find?_some hn
    refine ⟨_, tx_held_of_txreq hreq, fun n' k' hlt hk' => ?_⟩
    have hnone := find_highest chip.txreq n hn n' hlt
    exact absurd ((txreq_of_tx_held hk').1.symm.trans hnone) Bool.noConfusion

theorem TxSound.stop (h : TxSound chip) : TxSound chip.stopTransmission :=
  h.retransmit fun n hn => absurd hn (by simp)

end sound

section events

variable {chip chip' chip'' : Mcp2515Chip}

theorem receive_cases (chip : Mcp2515Chip) (frame : CanMessage) :
    chip.receive frame = chip ∨
    (∃ buffer, chip.full buffer = false ∧ chip.receive frame = chip.store buffer frame) ∨
    ∃ buffer, chip.receive frame = chip.overflow buffer := by
  have hfree : ∀ {buffer}, (!chip.full buffer) = true → chip.full buffer = false := by simp
  unfold receive
  split
  · split
    · rename_i hempty
      exact .inr (.inl ⟨.rxb0, hfree hempty, rfl⟩)
    split
    · exact .inr (.inr ⟨.rxb0, rfl⟩)
    split
    · rename_i hempty
      exact .inr (.inl ⟨.rxb1, hfree hempty, rfl⟩)
    · exact .inr (.inr ⟨.rxb1, rfl⟩)
  split
  · split
    · rename_i hempty
      exact .inr (.inl ⟨.rxb1, hfree hempty, rfl⟩)
    · exact .inr (.inr ⟨.rxb1, rfl⟩)
  · exact .inl rfl

theorem raise_same (chip : Mcp2515Chip) (bits : UInt8) :
    let raised := setBits REG_CANINTF CANINTF_ERRIF (setBits REG_EFLG bits chip)
    RxSame chip raised ∧ TxSame chip raised := by
  have hrx : RxSame chip (setBits REG_EFLG bits chip) :=
    .update frameless_eflg.1 (by decide) rfl rfl
  have htx : TxSame chip (setBits REG_EFLG bits chip) := .update frameless_eflg rfl rfl
  refine ⟨hrx.trans (.flags rfl rfl fun buffer => ?_), htx.trans (.update frameless_canintf rfl rfl)⟩
  exact set_apart (by cases buffer <;> decide)

/-- A frame has gone out. -/
def completed (n : TxBuffer) (chip : Mcp2515Chip) : Mcp2515Chip :=
  setBits REG_CANINTF n.flag
    { chip with
      regs := Function.update chip.regs n.ctrl (chip.regs n.ctrl &&& ~~~TXREQ)
      transmitting := none
      sent := chip.sent ++ [(chip.loaded n, chip.txRegisters n)] }

theorem completed_regs (n : TxBuffer) : (chip.completed n).regs =
    Function.update (Function.update chip.regs n.ctrl (chip.regs n.ctrl &&& ~~~TXREQ)) REG_CANINTF
      (chip.regs REG_CANINTF ||| n.flag) := by
  have hflags : Function.update chip.regs n.ctrl (chip.regs n.ctrl &&& ~~~TXREQ) REG_CANINTF =
      chip.regs REG_CANINTF := Function.update_of_ne (frameless_canintf.2 n).2.symm ..
  rw [← hflags]
  rfl

theorem completed_rx (n : TxBuffer) : RxSame chip (chip.completed n) := by
  have hctrl : ∀ (n : TxBuffer) (buffer : RxBuffer), n.ctrl ∉ bufferRegisters buffer.sidh := by
    intro n buffer
    revert n
    cases buffer <;> decide
  have hflag : ∀ (n : TxBuffer) (buffer : RxBuffer), n.flag &&& buffer.flag = 0 := by
    intro n buffer
    revert n
    cases buffer <;> decide
  refine .of rfl (fun buffer => ?_) fun buffer => ?_
  · rw [completed_regs, Function.update_self, set_apart (hflag n buffer)]
  · unfold rxRegisters
    rw [completed_regs, read_update (frameless_canintf.1 buffer), read_update (hctrl n buffer)]

theorem completed_registers (n other : TxBuffer) :
    (chip.completed n).txRegisters other = chip.txRegisters other := by
  have hctrl : ∀ n other : TxBuffer, n.ctrl ∉ bufferRegisters other.sidh := by decide
  unfold txRegisters
  rw [completed_regs, read_update (frameless_canintf.2 other).1, read_update (hctrl n other)]

theorem completed_txreq (n other : TxBuffer) :
    (chip.completed n).txreq other = (decide (other ≠ n) && chip.txreq other) := by
  have hinj : ∀ n other : TxBuffer, other ≠ n → other.ctrl ≠ n.ctrl := by decide
  have hclear : ∀ ctrl : UInt8, (ctrl &&& ~~~TXREQ) &&& TXREQ = 0 := forall_byte (by decide)
  unfold txreq
  rw [completed_regs, Function.update_of_ne (frameless_canintf.2 other).2]
  by_cases hsame : other = n
  · subst hsame
    simp [hclear]
  · rw [Function.update_of_ne (hinj n other hsame), decide_eq_true hsame, Bool.true_and]

theorem completed_tx {n : TxBuffer} (h : chip.txreq n = true) :
    (chip.completed n).tx = chip.tx.take n := by
  apply Bays.ext
  · rfl
  · funext other
    change (if (chip.completed n).txreq other = true then some (chip.loaded other) else none) = _
    rw [completed_txreq]
    by_cases hsame : other = n
    · simp [hsame]
    · rw [Bays.take_held_of_ne _ hsame, decide_eq_true hsame, Bool.true_and]
      rfl
  · change (chip.sent ++ [_]).map Prod.fst = chip.sent.map Prod.fst ++ (chip.tx.held n).toList
    rw [tx_held_of_txreq h, List.map_append]
    rfl
  · rfl

theorem TxSound.completed (h : TxSound chip) {n : TxBuffer} (hn : chip.transmitting = some n) :
    TxSound (chip.completed n) := by
  obtain ⟨k, hk, hlast⟩ := h.transmitting n hn
  have hreq := (txreq_of_tx_held hk).1
  refine ⟨?_, ?_, fun other m hm => ?_, fun e he => ?_, fun other hother => ?_⟩
  · rw [completed_tx hreq]
    exact h.accounted.take n
  · rw [completed_tx hreq]
    apply h.ordered.take h.accounted
    intro m hm n' m' hne hm'
    obtain rfl := Option.some.inj (hm.symm.trans hk)
    rcases Fin.lt_or_lt_of_ne hne with hlow | hhigh
    · exact .inr hlow
    · exact .inl (hlast n' m' hhigh hm')
  · rw [completed_tx hreq] at hm
    rw [completed_registers]
    have hne : other ≠ n := by
      rintro rfl
      simp at hm
    rw [Bays.take_held_of_ne _ hne] at hm
    exact h.content other m hm
  · rcases List.mem_append.mp he with hold | hnew
    · exact h.sent e hold
    · rw [List.mem_singleton.mp hnew]
      exact h.content n _ (tx_held_of_txreq hreq)
  · exact absurd hother (Option.some_ne_none other).symm

/-- What the driver may rely on, whatever happens. -/
structure Reacts (chip chip' : Mcp2515Chip) : Prop where
  rx : Filled chip.rx chip'.rx
  stored : chip.stored <+: chip'.stored
  requested : chip'.requested = chip.requested
  idle : ∀ n, chip.txreq n = false → chip'.txreq n = false
  registers : ∀ n, chip'.txRegisters n = chip.txRegisters n
  lastRead : chip'.lastRead = chip.lastRead

theorem Reacts.refl (chip : Mcp2515Chip) : Reacts chip chip :=
  ⟨.refl _, List.prefix_refl _, rfl, fun _ h => h, fun _ => rfl, rfl⟩

theorem Reacts.trans (h : Reacts chip chip') (h' : Reacts chip' chip'') : Reacts chip chip'' where
  rx := h.rx.trans h'.rx
  stored := h.stored.trans h'.stored
  requested := h'.requested.trans h.requested
  idle n hn := h'.idle n (h.idle n hn)
  registers n := (h'.registers n).trans (h.registers n)
  lastRead := h'.lastRead.trans h.lastRead

theorem Reacts.plain {reg value : UInt8} (hplain : Frameless reg) (hrx : RxSame chip chip')
    (hregs : chip'.regs = Function.update chip.regs reg value)
    (hrequested : chip'.requested = chip.requested) (hlast : chip'.lastRead = chip.lastRead) :
    Reacts chip chip' where
  rx := hrx.rx_eq ▸ .refl _
  stored := hrx.stored_eq ▸ List.prefix_refl _
  requested := hrequested
  idle n hn := by
    unfold txreq
    rw [hregs, Function.update_of_ne (hplain.2 n).2]
    exact hn
  registers n := by
    unfold txRegisters
    rw [hregs, read_update (hplain.2 n).1]
  lastRead := hlast

theorem Reacts.store (chip : Mcp2515Chip) {buffer : RxBuffer} (hempty : chip.full buffer = false)
    (frame : CanMessage) : Reacts chip (chip.store buffer frame) where
  rx := by
    rw [store_rx]
    exact .put (rx_held_of_not_full hempty)
  stored := List.prefix_append _ _
  requested := rfl
  idle n hn := by
    unfold txreq
    rw [store_ctrl]
    exact hn
  registers := store_txRegisters chip buffer frame
  lastRead := rfl

theorem Reacts.raise (chip : Mcp2515Chip) (bits : UInt8) :
    Reacts chip (setBits REG_CANINTF CANINTF_ERRIF (setBits REG_EFLG bits chip)) := by
  have hset : Reacts chip (setBits REG_EFLG bits chip) :=
    .plain frameless_eflg (.update frameless_eflg.1 (by decide) rfl rfl) rfl rfl rfl
  refine hset.trans (.plain frameless_canintf (.flags rfl rfl fun buffer => ?_) rfl rfl rfl)
  exact set_apart (by cases buffer <;> decide)

theorem Reacts.retransmit (chip : Mcp2515Chip) (transmitting : Option TxBuffer) :
    Reacts chip { chip with transmitting := transmitting } :=
  ⟨.refl _, List.prefix_refl _, rfl, fun _ h => h, fun _ => rfl, rfl⟩

theorem Reacts.completed (chip : Mcp2515Chip) (n : TxBuffer) : Reacts chip (chip.completed n) where
  rx := (completed_rx n).rx_eq ▸ .refl _
  stored := List.prefix_refl _
  requested := rfl
  idle other hother := by rw [completed_txreq, hother, Bool.and_false]
  registers := completed_registers n
  lastRead := rfl

/-- Both sides hold what they should. -/
structure Accounts (chip : Mcp2515Chip) : Prop where
  rx : RxSound chip
  tx : TxSound chip

theorem Accounts.react (h : Accounts chip) (event : Event) :
    Reacts chip (chip.react event) ∧ Accounts (chip.react event) := by
  obtain ⟨hrx, htx⟩ := h
  cases event with
  | receive frame =>
    change Reacts chip (chip.receive frame) ∧ Accounts (chip.receive frame)
    rcases receive_cases chip frame with hnone | ⟨buffer, hempty, hstore⟩ | ⟨buffer, hover⟩
    · rw [hnone]
      exact ⟨.refl chip, hrx, htx⟩
    · rw [hstore]
      exact ⟨.store chip hempty frame, hrx.store hempty frame, htx.same (store_tx chip buffer frame)⟩
    · rw [hover]
      obtain ⟨hsameRx, hsameTx⟩ := raise_same chip buffer.overflow
      exact ⟨.raise chip buffer.overflow, hrx.same hsameRx, htx.same hsameTx⟩
  | start =>
    obtain ⟨transmitting, hstart⟩ : ∃ transmitting,
        chip.startTransmission = { chip with transmitting := transmitting } := by
      unfold startTransmission
      split
      · exact ⟨chip.transmitting, rfl⟩
      · exact ⟨_, rfl⟩
    have hafter := htx.start
    change Reacts chip chip.startTransmission ∧ Accounts chip.startTransmission
    rw [hstart] at hafter ⊢
    exact ⟨.retransmit chip transmitting, hrx.same ⟨rfl, rfl, fun _ => rfl⟩, hafter⟩
  | stop => exact ⟨.retransmit chip none, hrx.same ⟨rfl, rfl, fun _ => rfl⟩, htx.stop⟩
  | complete =>
    cases hnow : chip.transmitting with
    | none =>
      have hsame : chip.react .complete = chip := by
        simp only [Mcp2515Chip.react, completeTransmission, hnow]
      rw [hsame]
      exact ⟨.refl chip, hrx, htx⟩
    | some n =>
      have hdone : chip.react .complete = chip.completed n := by
        simp only [Mcp2515Chip.react, completeTransmission, hnow]
        rfl
      rw [hdone]
      exact ⟨.completed chip n, hrx.same (completed_rx n), htx.completed hnow⟩
  | error bits =>
    obtain ⟨hsameRx, hsameTx⟩ := raise_same chip (bits &&& 0x3F)
    exact ⟨.raise chip _, hrx.same hsameRx, htx.same hsameTx⟩
  | mode =>
    have hsame : RxSame chip (chip.react .mode) :=
      .update frameless_canstat.1 (by decide) rfl rfl
    exact ⟨.plain frameless_canstat hsame rfl rfl rfl, hrx.same hsame,
      htx.same (.update frameless_canstat rfl rfl)⟩

end events

end Mcp2515Chip

end Pico
