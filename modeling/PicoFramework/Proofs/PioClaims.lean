import Mathlib.Algebra.BigOperators.Group.Finset.Basic
import PicoFramework.Lib.Ledger
import PicoFramework.Lib.Run
import PicoFramework.Spec.PioClaims

/-! Whatever the drivers claim is held by one strip, UART, bus or program, or by other code, through
any order of init and deinit calls, whether they are answered with an error or not. -/

namespace Pico

open Lib.Ledger Lib.Run

variable {σ υ κ : Type} {chip : PicoChip}
  {b b' : PioBoard σ υ κ} {pio offset : ℕ} {rs : PioClaims}

section allocators

theorem claim_claim (rs rs' : PioClaims) (b : PioBoard σ υ κ) :
    (b.claim rs).claim rs' = b.claim (rs ∪ rs') := by
  unfold PioBoard.claim
  rw [Finset.union_assoc]

theorem unclaim_claim (hfree : Disjoint rs b.claims) : (b.claim rs).unclaim rs = b := by
  unfold PioBoard.unclaim PioBoard.claim
  rw [Finset.union_sdiff_cancel_right hfree.symm]

/-- What `program_acquire` does: the program is there already, or it is put into free words. -/
structure Acquired (pio offset : ℕ) (b b' : PioBoard σ υ κ) : Prop where
  board_eq : b' = { b with
    claims := b'.claims
    program := Function.update b.program pio ⟨some offset, (b.program pio).users + 1⟩ }
  claims_eq : (b.program pio).offset = some offset ∧ b'.claims = b.claims ∨
    (b.program pio).offset = none ∧
      Disjoint (programWords pio offset ws2812ProgramLength) b.claims ∧
      b'.claims = b.claims ∪ programWords pio offset ws2812ProgramLength

theorem programAcquire_acquired (h : programAcquire chip pio b = some (offset, b')) :
    Acquired pio offset b b' := by
  unfold programAcquire at h
  cases hoffset : (b.program pio).offset with
  | some o =>
    rw [hoffset, Option.elim_some] at h
    obtain ⟨rfl, rfl⟩ := Prod.mk.inj (Option.some.inj h)
    exact ⟨rfl, .inl ⟨hoffset, rfl⟩⟩
  | none =>
    rw [hoffset, Option.elim_none] at h
    obtain ⟨o, ho, heq⟩ := Option.map_eq_some_iff.mp h
    obtain ⟨rfl, rfl⟩ := Prod.mk.inj heq
    exact ⟨rfl, .inr ⟨hoffset, chip.programOffset_free _ _ _ _ ho, rfl⟩⟩

theorem Acquired.release (h : Acquired pio offset b b')
    (hloaded : (b.program pio).offset = none ↔ (b.program pio).users = 0) :
    programRelease pio b' = b := by
  have hprogram : b'.program pio = ⟨some offset, (b.program pio).users + 1⟩ := by
    rw [h.board_eq]
    exact Function.update_self _ _ _
  unfold programRelease
  rw [hprogram, if_neg (Nat.succ_ne_zero _), Nat.add_sub_cancel]
  rcases h.claims_eq with ⟨hoffset, hclaims⟩ | ⟨hoffset, hfree, hclaims⟩
  · have hused : (b.program pio).users ≠ 0 := by
      intro hzero
      rw [hloaded.mpr hzero] at hoffset
      exact Option.some_ne_none _ hoffset.symm
    rw [if_neg hused, h.board_eq, hclaims]
    unfold PioBoard.setProgram
    rw [Function.update_idem, ← hoffset, Function.update_eq_self]
  · have hunused := hloaded.mp hoffset
    rw [if_pos hunused, Option.getD_some, h.board_eq, hclaims]
    unfold PioBoard.setProgram PioBoard.unclaim
    rw [Function.update_idem, Finset.union_sdiff_cancel_right hfree.symm]
    have hsame : (⟨none, 0⟩ : Ws2812Program) = b.program pio := by
      rw [← hoffset, ← hunused]
    rw [hsame, Function.update_eq_self]

theorem Acquired.setStrip [DecidableEq σ] (h : Acquired pio offset b b') (s : σ) :
    Acquired pio offset (b.setStrip s none) (b'.setStrip s none) where
  board_eq := by
    conv_lhs => rw [h.board_eq]
    rw [h.board_eq]
    rfl
  claims_eq := h.claims_eq

/-- What `program_release` does with a program in use. -/
theorem programRelease_used (hoffset : (b.program pio).offset = some offset)
    (hused : (b.program pio).users ≠ 0) :
    programRelease pio b = if (b.program pio).users - 1 = 0 then
      (b.unclaim (programWords pio offset ws2812ProgramLength)).setProgram pio ⟨none, 0⟩
    else b.setProgram pio ⟨some offset, (b.program pio).users - 1⟩ := by
  unfold programRelease
  rw [if_neg hused, hoffset, Option.getD_some]

end allocators

section ws2812

variable [DecidableEq σ]

theorem setStrip_again (s : σ) (port port' : Option Ws2812Port) (rs : PioClaims)
    (b : PioBoard σ υ κ) :
    ((b.setStrip s port).claim rs).setStrip s port' = (b.claim rs).setStrip s port' := by
  unfold PioBoard.setStrip PioBoard.claim
  rw [Function.update_idem]

/-- What `ws2812_init` does: it claims all that the strip needs, or nothing. -/
theorem ws2812Init_cases (s : σ) (config : Ws2812InitConfig)
    (hloaded : ∀ pio, (b.program pio).offset = none ↔ (b.program pio).users = 0) :
    (∃ port b', Acquired port.pio port.offset b b' ∧ Disjoint port.claims b'.claims ∧
      ws2812Init chip s config b =
        (.ok, (b'.claim port.claims).setStrip s (some port))) ∨
    ∃ result, result ≠ .ok ∧ ws2812Init chip s config b = (result, b) := by
  unfold ws2812Init
  cases hpio : config.pio with
  | none => exact .inr ⟨.errInvalidArg, by decide, rfl⟩
  | some pio =>
    rw [Option.elim_some]
    by_cases hpixels : (config.pixels.isNone || decide (config.length = 0)) = true
    · rw [if_pos hpixels]
      exact .inr ⟨.errInvalidArg, by decide, rfl⟩
    rw [if_neg hpixels]
    cases hacquire : programAcquire chip pio b with
    | none => exact .inr ⟨.errNoProgramSpace, by decide, rfl⟩
    | some acquired =>
      obtain ⟨offset, b'⟩ := acquired
      have hacquired := programAcquire_acquired hacquire
      rw [Option.elim_some]
      cases hsm : chip.unusedSm b'.claims pio with
      | none =>
        rw [Option.elim_none, hacquired.release (hloaded pio)]
        exact .inr ⟨.errNoStateMachine, by decide, rfl⟩
      | some sm =>
        have hmachine : Disjoint {.machine pio sm} b'.claims :=
          Finset.disjoint_singleton_left.mpr (chip.unusedSm_free _ _ _ hsm)
        rw [Option.elim_some]
        split_ifs with hbuffer
        · have hclaims : Ws2812Port.claims ⟨pio, sm, offset, none⟩ = {.machine pio sm} :=
            Finset.union_empty _
          refine .inl ⟨⟨pio, sm, offset, none⟩, b', hacquired, ?_, ?_⟩
          · rw [hclaims]
            exact hmachine
          · rw [hclaims]
        · cases hchannel : chip.unusedChannel (b'.claim {.machine pio sm}).claims with
          | none =>
            rw [Option.elim_none, unclaim_claim hmachine, hacquired.release (hloaded pio)]
            exact .inr ⟨.errNoDmaChannel, by decide, rfl⟩
          | some n =>
            have hfree := chip.unusedChannel_free _ _ hchannel
            refine .inl ⟨⟨pio, sm, offset, some n⟩, b', hacquired, ?_, ?_⟩
            · refine Finset.disjoint_union_left.mpr ⟨hmachine, ?_⟩
              exact Finset.disjoint_singleton_left.mpr fun hmem =>
                hfree (Finset.mem_union_left _ hmem)
            · rw [Option.elim_some, claim_claim]
              rfl

end ws2812

section uart

theorem pioAddProgram_cases (chip : PicoChip) (pio length : ℕ) (b : PioBoard σ υ κ) :
    pioAddProgram chip pio length b = none ∨
      ∃ offset, Disjoint (programWords pio offset length) b.claims ∧
        pioAddProgram chip pio length b =
          some (offset, b.claim (programWords pio offset length)) := by
  unfold pioAddProgram
  cases hoffset : chip.programOffset b.claims pio length with
  | none => exact .inl rfl
  | some offset =>
    exact .inr ⟨offset, chip.programOffset_free _ _ _ _ hoffset, rfl⟩

theorem pioClaimUnusedSm_cases (chip : PicoChip) (pio : ℕ) (b : PioBoard σ υ κ) :
    pioClaimUnusedSm chip pio b = (none, b) ∨
      ∃ sm, Disjoint {.machine pio sm} b.claims ∧
        pioClaimUnusedSm chip pio b = (some sm, b.claim {.machine pio sm}) := by
  unfold pioClaimUnusedSm
  cases hsm : chip.unusedSm b.claims pio with
  | none => exact .inl rfl
  | some sm =>
    exact .inr ⟨sm, Finset.disjoint_singleton_left.mpr (chip.unusedSm_free _ _ _ hsm), rfl⟩

theorem union_turned (a b c d : PioClaims) : a ∪ (b ∪ (c ∪ d)) = c ∪ d ∪ b ∪ a := by
  ac_rfl

variable [DecidableEq υ]

theorem setUart_again (u : υ) (port port' : Option HalfDuplexUartPort) (rs : PioClaims)
    (b : PioBoard σ υ κ) :
    ((b.setUart u port).claim rs).setUart u port' = (b.claim rs).setUart u port' := by
  unfold PioBoard.setUart PioBoard.claim
  rw [Function.update_idem]

/-- The two state machines are claimed, or everything is given back. -/
theorem halfDuplexUartMachines_cases (chip : PicoChip) (u : υ) (pio offsetTx offsetRx : ℕ) (b : PioBoard σ υ κ) :
    (∃ smTx smRx, Disjoint {.machine pio smTx} b.claims ∧
      Disjoint {.machine pio smRx} (b.claim {.machine pio smTx}).claims ∧
      halfDuplexUartMachines chip u pio offsetTx offsetRx b =
        (.ok, ((b.claim {.machine pio smTx}).claim {.machine pio smRx}).setUart u
          (some ⟨pio, smTx, smRx, offsetTx, offsetRx⟩))) ∨
    halfDuplexUartMachines chip u pio offsetTx offsetRx b =
      (.errNoStateMachine, (b.unclaim
        (programWords pio offsetRx halfDuplexUartRxProgramLength)).unclaim
          (programWords pio offsetTx halfDuplexUartTxProgramLength)) := by
  unfold halfDuplexUartMachines
  dsimp only
  rcases pioClaimUnusedSm_cases chip pio b with htx | ⟨smTx, hfreeTx, htx⟩
  · simp only [htx, Option.elim_none]
    exact .inr rfl
  rcases pioClaimUnusedSm_cases chip pio (b.claim {.machine pio smTx}) with
    hrx | ⟨smRx, hfreeRx, hrx⟩
  · simp only [htx, hrx, Option.elim_some, Option.elim_none]
    refine .inr ?_
    unfold halfDuplexUartGiveUp pioUnclaimSm
    rw [Option.elim_none, Option.elim_some, unclaim_claim hfreeTx]
  · simp only [htx, hrx, Option.elim_some]
    exact .inl ⟨smTx, smRx, hfreeTx, hfreeRx, rfl⟩

theorem halfDuplexUartInitOn_cases (u : υ) (pio : Option ℕ) (config : HalfDuplexUartConfig)
    (b : PioBoard σ υ κ) :
    (∃ port : HalfDuplexUartPort, Disjoint port.claims b.claims ∧
      halfDuplexUartInitOn chip u pio config b =
        (.ok, (b.claim port.claims).setUart u (some port))) ∨
    ∃ result, result ≠ .ok ∧ halfDuplexUartInitOn chip u pio config b = (result, b) := by
  unfold halfDuplexUartInitOn
  cases pio with
  | none => exact .inr ⟨.errInvalidArg, by decide, rfl⟩
  | some pio =>
    rw [Option.elim_some]
    split_ifs
    · exact .inr ⟨.errInvalidArg, by decide, rfl⟩
    · exact .inr ⟨.errInvalidArg, by decide, rfl⟩
    · exact .inr ⟨.errBaudrate, by decide, rfl⟩
    rcases pioAddProgram_cases chip pio halfDuplexUartTxProgramLength b with
      htx | ⟨offsetTx, hfreeTx, htx⟩
    · rw [htx]
      exact .inr ⟨.errNoProgramSpace, by decide, rfl⟩
    rw [htx, Option.elim_some]
    rcases pioAddProgram_cases chip pio halfDuplexUartRxProgramLength
      (b.claim (programWords pio offsetTx halfDuplexUartTxProgramLength)) with
      hrx | ⟨offsetRx, hfreeRx, hrx⟩
    · rw [hrx, Option.elim_none, unclaim_claim hfreeTx]
      exact .inr ⟨.errNoProgramSpace, by decide, rfl⟩
    rw [hrx, Option.elim_some]
    rcases halfDuplexUartMachines_cases chip u pio offsetTx offsetRx
      ((b.claim (programWords pio offsetTx halfDuplexUartTxProgramLength)).claim
        (programWords pio offsetRx halfDuplexUartRxProgramLength)) with
      ⟨smTx, smRx, hfreeSmTx, hfreeSmRx, hopened⟩ | hrefused
    · refine .inl ⟨⟨pio, smTx, smRx, offsetTx, offsetRx⟩, ?_, ?_⟩
      · unfold HalfDuplexUartPort.claims
        simp only [PioBoard.claim, Finset.disjoint_union_right] at hfreeSmTx hfreeSmRx hfreeRx
        simp only [Finset.disjoint_union_left]
        exact ⟨⟨⟨hfreeSmTx.1.1, hfreeSmRx.1.1.1⟩, hfreeRx.1⟩, hfreeTx⟩
      · rw [hopened, claim_claim, claim_claim, claim_claim, union_turned]
        rfl
    · rw [hrefused, unclaim_claim hfreeRx, unclaim_claim hfreeTx]
      exact .inr ⟨.errNoStateMachine, by decide, rfl⟩

end uart

section can

theorem pioAddProgramAtOffset_cases (words : PioClaims) (b : PioBoard σ υ κ) :
    pioAddProgramAtOffset words b = none ∨
      Disjoint words b.claims ∧ pioAddProgramAtOffset words b = some (b.claim words) := by
  unfold pioAddProgramAtOffset
  split_ifs with hfree
  · exact .inr ⟨hfree, rfl⟩
  · exact .inl rfl

theorem setActive_claim (pio : ℕ) (c : Option κ) (rs : PioClaims) (b : PioBoard σ υ κ) :
    (b.claim rs).setActive pio c = (b.setActive pio c).claim rs := rfl

variable [DecidableEq κ]

theorem busIsActive_iff (c : κ) (b : PioBoard σ υ κ) :
    busIsActive chip c b = true ↔ ∃ pio < chip.numPios, b.activeBuses pio = some c := by
  unfold busIsActive
  rw [List.any_eq_true]
  constructor
  · rintro ⟨pio, hmem, hactive⟩
    exact ⟨pio, List.mem_range.mp hmem, of_decide_eq_true hactive⟩
  · rintro ⟨pio, hlt, hactive⟩
    exact ⟨pio, List.mem_range.mpr hlt, decide_eq_true hactive⟩

theorem setBus_claim (c : κ) (bus : CanBus) (rs : PioClaims) (b : PioBoard σ υ κ) :
    (b.claim rs).setBus c bus = (b.setBus c bus).claim rs := rfl

theorem setBus_unclaim (c : κ) (bus : CanBus) (rs : PioClaims) (b : PioBoard σ υ κ) :
    (b.unclaim rs).setBus c bus = (b.setBus c bus).unclaim rs := rfl

theorem canBusClaim_cases (c : κ) (config : CanBusConfig) (bitrate : UInt32)
    (hmachines : Disjoint (blockMachines config.pio) b.claims)
    (hirq : .irq config.pio ∉ b.claims) :
    (∃ queue, canQueueInit config.rxStorage = some queue ∧
      Disjoint (blockClaims config.pio) b.claims ∧
      canBusClaim c config bitrate b = (.ok, ((b.claim (blockClaims config.pio)).setBus c
        (config.opened bitrate queue)).setActive config.pio (some c))) ∨
    ∃ result bus, result ≠ .ok ∧ canBusClaim c config bitrate b = (result, b.setBus c bus) := by
  have hkeep : b = b.setBus c (b.bus c) := by
    unfold PioBoard.setBus
    rw [Function.update_eq_self]
  unfold canBusClaim
  dsimp only
  rcases pioAddProgramAtOffset_cases (reservationLow config.pio)
    (b.claim (blockMachines config.pio)) with hlow | ⟨hfreeLow, hlow⟩
  · rw [hlow, Option.elim_none, unclaim_claim hmachines]
    exact .inr ⟨.errPioInUse, b.bus c, by decide, congrArg _ hkeep⟩
  rw [hlow, Option.elim_some]
  rcases pioAddProgramAtOffset_cases (reservationHigh config.pio)
    ((b.claim (blockMachines config.pio)).claim (reservationLow config.pio)) with
    hhigh | ⟨hfreeHigh, hhigh⟩
  · rw [hhigh, Option.elim_none, unclaim_claim hfreeLow, unclaim_claim hmachines]
    exact .inr ⟨.errPioInUse, b.bus c, by decide, congrArg _ hkeep⟩
  rw [hhigh, Option.elim_some]
  cases hqueue : canQueueInit config.rxStorage with
  | none =>
    refine .inr ⟨.errInvalidArg, config.halfOpened bitrate, by decide, ?_⟩
    rw [Option.elim_none, ← setBus_unclaim, unclaim_claim hfreeHigh, ← setBus_unclaim,
      unclaim_claim hfreeLow, ← setBus_unclaim, unclaim_claim hmachines]
  | some queue =>
    refine .inl ⟨queue, rfl, ?_, ?_⟩
    · simp only [PioBoard.claim, Finset.disjoint_union_right] at hfreeLow hfreeHigh
      simp only [blockClaims, Finset.disjoint_union_left]
      exact ⟨⟨⟨hmachines, hfreeLow.1⟩, hfreeHigh.1.1⟩, Finset.disjoint_singleton_left.mpr hirq⟩
    · rw [Option.elim_some, ← setActive_claim, ← setBus_claim, claim_claim, claim_claim,
        claim_claim]
      unfold blockClaims
      rw [Finset.union_assoc, Finset.union_assoc]

/-- What `can_bus_init` does: it takes a whole block that was free, or claims nothing. -/
theorem canBusInit_cases (c : κ) (config : CanBusConfig) (b : PioBoard σ υ κ) :
    (∃ bitrate queue, config.pio < chip.numPios ∧ busIsActive chip c b = false ∧
      b.activeBuses config.pio = none ∧ Disjoint (blockClaims config.pio) b.claims ∧
      canQueueInit config.rxStorage = some queue ∧
      canBusInit chip c config b = (.ok, ((b.claim (blockClaims config.pio)).setBus c
        (config.opened bitrate queue)).setActive config.pio (some c))) ∨
    ∃ result bus, result ≠ .ok ∧ (busIsActive chip c b = true → bus = b.bus c) ∧
      canBusInit chip c config b = (result, b.setBus c bus) := by
  have hkeep : b = b.setBus c (b.bus c) := by
    unfold PioBoard.setBus
    rw [Function.update_eq_self]
  have hrefused : ∀ result, result ≠ CanResult.ok → canBusInit chip c config b = (result, b) →
      ∃ result bus, result ≠ .ok ∧ (busIsActive chip c b = true → bus = b.bus c) ∧
        canBusInit chip c config b = (result, b.setBus c bus) :=
    fun result hresult h => ⟨result, b.bus c, hresult, fun _ => rfl,
      h.trans (congrArg (Prod.mk result) hkeep)⟩
  by_cases hargs : config.pio ≥ chip.numPios ∨
      (config.rxStorage.elim 0 List.length) < CAN_QUEUE_RECORD_SIZE + 1 ∨
      pinsAreCompatible chip config.rxPin config.txPin = false
  · exact .inr (hrefused .errInvalidArg (by decide) (by unfold canBusInit; rw [if_pos hargs]))
  have hpio : config.pio < chip.numPios := Nat.not_le.mp fun h => hargs (.inl h)
  cases hbitrate : bitrateIsUsable chip
      (if config.bitrate ≠ 0 then config.bitrate else CAN_DEFAULT_BITRATE) with
  | false =>
    refine .inr (hrefused .errInvalidArg (by decide) ?_)
    unfold canBusInit
    simp only [if_neg hargs, hbitrate, if_true]
  | true =>
  cases hhandler : irqHandlerFor chip config.pio with
  | false =>
    refine .inr (hrefused .errInvalidArg (by decide) ?_)
    unfold canBusInit
    simp only [if_neg hargs, hbitrate, hhandler, Bool.true_eq_false, if_false, if_true]
  | true =>
  cases hactive : busIsActive chip c b with
  | true =>
    refine .inr ?_
    have hfail := hrefused .errPioInUse (by decide) (by
      unfold canBusInit
      simp only [if_neg hargs, hbitrate, hhandler, hactive, Bool.true_eq_false, if_false, if_true])
    rwa [hactive] at hfail
  | false =>
  by_cases hbusy : (b.activeBuses config.pio).isSome ∨ pioIsFree config.pio b = false
  · refine .inr ?_
    have hfail := hrefused .errPioInUse (by decide) (by
      unfold canBusInit
      simp only [if_neg hargs, hbitrate, hhandler, hactive, Bool.true_eq_false,
        Bool.false_eq_true, if_false, if_pos hbusy])
    rwa [hactive] at hfail
  by_cases hirq : .irq config.pio ∈ b.claims
  · refine .inr ?_
    have hfail := hrefused .errIrqInUse (by decide) (by
      unfold canBusInit
      simp only [if_neg hargs, hbitrate, hhandler, hactive, Bool.true_eq_false,
        Bool.false_eq_true, if_false, if_neg hbusy, if_pos hirq])
    rwa [hactive] at hfail
  have hnone : b.activeBuses config.pio = none := by
    rw [← Option.not_isSome_iff_eq_none]
    exact fun h => hbusy (.inl h)
  have hmachines : Disjoint (blockMachines config.pio) b.claims := by
    have hfree : pioIsFree config.pio b = true := by
      rw [← Bool.not_eq_false]
      exact fun h => hbusy (.inr h)
    unfold pioIsFree at hfree
    simp only [Bool.and_eq_true, decide_eq_true_eq] at hfree
    exact hfree.1.1
  have hclaim : canBusInit chip c config b = canBusClaim c config
      (if config.bitrate ≠ 0 then config.bitrate else CAN_DEFAULT_BITRATE) b := by
    unfold canBusInit
    simp only [if_neg hargs, hbitrate, hhandler, hactive, Bool.true_eq_false, Bool.false_eq_true,
      if_false, if_neg hbusy, if_neg hirq]
  rw [hclaim]
  rcases canBusClaim_cases c config _ hmachines hirq with
    ⟨queue, hqueue, hfree, heq⟩ | ⟨result, bus, hresult, heq⟩
  · exact .inl ⟨_, queue, hpio, rfl, hnone, hfree, hqueue, heq⟩
  · exact .inr ⟨result, bus, hresult, fun h => absurd h Bool.false_ne_true, heq⟩

end can

section holders

variable [DecidableEq κ] (chip) (w : PioHistory σ υ κ)

theorem holds_claims (claims : PioClaims) (b : PioBoard σ υ κ) :
    (w.withBoard { b with claims := claims }).holds chip = (w.withBoard b).holds chip := by
  funext o
  cases o with
  | strip s => rfl
  | uart u => rfl
  | bus c => rfl
  | program pio => rfl
  | elsewhere => rfl
  | lost => rfl

theorem holds_setStrip [DecidableEq σ] (s : σ) (port : Option Ws2812Port) (b : PioBoard σ υ κ)
    {o : PioOwner σ υ κ} (ho : o ≠ .strip s) :
    (w.withBoard (b.setStrip s port)).holds chip o = (w.withBoard b).holds chip o := by
  cases o with
  | strip t =>
    have hts : t ≠ s := fun hts => ho (congrArg PioOwner.strip hts)
    change (Function.update b.strip s port t).elim ∅ _ = _
    rw [Function.update_of_ne hts]
    rfl
  | uart u => rfl
  | bus c => rfl
  | program pio => rfl
  | elsewhere => rfl
  | lost => rfl

theorem holds_setUart [DecidableEq υ] (u : υ) (port : Option HalfDuplexUartPort) (b : PioBoard σ υ κ)
    {o : PioOwner σ υ κ} (ho : o ≠ .uart u) :
    (w.withBoard (b.setUart u port)).holds chip o = (w.withBoard b).holds chip o := by
  cases o with
  | uart v =>
    have hvu : v ≠ u := fun hvu => ho (congrArg PioOwner.uart hvu)
    change (Function.update b.uart u port v).elim ∅ _ = _
    rw [Function.update_of_ne hvu]
    rfl
  | strip s => rfl
  | bus c => rfl
  | program pio => rfl
  | elsewhere => rfl
  | lost => rfl

theorem holds_setProgram (pio : ℕ) (program : Ws2812Program) (b : PioBoard σ υ κ)
    {o : PioOwner σ υ κ} (ho : o ≠ .program pio) :
    (w.withBoard (b.setProgram pio program)).holds chip o = (w.withBoard b).holds chip o := by
  cases o with
  | program q =>
    have hq : q ≠ pio := fun hq => ho (congrArg PioOwner.program hq)
    change (Function.update b.program pio program q).offset.elim ∅ _ = _
    rw [Function.update_of_ne hq]
    rfl
  | strip s => rfl
  | uart u => rfl
  | bus c => rfl
  | elsewhere => rfl
  | lost => rfl

theorem holds_strip_self [DecidableEq σ] (s : σ) (port : Option Ws2812Port) (b : PioBoard σ υ κ) :
    (w.withBoard (b.setStrip s port)).holds chip (.strip s) =
      port.elim ∅ Ws2812Port.claims := by
  change (Function.update b.strip s port s).elim ∅ _ = _
  rw [Function.update_self]

theorem holds_uart_self [DecidableEq υ] (u : υ) (port : Option HalfDuplexUartPort) (b : PioBoard σ υ κ) :
    (w.withBoard (b.setUart u port)).holds chip (.uart u) =
      port.elim ∅ HalfDuplexUartPort.claims := by
  change (Function.update b.uart u port u).elim ∅ _ = _
  rw [Function.update_self]

theorem holds_program_self (pio : ℕ) (program : Ws2812Program) (b : PioBoard σ υ κ) :
    (w.withBoard (b.setProgram pio program)).holds chip (.program pio) =
      program.offset.elim ∅ fun offset => programWords pio offset ws2812ProgramLength := by
  change (Function.update b.program pio program pio).offset.elim ∅ _ = _
  rw [Function.update_self]

end holders

section examples

/-- One strip with a channel, one UART and one bus, on a chip of which this much is taken. -/
def boardStart (claims : PioClaims) : PioHistory Unit Unit Unit :=
  .start claims fun _ => CanBusConfig.opened ⟨0, 4, 5, 0, [], none, 0⟩ 0 ⟨⟨[], 0, 0⟩, 0, false⟩

def stripOnZero : Ws2812InitConfig := ⟨some 0, some [], 8, some []⟩

def busOn (pio : ℕ) : CanBusConfig := ⟨pio, 4, 5, 500000, [], some (List.replicate 17 0), 0⟩

end examples

section sound

variable [DecidableEq κ] [Fintype σ] {w w' : PioHistory σ υ κ}

/-- Everything claimed has one holder, the users of a program are the strips on its block, and the
tables of the drivers agree with what their objects remember. -/
structure PioHistory.Sound (chip : PicoChip) (w : PioHistory σ υ κ) : Prop where
  balanced : Balanced w.board.claims (w.holds chip)
  users : ∀ pio, (w.board.program pio).users =
    (∑ s, onBlock pio (w.board.strip s)) + w.lostOn pio
  loaded : ∀ pio, (w.board.program pio).offset = none ↔ (w.board.program pio).users = 0
  offsets : ∀ s, ∀ port ∈ w.board.strip s,
    (w.board.program port.pio).offset = some port.offset
  active : ∀ pio c, w.board.activeBuses pio = some c →
    pio < chip.numPios ∧ (w.board.bus c).pio = pio

section strips

variable [DecidableEq σ]

theorem sum_onBlock_update (strip : σ → Option Ws2812Port) (s : σ) (port : Option Ws2812Port)
    (pio : ℕ) :
    (∑ t, onBlock pio (Function.update strip s port t)) + onBlock pio (strip s) =
      (∑ t, onBlock pio (strip t)) + onBlock pio port := by
  have hothers : ∑ t ∈ Finset.univ.erase s, onBlock pio (Function.update strip s port t) =
      ∑ t ∈ Finset.univ.erase s, onBlock pio (strip t) :=
    Finset.sum_congr rfl fun t ht => by
      rw [Function.update_of_ne (Finset.ne_of_mem_erase ht)]
  rw [← Finset.add_sum_erase _ (fun t => onBlock pio (Function.update strip s port t))
    (Finset.mem_univ s), ← Finset.add_sum_erase _ (fun t => onBlock pio (strip t))
    (Finset.mem_univ s), hothers, Function.update_self]
  omega

omit [DecidableEq σ] in
theorem onBlock_le (strip : σ → Option Ws2812Port) (s : σ) (pio : ℕ) :
    onBlock pio (strip s) ≤ ∑ t, onBlock pio (strip t) :=
  Finset.single_le_sum (f := fun t => onBlock pio (strip t)) (fun _ _ => Nat.zero_le _)
    (Finset.mem_univ s)

theorem PioHistory.Sound.forgetStrip (h : w.Sound chip) (s : σ) :
    (w.stripOpened s (w.board.setStrip s none)).Sound chip where
  balanced := by
    have hforget : (w.stripOpened s (w.board.setStrip s none)).holds chip (.strip s) = ∅ :=
      holds_strip_self chip w s none w.board
    refine h.balanced.pass (j := .strip s) (k := .lost) (by simp) hforget rfl fun o hs hlost => ?_
    refine Eq.trans ?_ (holds_setStrip chip w s none w.board hs)
    cases o with
    | lost => exact absurd rfl hlost
    | strip t => rfl
    | uart u => rfl
    | bus c => rfl
    | program pio => rfl
    | elsewhere => rfl
  users pio := by
    have hsum := sum_onBlock_update w.board.strip s none pio
    have husers := h.users pio
    change _ = (∑ t, onBlock pio (Function.update w.board.strip s none t)) +
      (w.lostOn pio + onBlock pio (w.board.strip s))
    change (w.board.program pio).users = _
    change _ = _ + 0 at hsum
    omega
  loaded := h.loaded
  offsets t port hport := by
    change port ∈ Function.update w.board.strip s none t at hport
    by_cases hts : t = s
    · rw [hts, Function.update_self] at hport
      exact absurd hport (by simp)
    · rw [Function.update_of_ne hts] at hport
      exact h.offsets t port hport
  active := h.active

omit [DecidableEq σ] in
theorem PioHistory.Sound.loaded_update (h : w.Sound chip) {p : ℕ} {program : Ws2812Program}
    (hprogram : program.offset = none ↔ program.users = 0) (pio : ℕ) :
    (Function.update w.board.program p program pio).offset = none ↔
      (Function.update w.board.program p program pio).users = 0 := by
  by_cases hpio : pio = p
  · rw [hpio, Function.update_self]
    exact hprogram
  · rw [Function.update_of_ne hpio]
    exact h.loaded pio

omit [DecidableEq σ] in
/-- The claims with a program that was put in place, or that one more is on. -/
theorem PioHistory.Sound.balanced_loaded (h : w.Sound chip) {port : Ws2812Port}
    {b' : PioBoard σ υ κ} (hacquired : Acquired port.pio port.offset w.board b') :
    Balanced b'.claims ((w.withBoard (w.board.setProgram port.pio
      ⟨some port.offset, (w.board.program port.pio).users + 1⟩)).holds chip) := by
  have hself := holds_program_self chip w port.pio
    ⟨some port.offset, (w.board.program port.pio).users + 1⟩ w.board
  have hbefore : w.holds chip (.program port.pio) =
    (w.board.program port.pio).offset.elim ∅ _ := rfl
  rcases hacquired.2 with ⟨hoffset, hclaims⟩ | ⟨hoffset, hwords, hclaims⟩
  · have hsame : (w.withBoard (w.board.setProgram port.pio
        ⟨some port.offset, (w.board.program port.pio).users + 1⟩)).holds chip =
        w.holds chip := by
      funext o
      by_cases ho : o = .program port.pio
      · rw [ho, hself, hbefore, hoffset]
      · exact holds_setProgram chip w port.pio _ w.board ho
    rw [hsame, hclaims]
    exact h.balanced
  · rw [hclaims]
    refine h.balanced.take (k := .program port.pio) hwords ?_ fun o ho =>
      holds_setProgram chip w port.pio _ w.board ho
    rw [hself, hbefore, hoffset, Option.elim_some, Option.elim_none, Finset.empty_union]

theorem PioHistory.Sound.users_opened (h : w.Sound chip) {s : σ} (hnone : w.board.strip s = none)
    (port : Ws2812Port) (pio : ℕ) :
    (Function.update w.board.program port.pio
        ⟨some port.offset, (w.board.program port.pio).users + 1⟩ pio).users =
      (∑ t, onBlock pio (Function.update w.board.strip s (some port) t)) + w.lostOn pio := by
  have husers := h.users pio
  have hsum := sum_onBlock_update w.board.strip s (some port) pio
  rw [hnone] at hsum
  change _ + 0 = _ + (if port.pio = pio then 1 else 0) at hsum
  by_cases hpio : pio = port.pio
  · rw [if_pos hpio.symm] at hsum
    rw [hpio, Function.update_self]
    change (w.board.program port.pio).users + 1 = _
    rw [← hpio]
    omega
  · rw [if_neg fun hsame => hpio hsame.symm] at hsum
    rw [Function.update_of_ne hpio]
    omega

theorem PioHistory.Sound.openStrip (h : w.Sound chip) {s : σ} (hnone : w.board.strip s = none)
    {port : Ws2812Port} {b' : PioBoard σ υ κ} (hacquired : Acquired port.pio port.offset w.board b')
    (hfree : Disjoint port.claims b'.claims) :
    (w.withBoard ((b'.claim port.claims).setStrip s (some port))).Sound chip := by
  have hloaded := h.balanced_loaded hacquired
  obtain ⟨heq, hclaims⟩ := hacquired
  generalize b'.claims = claims at heq hclaims hfree hloaded
  subst heq
  constructor
  · have hstrip : w.holds chip (.strip s) = ∅ := by
      change (w.board.strip s).elim ∅ _ = ∅
      rw [hnone, Option.elim_none]
    refine hloaded.take (k := .strip s) hfree ?_ fun o ho => ?_
    · change _ = w.holds chip (.strip s) ∪ _
      rw [holds_strip_self, hstrip, Finset.empty_union, Option.elim_some]
    · rw [holds_setStrip chip w s (some port) _ ho]
      exact congrFun (holds_claims chip w _ _) o
  · exact h.users_opened hnone port
  · exact h.loaded_update (by simp)
  · intro t other hother
    change other ∈ Function.update w.board.strip s (some port) t at hother
    change (Function.update w.board.program port.pio _ other.pio).offset = some other.offset
    by_cases hts : t = s
    · rw [hts, Function.update_self] at hother
      obtain rfl := Option.some.inj hother
      rw [Function.update_self]
    · rw [Function.update_of_ne hts] at hother
      have hold := h.offsets t other hother
      by_cases hpio : other.pio = port.pio
      · -- a strip on the block has the program where it is
        rw [hpio, Function.update_self]
        rw [hpio] at hold
        rcases hclaims with ⟨hoffset, -⟩ | ⟨hoffset, -⟩
        · rw [hoffset] at hold
          exact hold
        · rw [hoffset] at hold
          exact absurd hold (by simp)
      · rw [Function.update_of_ne hpio]
        exact hold
  · exact h.active

section closing

variable {s : σ} {port : Ws2812Port} (h : w.Sound chip) (hport : w.board.strip s = some port)

include h hport

omit [DecidableEq σ] in
theorem PioHistory.Sound.users_pos : 0 < (w.board.program port.pio).users := by
  have hone := onBlock_le w.board.strip s port.pio
  rw [hport] at hone
  change (if port.pio = port.pio then 1 else 0) ≤ _ at hone
  rw [if_pos rfl] at hone
  have husers := h.users port.pio
  omega

theorem PioHistory.Sound.ws2812Deinit_eq :
    ws2812Deinit s w.board =
      if (w.board.program port.pio).users - 1 = 0 then
        { (w.board.setStrip s none).setProgram port.pio ⟨none, 0⟩ with
          claims := (w.board.claims \ port.claims) \
            programWords port.pio port.offset ws2812ProgramLength }
      else { (w.board.setStrip s none).setProgram port.pio
          ⟨some port.offset, (w.board.program port.pio).users - 1⟩ with
        claims := w.board.claims \ port.claims } := by
  have hoffset := h.offsets s port hport
  have hused := (h.users_pos hport).ne'
  have hclaims : (w.board.claims \ port.channels) \ {.machine port.pio port.sm} =
      w.board.claims \ port.claims := by
    unfold Ws2812Port.claims
    rw [sdiff_sdiff_left, Finset.sup_eq_union, Finset.union_comm]
  unfold ws2812Deinit
  rw [hport, Option.elim_some, ← hclaims]
  rw [@programRelease_used σ υ κ ((w.board.unclaim port.channels).unclaim
    {.machine port.pio port.sm}) port.pio port.offset hoffset hused]
  change (if (w.board.program port.pio).users - 1 = 0 then _ else _ : PioBoard σ υ κ).setStrip
    s none = _
  split_ifs
  · rfl
  · rfl

theorem PioHistory.Sound.balanced_closed :
    Balanced (w.board.claims \ port.claims)
      ((w.withBoard (w.board.setStrip s none)).holds chip) := by
  have hholds : w.holds chip (.strip s) = port.claims := by
    change (w.board.strip s).elim ∅ _ = _
    rw [hport, Option.elim_some]
  rw [← hholds]
  exact h.balanced.release_all (holds_strip_self chip w s none w.board) fun o ho =>
    holds_setStrip chip w s none w.board ho

theorem PioHistory.Sound.users_closed (offset : Option ℕ) (pio : ℕ) :
    (Function.update w.board.program port.pio
        ⟨offset, (w.board.program port.pio).users - 1⟩ pio).users =
      (∑ t, onBlock pio (Function.update w.board.strip s none t)) + w.lostOn pio := by
  have husers := h.users pio
  have hsum : (∑ t, onBlock pio (Function.update w.board.strip s none t)) +
      onBlock pio (w.board.strip s) = ∑ t, onBlock pio (w.board.strip t) :=
    sum_onBlock_update w.board.strip s none pio
  rw [hport] at hsum
  change _ + (if port.pio = pio then 1 else 0) = _ at hsum
  by_cases hpio : pio = port.pio
  · rw [if_pos hpio.symm] at hsum
    rw [hpio, Function.update_self]
    change (w.board.program port.pio).users - 1 = _
    rw [← hpio]
    omega
  · rw [if_neg fun hsame => hpio hsame.symm] at hsum
    rw [Function.update_of_ne hpio]
    omega

theorem PioHistory.Sound.closeStrip_last (hlast : (w.board.program port.pio).users - 1 = 0) :
    (w.withBoard { (w.board.setStrip s none).setProgram port.pio ⟨none, 0⟩ with
      claims := (w.board.claims \ port.claims) \
        programWords port.pio port.offset ws2812ProgramLength }).Sound chip := by
  have hclosed := h.users_closed hport none
  rw [hlast] at hclosed
  constructor
  · have hwords : (w.withBoard (w.board.setStrip s none)).holds chip (.program port.pio) =
        programWords port.pio port.offset ws2812ProgramLength := by
      change (w.board.program port.pio).offset.elim ∅ _ = _
      rw [h.offsets s port hport, Option.elim_some]
    rw [← hwords]
    exact (h.balanced_closed hport).release_all
      (holds_program_self chip w port.pio ⟨none, 0⟩ (w.board.setStrip s none)) fun o ho =>
        holds_setProgram chip w port.pio ⟨none, 0⟩ (w.board.setStrip s none) ho
  · exact hclosed
  · exact h.loaded_update (iff_of_true rfl rfl)
  · intro t other hother
    change other ∈ Function.update w.board.strip s none t at hother
    have hpio : other.pio ≠ port.pio := by
      intro hsame
      have hle := onBlock_le (Function.update w.board.strip s none) t port.pio
      rw [hother] at hle
      change (if other.pio = port.pio then 1 else 0) ≤ _ at hle
      rw [if_pos hsame] at hle
      have hnone := hclosed port.pio
      rw [Function.update_self] at hnone
      change 0 = _ at hnone
      omega
    change (Function.update w.board.program port.pio ⟨none, 0⟩ other.pio).offset = _
    rw [Function.update_of_ne hpio]
    exact (h.forgetStrip s).offsets t other hother
  · exact h.active

theorem PioHistory.Sound.closeStrip_shared (hmore : (w.board.program port.pio).users - 1 ≠ 0) :
    (w.withBoard { (w.board.setStrip s none).setProgram port.pio
        ⟨some port.offset, (w.board.program port.pio).users - 1⟩ with
      claims := w.board.claims \ port.claims }).Sound chip := by
  have hoffset := h.offsets s port hport
  constructor
  · have hsame : (w.withBoard ((w.board.setStrip s none).setProgram port.pio
        ⟨some port.offset, (w.board.program port.pio).users - 1⟩)).holds chip =
        (w.withBoard (w.board.setStrip s none)).holds chip := by
      funext o
      by_cases ho : o = .program port.pio
      · rw [ho, holds_program_self]
        change _ = (w.board.program port.pio).offset.elim ∅ _
        rw [hoffset]
      · exact holds_setProgram chip w port.pio _ _ ho
    have hstrip := h.balanced_closed hport
    rw [← hsame] at hstrip
    exact hstrip
  · exact h.users_closed hport (some port.offset)
  · exact h.loaded_update (iff_of_false (by simp) hmore)
  · intro t other hother
    have hold := (h.forgetStrip s).offsets t other hother
    change (Function.update w.board.program port.pio ⟨some port.offset, _⟩ other.pio).offset = _
    by_cases hpio : other.pio = port.pio
    · change (w.board.program other.pio).offset = _ at hold
      rw [hpio, Function.update_self]
      rw [hpio, hoffset] at hold
      exact hold
    · rw [Function.update_of_ne hpio]
      exact hold
  · exact h.active

theorem PioHistory.Sound.closeStrip : (w.withBoard (ws2812Deinit s w.board)).Sound chip := by
  rw [h.ws2812Deinit_eq hport]
  split_ifs with hlast
  · exact h.closeStrip_last hport hlast
  · exact h.closeStrip_shared hport hlast

end closing

end strips

section uarts

variable [DecidableEq υ]

theorem PioHistory.Sound.forgetUart (h : w.Sound chip) (u : υ) :
    (w.uartOpened u (w.board.setUart u none)).Sound chip where
  balanced := by
    have hforget : (w.uartOpened u (w.board.setUart u none)).holds chip (.uart u) = ∅ :=
      holds_uart_self chip w u none w.board
    refine h.balanced.pass (j := .uart u) (k := .lost) (by simp) hforget rfl fun o hu hlost => ?_
    refine Eq.trans ?_ (holds_setUart chip w u none w.board hu)
    cases o with
    | lost => exact absurd rfl hlost
    | strip s => rfl
    | uart v => rfl
    | bus c => rfl
    | program pio => rfl
    | elsewhere => rfl
  users := h.users
  loaded := h.loaded
  offsets := h.offsets
  active := h.active

theorem PioHistory.Sound.openUart (h : w.Sound chip) {u : υ} (hnone : w.board.uart u = none)
    {port : HalfDuplexUartPort} (hfree : Disjoint port.claims w.board.claims) :
    (w.withBoard ((w.board.claim port.claims).setUart u (some port))).Sound chip where
  balanced := by
    have hold : w.holds chip (.uart u) = ∅ := by
      change (w.board.uart u).elim ∅ _ = ∅
      rw [hnone, Option.elim_none]
    have hnew := holds_uart_self chip w u (some port) (w.board.claim port.claims)
    refine h.balanced.take (k := .uart u) hfree ?_ fun o ho => ?_
    · rw [hnew, hold, Option.elim_some, Finset.empty_union]
    · rw [holds_setUart chip w u (some port) (w.board.claim port.claims) ho]
      exact congrFun (holds_claims chip w _ w.board) o
  users := h.users
  loaded := h.loaded
  offsets := h.offsets
  active := h.active

theorem PioHistory.Sound.closeUart (h : w.Sound chip) {u : υ} {port : HalfDuplexUartPort}
    (hport : w.board.uart u = some port) :
    (w.withBoard (halfDuplexUartDeinit u w.board)).Sound chip := by
  have hholds : w.holds chip (.uart u) = port.claims := by
    change (w.board.uart u).elim ∅ _ = _
    rw [hport, Option.elim_some]
  have hdeinit : halfDuplexUartDeinit u w.board =
      { w.board.setUart u none with claims := w.board.claims \ port.claims } := by
    unfold halfDuplexUartDeinit HalfDuplexUartPort.claims
    rw [hport, Option.elim_some, ← Finset.sup_eq_union, ← Finset.sup_eq_union,
      ← Finset.sup_eq_union, ← sdiff_sdiff_left, ← sdiff_sdiff_left, ← sdiff_sdiff_left]
    rfl
  rw [hdeinit, ← hholds]
  exact ⟨h.balanced.release_all (holds_uart_self chip w u none w.board) fun o ho =>
    holds_setUart chip w u none w.board ho, h.users, h.loaded, h.offsets, h.active⟩

end uarts

section buses

theorem PioHistory.Sound.idleBus (h : w.Sound chip) {c : κ}
    (hidle : ∀ pio, w.board.activeBuses pio ≠ some c) (bus : CanBus) :
    (w.withBoard (w.board.setBus c bus)).Sound chip where
  balanced := by
    have hsame : (w.withBoard (w.board.setBus c bus)).holds chip = w.holds chip := by
      funext o
      cases o with
      | bus d =>
        by_cases hd : d = c
        · have hinactive : busIsActive chip d w.board = false := by
            rw [← Bool.not_eq_true, busIsActive_iff, hd]
            exact fun ⟨pio, _, hactive⟩ => hidle pio hactive
          change (if busIsActive chip d w.board then _ else _) =
            if busIsActive chip d w.board then _ else _
          rw [hinactive, if_neg Bool.false_ne_true, if_neg Bool.false_ne_true]
        · change (if busIsActive chip d w.board then
            blockClaims (Function.update w.board.bus c bus d).pio else ∅) = _
          rw [Function.update_of_ne hd]
          rfl
      | strip s => rfl
      | uart u => rfl
      | program pio => rfl
      | elsewhere => rfl
      | lost => rfl
    rw [hsame]
    exact h.balanced
  users := h.users
  loaded := h.loaded
  offsets := h.offsets
  active pio d hd := by
    have hne : d ≠ c := fun hdc => hidle pio (hdc ▸ hd)
    change pio < chip.numPios ∧ (Function.update w.board.bus c bus d).pio = pio
    rw [Function.update_of_ne hne]
    exact h.active pio d hd

theorem PioHistory.Sound.inactive (h : w.Sound chip) {c : κ}
    (hidle : busIsActive chip c w.board = false) (pio : ℕ) :
    w.board.activeBuses pio ≠ some c := by
  intro hactive
  rw [← Bool.not_eq_true, busIsActive_iff] at hidle
  exact hidle ⟨pio, (h.active pio c hactive).1, hactive⟩

theorem PioHistory.Sound.openBus (h : w.Sound chip) {c : κ} (bus : CanBus)
    (hpio : bus.pio < chip.numPios) (hidle : busIsActive chip c w.board = false)
    (hnone : w.board.activeBuses bus.pio = none)
    (hfree : Disjoint (blockClaims bus.pio) w.board.claims) :
    (w.withBoard (((w.board.claim (blockClaims bus.pio)).setBus c bus).setActive bus.pio
      (some c))).Sound chip := by
  have hset := h.idleBus (h.inactive hidle) bus
  have hupdate : ∀ pio, pio ≠ bus.pio →
      Function.update w.board.activeBuses bus.pio (some c) pio = w.board.activeBuses pio :=
    fun pio hne => Function.update_of_ne hne _ _
  have hothers : ∀ d, d ≠ c → busIsActive chip d (((w.board.claim (blockClaims bus.pio)).setBus c
      bus).setActive bus.pio (some c)) = busIsActive chip d w.board := by
    intro d hd
    rw [Bool.eq_iff_iff, busIsActive_iff, busIsActive_iff]
    refine exists_congr fun pio => and_congr_right fun _ => ?_
    change Function.update w.board.activeBuses bus.pio (some c) pio = some d ↔ _
    by_cases hsame : pio = bus.pio
    · rw [hsame, Function.update_self, hnone]
      exact iff_of_false (fun heq => hd (Option.some.inj heq).symm) (by simp)
    · rw [hupdate pio hsame]
  have hself : busIsActive chip c (((w.board.claim (blockClaims bus.pio)).setBus c bus).setActive
      bus.pio (some c)) = true := by
    rw [busIsActive_iff]
    exact ⟨bus.pio, hpio, Function.update_self _ _ _⟩
  have hbus : (Function.update w.board.bus c bus c).pio = bus.pio := by
    rw [Function.update_self]
  refine ⟨?_, h.users, h.loaded, h.offsets, fun pio d hd => ?_⟩
  · have hbefore : (w.withBoard (w.board.setBus c bus)).holds chip (.bus c) = ∅ := by
      change (if busIsActive chip c w.board then _ else _) = _
      rw [hidle, if_neg Bool.false_ne_true]
    refine hset.balanced.take (k := .bus c) hfree ?_ fun o ho => ?_
    · rw [hbefore, Finset.empty_union]
      change (if busIsActive chip c (((w.board.claim (blockClaims bus.pio)).setBus c bus).setActive
        bus.pio (some c)) then blockClaims (Function.update w.board.bus c bus c).pio else ∅) = _
      rw [hself, if_pos rfl, hbus]
    · cases o with
      | bus d =>
        have hd : d ≠ c := fun hdc => ho (congrArg PioOwner.bus hdc)
        change (if busIsActive chip d (((w.board.claim (blockClaims bus.pio)).setBus c
          bus).setActive bus.pio (some c)) then _ else _) = _
        rw [hothers d hd]
        rfl
      | strip s => rfl
      | uart u => rfl
      | program pio => rfl
      | elsewhere => rfl
      | lost => rfl
  · change Function.update w.board.activeBuses bus.pio (some c) pio = some d at hd
    by_cases hsame : pio = bus.pio
    · rw [hsame, Function.update_self] at hd
      obtain rfl := Option.some.inj hd
      exact ⟨hsame ▸ hpio, hbus.trans hsame.symm⟩
    · rw [hupdate pio hsame] at hd
      exact hset.active pio d hd

theorem sdiff_turned (claims a b c d : PioClaims) :
    (((claims \ d) \ c) \ b) \ a = claims \ (a ∪ b ∪ c ∪ d) := by
  rw [sdiff_sdiff_left, sdiff_sdiff_left, sdiff_sdiff_left]
  simp only [Finset.sup_eq_union]
  congr 1
  ac_rfl

theorem PioHistory.Sound.closeBus (h : w.Sound chip) (c : κ) :
    (w.withBoard (canBusDeinit chip c w.board)).Sound chip := by
  cases hidle : busIsActive chip c w.board with
  | false =>
    unfold canBusDeinit
    rw [if_pos hidle]
    exact h
  | true =>
  obtain ⟨pio, -, hactive⟩ := (busIsActive_iff c w.board).mp hidle
  have hpio := (h.active pio c hactive).2
  have hgone : ∀ q, Function.update w.board.activeBuses pio none q ≠ some c := by
    intro q hq
    by_cases hsame : q = pio
    · rw [hsame, Function.update_self] at hq
      exact absurd hq (by simp)
    · rw [Function.update_of_ne hsame] at hq
      exact hsame ((h.active q c hq).2.symm.trans hpio)
  have hinactive : busIsActive chip c (w.board.setActive pio none) = false := by
    rw [← Bool.not_eq_true, busIsActive_iff]
    exact fun ⟨q, _, hq⟩ => hgone q hq
  have hothers : ∀ d, d ≠ c →
      busIsActive chip d (w.board.setActive pio none) = busIsActive chip d w.board := by
    intro d hd
    rw [Bool.eq_iff_iff, busIsActive_iff, busIsActive_iff]
    refine exists_congr fun q => and_congr_right fun _ => ?_
    change Function.update w.board.activeBuses pio none q = some d ↔ _
    by_cases hsame : q = pio
    · rw [hsame, Function.update_self, hactive]
      exact iff_of_false (by simp) fun heq => hd (Option.some.inj heq).symm
    · rw [Function.update_of_ne hsame]
  have hholds : w.holds chip (.bus c) = blockClaims pio := by
    change (if busIsActive chip c w.board then blockClaims (w.board.bus c).pio else _) = _
    rw [hidle, if_pos rfl, hpio]
  have hclosed : (w.withBoard { w.board.setActive pio none with
      claims := w.board.claims \ blockClaims pio }).Sound chip := by
    refine ⟨?_, h.users, h.loaded, h.offsets, fun q d hd => ?_⟩
    · rw [← hholds]
      refine h.balanced.release_all ?_ fun o ho => ?_
      · change (if busIsActive chip c (w.board.setActive pio none) then _ else _) = _
        rw [hinactive, if_neg Bool.false_ne_true]
      · cases o with
        | bus d =>
          have hd : d ≠ c := fun hdc => ho (congrArg PioOwner.bus hdc)
          change (if busIsActive chip d (w.board.setActive pio none) then _ else _) = _
          rw [hothers d hd]
          rfl
        | strip s => rfl
        | uart u => rfl
        | program q => rfl
        | elsewhere => rfl
        | lost => rfl
    · change Function.update w.board.activeBuses pio none q = some d at hd
      by_cases hsame : q = pio
      · rw [hsame, Function.update_self] at hd
        exact absurd hd (by simp)
      · rw [Function.update_of_ne hsame] at hd
        exact h.active q d hd
  have hdeinit : canBusDeinit chip c w.board =
      ({ w.board.setActive pio none with
        claims := w.board.claims \ blockClaims pio } : PioBoard σ υ κ).setBus c
          { w.board.bus c with initialised := false } := by
    unfold canBusDeinit
    rw [hidle, if_neg (by decide), hpio]
    unfold blockClaims
    rw [← sdiff_turned]
    rfl
  rw [hdeinit]
  exact hclosed.idleBus hgone _

theorem PioHistory.Sound.elsewhere_claim (h : w.Sound chip) (hfree : Disjoint rs w.board.claims) :
    PioHistory.Sound chip { w with board := w.board.claim rs, elsewhere := w.elsewhere ∪ rs } := by
  refine ⟨h.balanced.take (k := .elsewhere) hfree rfl fun o ho => ?_, h.users, h.loaded,
    h.offsets, h.active⟩
  cases o with
  | elsewhere => exact absurd rfl ho
  | strip s => rfl
  | uart u => rfl
  | bus c => rfl
  | program pio => rfl
  | lost => rfl

theorem PioHistory.Sound.elsewhere_unclaim (h : w.Sound chip) (hheld : rs ⊆ w.elsewhere) :
    PioHistory.Sound chip { w with board := w.board.unclaim rs, elsewhere := w.elsewhere \ rs } := by
  refine ⟨h.balanced.release (k := .elsewhere) hheld rfl fun o ho => ?_, h.users, h.loaded,
    h.offsets, h.active⟩
  cases o with
  | elsewhere => exact absurd rfl ho
  | strip s => rfl
  | uart u => rfl
  | bus c => rfl
  | program pio => rfl
  | lost => rfl

theorem PioHistory.Sound.start (claims : PioClaims) (bus : κ → CanBus) :
    (PioHistory.start claims bus : PioHistory σ υ κ).Sound chip where
  balanced := by
    have hbus : ∀ c, busIsActive chip c (PioHistory.start claims bus : PioHistory σ υ κ).board =
        false := by
      intro c
      rw [← Bool.not_eq_true, busIsActive_iff]
      exact fun ⟨pio, _, hactive⟩ => absurd hactive (by simp [PioHistory.start])
    have hnothing : ∀ o, o ≠ .elsewhere →
        (PioHistory.start claims bus : PioHistory σ υ κ).holds chip o = ∅ := by
      intro o ho
      cases o with
      | bus c =>
        change (if busIsActive chip c _ then _ else _) = _
        rw [hbus c, if_neg Bool.false_ne_true]
      | elsewhere => exact absurd rfl ho
      | strip s => rfl
      | uart u => rfl
      | program pio => rfl
      | lost => rfl
    constructor
    · intro r
      constructor
      · exact fun hr => ⟨.elsewhere, hr⟩
      · intro hr
        obtain ⟨o, ho⟩ := hr
        by_cases helse : o = .elsewhere
        · rw [helse] at ho
          exact ho
        · rw [hnothing o helse] at ho
          exact absurd ho (Finset.notMem_empty r)
    · intro o o' hne
      by_cases helse : o = .elsewhere
      · rw [hnothing o' fun h => hne (helse.trans h.symm)]
        exact Finset.disjoint_empty_right _
      · rw [hnothing o helse]
        exact Finset.disjoint_empty_left _
  users _ := by
    change 0 = (∑ s : σ, 0) + 0
    rw [Finset.sum_const_zero]
  loaded _ := iff_of_true rfl rfl
  offsets _ _ hport := absurd hport (by simp [PioHistory.start])
  active _ _ hactive := absurd hactive (by simp [PioHistory.start])

end buses

section runs

variable [DecidableEq σ] [DecidableEq υ] {event : PioEvent σ υ κ}

theorem PioHistory.Sound.step (h : w.Sound chip) (hstep : PioStep chip w event w') :
    w'.Sound chip := by
  cases hstep with
  | stripInit s config =>
    rcases ws2812Init_cases s config h.loaded with
      ⟨port, b', hacquired, hfree, heq⟩ | ⟨result, hresult, heq⟩
    · rw [heq, if_pos rfl]
      have hnone : (w.stripOpened s (w.board.setStrip s none)).board.strip s = none :=
        Function.update_self _ _ _
      have hopened := (h.forgetStrip s).openStrip hnone (hacquired.setStrip s) hfree
      rw [setStrip_again] at hopened
      exact hopened
    · rw [heq, if_neg hresult]
      exact h
  | stripDeinit s =>
    cases hport : w.board.strip s with
    | none =>
      unfold ws2812Deinit
      rw [hport, Option.elim_none]
      exact h
    | some port => exact h.closeStrip hport
  | uartInit u pio config =>
    rcases halfDuplexUartInitOn_cases u pio config w.board with
      ⟨port, hfree, heq⟩ | ⟨result, hresult, heq⟩
    · rw [heq, if_pos rfl]
      have hnone : (w.uartOpened u (w.board.setUart u none)).board.uart u = none :=
        Function.update_self _ _ _
      have hopened := (h.forgetUart u).openUart hnone hfree
      change ((w.uartOpened u _).withBoard (((w.board.setUart u none).claim port.claims).setUart u
        (some port))).Sound chip at hopened
      rw [setUart_again] at hopened
      exact hopened
    · rw [heq, if_neg hresult]
      exact h
  | uartDeinit u =>
    cases hport : w.board.uart u with
    | none =>
      unfold halfDuplexUartDeinit
      rw [hport, Option.elim_none]
      exact h
    | some port => exact h.closeUart hport
  | canInit c config =>
    rcases canBusInit_cases c config w.board with
      ⟨bitrate, queue, hpio, hidle, hnone, hfree, -, heq⟩ | ⟨result, bus, -, hbus, heq⟩
    · rw [heq]
      exact h.openBus (config.opened bitrate queue) hpio hidle hnone hfree
    · rw [heq]
      cases hactive : busIsActive chip c w.board with
      | false => exact h.idleBus (h.inactive hactive) bus
      | true =>
        have hsame : w.board.setBus c bus = w.board := by
          unfold PioBoard.setBus
          rw [hbus hactive, Function.update_eq_self]
        rw [hsame]
        exact h
  | canDeinit c => exact h.closeBus c
  | claim rs hfree => exact h.elsewhere_claim hfree
  | unclaim rs hheld => exact h.elsewhere_unclaim hheld

theorem PioHistory.Sound.run {claims : PioClaims} {bus : κ → CanBus}
    {events : List (PioEvent σ υ κ)}
    (hrun : Steps (PioStep chip) (PioHistory.start claims bus) events w) : w.Sound chip :=
  hrun.invariant (fun _ _ _ h hstep => h.step hstep) (.start claims bus)

/-- Whatever the order of the init and deinit calls, answered with an error or not: what is claimed
of the chip is held by just one strip, UART, bus, program or other code, or it is lost to a strip or
UART that was initialised twice; and the program that a strip runs is in place. -/
theorem pio_claims_held_once {claims : PioClaims} {bus : κ → CanBus}
    {events : List (PioEvent σ υ κ)}
    (hrun : Steps (PioStep chip) (PioHistory.start claims bus) events w) :
    (∀ r, r ∈ w.board.claims ↔ ∃! o, r ∈ w.holds chip o) ∧
    (∀ s port, w.board.strip s = some port → w.holds chip (.program port.pio) =
      programWords port.pio port.offset ws2812ProgramLength) ∧
    ∀ pio c, w.board.activeBuses pio = some c → w.holds chip (.bus c) = blockClaims pio := by
  have h := PioHistory.Sound.run hrun
  refine ⟨fun r => ?_, fun s port hport => ?_, fun pio c hactive => ?_⟩
  · rw [h.balanced.claimed]
    constructor
    · intro hr
      obtain ⟨o, ho⟩ := hr
      exact ⟨o, ho, fun o' ho' => h.balanced.holder ho' ho⟩
    · exact ExistsUnique.exists
  · change (w.board.program port.pio).offset.elim ∅ _ = _
    rw [h.offsets s port hport, Option.elim_some]
  · obtain ⟨hlt, hpio⟩ := h.active pio c hactive
    change (if busIsActive chip c w.board then _ else _) = _
    rw [(busIsActive_iff c w.board).mpr ⟨pio, hlt, hactive⟩, if_pos rfl, hpio]

/-- A bus finds the block taken that the strip is on, and another one free. -/
theorem pio_claims_held_once_two :
    ∃ w : PioHistory Unit Unit Unit,
      w.board.strip () = some ⟨0, 0, 28, some 0⟩ ∧ w.board.activeBuses 0 = none ∧
      w.board.activeBuses 1 = some () ∧ w.holds rp2040 (.program 0) = programWords 0 28 4 := by
  have hstrip : Steps (PioStep rp2040) (boardStart ∅) _ _ :=
    (Steps.nil _).snoc (.stripInit _ () stripOnZero)
  have hrun := (hstrip.snoc (.canInit _ () (busOn 0))).snoc (.canInit _ () (busOn 1))
  have hprogram := (pio_claims_held_once hrun).2.1 () ⟨0, 0, 28, some 0⟩ (by decide +kernel)
  exact ⟨_, by decide +kernel, by decide +kernel, by decide +kernel, hprogram⟩

/-- An init call for something that is not initialised. -/
def PioEvent.Careful (w : PioHistory σ υ κ) : PioEvent σ υ κ → Prop
  | .stripInit s _ => w.board.strip s = none
  | .uartInit u _ _ => w.board.uart u = none
  | _ => True

omit [Fintype σ] in
theorem nothing_lost {claims : PioClaims} {bus : κ → CanBus} {events : List (PioEvent σ υ κ)}
    (hrun : Steps (fun w event w' => PioStep chip w event w' ∧ event.Careful w)
      (PioHistory.start claims bus) events w) : w.lost = ∅ ∧ ∀ pio, w.lostOn pio = 0 := by
  induction hrun with
  | nil => exact ⟨rfl, fun _ => rfl⟩
  | @snoc w _ _ _ _ hstep ih =>
    obtain ⟨hlost, hlostOn⟩ := ih
    obtain ⟨hstep, hcareful⟩ := hstep
    cases hstep with
    | stripInit s config =>
      change w.board.strip s = none at hcareful
      split_ifs
      · refine ⟨?_, fun pio => ?_⟩
        · change w.lost ∪ (w.board.strip s).elim ∅ _ = ∅
          rw [hcareful, hlost, Option.elim_none, Finset.empty_union]
        · change w.lostOn pio + onBlock pio (w.board.strip s) = 0
          rw [hcareful, hlostOn]
          rfl
      · exact ⟨hlost, hlostOn⟩
    | uartInit u pio config =>
      change w.board.uart u = none at hcareful
      split_ifs
      · refine ⟨?_, hlostOn⟩
        change w.lost ∪ (w.board.uart u).elim ∅ _ = ∅
        rw [hcareful, hlost, Option.elim_none, Finset.empty_union]
      · exact ⟨hlost, hlostOn⟩
    | stripDeinit s => exact ⟨hlost, hlostOn⟩
    | uartDeinit u => exact ⟨hlost, hlostOn⟩
    | canInit c config => exact ⟨hlost, hlostOn⟩
    | canDeinit c => exact ⟨hlost, hlostOn⟩
    | claim rs hfree => exact ⟨hlost, hlostOn⟩
    | unclaim rs hheld => exact ⟨hlost, hlostOn⟩

/-- When nothing is initialised twice, the users of the program on a block are the strips there, and
once everything has been shut down again, only what other code claimed is claimed. -/
theorem pio_claims_given_back {claims : PioClaims} {bus : κ → CanBus}
    {events : List (PioEvent σ υ κ)}
    (hrun : Steps (fun w event w' => PioStep chip w event w' ∧ event.Careful w)
      (PioHistory.start claims bus) events w) :
    (∀ pio, (w.board.program pio).users = ∑ s, onBlock pio (w.board.strip s)) ∧
    ((∀ s, w.board.strip s = none) → (∀ u, w.board.uart u = none) →
      (∀ c, busIsActive chip c w.board = false) →
      w.board.claims = w.elsewhere ∧ ∀ pio, w.board.program pio = ⟨none, 0⟩) := by
  obtain ⟨hlost, hlostOn⟩ := nothing_lost hrun
  have h : w.Sound chip :=
    hrun.invariant (fun _ _ _ h hstep => h.step hstep.1) (.start claims bus)
  have husers : ∀ pio, (w.board.program pio).users = ∑ s, onBlock pio (w.board.strip s) := by
    intro pio
    rw [h.users pio, hlostOn pio, Nat.add_zero]
  refine ⟨husers, fun hstrips huarts hbuses => ?_⟩
  have hunused : ∀ pio, (w.board.program pio).users = 0 := by
    intro pio
    rw [husers pio]
    exact Finset.sum_eq_zero fun s _ => by rw [hstrips s]; rfl
  have hothers : ∀ o, o ≠ .elsewhere → w.holds chip o = ∅ := by
    intro o ho
    cases o with
    | strip s =>
      change (w.board.strip s).elim ∅ _ = ∅
      rw [hstrips s, Option.elim_none]
    | uart u =>
      change (w.board.uart u).elim ∅ _ = ∅
      rw [huarts u, Option.elim_none]
    | bus c =>
      change (if busIsActive chip c w.board then _ else _) = ∅
      rw [hbuses c, if_neg Bool.false_ne_true]
    | program pio =>
      change (w.board.program pio).offset.elim ∅ _ = ∅
      rw [(h.loaded pio).mpr (hunused pio), Option.elim_none]
    | elsewhere => exact absurd rfl ho
    | lost => exact hlost
  refine ⟨h.balanced.only hothers, fun pio => ?_⟩
  have hoffset := (h.loaded pio).mpr (hunused pio)
  have hzero := hunused pio
  cases hprogram : w.board.program pio with
  | mk offset users =>
    rw [hprogram] at hoffset hzero
    exact congrArg₂ Ws2812Program.mk hoffset hzero

/-- A strip that comes and goes. -/
theorem pio_claims_given_back_one :
    ∃ w : PioHistory Unit Unit Unit, w.board.claims = {.channel 3} ∧
      w.board.program 0 = ⟨none, 0⟩ := by
  have hopen : Steps (fun w event w' => PioStep rp2040 w event w' ∧ event.Careful w)
      (boardStart {.channel 3}) _ _ :=
    (Steps.nil _).snoc ⟨.stripInit _ () stripOnZero, rfl⟩
  have hrun := hopen.snoc ⟨.stripDeinit _ (), trivial⟩
  obtain ⟨hclaims, hprogram⟩ := (pio_claims_given_back hrun).2 (by decide +kernel)
    (by decide +kernel) (by decide +kernel)
  exact ⟨_, hclaims.trans (by decide +kernel), hprogram 0⟩

/-- Wherever an init call fails, it gives back all that it had claimed, and the others do not
notice. -/
theorem refused_init_claims_nothing {claims : PioClaims} {bus : κ → CanBus}
    {events : List (PioEvent σ υ κ)}
    (hrun : Steps (PioStep chip) (PioHistory.start claims bus) events w) :
    (∀ s config, (ws2812Init chip s config w.board).1 ≠ .ok →
      (ws2812Init chip s config w.board).2 = w.board) ∧
    (∀ u pio config, (halfDuplexUartInitOn chip u pio config w.board).1 ≠ .ok →
      (halfDuplexUartInitOn chip u pio config w.board).2 = w.board) ∧
    ∀ c config, (canBusInit chip c config w.board).1 ≠ .ok →
      ∃ other, (canBusInit chip c config w.board).2 = w.board.setBus c other ∧
        (busIsActive chip c w.board = true → other = w.board.bus c) := by
  have h := PioHistory.Sound.run hrun
  refine ⟨fun s config hrefused => ?_, fun u pio config hrefused => ?_, fun c config hrefused => ?_⟩
  · rcases ws2812Init_cases s config h.loaded with
      ⟨port, b', -, -, heq⟩ | ⟨result, -, heq⟩
    · rw [heq] at hrefused
      exact absurd rfl hrefused
    · rw [heq]
  · rcases halfDuplexUartInitOn_cases u pio config w.board with
      ⟨port, -, heq⟩ | ⟨result, -, heq⟩
    · rw [heq] at hrefused
      exact absurd rfl hrefused
    · rw [heq]
  · rcases canBusInit_cases c config w.board with
      ⟨bitrate, queue, -, -, -, -, -, heq⟩ | ⟨result, other, -, hother, heq⟩
    · rw [heq] at hrefused
      exact absurd rfl hrefused
    · exact ⟨other, by rw [heq], hother⟩

/-- Every state machine is taken: the program is put in place, and taken out again. -/
theorem refused_init_claims_nothing_machines :
    (ws2812Init rp2040 () stripOnZero (boardStart (blockMachines 0)).board).1 =
        .errNoStateMachine ∧
      (ws2812Init rp2040 () stripOnZero (boardStart (blockMachines 0)).board).2 =
        (boardStart (blockMachines 0)).board := by
  have hresult : (ws2812Init rp2040 () stripOnZero (boardStart (blockMachines 0)).board).1 =
      .errNoStateMachine := by decide +kernel
  have hrefused : (ws2812Init rp2040 () stripOnZero (boardStart (blockMachines 0)).board).1 ≠
      .ok := by
    rw [hresult]
    decide
  exact ⟨hresult, (refused_init_claims_nothing (.nil _)).1 () stripOnZero hrefused⟩

end runs

end sound

end Pico
