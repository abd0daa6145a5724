import PicoFramework.Proofs.Mcp2515Driver

/-! What becomes of the frames that the controller has stored, over every run of the driver's calls
with frames coming in between any two transactions. -/

namespace Pico

open Lib.Device Lib.Interleave Lib.Run Lib.Slots Mcp2515Chip

abbrev Mcp2515Host := Host Mcp2515 Mcp2515Log Mcp2515Call Mcp2515Answer

abbrev Mcp2515Turn := Turn Mcp2515Call Mcp2515Chip.Event

section prompt

variable {w : Mcp2515Host}

/-- When the driver goes on, no frame is in the buffer that its last transaction has read out. -/
def Prompt (w : Mcp2515Host) : Mcp2515Turn → Prop
  | .step => ∀ buffer, w.memory.chip.lastRead = some buffer → w.memory.chip.full buffer = false
  | _ => True

theorem endangered_nil_iff (chip : Mcp2515Chip) :
    chip.endangered = [] ↔ ∀ buffer, chip.lastRead = some buffer → chip.full buffer = false := by
  unfold endangered
  cases hlast : chip.lastRead with
  | none => exact iff_of_true rfl nofun
  | some buffer =>
    constructor
    · intro hnone other hother
      obtain rfl := Option.some.inj hother
      cases hfull : chip.full buffer with
      | false => rfl
      | true => simp [rx_held_of_full hfull] at hnone
    · intro hempty
      change (chip.rx.held buffer).toList = []
      rw [rx_held_of_not_full (hempty buffer rfl), Option.toList_none]

/-- A turn loses nothing unless it is one of the driver's that comes too late. -/
theorem turn_lost (h : Mcp2515Attended w) (turn : Mcp2515Turn) :
    (w.turn mcp2515Driver mcp2515React turn).memory.chip.lost = [] ↔
      w.memory.chip.lost = [] ∧ Prompt w turn := by
  cases turn with
  | start call =>
    obtain ⟨memory, record, running⟩ := w
    cases running <;> exact (and_iff_left trivial).symm
  | event event =>
    have hlost : (w.memory.chip.react event).lost = w.memory.chip.lost :=
      (h.holds.react event).1.rx.lost
    change (w.memory.chip.react event).lost = [] ↔ _
    rw [hlost]
    exact (and_iff_left trivial).symm
  | step =>
    change _ ↔ _ ∧ ∀ buffer, _ → _
    rw [← endangered_nil_iff]
    cases hrunning : w.running with
    | none =>
      have hrest := logged_of_idle h hrunning
      have hsame : w.turn mcp2515Driver mcp2515React .step = w := by
        unfold Host.turn
        rw [hrunning]
      rw [hsame, endangered_nil hrest.lastRead_eq]
      exact (and_iff_left rfl).symm
    | some running =>
      have hguar := h.step_guar mcp2515_attuned (by rw [hrunning]; rfl)
      rw [hguar.lost_eq]
      exact List.append_eq_nil_iff

end prompt

section draining

variable {m : Mcp2515} {log : Mcp2515Log}

theorem readOut_run (m : Mcp2515) (buffer : RxBuffer) :
    ((readOut buffer).run m).2.chip.rx = m.chip.rx.take buffer ∧
      ((readOut buffer).run m).2.chip.stored = m.chip.stored := by
  have hchip : ((readOut buffer).run m).2.chip =
      ((m.chip.readRxBuffer buffer readMessage).2.bitModify REG_CANINTF buffer.flag 0) := rfl
  rw [hchip, bitModify_drop, readRxBuffer_rx]
  exact ⟨Bays.drop_of_none _ (Bays.take_held_self _ _), rfl⟩

theorem receive_run (h : Logged none [] [] (m, log)) :
    (mcp2515BusReceive.run m).2.chip.rx =
        m.chip.rx.take (if m.chip.full .rxb0 then .rxb0 else .rxb1) ∧
      (mcp2515BusReceive.run m).2.chip.stored = m.chip.stored := by
  have hinit : m.bus.initialised = true := h.initialised
  obtain ⟨-, hstats⟩ := mild_updateStats.run Mild.refl (fun _ _ _ => Mild.trans) m
  generalize hm₁ : (updateStats.run m).2 = m₁ at hstats
  obtain ⟨hstatus, -⟩ := readStatus_same m₁.chip
  have hsame := hstats.rx.trans hstatus
  have hfull : ∀ buffer, m₁.chip.full buffer = m.chip.full buffer := fun buffer =>
    full_congr (congrFun (congrArg Bays.held hstats.rx.rx_eq) buffer)
  have hread : readStatus.run m₁ =
      (m₁.chip.readStatus.1, { m₁ with chip := m₁.chip.readStatus.2 }) := rfl
  have hchosen := chooseRxBuffer_status m₁.chip
  rw [mcp2515BusReceive_eq, Prog.run_bind, Prog.run_load]
  dsimp only
  rw [hinit, Bool.not_true, if_neg Bool.false_ne_true, Prog.run_bind, hm₁, Prog.run_bind, hread]
  cases hbuffer : chooseRxBuffer m₁.chip.readStatus.1 with
  | none =>
    rw [hbuffer] at hchosen
    have hempty : m.chip.full .rxb0 = false ∧ m.chip.full .rxb1 = false :=
      ⟨(hfull _).symm.trans hchosen.1, (hfull _).symm.trans hchosen.2⟩
    rw [hempty.1, if_neg Bool.false_ne_true,
      Bays.take_of_none _ (rx_held_of_not_full hempty.2)]
    exact ⟨hsame.rx_eq, hsame.stored_eq⟩
  | some buffer =>
    rw [hbuffer] at hchosen
    obtain ⟨htake, hstored⟩ := readOut_run { m₁ with chip := m₁.chip.readStatus.2 } buffer
    cases buffer with
    | rxb0 =>
      rw [← hfull, if_pos hchosen]
      exact ⟨hsame.rx_eq ▸ htake, hstored.trans hsame.stored_eq⟩
    | rxb1 =>
      rw [← hfull, hchosen.1, if_neg Bool.false_ne_true]
      exact ⟨hsame.rx_eq ▸ htake, hstored.trans hsame.stored_eq⟩

theorem receive_twice (h : Logged none [] [] (m, log)) :
    ∃ (m' : Mcp2515) (log' : Mcp2515Log) (j k : ℕ),
      (Host.idle m log : Mcp2515Host).turns mcp2515Driver mcp2515React
          ((.start .receive :: List.replicate j .step) ++
            .start .receive :: List.replicate k .step) = .idle m' log' ∧
      Logged none [] [] (m', log') ∧ m'.chip.stored = m.chip.stored ∧
      m'.chip.lost = m.chip.lost ∧ ∀ buffer, m'.chip.rx.held buffer = none := by
  have hcall : ∀ {m : Mcp2515} {log : Mcp2515Log}, Logged none [] [] (m, log) →
      ∃ (answer : Mcp2515Answer) (j : ℕ),
        (Host.idle m log : Mcp2515Host).turns mcp2515Driver mcp2515React
          (.start .receive :: List.replicate j .step) =
            .idle (mcp2515BusReceive.run m).2 (log ++ [(.receive, answer)]) ∧
        Logged none [] [] ((mcp2515BusReceive.run m).2, log ++ [(.receive, answer)]) := by
    intro m log h
    obtain ⟨j, hj⟩ := turns_call mcp2515Driver mcp2515React .receive m log
    obtain ⟨-, -, hlogged⟩ := wp_run (fun _ _ hd => mcp2515_attuned.refl _ hd.sound)
      (mcp2515Driver_fulfilled .receive (m, log) h)
    exact ⟨_, j, hj, hlogged⟩
  obtain ⟨a, j, hj, h₁⟩ := hcall h
  obtain ⟨b, k, hk, h₂⟩ := hcall h₁
  obtain ⟨hrx₁, hstored₁⟩ := receive_run h
  obtain ⟨hrx₂, hstored₂⟩ := receive_run h₁
  have hfirst : (mcp2515BusReceive.run m).2.chip.rx.held .rxb0 = none := by
    rw [hrx₁]
    cases hfull : m.chip.full .rxb0 with
    | true => exact Bays.take_held_self _ _
    | false => exact (Bays.take_held_of_ne _ (by decide)).trans (rx_held_of_not_full hfull)
  have hempty : (mcp2515BusReceive.run m).2.chip.full .rxb0 = false := by
    cases hfull : (mcp2515BusReceive.run m).2.chip.full .rxb0 with
    | false => rfl
    | true => exact absurd ((rx_held_of_full hfull).symm.trans hfirst) (Option.some_ne_none _)
  rw [hempty, if_neg Bool.false_ne_true] at hrx₂
  refine ⟨_, _, j, k, ?_, h₂, hstored₂.trans hstored₁, ?_, fun buffer => ?_⟩
  · unfold Host.turns at hj hk ⊢
    rw [List.foldl_append, hj, hk]
  · exact (congrArg Bays.lost hrx₂).trans (congrArg Bays.lost hrx₁)
  · rw [hrx₂]
    cases buffer with
    | rxb0 => exact (Bays.take_held_of_ne _ (by decide)).trans hfirst
    | rxb1 => exact Bays.take_held_self _ _

end draining

section delivery

variable {w : Mcp2515Host}

/-- Every frame that was stored waits in its buffer or was read out, and never twice; what was read
out is what the calls have returned; and two calls that nothing interrupts return all that waits. -/
structure Delivers (w : Mcp2515Host) : Prop where
  accounted : (w.memory.chip.taken ++ w.memory.chip.waiting).Perm
    (List.range w.memory.chip.stored.length)
  returned : w.running = none →
    (returned w.record).map some = w.memory.chip.taken.map w.memory.chip.messageAt
  drained : w.running = none → ∃ j k,
    let w' := w.turns mcp2515Driver mcp2515React
      ((.start .receive :: List.replicate j .step) ++ .start .receive :: List.replicate k .step)
    w'.running = none ∧ (Pico.returned w'.record).Perm
      (w.memory.chip.stored.map fun frame => messageOf frame.bytes)

theorem waiting_eq (chip : Mcp2515Chip) :
    chip.waiting = ([.rxb0, .rxb1] : List RxBuffer).filterMap chip.rx.held := rfl

theorem accounted_iff {chip : Mcp2515Chip} (h : Accounts chip) :
    (chip.taken ++ chip.waiting).Perm (List.range chip.stored.length) ↔ chip.lost = [] := by
  have hslots : ([.rxb0, .rxb1] : List RxBuffer).Nodup := by decide
  have hall := h.rx.accounted.all_iff hslots fun buffer => by cases buffer <;> decide
  have hlength : chip.rx.origins.length = chip.stored.length := List.length_map _
  rw [hlength] at hall
  exact hall

theorem messages_of_taken {chip : Mcp2515Chip} {messages : List CanMessage}
    (hmessages : messages.map some = chip.taken.map chip.messageAt)
    (hall : chip.taken.Perm (List.range chip.stored.length)) :
    messages.Perm (chip.stored.map fun frame => messageOf frame.bytes) := by
  rw [← List.map_perm_map_iff (Option.some_injective CanMessage), hmessages]
  have hstored : (List.range chip.stored.length).map chip.messageAt =
      (chip.stored.map fun frame => messageOf frame.bytes).map some := by
    apply List.ext_getElem
    · simp
    · intro n hn _
      rw [List.length_map, List.length_range] at hn
      simp [messageAt, hn]
  exact hstored ▸ hall.map chip.messageAt

/-- Over every run: the driver delivers what was stored exactly when it is prompt throughout. -/
theorem mcp2515_delivers_iff (plan : Mcp2515FilterPlan) (mode : Mcp2515Mode)
    (schedule : List Mcp2515Turn) :
    Delivers (mcp2515Run plan mode schedule) ↔
      Meets (Host.turn mcp2515Driver mcp2515React) Prompt
        (Host.idle (mcp2515Started plan mode) []) schedule := by
  have hattended := mcp2515Run_attended plan mode schedule
  have hstart : Mcp2515Attended (Host.idle (mcp2515Started plan mode) []) :=
    mcp2515Run_attended plan mode []
  have hlost : (mcp2515Run plan mode schedule).memory.chip.lost = [] ↔
      Meets (Host.turn mcp2515Driver mcp2515React) Prompt
        (Host.idle (mcp2515Started plan mode) []) schedule := by
    have hturn : ∀ (w : Mcp2515Host) (turn : Mcp2515Turn), Mcp2515Attended w →
        Mcp2515Attended (w.turn mcp2515Driver mcp2515React turn) :=
      fun w turn hw => hw.turn mcp2515_attuned mcp2515Driver_fulfilled turn
    have hlosing : ∀ (w : Mcp2515Host) (turn : Mcp2515Turn), Mcp2515Attended w →
        ((w.turn mcp2515Driver mcp2515React turn).memory.chip.lost = [] ↔
          w.memory.chip.lost = [] ∧ Prompt w turn) := fun w turn hw => turn_lost hw turn
    have hend := @Meets.iff_end _ _ _ _ Mcp2515Attended (fun w => w.memory.chip.lost = []) hturn
      hlosing _ schedule hstart
    have hnone := (mcp2515Started_noFrames plan mode).rxHistory
    simp only [rxHistory, Prod.mk.injEq] at hnone
    exact hend.trans (and_iff_right hnone.2.2.2)
  rw [← hlost, ← accounted_iff hattended.holds]
  generalize mcp2515Run plan mode schedule = w at hattended
  refine ⟨fun h => h.accounted, fun haccounted => ?_⟩
  have hrest := logged_of_idle hattended
  refine ⟨haccounted, fun hidle => (hrest hidle).returned_eq, fun hidle => ?_⟩
  · obtain ⟨m', log', j, k, hrun, hlogged, hstored, hlost', hempty⟩ := receive_twice (hrest hidle)
    have hw : w = .idle w.memory w.record := by
      obtain ⟨memory, record, running⟩ := w
      obtain rfl : running = none := hidle
      rfl
    refine ⟨j, k, ?_⟩
    rw [hw, hrun]
    have hreceived := hlogged.returned_eq
    have htaken : m'.chip.taken.Perm (List.range m'.chip.stored.length) := by
      have hall := (accounted_iff hlogged.sound).mpr
        (hlost'.trans ((accounted_iff hattended.holds).mp haccounted))
      have hwaiting : m'.chip.waiting = [] := by
        rw [waiting_eq, List.filterMap_eq_nil_iff]
        exact fun buffer _ => hempty buffer
      rwa [hwaiting, List.append_nil] at hall
    have hmessages := messages_of_taken hreceived htaken
    rw [hstored] at hmessages
    exact ⟨rfl, hmessages⟩

/-- No filters. -/
def openPlan : Mcp2515FilterPlan := ⟨true, fun _ => 0, fun _ => 0, fun _ => false⟩

/-- An extended data frame of one byte. -/
def extendedFrame (id : UInt32) : CanMessage where
  id := id
  length := 1
  extended := true
  remote := false
  data := [UInt8.ofNat id.toNat, 0, 0, 0, 0, 0, 0, 0]
  data_length := rfl

/-- A second frame comes in after a call has read the first one out, and before it clears the flag
that the reading has cleared already. -/
def lateSchedule : List Mcp2515Turn :=
  [.event (.receive (extendedFrame 1)), .start .receive, .step, .step, .step, .step,
    .event (.receive (extendedFrame 2)), .step, .step]

def lateRun : Mcp2515Host := mcp2515Run openPlan .normal lateSchedule

/-- The second frame was stored, no call returns it, and nothing tells that it is gone. -/
theorem mcp2515_loses_frame :
    mcp2515FilterPlan [] = some openPlan ∧ lateRun.running = none ∧
    lateRun.memory.chip.stored.map RxFrame.frame = [extendedFrame 1, extendedFrame 2] ∧
    returned lateRun.record = [extendedFrame 1] ∧ lateRun.memory.chip.waiting = [] ∧
    lateRun.memory.chip.regs REG_EFLG = 0 ∧ ¬ Delivers lateRun := by
  refine ⟨rfl, by decide, by decide, by decide, by decide,
    by decide, fun h => ?_⟩
  have hlength := h.accounted.length_eq
  exact absurd hlength (by decide)

end delivery

end Pico
