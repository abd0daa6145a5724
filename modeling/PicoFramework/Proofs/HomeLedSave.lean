import PicoFramework.Proofs.LedRange
import PicoFramework.Proofs.LightState
import PicoFramework.Lib.Run
import PicoFramework.Spec.Settings

/-! The loop that keeps the settings. It is the writer that waits of `Lib.Debounce`, with counters
and a clock of 32 bits that are only compared while they are close. -/

namespace Pico

open Lib.Debounce Lib.Run

section counters

theorem counter_eq_iff (base : UInt32) {n m : ℕ} (hle : m ≤ n) (hclose : n < m + 2 ^ 32) :
    base + UInt32.ofNat n = base + UInt32.ofNat m ↔ n = m := by
  rw [UInt32.add_right_inj, ← UInt32.toNat_inj, UInt32.toNat_ofNat', UInt32.toNat_ofNat']
  constructor
  · intro h
    omega
  · exact congrArg (· % 2 ^ 32)

theorem counters_ne_iff (base base' : UInt32) {n m n' m' : ℕ} (hle : m ≤ n) (hle' : m' ≤ n')
    (hclose : n + n' < m + m' + 2 ^ 32) :
    (base + UInt32.ofNat n ≠ base + UInt32.ofNat m ∨
      base' + UInt32.ofNat n' ≠ base' + UInt32.ofNat m') ↔ n + n' ≠ m + m' := by
  rw [Ne, Ne, counter_eq_iff base hle (by omega), counter_eq_iff base' hle' (by omega)]
  omega

theorem elapsed_toNat {since ms : ℕ} (hle : since ≤ ms) (hclose : ms < since + 2 ^ 32) :
    (UInt32.ofNat ms - UInt32.ofNat since).toNat = ms - since := by
  rw [UInt32.toNat_sub, UInt32.toNat_ofNat', UInt32.toNat_ofNat']
  omega

end counters

section moves

theorem moved_counts (range : LedRange) (first last : UInt16) :
    ∃ n ≤ 1, (range.moved first last).generation = range.generation + UInt32.ofNat n ∧
      (n = 0 → range.moved first last = range) := by
  unfold LedRange.moved
  split
  · exact ⟨1, le_rfl, rfl, fun h => absurd h one_ne_zero⟩
  · exact ⟨0, Nat.zero_le 1, (UInt32.add_zero _).symm, fun _ => rfl⟩

theorem range_still (range : LedRange) :
    ∃ n ≤ 1, range.generation = range.generation + UInt32.ofNat n ∧ (n = 0 → range = range) :=
  ⟨0, Nat.zero_le 1, (UInt32.add_zero _).symm, fun _ => rfl⟩

theorem range_step_counts (range : LedRange) (move : RangeMove) :
    ∃ n ≤ 1, (range.step move).generation = range.generation + UInt32.ofNat n ∧
      (n = 0 → range.step move = range) := by
  cases move with
  | set first last =>
    simp only [LedRange.step, LedRange.set]
    split
    · exact range_still range
    · exact moved_counts range _ _
  | setFirst first =>
    simp only [LedRange.step, LedRange.setFirst]
    split
    · exact range_still range
    · exact moved_counts range _ _
  | setLast last =>
    simp only [LedRange.step, LedRange.setLast]
    split
    · exact range_still range
    · exact moved_counts range _ _

end moves

section tracking

/-- What the two counters of changes have counted: so far, when the loop last saw them, and when
the settings were last stored. -/
structure Tally where
  light : ℕ
  range : ℕ
  seenLight : ℕ
  seenRange : ℕ
  savedLight : ℕ
  savedRange : ℕ

/-- The application as a writer that waits, where the counters stood at `base` and `base'` at
first, and the settings were those `booted`. -/
structure Saver.Tracks (base base' : UInt32) (booted : List (CString × UInt32)) (app : Saver)
    (t : Tally) (w : Writer) : Prop where
  changes : w.changes = t.light + t.range
  seen : w.seen = t.seenLight + t.seenRange
  saved : w.saved = t.savedLight + t.savedRange
  seen_le : t.seenLight ≤ t.light ∧ t.seenRange ≤ t.range
  saved_le : t.savedLight ≤ t.light ∧ t.savedRange ≤ t.range
  light : app.light.generation = base + UInt32.ofNat t.light
  range : app.range.generation = base' + UInt32.ofNat t.range
  seenLight : app.seenGeneration = base + UInt32.ofNat t.seenLight
  seenRange : app.seenRangeGeneration = base' + UInt32.ofNat t.seenRange
  savedLight : app.savedGeneration = base + UInt32.ofNat t.savedLight
  savedRange : app.savedRangeGeneration = base' + UInt32.ofNat t.savedRange
  unseen : w.changes ≤ w.seen + app.unseen
  unsaved : w.changes ≤ w.saved + app.unsaved
  unseen_lt : app.unseen < 2 ^ 32
  unsaved_lt : app.unsaved < 2 ^ 32
  since : app.lastChangeMs = UInt32.ofNat w.since
  now : app.passMs = w.now
  log : app.log = w.log
  kept : w.changes = w.saved → app.kept.getD booted = settingsWords app.light.capture app.range

/-- What is asked of a run: fewer than 2 ^ 32 setters are called between two passes, and while
nothing is stored, and no pass takes anything like 49 days. -/
def Saver.Bounded (app : Saver) : SaverMove → Prop
  | .light _ => app.unseen + 1 < 2 ^ 32 ∧ app.unsaved + 1 < 2 ^ 32
  | .range _ => app.unseen + 1 < 2 ^ 32 ∧ app.unsaved + 1 < 2 ^ 32
  | .save _ => True
  | .loop nowMs _ => app.passMs ≤ nowMs ∧ nowMs + 10000 < app.passMs + 2 ^ 32

variable {base base' : UInt32} {booted : List (CString × UInt32)} {app : Saver} {t : Tally}
  {w : Writer}

theorem tracks_start (light : Light) (range : LedRange) (startedMs : ℕ) :
    (Saver.start light range startedMs).Tracks light.generation range.generation
      (settingsWords light.capture range) ⟨0, 0, 0, 0, 0, 0⟩ (Writer.start 0 startedMs) := by
  constructor <;> first | rfl | exact (UInt32.add_zero _).symm | exact Nat.le_refl _ | skip
  · exact ⟨le_rfl, le_rfl⟩
  · exact ⟨le_rfl, le_rfl⟩
  · exact Nat.two_pow_pos 32
  · exact Nat.two_pow_pos 32
  · exact fun _ => rfl

/-- A setter has been called, and has counted a change or done nothing. -/
theorem Saver.Tracks.called (h : app.Tracks base base' booted t w) (hinv : w.Inv 10000) {light : Light}
    {range : LedRange} {n m : ℕ} (hone : n + m ≤ 1)
    (hlight : light.generation = app.light.generation + UInt32.ofNat n)
    (hrange : range.generation = app.range.generation + UInt32.ofNat m)
    (hstill : n + m = 0 →
      settingsWords light.capture range = settingsWords app.light.capture app.range)
    (hb : app.unseen + 1 < 2 ^ 32 ∧ app.unsaved + 1 < 2 ^ 32) :
    ∃ t' w', Saver.Tracks base base' booted
      { app with light := light, range := range, unseen := app.unseen + 1,
                 unsaved := app.unsaved + 1 } t' w' ∧ w'.Inv 10000 := by
  rw [h.light, UInt32.add_assoc, ← UInt32.ofNat_add] at hlight
  rw [h.range, UInt32.add_assoc, ← UInt32.ofNat_add] at hrange
  obtain hzero | hchange : n + m = 0 ∨ n + m = 1 := by omega
  · obtain ⟨rfl, rfl⟩ := Nat.add_eq_zero_iff.mp hzero
    exact ⟨t, w, { h with
      light := hlight
      range := hrange
      unseen := h.unseen.trans (Nat.le_succ _)
      unsaved := h.unsaved.trans (Nat.le_succ _)
      unseen_lt := hb.1
      unsaved_lt := hb.2
      kept := fun hclean => (h.kept hclean).trans (hstill rfl).symm }, hinv⟩
  · have hchanges := h.changes
    have hunseen := h.unseen
    have hunsaved := h.unsaved
    exact ⟨{ t with light := t.light + n, range := t.range + m }, w.change, { h with
      changes := by simp only [Writer.change]; omega
      seen_le := ⟨h.seen_le.1.trans (Nat.le_add_right _ _), h.seen_le.2.trans (Nat.le_add_right _ _)⟩
      saved_le :=
        ⟨h.saved_le.1.trans (Nat.le_add_right _ _), h.saved_le.2.trans (Nat.le_add_right _ _)⟩
      light := hlight
      range := hrange
      unseen := by simp only [Writer.change]; omega
      unsaved := by simp only [Writer.change]; omega
      unseen_lt := hb.1
      unsaved_lt := hb.2
      kept := fun hclean => absurd hclean (Nat.lt_succ_of_le hinv.saved_le).ne' }, hinv.change⟩

theorem Saver.Tracks.stored (h : app.Tracks base base' booted t w) {log : List Entry}
    {w' : Writer} (hw : w' = { w with saved := w.changes, log := log }) :
    Saver.Tracks base base' booted { app.stored with log := log }
      { t with savedLight := t.light, savedRange := t.range } w' := by
  subst hw
  exact { h with
    saved := h.changes
    saved_le := ⟨le_rfl, le_rfl⟩
    savedLight := h.light
    savedRange := h.range
    unsaved := Nat.le_add_right _ _
    unsaved_lt := Nat.two_pow_pos 32
    log := rfl
    kept := fun _ => rfl }

theorem Saver.Tracks.cmdSave (h : app.Tracks base base' booted t w) (hinv : w.Inv 10000) (ok : Bool) :
    ∃ t' w', (app.cmdSave ok).Tracks base base' booted t' w' ∧ w'.Inv 10000 := by
  cases ok with
  | false => exact ⟨t, w, h, hinv⟩
  | true =>
    have hflush : w.flush true = { w with saved := w.changes, log := app.log } := by
      rw [h.log]
      rfl
    exact ⟨_, _, h.stored hflush, hinv.flush true⟩

theorem Saver.Tracks.noteChange (h : app.Tracks base base' booted t w) (nowMs : ℕ) (now : UInt32) :
    ∃ t', Saver.Tracks base base' booted (Saver.noteChange nowMs
      { app with light := app.light.tick now, passMs := nowMs, unseen := 0 }) t'
        (w.notice nowMs) := by
  have hchanges := h.changes
  have hseen := h.seen
  have hunseen := h.unseen
  have hlt := h.unseen_lt
  have hiff := counters_ne_iff base base' h.seen_le.1 h.seen_le.2 (by omega)
  rw [← h.light, ← h.range, ← h.seenLight, ← h.seenRange, ← hchanges, ← hseen] at hiff
  by_cases hchange : w.changes ≠ w.seen
  · have hnoted : Saver.noteChange nowMs { app with
        light := app.light.tick now, passMs := nowMs, unseen := 0 } = _ :=
      if_pos (hiff.mpr hchange)
    have hnotice : w.notice nowMs = _ := if_pos hchange
    rw [hnoted, hnotice]
    exact ⟨{ t with seenLight := t.light, seenRange := t.range }, { h with
      seen := hchanges
      seen_le := ⟨le_rfl, le_rfl⟩
      seenLight := h.light
      seenRange := h.range
      unseen := le_rfl
      unseen_lt := Nat.two_pow_pos 32
      since := rfl
      now := rfl
      log := congrArg (Entry.noticed nowMs :: ·) h.log }⟩
  · have hnoted : Saver.noteChange nowMs { app with
        light := app.light.tick now, passMs := nowMs, unseen := 0 } = _ :=
      if_neg fun hne => hchange (hiff.mp hne)
    have hnotice : w.notice nowMs = _ := if_neg hchange
    rw [hnoted, hnotice]
    exact ⟨t, { h with
      unseen := (not_not.mp hchange).le
      unseen_lt := Nat.two_pow_pos 32
      now := rfl }⟩

/-- It saves just where the settings are to be written and it has been quiet. -/
theorem Saver.Tracks.saveWhenQuiet (h : app.Tracks base base' booted t w) {nowMs : ℕ} (ok : Bool)
    (hsince : w.since ≤ nowMs)
    (hclose : w.changes ≠ w.saved → nowMs < w.since + 2 ^ 32) :
    ∃ t', (app.saveWhenQuiet nowMs ok).Tracks base base' booted t' (w.attempt 10000 nowMs ok) := by
  have hchanges := h.changes
  have hsaved := h.saved
  have hunsaved := h.unsaved
  have hlt := h.unsaved_lt
  have hiff := counters_ne_iff base base' h.saved_le.1 h.saved_le.2 (by omega)
  rw [← h.light, ← h.range, ← h.savedLight, ← h.savedRange, ← hchanges, ← hsaved] at hiff
  have hquiet : w.changes ≠ w.saved →
      (UInt32.ofNat nowMs - app.lastChangeMs ≥ SAVE_QUIET_MS ↔ w.since + 10000 ≤ nowMs) := by
    intro hdirty
    have helapsed := elapsed_toNat hsince (hclose hdirty)
    have hms : SAVE_QUIET_MS.toNat = 10000 := rfl
    rw [h.since, ge_iff_le, UInt32.le_iff_toNat_le, helapsed, hms]
    omega
  unfold Saver.saveWhenQuiet Writer.attempt
  by_cases hsave : w.changes ≠ w.saved ∧ w.since + 10000 ≤ nowMs
  · rw [if_pos ⟨hiff.mpr hsave.1, (hquiet hsave.1).mpr hsave.2⟩, if_pos hsave]
    cases ok with
    | true => exact ⟨_, h.stored (by rw [h.log]; rfl)⟩
    | false =>
      exact ⟨t, { h with
        since := rfl
        log := congrArg (Entry.failed nowMs :: ·) h.log }⟩
  · rw [if_neg fun hdo => hsave ⟨hiff.mp hdo.1, (hquiet (hiff.mp hdo.1)).mp hdo.2⟩, if_neg hsave]
    exact ⟨t, h⟩

theorem Saver.Tracks.mainLoop (h : app.Tracks base base' booted t w) (hinv : w.Inv 10000) {nowMs : ℕ}
    (ok : Bool) (hb : app.Bounded (.loop nowMs ok)) :
    ∃ t', (app.mainLoop nowMs ok).Tracks base base' booted t' (w.pass 10000 nowMs ok) := by
  obtain ⟨hms, hclose⟩ := hb
  rw [h.now] at hms hclose
  obtain ⟨t', hnoted⟩ := h.noteChange nowMs (UInt32.ofNat nowMs)
  obtain ⟨-, -, hsince, -⟩ := hinv.notice hms
  refine hnoted.saveWhenQuiet ok hsince fun hdirty => ?_
  unfold Writer.notice at hdirty ⊢
  by_cases hchange : w.changes ≠ w.seen
  · rw [if_pos hchange]
    exact Nat.lt_add_of_pos_right (Nat.two_pow_pos 32)
  · rw [if_neg hchange] at hdirty ⊢
    -- it was noticed, or tried, less than ten seconds before the last pass
    obtain ⟨_, _, _, hrecent⟩ := hinv.recent hdirty (not_not.mp hchange)
    dsimp only
    omega

/-- The application keeps step with a writer. -/
def Saver.Keeps (booted : List (CString × UInt32)) (app : Saver) : Prop :=
  ∃ base base' t w, app.Tracks base base' booted t w ∧ w.Inv 10000

theorem Saver.Keeps.step (h : app.Keeps booted) {move : SaverMove} (hb : app.Bounded move) :
    (app.step move).Keeps booted := by
  obtain ⟨base, base', t, w, htracks, hinv⟩ := h
  refine ⟨base, base', ?_⟩
  cases move with
  | light move =>
    obtain ⟨n, hn, hcounts⟩ := Light.step_counts app.light move
    refine htracks.called (m := 0) hinv hn hcounts.generation_eq (UInt32.add_zero _).symm ?_ hb
    intro hzero
    rw [hcounts.still hzero]
  | range move =>
    obtain ⟨m, hm, hgeneration, hstill⟩ := range_step_counts app.range move
    refine htracks.called (n := 0) hinv ((Nat.zero_add m).le.trans hm) (UInt32.add_zero _).symm
      hgeneration ?_ hb
    intro hzero
    rw [hstill (by omega)]
  | save ok => exact htracks.cmdSave hinv ok
  | loop nowMs ok =>
    obtain ⟨t', hpassed⟩ := htracks.mainLoop hinv ok hb
    rw [Saver.Bounded, htracks.now] at hb
    exact ⟨t', _, hpassed, (hinv.pass (by decide) hb.1 ok).1⟩

theorem Saver.Keeps.run {light : Light} {range : LedRange} {startedMs : ℕ} {moves : List SaverMove}
    (h : Meets Saver.step Saver.Bounded (Saver.start light range startedMs) moves) :
    (moves.foldl Saver.step (Saver.start light range startedMs)).Keeps
      (settingsWords light.capture range) := by
  refine h.invariant (fun _ _ hb hkeeps => Saver.Keeps.step hkeeps hb) ?_
  exact ⟨_, _, _, _, tracks_start light range startedMs, Writer.inv_start 10000 0 startedMs⟩

/-- The loop does not try to write the flash within ten seconds of a change that it noticed, or of
the last time it tried. -/
theorem homeLed_saves_spaced {light : Light} {range : LedRange} {startedMs : ℕ}
    {moves : List SaverMove}
    (h : Meets Saver.step Saver.Bounded (Saver.start light range startedMs) moves) :
    Writer.Spaced SAVE_QUIET_MS.toNat
      (moves.foldl Saver.step (Saver.start light range startedMs)).log := by
  obtain ⟨base, base', t, w, htracks, hinv⟩ := Saver.Keeps.run h
  rw [htracks.log]
  exact hinv.spaced

/-- The brightness is set, and the loop goes round twice. -/
def savedOnce : Saver :=
  [SaverMove.light (.brightness 10 0), .loop 20 true, .loop 10020 true].foldl Saver.step
    (Saver.start lightInit (ledRangeInit 300) 0)

theorem homeLed_saves_spaced_once : Writer.Spaced SAVE_QUIET_MS.toNat savedOnce.log :=
  homeLed_saves_spaced ⟨⟨by decide, by decide⟩, ⟨by decide, by decide⟩, ⟨by decide, by decide⟩,
    trivial⟩

/-- Whenever the loop has gone round, the settings are those that were last stored, or those of the
start where none were, unless a change was noticed or a write failed in the last ten seconds. -/
theorem homeLed_saved_or_recent {light : Light} {range : LedRange} {startedMs nowMs : ℕ} {ok : Bool}
    {moves : List SaverMove} {app : Saver}
    (happ : app = (moves ++ [SaverMove.loop nowMs ok]).foldl Saver.step
      (Saver.start light range startedMs))
    (h : Meets Saver.step Saver.Bounded (Saver.start light range startedMs)
      (moves ++ [SaverMove.loop nowMs ok])) :
    app.kept.getD (settingsWords light.capture range) =
        settingsWords app.light.capture app.range ∨
      ∃ ms, (.noticed ms ∈ app.log ∨ .failed ms ∈ app.log) ∧ nowMs < ms + SAVE_QUIET_MS.toNat := by
  obtain ⟨hmoves, hloop, -⟩ := Meets.append_iff.mp h
  obtain ⟨base, base', t, w, htracks, hinv⟩ := Saver.Keeps.run hmoves
  obtain ⟨t', hpassed⟩ := htracks.mainLoop hinv ok hloop
  rw [Saver.Bounded, htracks.now] at hloop
  obtain ⟨hafter, hnow, hseen⟩ := hinv.pass (by decide : 0 < 10000) hloop.1 ok
  rw [List.foldl_append] at happ
  subst happ
  by_cases hclean : (w.pass 10000 nowMs ok).changes = (w.pass 10000 nowMs ok).saved
  · exact Or.inl (hpassed.kept hclean)
  · obtain ⟨e, he, hwhich, hrecent⟩ := hafter.recent hclean hseen.symm
    rw [hnow] at hrecent
    rw [← hpassed.log] at he
    refine Or.inr ⟨_, ?_, hrecent⟩
    obtain rfl | rfl := hwhich
    · exact Or.inl he
    · exact Or.inr he

/-- The brightness is set and stored; then the range is, and the flash refuses to be written. -/
def refusedOnce : Saver :=
  [SaverMove.light (.brightness 10 0), .loop 20 true, .loop 10020 true, .range (.set 2 7),
    .loop 10030 true, .loop 20030 false].foldl Saver.step
    (Saver.start lightInit (ledRangeInit 300) 0)

theorem homeLed_saved_or_recent_once :
    (savedOnce.kept.getD (settingsWords lightInit.capture (ledRangeInit 300)) =
        settingsWords savedOnce.light.capture savedOnce.range ∨
      ∃ ms, (.noticed ms ∈ savedOnce.log ∨ .failed ms ∈ savedOnce.log) ∧
        10020 < ms + SAVE_QUIET_MS.toNat) ∧
    (refusedOnce.kept.getD (settingsWords lightInit.capture (ledRangeInit 300)) =
        settingsWords refusedOnce.light.capture refusedOnce.range ∨
      ∃ ms, (.noticed ms ∈ refusedOnce.log ∨ .failed ms ∈ refusedOnce.log) ∧
        20030 < ms + SAVE_QUIET_MS.toNat) :=
  ⟨@homeLed_saved_or_recent lightInit (ledRangeInit 300) 0 10020 true
      [.light (.brightness 10 0), .loop 20 true] savedOnce rfl
      ⟨⟨by decide, by decide⟩, ⟨by decide, by decide⟩, ⟨by decide, by decide⟩, trivial⟩,
    @homeLed_saved_or_recent lightInit (ledRangeInit 300) 0 20030 false
      [.light (.brightness 10 0), .loop 20 true, .loop 10020 true, .range (.set 2 7),
        .loop 10030 true] refusedOnce rfl
      ⟨⟨by decide, by decide⟩, ⟨by decide, by decide⟩, ⟨by decide, by decide⟩,
        ⟨by decide, by decide⟩, ⟨by decide, by decide⟩, ⟨by decide, by decide⟩, trivial⟩⟩

end tracking

end Pico
