import PicoFramework.Proofs.CliEditor

/-! Which lines are run. The editor to compare with here loses nothing of what is typed: a full line
takes the character all the same. -/

namespace Pico

open Lib.LineEditor Lib.Run

section editor

variable {rules : Rules UInt8} {editor editor' : ListEditor}

/-- The same keys are read, into entries that may differ in an overfull line only. -/
structure ListEditor.Agrees (editor editor' : ListEditor) : Prop where
  reader_eq : editor.reader = editor'.reader
  entry : Entry.Agree editor.entry editor'.entry

theorem ListEditor.Agrees.feed (h : editor.Agrees editor') (overfull : UInt8 → Line UInt8 → Line UInt8)
    (c : UInt8) :
    (editor.feed rules c).1 = (editor'.feed { rules with overfull } c).1 ∧
    (editor.feed rules c).2.Agrees (editor'.feed { rules with overfull } c).2 := by
  obtain ⟨hreader, hentry⟩ := h
  unfold ListEditor.feed
  rw [← hreader]
  generalize editor.reader.read c = read
  obtain ⟨key, reader⟩ := read
  cases key with
  | none => exact ⟨rfl, rfl, hentry⟩
  | some key =>
    obtain ⟨hsubmitted, hpressed⟩ := Entry.Agree.press rules overfull hentry key
    exact ⟨hsubmitted, rfl, hpressed⟩

theorem feed_cut {cut : ℕ} (h : ∀ text ∈ editor.entry.recorded, text.length ≤ rules.cut)
    (hcut : ∀ text ∈ editor.entry.recorded, text.length ≤ cut) (c : UInt8) :
    editor.feed { rules with cut } c = editor.feed rules c := by
  unfold ListEditor.feed
  generalize editor.reader.read c = read
  obtain ⟨key, reader⟩ := read
  cases key with
  | none => rfl
  | some key =>
    dsimp only
    rw [Entry.press_cut h hcut key]

theorem feed_records (rules : Rules UInt8) (editor : ListEditor) (c : UInt8) :
    (editor.feed rules c).2.entry.recorded = editor.entry.recorded ∨
    ∃ text, (editor.feed rules c).1 = some text ∧
      (editor.feed rules c).2.entry.recorded = editor.entry.recorded ++ [text] := by
  unfold ListEditor.feed
  generalize editor.reader.read c = read
  obtain ⟨key, reader⟩ := read
  cases key with
  | none => exact .inl rfl
  | some key => exact Entry.press_records key

theorem run_recorded (inputs : List (UInt8 × CliReply)) :
    editor.entry.recorded ⊆ (run (ListEditor.step rules) editor inputs).2.entry.recorded := by
  have hstep : ∀ (later : ListEditor) (input : UInt8 × CliReply),
      editor.entry.recorded ⊆ later.entry.recorded →
      editor.entry.recorded ⊆ (later.step rules input).2.entry.recorded := by
    intro later input h text hmem
    rcases feed_records rules later input.1 with hsame | ⟨line, -, hmore⟩
    · exact hsame ▸ h hmem
    · exact hmore ▸ List.mem_append_left _ (h hmem)
  exact run_invariant hstep editor inputs (List.Subset.refl _)

theorem run_records (inputs : List (UInt8 × CliReply)) {text : Bytes}
    (hmem : text ∈ (run (ListEditor.step rules) editor inputs).2.entry.recorded) :
    text ∈ editor.entry.recorded ∨ some text ∈ (run (ListEditor.step rules) editor inputs).1 := by
  induction inputs generalizing editor with
  | nil => exact .inl hmem
  | cons input inputs ih =>
    rcases ih hmem with hbefore | hlater
    · change text ∈ (editor.feed rules input.1).2.entry.recorded at hbefore
      rcases feed_records rules editor input.1 with hsame | ⟨line, hline, hmore⟩
      · exact .inl (hsame ▸ hbefore)
      · rw [hmore] at hbefore
        rcases List.mem_append.mp hbefore with hold | hnew
        · exact .inl hold
        · rw [List.mem_singleton.mp hnew]
          exact .inr (hline ▸ List.mem_cons_self ..)
    · exact .inr (List.mem_cons_of_mem _ hlater)

theorem run_cut (cut : ℕ) (inputs : List (UInt8 × CliReply))
    (h : ∀ text ∈ (run (ListEditor.step rules) editor inputs).2.entry.recorded,
      text.length ≤ rules.cut ∧ text.length ≤ cut) :
    run (ListEditor.step { rules with cut }) editor inputs =
      run (ListEditor.step rules) editor inputs := by
  induction inputs generalizing editor with
  | nil => rfl
  | cons input inputs ih =>
    have hnow : ∀ text ∈ editor.entry.recorded, text.length ≤ rules.cut ∧ text.length ≤ cut :=
      fun text hmem => h text (run_recorded (input :: inputs) hmem)
    have hfed : editor.step { rules with cut } input = editor.step rules input :=
      feed_cut (fun text hmem => (hnow text hmem).1) (fun text hmem => (hnow text hmem).2) input.1
    rw [run_cons, run_cons, hfed, ih h]

end editor

/-- The rules of an editor that drops no character, and keeps `cut` of a line it records. -/
def CliConfig.wholeRules (config : CliConfig) (cut : ℕ) : Rules UInt8 :=
  { config.rules with overfull := Line.insert, cut }

/-- The lines handed to the filter or to a handler are those that this editor submits. -/
def HandsWhole (config : CliConfig) (cli : Cli) (cut : ℕ) (inputs : List (UInt8 × CliReply)) : Prop :=
  List.Forall₂ (fun events submitted => ∀ line ∈ handedLines events, submitted = some line)
    (run Cli.step cli inputs).1 (run (ListEditor.step (config.wholeRules cut)) .start inputs).1

/-- The interpreter runs no line that a character was dropped from. A recall contributes a line
submitted before, as far as a slot of the history holds it, and all of it in a run that records
no line longer than that. -/
theorem cli_runs_whole_lines {config : CliConfig} {cli : Cli}
    (hinit : cliInit config = (.ok, some cli)) (inputs : List (UInt8 × CliReply)) :
    let whole := run (ListEditor.step (config.wholeRules (config.historyEntrySize - 1))) .start inputs
    HandsWhole config cli (config.historyEntrySize - 1) inputs ∧
    (∀ text ∈ whole.2.entry.recorded, some text ∈ whole.1 ∧ text.length ≤ config.rules.capacity) ∧
    ((∀ text ∈ whole.2.entry.recorded, text.length ≤ config.historyEntrySize - 1) →
      HandsWhole config cli config.rules.capacity inputs) := by
  intro whole
  obtain ⟨hreports, hfollows⟩ := run_follows (cliInit_follows hinit) inputs
  have hstart : ListEditor.start.Agrees .start := ⟨rfl, Entry.Agree.fresh rfl⟩
  have hstep : ∀ (editor editor' : ListEditor) (input : UInt8 × CliReply), editor.Agrees editor' →
      (editor.step config.rules input).1 =
        (editor'.step (config.wholeRules (config.historyEntrySize - 1)) input).1 ∧
      (editor.step config.rules input).2.Agrees
        (editor'.step (config.wholeRules (config.historyEntrySize - 1)) input).2 :=
    fun _ _ input h => h.feed Line.insert input.1
  obtain ⟨hanswers, hagrees⟩ := run_refines hstep .start .start inputs hstart
  have hhands : HandsWhole config cli (config.historyEntrySize - 1) inputs := by
    rw [HandsWhole, ← hanswers]
    exact hreports.imp fun _ _ h => h.handed
  have hrecorded : ∀ text ∈ whole.2.entry.recorded, text.length ≤ config.rules.capacity := by
    intro text hmem
    rw [← hagrees.entry.recorded_eq] at hmem
    rw [hfollows.setUp.capacity_eq]
    exact Nat.le_sub_one_of_lt (hfollows.recorded_ok text hmem).2
  refine ⟨hhands, fun text hmem => ⟨?_, hrecorded text hmem⟩, fun hshort => ?_⟩
  · exact (run_records inputs hmem).resolve_left nofun
  · have huncut := run_cut config.rules.capacity inputs
      fun text hmem => ⟨hshort text hmem, hrecorded text hmem⟩
    change List.Forall₂ _ _ (run (ListEditor.step (config.wholeRules config.rules.capacity)) .start
      inputs).1
    have hsame : (run (ListEditor.step (config.wholeRules config.rules.capacity)) .start inputs) =
        whole := huncut
    rw [hsame]
    exact hhands

/-- One line recorded and recalled, in slots that hold one character less than it has. -/
def recalledBytes : Bytes := [0x61, 0x62, 0x0D] ++ arrowBytes 0x41 ++ [0x0D]

theorem cli_runs_whole_lines_recalled : ∃ cli, cliInit smallConfig = (.ok, some cli) ∧
    HandsWhole smallConfig cli smallConfig.rules.capacity (fedBytes recalledBytes) :=
  have hinit : cliInit smallConfig = (.ok, some _) := rfl
  ⟨_, rfl, (cli_runs_whole_lines hinit _).2.2 (by decide)⟩

/-- Where a slot holds one character, a line of two is run cut to that one when it is recalled. -/
theorem cli_runs_cut_line : ¬ ∀ (config : CliConfig) (cli : Cli),
    cliInit config = (.ok, some cli) → ∀ inputs, HandsWhole config cli config.rules.capacity inputs := by
  intro h
  have hhands := h { smallConfig with historyEntrySize := 2 } _ rfl (fedBytes recalledBytes)
  have hlast := hhands.get (i := 6) (by decide) (by decide)
  exact absurd (hlast [0x61] (by decide)) (by decide)

end Pico
