import PicoFramework.Proofs.CliEditor

/-! Raw lines. A line is marked when its first character is typed, and keeps the mark until it is
over, whatever it is edited into. -/

namespace Pico

open Lib.LineEditor Lib.Run

section endings

variable {config : CliConfig} {cli : Cli} {editor : ListEditor}

theorem slotsUsed_append (events more : List CliEvent) :
    slotsUsed (events ++ more) = slotsUsed events ++ slotsUsed more := List.filterMap_append

theorem Reports.slotsUsed_eq_nil {executed : List Bytes} {text : Option Bytes}
    {events : List CliEvent} (h : Reports 0 executed text events) : slotsUsed events = [] :=
  List.eq_nil_iff_forall_not_mem.mpr fun i hmem => absurd (h.slots i hmem) (Nat.not_lt_zero i)

theorem endOfLine_slots (h : Follows config cli editor) (hdepth : config.rules.depth ≠ 0)
    (hrefused : editor.entry.refused = false) (htext : editor.entry.line.text ≠ []) (reply : CliReply) :
    slotsUsed (cli.handleEndOfLine reply).1 =
      if editor.entry.isQuiet then [] else [cli.historyHead] := by
  have hpushed : ∀ text, slotsUsed (cli.historyPush text).1 = [cli.historyHead] := by
    intro text
    obtain ⟨buffer, head, count, -, hevents⟩ := historyPush_eq cli text
    rw [hevents, if_neg (by rwa [← h.setUp.depth_eq])]
    rfl
  have hslots : slotsUsed (if !cli.lineIsRaw then cli.historyPush (cli.line.take cli.lineLen)
      else ([], cli)).1 = if editor.entry.isQuiet then [] else [cli.historyHead] := by
    rw [h.quiet_eq]
    cases editor.entry.isQuiet with
    | true => rfl
    | false => exact hpushed _
  obtain ⟨-, -, -, ⟨hline, hlineLen, -⟩, -⟩ := push_follows h
  obtain ⟨filtered, after, hevents⟩ := endOfLine_executes h hrefused htext reply
  rw [hevents]
  generalize (if !cli.lineIsRaw then cli.historyPush (cli.line.take cli.lineLen)
    else ([], cli)) = pushed at hline hlineLen hslots
  have hstored : Stored pushed.2.line pushed.2.lineSize editor.entry.line.text := by
    rw [Cli.lineSize, hline]
    exact h.line.stored
  obtain ⟨-, hexecuted⟩ := executeLine_reports reply 0 hstored (hlineLen.trans h.line.len_eq)
    h.plain.nul_free
  have hnewline := ((writesOnly_cliWriteBytes (ascii "\r\n")).echoed cli).reports 0 none
  have hprompt : slotsUsed (if !filtered then after.writePrompt else []) = [] := by
    cases filtered with
    | true => rfl
    | false => exact ((writesOnly_writePrompt after).reports 0 none).slotsUsed_eq_nil
  rw [slotsUsed_append, slotsUsed_append, slotsUsed_append, hnewline.slotsUsed_eq_nil,
    hexecuted.slotsUsed_eq_nil, hslots, hprompt, List.nil_append, List.append_nil,
    List.append_nil]

end endings

section marks

variable {config : CliConfig} {cli : Cli} {editor : ListEditor}

/-- What being raw comes to, at one byte: a line that begins with the prefix is not recorded when
it is dispatched, and no key redraws it; every other line is recorded and redrawn. -/
structure RawLaw (config : CliConfig) (cli : Cli) (editor : ListEditor) (c : UInt8)
    (reply : CliReply) : Prop where
  recorded : ∀ text, executedLines (cli.feedChar c reply).1 = [text] →
    slotsUsed (cli.feedChar c reply).1 =
      if text.head? = some config.rawLinePrefix then [] else [cli.historyHead]
  redrawn : ∀ key, (editor.reader.read c).1 = some key → key ≠ .enter →
    (cli.feedChar c reply).2.text ≠ [] →
    written (cli.feedChar c reply).1 =
      if (cli.feedChar c reply).2.text.head? = some config.rawLinePrefix then []
      else redrawKey config.rules editor.entry key

/-- The byte completes no key that would change how the line starts. -/
def ListEditor.KeepsMark (rules : Rules UInt8) (editor : ListEditor) (input : UInt8 × CliReply) :
    Prop :=
  ∀ key, (editor.reader.read input.1).1 = some key → editor.entry.KeepsMark rules key

theorem startsQuiet_eq (hraw : config.rawLinePrefix ≠ 0) (text : Bytes) :
    Entry.startsQuiet config.rules text = decide (text.head? = some config.rawLinePrefix) := by
  cases text with
  | nil => rfl
  | cons c text => simp [Entry.startsQuiet, CliConfig.rules, hraw]

theorem feed_marked {c : UInt8} {reply : CliReply} (hkeeps : editor.KeepsMark config.rules (c, reply))
    (hmark : editor.entry.Marked config.rules) :
    (editor.feed config.rules c).2.entry.Marked config.rules := by
  unfold ListEditor.feed
  have hkey : ∀ key, (editor.reader.read c).1 = some key → editor.entry.KeepsMark config.rules key :=
    hkeeps
  generalize editor.reader.read c = read at hkey
  obtain ⟨key, reader⟩ := read
  cases key with
  | none => exact hmark
  | some key => exact (Entry.press_marked_iff rfl hmark key).mpr (hkey key rfl)

theorem read_ending (reader : KeyReader) {c : UInt8} (hend : c = 0x0D ∨ c = 0x0A) {key : Key UInt8}
    (h : (reader.read c).1 = some key) : key = .enter := by
  have hends : (c = 0x0D || c = 0x0A) = true := by
    rwa [Bool.or_eq_true, decide_eq_true_eq, decide_eq_true_eq]
  unfold KeyReader.read at h
  rw [if_pos hends] at h
  split at h
  · cases h
  · exact (Option.some.inj h).symm

theorem dispatched_slots (h : Follows config cli editor) (hdepth : config.rules.depth ≠ 0)
    {c : UInt8} {reply : CliReply} {text : Bytes}
    (hexecuted : executedLines (cli.feedChar c reply).1 = [text]) :
    editor.entry.line.text = text ∧ text ≠ [] ∧ slotsUsed (cli.feedChar c reply).1 =
      if editor.entry.isQuiet then [] else [cli.historyHead] := by
  obtain ⟨⟨hrefused, hne, htext⟩, hfed⟩ := feedChar_executed h hexecuted
  rw [hfed]
  exact ⟨htext, htext ▸ hne,
    endOfLine_slots (h.reading ⟨.none, c = 0x0D⟩) hdepth hrefused hne reply⟩

theorem rawLaw_step (h : Follows config cli editor) (hecho : config.echo = true)
    (hdepth : config.rules.depth ≠ 0) (hraw : config.rawLinePrefix ≠ 0)
    (hmark : editor.entry.Marked config.rules) {c : UInt8} {reply : CliReply}
    (hkeeps : editor.KeepsMark config.rules (c, reply)) : RawLaw config cli editor c reply where
  recorded := by
    intro text hexecuted
    obtain ⟨htext, hne, hslots⟩ := dispatched_slots h hdepth hexecuted
    rw [hslots, hmark (htext ▸ hne), htext, startsQuiet_eq hraw]
    simp only [decide_eq_true_eq]
  redrawn := by
    intro key hkey hne htext
    have hends : ¬(c = 0x0D ∨ c = 0x0A) := fun hend => hne (read_ending editor.reader hend hkey)
    obtain ⟨hcr, hlf⟩ := not_or.mp hends
    obtain ⟨hfollows, -, hwritten⟩ := feedChar_performs h hcr hlf reply
    have hmarked := hkeeps key hkey
    rw [← Entry.press_marked_iff rfl hmark] at hmarked
    rw [hkey] at hfollows hwritten
    have hsame := hfollows.sameLine.text_eq
    have hquiet := hfollows.quiet_eq
    simp only [ListEditor.pressed] at hsame hquiet
    rw [hsame] at htext ⊢
    have hflag := hmarked htext
    rw [startsQuiet_eq hraw] at hflag
    have hechoing : (cli.feedChar c reply).2.echo = true := hfollows.setUp.echo_eq.symm.trans hecho
    rw [hwritten, Cli.shouldEcho, hechoing, hquiet, hflag]
    by_cases hstarts : (editor.entry.press config.rules key).2.line.text.head? =
        some config.rawLinePrefix
    · simp [hstarts]
    · simp [hstarts]

theorem cliInit_depth (hinit : cliInit config = (.ok, some cli))
    (hhistory : config.historyBuffer ≠ none) : config.rules.depth ≠ 0 := by
  unfold cliInit at hinit
  dsimp only at hinit
  split at hinit
  · exact absurd (congrArg Prod.snd hinit) nofun
  rename_i hok
  obtain ⟨buffer, hbuffer⟩ := Option.ne_none_iff_exists'.mp hhistory
  obtain ⟨htwo, hfits, -⟩ := (cliCheck_ok (not_not.mp hok)).2 buffer hbuffer
  have hpos : 0 < buffer.length / config.historyEntrySize := Nat.div_pos hfits (by omega)
  rw [CliConfig.rules, hbuffer]
  exact hpos.ne'

/-- Raw-line marking follows the line, over every run of bytes none of which changes how a line
starts: it says at each byte whether the line begins with the prefix. -/
theorem cli_raw_follows_line (hinit : cliInit config = (.ok, some cli)) (hecho : config.echo = true)
    (hhistory : config.historyBuffer ≠ none) (hraw : config.rawLinePrefix ≠ 0)
    (inputs : List (UInt8 × CliReply)) (c : UInt8) (reply : CliReply)
    (hkeeps : Meets (fun editor input => (ListEditor.step config.rules editor input).2)
      (ListEditor.KeepsMark config.rules) .start (inputs ++ [(c, reply)])) :
    RawLaw config (run Cli.step cli inputs).2
      (run (ListEditor.step config.rules) .start inputs).2 c reply := by
  obtain ⟨-, hfollows⟩ := run_follows (cliInit_follows hinit) inputs
  obtain ⟨hbefore, hlast, -⟩ := Meets.append_iff.mp hkeeps
  have hstart : ListEditor.start.entry.Marked config.rules := Entry.marked_fresh []
  have hmark := @Meets.invariant _ _ _ _
    (fun editor : ListEditor => editor.entry.Marked config.rules)
    (fun editor input hok hmark => feed_marked hok hmark) _ _ hbefore hstart
  rw [← run_snd] at hlast hmark
  exact rawLaw_step hfollows hecho (cliInit_depth hinit hhistory) hraw hmark hlast

/-- A prefix that is erased, and another character in its place. -/
def retypedBytes : Bytes := [0x3A, 0x7F, 0x61]

/-- The line that is left is a raw one all the same: it is dispatched and not recorded. -/
theorem cli_raw_retyped : ¬∀ (config : CliConfig) (cli : Cli), cliInit config = (.ok, some cli) →
    config.echo = true → config.historyBuffer ≠ none → config.rawLinePrefix = 0x3A →
    ∀ (inputs : List (UInt8 × CliReply)) (c : UInt8) (reply : CliReply),
      RawLaw config (run Cli.step cli inputs).2
        (run (ListEditor.step config.rules) .start inputs).2 c reply := by
  intro h
  have hlaw := h smallConfig _ rfl rfl (by decide) rfl (fedBytes retypedBytes) 0x0D
    ⟨false, [], 0, [], fun _ => 0⟩
  have hslots := hlaw.recorded [0x61] (by decide)
  exact absurd hslots (by decide)

/-- A record of two characters, and then a line that is no record. -/
theorem cli_raw_follows_line_small : ∃ cli, cliInit smallConfig = (.ok, some cli) ∧
    RawLaw smallConfig (run Cli.step cli (fedBytes [0x3A, 0x31])).2
      (run (ListEditor.step smallConfig.rules) .start (fedBytes [0x3A, 0x31])).2 0x0D
      ⟨false, [], 0, [], fun _ => 0⟩ := by
  have hinit : cliInit smallConfig = (.ok, some _) := rfl
  refine ⟨_, hinit, cli_raw_follows_line hinit rfl (by decide) (by decide) _ _ _ ?_⟩
  refine ⟨?_, ?_, ?_, trivial⟩
  · intro key hkey
    obtain rfl : .char 0x3A = key := Option.some.inj hkey
    exact fun _ _ => rfl
  · intro key hkey
    obtain rfl : .char 0x31 = key := Option.some.inj hkey
    exact fun hbefore => absurd hbefore (by decide)
  · intro key hkey
    obtain rfl : .enter = key := Option.some.inj hkey
    trivial

end marks

end Pico
