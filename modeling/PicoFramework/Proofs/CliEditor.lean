import PicoFramework.Lib.Run
import PicoFramework.Proofs.CliDispatch
import PicoFramework.Proofs.CliHistory

/-! The interpreter refines an editor of lists. The editor is told of keys; which key a byte
completes is read off the byte stream first. -/

namespace Pico

open Lib.LineEditor Lib.Run

/-- Where the reading of keys is: in an escape sequence or not, and right behind a CR or not. -/
structure KeyReader where
  escape : CliEscapeState
  lastWasCr : Bool

/-- The key of `ESC [ c`. -/
def arrowKey (c : UInt8) : Option (Key UInt8) :=
  if c = 0x41 then some .up
  else if c = 0x42 then some .down
  else if c = 0x43 then some .right
  else if c = 0x44 then some .left
  else none

/-- The key that a byte completes. CR LF is one line ending, and a byte that continues no escape
sequence is dropped with it, like every control character that is no key. -/
def KeyReader.read (reader : KeyReader) (c : UInt8) : Option (Key UInt8) × KeyReader :=
  if c = 0x0A && reader.lastWasCr then (none, { reader with lastWasCr := false })
  else if c = 0x0D || c = 0x0A then (some .enter, ⟨.none, c = 0x0D⟩)
  else
    match reader.escape with
    | .gotBracket => (arrowKey c, ⟨.none, false⟩)
    | .gotEsc => (none, ⟨if c = 0x5B then .gotBracket else .none, false⟩)
    | .none =>
        if c = 0x1B then (none, ⟨.gotEsc, false⟩)
        else if c = 0x08 || c = 0x7F then (some .deleteLeft, ⟨.none, false⟩)
        else if c < 0x20 then (none, ⟨.none, false⟩)
        else (some (.char c), ⟨.none, false⟩)

/-- The editor of lists behind a reader of keys. -/
structure ListEditor where
  reader : KeyReader
  entry : Entry UInt8

def ListEditor.start : ListEditor := ⟨⟨.none, false⟩, Entry.fresh []⟩

/-- A byte fed: the line submitted by it, if any, and the editor it leaves. -/
def ListEditor.feed (rules : Rules UInt8) (editor : ListEditor) (c : UInt8) :
    Option Bytes × ListEditor :=
  match editor.reader.read c with
  | (none, reader) => (none, ⟨reader, editor.entry⟩)
  | (some key, reader) =>
      let pressed := editor.entry.press rules key
      (pressed.1, ⟨reader, pressed.2⟩)

/-- The rules that a configuration sets: a full line refuses the character. -/
def CliConfig.rules (config : CliConfig) : Rules UInt8 where
  capacity := (config.lineBuffer.map List.length).getD 0 - 1
  overfull := fun _ l => l
  quiet := fun c => config.rawLinePrefix ≠ 0 && c = config.rawLinePrefix
  depth := (config.historyBuffer.map fun buffer => buffer.length / config.historyEntrySize).getD 0
  cut := config.historyEntrySize - 1

/-- The interpreter has what the configuration gave it. -/
structure SetUp (config : CliConfig) (cli : Cli) : Prop where
  size_eq : (config.lineBuffer.map List.length).getD 0 = cli.lineSize
  two_le : 2 ≤ cli.lineSize
  raw_eq : config.rawLinePrefix = cli.rawLinePrefix
  depth_eq : config.rules.depth = cli.historyDepth
  entry_eq : config.historyEntrySize = cli.historyEntrySize
  echo_eq : config.echo = cli.echo

/-- Characters only, as the line buffer takes them. -/
def Plain (text : Bytes) : Prop := ∀ c ∈ text, 0x20 ≤ c

theorem Plain.nul_free {text : Bytes} (h : Plain text) : 0 ∉ text :=
  fun hmem => absurd (h 0 hmem) (by decide)

/-- The interpreter is at one with the editor of lists. -/
structure Follows (config : CliConfig) (cli : Cli) (editor : ListEditor) : Prop where
  setUp : SetUp config cli
  line : HoldsLine cli editor.entry.line
  refused_eq : cli.overflow = editor.entry.refused
  quiet_eq : cli.lineIsRaw = editor.entry.isQuiet
  remembers : Remembers cli editor.entry.recorded
  back_eq : cli.historyCursor = editor.entry.back
  back_le : editor.entry.back ≤ cli.historyCount
  plain : Plain editor.entry.line.text
  recorded_ok : ∀ text ∈ editor.entry.recorded, Plain text ∧ text.length < cli.lineSize
  escape_eq : cli.escapeState = editor.reader.escape
  lastWasCr_eq : cli.lastWasCr = editor.reader.lastWasCr

section follows

variable {config : CliConfig} {cli : Cli} {editor : ListEditor}

theorem SetUp.of_eq {cli' : Cli} (h : SetUp config cli) (hsize : cli'.lineSize = cli.lineSize)
    (hraw : cli'.rawLinePrefix = cli.rawLinePrefix) (hdepth : cli'.historyDepth = cli.historyDepth)
    (hentry : cli'.historyEntrySize = cli.historyEntrySize) (hecho : cli'.echo = cli.echo) :
    SetUp config cli' where
  size_eq := h.size_eq.trans hsize.symm
  two_le := hsize ▸ h.two_le
  raw_eq := h.raw_eq.trans hraw.symm
  depth_eq := h.depth_eq.trans hdepth.symm
  entry_eq := h.entry_eq.trans hentry.symm
  echo_eq := h.echo_eq.trans hecho.symm

theorem SetUp.capacity_eq (h : SetUp config cli) : config.rules.capacity = cli.lineSize - 1 :=
  congrArg (· - 1) h.size_eq

theorem SetUp.cut_eq (h : SetUp config cli) : config.rules.cut = cli.historyEntrySize - 1 :=
  congrArg (· - 1) h.entry_eq

theorem SetUp.quiet_eq (h : SetUp config cli) (c : UInt8) :
    config.rules.quiet c = (cli.rawLinePrefix ≠ 0 && c = cli.rawLinePrefix) := by
  change (config.rawLinePrefix ≠ 0 && c = config.rawLinePrefix) = _
  rw [h.raw_eq]

theorem Follows.reach_eq (h : Follows config cli editor) :
    editor.entry.reach config.rules = cli.historyCount := by
  rw [Entry.reach, h.setUp.depth_eq, h.remembers.count_eq]

theorem Follows.reading (h : Follows config cli editor) (reader : KeyReader) :
    Follows config { cli with escapeState := reader.escape, lastWasCr := reader.lastWasCr }
      ⟨reader, editor.entry⟩ where
  setUp := h.setUp.of_eq rfl rfl rfl rfl rfl
  line := h.line.of_eq rfl rfl rfl
  refused_eq := h.refused_eq
  quiet_eq := h.quiet_eq
  remembers := h.remembers.of_eq rfl rfl rfl rfl rfl
  back_eq := h.back_eq
  back_le := h.back_le
  plain := h.plain
  recorded_ok := h.recorded_ok
  escape_eq := rfl
  lastWasCr_eq := rfl

theorem Follows.edited (h : Follows config cli editor) {memory : Bytes} {l : Line UInt8}
    (hstored : Stored memory cli.lineSize l.text) (hplain : Plain l.text) {k : ℕ}
    (hk : k ≤ cli.historyCount) :
    Follows config { cli.edited memory l with historyCursor := k }
      ⟨editor.reader, { editor.entry with line := l, back := k }⟩ where
  setUp := h.setUp.of_eq hstored.length_eq rfl rfl rfl rfl
  line := ⟨by rwa [Cli.lineSize, Cli.edited, hstored.length_eq], rfl, rfl⟩
  refused_eq := h.refused_eq
  quiet_eq := h.quiet_eq
  remembers := h.remembers.of_eq rfl rfl rfl rfl rfl
  back_eq := rfl
  back_le := hk
  plain := hplain
  recorded_ok := by
    intro text hmem
    rw [Cli.lineSize, Cli.edited, hstored.length_eq]
    exact h.recorded_ok text hmem
  escape_eq := h.escape_eq
  lastWasCr_eq := h.lastWasCr_eq

/-- The result of a function that deals with a key: the editor it leaves the interpreter at one
with, and what it wrote to redraw the line. -/
structure Performs (config : CliConfig) (editor : ListEditor) (redraw : Bytes)
    (result : List CliEvent × Cli) : Prop where
  follows : Follows config result.2 editor
  reports : Reports config.rules.depth [] none result.1
  written_eq : written result.1 = if result.2.shouldEcho then redraw else []

theorem Follows.idle (h : Follows config cli editor) : Performs config editor [] ([], cli) where
  follows := h
  reports := writesOnly_nil.reports _ _
  written_eq := by
    rw [ite_self]
    rfl

theorem Edits.performs {l : Line UInt8} {redraw : Bytes} {result : List CliEvent × Cli}
    (hedits : Edits cli l redraw result) (h : Follows config cli editor) (hplain : Plain l.text) :
    Performs config ⟨editor.reader, { editor.entry with line := l }⟩ redraw result := by
  obtain ⟨⟨memory, hstored, heq⟩, honly, hwritten⟩ := hedits
  have hedited := h.edited hstored hplain h.back_le
  have hsame : { cli.edited memory l with historyCursor := editor.entry.back } =
      cli.edited memory l := by
    rw [← h.back_eq]
    rfl
  rw [hsame] at hedited
  refine ⟨?_, honly.reports _ _, ?_⟩
  · rw [heq]
    exact hedited
  · rw [heq]
    exact hwritten

theorem Plain.deleteLeft {l : Line UInt8} (h : Plain l.text) : Plain l.deleteLeft.text := by
  intro c hmem
  rcases List.mem_append.mp hmem with hbefore | hafter
  · exact h c (List.mem_append_left _ (List.mem_of_mem_dropLast hbefore))
  · exact h c (List.mem_append_right _ hafter)

theorem Plain.insert {l : Line UInt8} {c : UInt8} (h : Plain l.text) (hc : 0x20 ≤ c) :
    Plain (l.insert c).text := by
  rw [Line.text_insert]
  intro d hmem
  rcases List.mem_append.mp hmem with hbefore | hafter
  · exact h d (List.mem_append_left _ hbefore)
  · rcases List.mem_cons.mp hafter with rfl | htail
    · exact hc
    · exact h d (List.mem_append_right _ htail)

theorem Follows.marked (h : Follows config cli editor) (raw : Bool) :
    Follows config { cli with lineIsRaw := raw }
      ⟨editor.reader, { editor.entry with isQuiet := raw }⟩ where
  setUp := h.setUp.of_eq rfl rfl rfl rfl rfl
  line := h.line.of_eq rfl rfl rfl
  refused_eq := h.refused_eq
  quiet_eq := rfl
  remembers := h.remembers.of_eq rfl rfl rfl rfl rfl
  back_eq := h.back_eq
  back_le := h.back_le
  plain := h.plain
  recorded_ok := h.recorded_ok
  escape_eq := h.escape_eq
  lastWasCr_eq := h.lastWasCr_eq

theorem Follows.overflowing (h : Follows config cli editor) :
    Follows config { cli with overflow := true }
      ⟨editor.reader, { editor.entry with refused := true }⟩ where
  setUp := h.setUp.of_eq rfl rfl rfl rfl rfl
  line := h.line.of_eq rfl rfl rfl
  refused_eq := rfl
  quiet_eq := h.quiet_eq
  remembers := h.remembers.of_eq rfl rfl rfl rfl rfl
  back_eq := h.back_eq
  back_le := h.back_le
  plain := h.plain
  recorded_ok := h.recorded_ok
  escape_eq := h.escape_eq
  lastWasCr_eq := h.lastWasCr_eq

theorem rawLine_eq (h : Follows config cli editor) (c : UInt8) :
    (if cli.lineLen = 0 && cli.rawLinePrefix ≠ 0 && c = cli.rawLinePrefix then
      { cli with lineIsRaw := true } else cli) =
    { cli with lineIsRaw :=
        editor.entry.isQuiet || (editor.entry.line.text.isEmpty && config.rules.quiet c) } := by
  have hempty : decide (cli.lineLen = 0) = editor.entry.line.text.isEmpty := by
    rw [h.line.len_eq]
    cases editor.entry.line.text with
    | nil => rfl
    | cons c text => rfl
  rw [h.setUp.quiet_eq c, ← hempty, ← h.quiet_eq, ← Bool.and_assoc]
  split
  · rename_i hraw
    rw [hraw, Bool.or_true]
  · rename_i hraw
    rw [Bool.not_eq_true] at hraw
    rw [hraw, Bool.or_false]

/-- What redraws the line after a key. -/
def redrawKey (rules : Rules UInt8) (e : Entry UInt8) : Key UInt8 → Bytes
  | .char c => if e.line.text.length < rules.capacity then redrawInsert c e.line else []
  | .deleteLeft => redrawDelete e.line
  | .left => redrawLeft e.line
  | .right => redrawRight e.line
  | .up =>
      if e.back < e.reach rules then
        redrawReplace ((Entry.recent e.recorded (e.back + 1)).take rules.cut) e.line
      else []
  | .down =>
      if e.back = 0 then []
      else redrawReplace ((Entry.recent e.recorded (e.back - 1)).take rules.cut) e.line
  | .enter => []

theorem insertChar_performs (h : Follows config cli editor) {c : UInt8} (hc : 0x20 ≤ c) :
    Performs config ⟨editor.reader, editor.entry.typed config.rules c⟩
      (redrawKey config.rules editor.entry (.char c))
      ((if cli.lineLen = 0 && cli.rawLinePrefix ≠ 0 && c = cli.rawLinePrefix then
        { cli with lineIsRaw := true } else cli).insertCharAtCursor c) := by
  rw [rawLine_eq h c]
  have hmarked := h.marked (editor.entry.isQuiet ||
    (editor.entry.line.text.isEmpty && config.rules.quiet c))
  unfold Entry.typed redrawKey
  dsimp only
  split
  · rename_i hfits
    rw [h.setUp.capacity_eq] at hfits
    exact (insertCharAtCursor_edits hmarked.line c hfits).performs hmarked (h.plain.insert hc)
  · rename_i hfull
    rw [h.setUp.capacity_eq] at hfull
    rw [insertCharAtCursor_full hmarked.line c hfull]
    exact hmarked.overflowing.idle

theorem recallAt_performs (h : Follows config cli editor) {k : ℕ} (hk : k ≤ cli.historyCount) :
    Performs config ⟨editor.reader, editor.entry.goBack config.rules k⟩
      (redrawReplace ((Entry.recent editor.entry.recorded k).take config.rules.cut)
        editor.entry.line) (cli.recallAt k) := by
  have hreplaced : ∀ text : Bytes, text.length < cli.lineSize → Plain text →
      Performs config ⟨editor.reader, { editor.entry with line := .atEnd text, back := k }⟩
        (redrawReplace text editor.entry.line)
        ((cli.replaceLine text).1, { (cli.replaceLine text).2 with historyCursor := k }) := by
    intro text hfits hplain
    obtain ⟨⟨memory, hstored, heq⟩, honly, hwritten⟩ := replaceLine_edits h.line text hfits
    rw [heq]
    exact ⟨h.edited hstored (by rwa [Line.text_atEnd]) hk, honly.reports _ _, hwritten⟩
  have hsize := h.setUp.two_le
  unfold Cli.recallAt
  split
  · rename_i hzero
    subst hzero
    have hnone : (Entry.recent editor.entry.recorded 0).take config.rules.cut = [] := List.take_nil
    rw [Entry.goBack, hnone]
    exact hreplaced [] (by change 0 < cli.lineSize; omega) nofun
  · rename_i hpos
    obtain ⟨hslot, hentry⟩ := h.remembers.recall (Nat.pos_of_ne_zero hpos) hk
    dsimp only
    rw [hentry]
    have hmem : Entry.recent editor.entry.recorded k ∈ editor.entry.recorded := by
      have hcount := h.remembers.count_eq
      have hlt : editor.entry.recorded.length - k < editor.entry.recorded.length := by omega
      rw [Entry.recent, if_neg hpos, List.getD_eq_getElem?_getD, List.getElem?_eq_getElem hlt]
      exact List.getElem_mem hlt
    obtain ⟨hplain, hfits⟩ := h.recorded_ok _ hmem
    obtain ⟨hfollows, hreports, hwritten⟩ := hreplaced
      ((Entry.recent editor.entry.recorded k).take (cli.historyEntrySize - 1))
      (by rw [List.length_take]; omega) (fun c hin => hplain c (List.mem_of_mem_take hin))
    rw [← h.setUp.cut_eq] at hfollows hreports hwritten ⊢
    rw [← h.setUp.depth_eq] at hslot ⊢
    exact ⟨hfollows, (reports_slot hslot none).append hreports, hwritten⟩

theorem historyRecall_older_performs (h : Follows config cli editor) :
    Performs config ⟨editor.reader, (editor.entry.press config.rules .up).2⟩
      (redrawKey config.rules editor.entry .up) (cli.historyRecall .older) := by
  have hreach := h.reach_eq
  have hcount := h.remembers.count_eq
  have hback := h.back_le
  change Performs config ⟨_, if editor.entry.back < editor.entry.reach config.rules then
    editor.entry.goBack config.rules (editor.entry.back + 1) else editor.entry⟩
    (if editor.entry.back < editor.entry.reach config.rules then _ else _) _
  unfold Cli.historyRecall
  rw [h.back_eq, hreach]
  by_cases hup : editor.entry.back < cli.historyCount
  · rw [if_pos hup, if_pos hup, if_neg (by omega)]
    dsimp only
    rw [if_neg (by omega)]
    exact recallAt_performs h (by omega)
  · rw [if_neg hup, if_neg hup]
    split
    · exact h.idle
    dsimp only
    rw [if_pos (by omega)]
    exact h.idle

theorem historyRecall_newer_performs (h : Follows config cli editor) :
    Performs config ⟨editor.reader, (editor.entry.press config.rules .down).2⟩
      (redrawKey config.rules editor.entry .down) (cli.historyRecall .newer) := by
  have hcount := h.remembers.count_eq
  have hback := h.back_le
  change Performs config ⟨_, if editor.entry.back = 0 then editor.entry else
    editor.entry.goBack config.rules (editor.entry.back - 1)⟩
    (if editor.entry.back = 0 then _ else _) _
  unfold Cli.historyRecall
  rw [h.back_eq]
  by_cases hnewest : editor.entry.back = 0
  · rw [if_pos hnewest, if_pos hnewest]
    split
    · exact h.idle
    · exact h.idle
  · rw [if_neg hnewest, if_neg hnewest, if_neg (by omega)]
    dsimp only
    rw [if_neg hnewest]
    exact recallAt_performs h (by omega)

/-- What an arrow, or another letter in its place, makes of the editor behind it. -/
def ListEditor.pressed (rules : Rules UInt8) (reader : KeyReader) (e : Entry UInt8) :
    Option (Key UInt8) → ListEditor
  | none => ⟨reader, e⟩
  | some key => ⟨reader, (e.press rules key).2⟩

theorem escapeLetter_performs (h : Follows config cli editor) (c : UInt8) :
    Performs config (.pressed config.rules editor.reader editor.entry (arrowKey c))
      (((arrowKey c).map (redrawKey config.rules editor.entry)).getD [])
      (cli.handleEscapeLetter c) := by
  unfold Cli.handleEscapeLetter arrowKey
  by_cases hleft : c = 0x44
  · subst hleft
    exact (cursorLeft_edits h.line).performs h (by rw [Line.text_left]; exact h.plain)
  by_cases hright : c = 0x43
  · subst hright
    exact (cursorRight_edits h.line).performs h (by rw [Line.text_right]; exact h.plain)
  by_cases hup : c = 0x41
  · subst hup
    exact historyRecall_older_performs h
  by_cases hdown : c = 0x42
  · subst hdown
    exact historyRecall_newer_performs h
  rw [if_neg hleft, if_neg hright, if_neg hup, if_neg hdown, if_neg hup, if_neg hdown, if_neg hright,
    if_neg hleft]
  exact h.idle

theorem resetLine_follows {recorded : List Bytes} (hrules : SetUp config cli)
    (hremembers : Remembers cli recorded)
    (hrecorded : ∀ text ∈ recorded, Plain text ∧ text.length < cli.lineSize) :
    Follows config cli.resetLine ⟨⟨.none, cli.lastWasCr⟩, Entry.fresh recorded⟩ := by
  have hsize : cli.resetLine.lineSize = cli.lineSize := List.length_set
  have htwo := hrules.two_le
  constructor
  · exact hrules.of_eq hsize rfl rfl rfl rfl
  · refine ⟨⟨rfl, rfl, ?_⟩, rfl, rfl⟩
    change 0 < cli.resetLine.lineSize
    omega
  · rfl
  · rfl
  · exact hremembers.of_eq rfl rfl rfl rfl rfl
  · rfl
  · exact Nat.zero_le _
  · exact nofun
  · rw [hsize]
    exact hrecorded
  · rfl
  · rfl

theorem endOfLine_writes {cli' : Cli} (filtered : Bool) {executed : List Bytes}
    {submitted : Option Bytes} {events : List CliEvent}
    (h : Reports config.rules.depth executed submitted events) :
    Reports config.rules.depth executed submitted
      (cli.echoed (cliWriteBytes (ascii "\r\n")) ++ events ++
        (if !filtered then cli'.writePrompt else [])) := by
  have hnewline := ((writesOnly_cliWriteBytes (ascii "\r\n")).echoed cli).reports config.rules.depth submitted
  have hprompt : WritesOnly (if !filtered then cli'.writePrompt else []) := by
    split
    · exact writesOnly_writePrompt _
    · exact writesOnly_nil
  have hall := (hnewline.append h).append (hprompt.reports config.rules.depth submitted)
  rwa [List.nil_append, List.append_nil] at hall

theorem push_follows (h : Follows config cli editor) :
    let recorded := if editor.entry.isQuiet then editor.entry.recorded
      else editor.entry.recorded ++ [editor.entry.line.text]
    let pushed := if !cli.lineIsRaw then cli.historyPush (cli.line.take cli.lineLen) else ([], cli)
    SetUp config pushed.2 ∧ Remembers pushed.2 recorded ∧
    (∀ text ∈ recorded, Plain text ∧ text.length < cli.lineSize) ∧
    (pushed.2.line = cli.line ∧ pushed.2.lineLen = cli.lineLen ∧
      pushed.2.lastWasCr = cli.lastWasCr) ∧
    ∀ submitted, Reports config.rules.depth [] submitted pushed.1 := by
  intro recorded pushed
  have htext : cli.line.take cli.lineLen = editor.entry.line.text := by
    rw [h.line.len_eq, h.line.stored.take_eq]
  cases hraw : editor.entry.isQuiet with
  | true =>
    have hpushed : pushed = ([], cli) := by
      change (if !cli.lineIsRaw then _ else _) = _
      rw [h.quiet_eq, hraw]
      rfl
    rw [hpushed]
    have hrecorded : recorded = editor.entry.recorded := if_pos hraw
    rw [hrecorded]
    exact ⟨h.setUp, h.remembers, h.recorded_ok, ⟨rfl, rfl, rfl⟩,
      fun submitted => writesOnly_nil.reports _ _⟩
  | false =>
    have hpushed : pushed = cli.historyPush editor.entry.line.text := by
      change (if !cli.lineIsRaw then _ else _) = _
      rw [h.quiet_eq, hraw, htext]
      rfl
    have hrecorded : recorded = editor.entry.recorded ++ [editor.entry.line.text] :=
      if_neg (by rw [hraw]; exact nofun)
    obtain ⟨buffer, head, count, heq, hevents⟩ := historyPush_eq cli editor.entry.line.text
    have hremembers := historyPush_remembers h.remembers h.plain.nul_free
    rw [hpushed, hrecorded]
    refine ⟨?_, hremembers, ?_, ?_, ?_⟩
    · rw [heq]
      exact h.setUp.of_eq rfl rfl rfl rfl rfl
    · intro text hmem
      rcases List.mem_append.mp hmem with hold | hnew
      · exact h.recorded_ok text hold
      · rw [List.mem_singleton.mp hnew]
        exact ⟨h.plain, h.line.stored.fits⟩
    · rw [heq]
      exact ⟨rfl, rfl, rfl⟩
    · intro submitted
      rw [hevents]
      split
      · exact writesOnly_nil.reports _ _
      · rename_i hdepth
        refine reports_slot ?_ submitted
        rw [h.setUp.depth_eq]
        exact h.remembers.head_lt hdepth

theorem endOfLine_follows (h : Follows config cli editor) (hescape : editor.reader.escape = .none)
    (reply : CliReply) :
    Follows config (cli.handleEndOfLine reply).2 ⟨editor.reader, editor.entry.enter.2⟩ ∧
    Reports config.rules.depth editor.entry.enter.1.toList editor.entry.enter.1
      (cli.handleEndOfLine reply).1 := by
  have hreader : editor.reader = ⟨.none, cli.lastWasCr⟩ := by
    rw [h.lastWasCr_eq, ← hescape]
  have hlen := h.line.len_eq
  unfold Cli.handleEndOfLine
  dsimp only
  rw [hreader, h.refused_eq]
  cases hrefused : editor.entry.refused with
  | true =>
    rw [if_pos rfl, Entry.enter_refused hrefused]
    have hmessage := (writesOnly_cliWriteBytes (ascii "line too long\r\n")).reports config.rules.depth none
    exact ⟨resetLine_follows h.setUp h.remembers h.recorded_ok, endOfLine_writes false hmessage⟩
  | false =>
    rw [if_neg nofun]
    rcases eq_or_ne editor.entry.line.text [] with hnil | htext
    · rw [hnil] at hlen
      rw [if_neg (by rw [hlen]; exact Nat.lt_irrefl 0), Entry.enter_empty hnil]
      exact ⟨resetLine_follows h.setUp h.remembers h.recorded_ok,
        endOfLine_writes false (writesOnly_nil.reports _ _)⟩
    · rw [if_pos (by rw [hlen]; exact List.length_pos_of_ne_nil htext),
        Entry.enter_submits hrefused htext]
      obtain ⟨hrules, hremembers, hrecorded, ⟨hline, hlineLen, hlast⟩, hpushed⟩ := push_follows h
      generalize (if !cli.lineIsRaw then cli.historyPush (cli.line.take cli.lineLen)
        else ([], cli)) = pushed at hrules hremembers hline hlineLen hlast hpushed
      have hstored : Stored pushed.2.line pushed.2.lineSize editor.entry.line.text := by
        rw [Cli.lineSize, hline]
        exact h.line.stored
      obtain ⟨⟨memory, pos, hmemory, hparsed⟩, hexecuted⟩ :=
        executeLine_reports reply config.rules.depth hstored (hlineLen.trans hlen) h.plain.nul_free
      have hsize : { pushed.2 with line := memory, parsePos := pos }.lineSize = pushed.2.lineSize :=
        hmemory
      dsimp only
      rw [hparsed]
      refine ⟨?_, endOfLine_writes _ ((hpushed _).append hexecuted)⟩
      rw [← hlast]
      refine resetLine_follows (hrules.of_eq hsize rfl rfl rfl rfl) (hremembers.of_eq rfl rfl rfl rfl rfl) ?_
      rw [hsize, Cli.lineSize, hline]
      exact hrecorded

theorem endOfLine_executes (h : Follows config cli editor) (hrefused : editor.entry.refused = false)
    (htext : editor.entry.line.text ≠ []) (reply : CliReply) :
    let pushed := if !cli.lineIsRaw then cli.historyPush (cli.line.take cli.lineLen) else ([], cli)
    ∃ (filtered : Bool) (after : Cli), (cli.handleEndOfLine reply).1 =
      cli.echoed (cliWriteBytes (ascii "\r\n")) ++ (pushed.1 ++ (pushed.2.executeLine reply).2.1) ++
        (if !filtered then after.writePrompt else []) := by
  intro pushed
  have hlen : cli.lineLen > 0 := by
    rw [h.line.len_eq]
    exact List.length_pos_of_ne_nil htext
  unfold Cli.handleEndOfLine
  dsimp only
  rw [h.refused_eq, hrefused, if_neg nofun, if_pos hlen]
  exact ⟨_, _, rfl⟩

theorem arrowKey_cases {c : UInt8} {key : Key UInt8} (h : arrowKey c = some key) :
    (c = 0x41 ∧ key = .up) ∨ (c = 0x42 ∧ key = .down) ∨ (c = 0x43 ∧ key = .right) ∨
      (c = 0x44 ∧ key = .left) := by
  unfold arrowKey at h
  split at h
  · exact .inl ⟨by assumption, (Option.some.inj h).symm⟩
  split at h
  · exact .inr (.inl ⟨by assumption, (Option.some.inj h).symm⟩)
  split at h
  · exact .inr (.inr (.inl ⟨by assumption, (Option.some.inj h).symm⟩))
  split at h
  · exact .inr (.inr (.inr ⟨by assumption, (Option.some.inj h).symm⟩))
  · exact absurd h nofun

theorem arrowKey_ne_enter {c : UInt8} : arrowKey c ≠ some .enter := by
  intro h
  rcases arrowKey_cases h with ⟨-, hkey⟩ | ⟨-, hkey⟩ | ⟨-, hkey⟩ | ⟨-, hkey⟩
  · exact absurd hkey nofun
  · exact absurd hkey nofun
  · exact absurd hkey nofun
  · exact absurd hkey nofun

theorem read_ne_enter (reader : KeyReader) {c : UInt8} (hcr : c ≠ 0x0D) (hlf : c ≠ 0x0A) :
    (reader.read c).1 ≠ some .enter := by
  unfold KeyReader.read
  rw [decide_eq_false hlf, decide_eq_false hcr, Bool.false_and, Bool.false_or, if_neg nofun,
    if_neg nofun]
  cases reader.escape with
  | gotBracket => exact arrowKey_ne_enter
  | gotEsc => exact nofun
  | none =>
    dsimp only
    split
    · exact nofun
    split
    · exact nofun
    split
    · exact nofun
    · exact nofun

theorem feedChar_performs (h : Follows config cli editor) {c : UInt8} (hcr : c ≠ 0x0D)
    (hlf : c ≠ 0x0A) (reply : CliReply) :
    Performs config
      (.pressed config.rules (editor.reader.read c).2 editor.entry (editor.reader.read c).1)
      (((editor.reader.read c).1.map (redrawKey config.rules editor.entry)).getD [])
      (cli.feedChar c reply) := by
  obtain ⟨reader, entry⟩ := editor
  obtain rfl : reader = ⟨cli.escapeState, cli.lastWasCr⟩ := by
    rw [h.escape_eq, h.lastWasCr_eq]
  have hswallowed : ¬ (c = 0x0A && cli.lastWasCr) = true := by
    rw [decide_eq_false hlf]
    exact nofun
  have hends : ¬ (c = 0x0D || c = 0x0A) = true := by
    rw [decide_eq_false hlf, decide_eq_false hcr]
    exact nofun
  unfold Cli.feedChar KeyReader.read
  simp only [if_neg hswallowed, if_neg hends]
  cases hescape : cli.escapeState with
  | gotBracket => exact escapeLetter_performs (h.reading ⟨.none, false⟩) c
  | gotEsc => exact (h.reading ⟨if c = 0x5B then .gotBracket else .none, false⟩).idle
  | none =>
    have hread := h.reading ⟨.none, false⟩
    dsimp only
    by_cases hesc : c = 0x1B
    · rw [if_pos hesc, if_pos hesc]
      exact (h.reading ⟨.gotEsc, false⟩).idle
    rw [if_neg hesc, if_neg hesc]
    by_cases hdelete : (c = 0x08 || c = 0x7F) = true
    · rw [if_pos hdelete, if_pos hdelete]
      exact (handleBackspace_edits hread.line).performs hread hread.plain.deleteLeft
    rw [if_neg hdelete, if_neg hdelete]
    by_cases hcontrol : c < 0x20
    · rw [if_pos hcontrol, if_pos hcontrol]
      exact hread.idle
    rw [if_neg hcontrol, if_neg hcontrol]
    exact insertChar_performs hread (UInt8.not_lt.mp hcontrol)

theorem feedChar_follows (h : Follows config cli editor) (c : UInt8) (reply : CliReply) :
    Follows config (cli.feedChar c reply).2 (editor.feed config.rules c).2 ∧
    Reports config.rules.depth (editor.feed config.rules c).1.toList (editor.feed config.rules c).1
      (cli.feedChar c reply).1 := by
  by_cases hend : c = 0x0D ∨ c = 0x0A
  · obtain ⟨reader, entry⟩ := editor
    obtain rfl : reader = ⟨cli.escapeState, cli.lastWasCr⟩ := by
      rw [h.escape_eq, h.lastWasCr_eq]
    unfold Cli.feedChar ListEditor.feed KeyReader.read
    dsimp only
    by_cases hlf : (c = 0x0A && cli.lastWasCr) = true
    · rw [if_pos hlf, if_pos hlf]
      exact ⟨h.reading ⟨cli.escapeState, false⟩, writesOnly_nil.reports _ _⟩
    · have hends : (c = 0x0D || c = 0x0A) = true := by
        rwa [Bool.or_eq_true, decide_eq_true_eq, decide_eq_true_eq]
      rw [if_neg hlf, if_neg hlf, if_pos hends, if_pos hends]
      exact endOfLine_follows (h.reading ⟨.none, c = 0x0D⟩) rfl reply
  · obtain ⟨hcr, hlf⟩ := not_or.mp hend
    obtain ⟨hfollows, hreports, -⟩ := feedChar_performs h hcr hlf reply
    have hne := read_ne_enter editor.reader hcr hlf
    unfold ListEditor.feed
    generalize editor.reader.read c = read at hfollows hne
    obtain ⟨key, reader⟩ := read
    cases key with
    | none => exact ⟨hfollows, hreports⟩
    | some key =>
      dsimp only
      rw [Entry.press_submits key fun henter => hne (congrArg some henter)]
      exact ⟨hfollows, hreports⟩

theorem feedChar_executed (h : Follows config cli editor) {c : UInt8} {reply : CliReply} {text : Bytes}
    (hexecuted : executedLines (cli.feedChar c reply).1 = [text]) :
    (editor.entry.refused = false ∧ editor.entry.line.text ≠ [] ∧ editor.entry.line.text = text) ∧
      cli.feedChar c reply =
        { cli with lastWasCr := c = 0x0D, escapeState := .none }.handleEndOfLine reply := by
  obtain ⟨-, hreports⟩ := feedChar_follows h c reply
  have hsubmitted : (editor.feed config.rules c).1 = some text :=
    Option.toList_eq_singleton_iff.mp (hreports.executed_eq.symm.trans hexecuted)
  by_cases hend : c = 0x0D ∨ c = 0x0A
  · obtain ⟨reader, entry⟩ := editor
    obtain rfl : reader = ⟨cli.escapeState, cli.lastWasCr⟩ := by
      rw [h.escape_eq, h.lastWasCr_eq]
    unfold ListEditor.feed KeyReader.read at hsubmitted
    unfold Cli.feedChar
    dsimp only at hsubmitted ⊢
    by_cases hlf : (c = 0x0A && cli.lastWasCr) = true
    · rw [if_pos hlf] at hsubmitted
      cases hsubmitted
    · have hends : (c = 0x0D || c = 0x0A) = true := by
        rwa [Bool.or_eq_true, decide_eq_true_eq, decide_eq_true_eq]
      rw [if_neg hlf, if_pos hends] at hsubmitted
      rw [if_neg hlf, if_pos hends]
      exact ⟨Entry.enter_eq_some_iff.mp hsubmitted, rfl⟩
  · obtain ⟨hcr, hlf⟩ := not_or.mp hend
    have hnone := (feedChar_performs h hcr hlf reply).reports.executed_eq
    rw [hexecuted] at hnone
    cases hnone

theorem cliCheck_ok {config : CliConfig} (h : cliCheck config = .ok) :
    2 ≤ (config.lineBuffer.map List.length).getD 0 ∧
    ∀ buffer, config.historyBuffer = some buffer →
      2 ≤ config.historyEntrySize ∧ config.historyEntrySize ≤ buffer.length ∧ config.echo = true := by
  unfold cliCheck at h
  split at h
  · exact absurd h nofun
  rename_i hargs
  refine ⟨by omega, fun buffer hbuffer => ?_⟩
  rw [hbuffer] at h
  dsimp only at h
  split at h
  · exact absurd h nofun
  split at h
  · exact absurd h nofun
  rename_i hsizes hecho
  exact ⟨by omega, by omega, by simpa using hecho⟩

theorem cliInit_follows {config : CliConfig} (hinit : cliInit config = (.ok, some cli)) :
    Follows config cli .start := by
  unfold cliInit at hinit
  dsimp only at hinit
  split at hinit
  · exact absurd (congrArg Prod.snd hinit) nofun
  rename_i hok
  obtain ⟨hline, hhistory⟩ := cliCheck_ok (not_not.mp hok)
  obtain rfl := Option.some.inj (congrArg Prod.snd hinit)
  have hsize : (config.lineBuffer.map List.length).getD 0 = (config.lineBuffer.getD []).length := by
    cases config.lineBuffer with
    | none => rfl
    | some buffer => rfl
  change Follows config _ ⟨⟨.none, false⟩, Entry.fresh []⟩
  refine resetLine_follows ⟨hsize, ?_, rfl, rfl, rfl, rfl⟩ ⟨?_, ?_, ?_, ?_, ?_⟩ nofun
  · rw [hsize] at hline
    exact hline
  · cases config.historyBuffer with
    | none => exact (Nat.zero_mul _).le
    | some buffer => exact Nat.div_mul_le_self _ _
  · intro hdepth
    cases hbuffer : config.historyBuffer with
    | none =>
      rw [hbuffer] at hdepth
      exact absurd rfl hdepth
    | some buffer => exact (hhistory buffer hbuffer).1
  · exact fun _ => (Nat.zero_mod _).symm
  · exact (Nat.min_zero _).symm
  · exact fun i _ hlt => absurd hlt (Nat.not_lt_zero i)

end follows

section runs

def Cli.step (cli : Cli) (input : UInt8 × CliReply) : List CliEvent × Cli :=
  cli.feedChar input.1 input.2

def ListEditor.step (rules : Rules UInt8) (editor : ListEditor) (input : UInt8 × CliReply) :
    Option Bytes × ListEditor := editor.feed rules input.1

theorem run_follows {config : CliConfig} {cli : Cli} {editor : ListEditor} (h : Follows config cli editor)
    (inputs : List (UInt8 × CliReply)) :
    List.Forall₂ (fun events line => Reports config.rules.depth line.toList line events)
      (run Cli.step cli inputs).1 (run (ListEditor.step config.rules) editor inputs).1 ∧
    Follows config (run Cli.step cli inputs).2 (run (ListEditor.step config.rules) editor inputs).2 := by
  have hstep : ∀ (cli : Cli) (editor : ListEditor) (input : UInt8 × CliReply),
      Follows config cli editor →
      Reports config.rules.depth (editor.step config.rules input).1.toList (editor.step config.rules input).1
        (cli.step input).1 ∧
      Follows config (cli.step input).2 (editor.step config.rules input).2 :=
    fun _ _ input h => (feedChar_follows h input.1 input.2).symm
  exact run_simulates hstep cli editor inputs h

theorem silent_reports {depth : ℕ} {answers : List (List CliEvent)} {lines : List (Option Bytes)}
    (h : List.Forall₂ (fun events line => Reports depth line.toList line events) answers lines)
    (hnone : ∀ line ∈ lines, line = none) :
    ∀ events ∈ answers, executedLines events = [] ∧ handedLines events = [] := by
  induction h with
  | nil => exact nofun
  | cons hreports _ ih =>
    intro events hmem
    rcases List.mem_cons.mp hmem with rfl | htail
    · rw [hnone _ (List.mem_cons_self ..)] at hreports
      refine ⟨hreports.executed_eq, List.eq_nil_iff_forall_not_mem.mpr fun line hline => ?_⟩
      exact absurd (hreports.handed line hline) nofun
    · exact ih (fun line hline => hnone line (List.mem_cons_of_mem _ hline)) events htail

/-- The bytes of an arrow key. -/
def arrowBytes (letter : UInt8) : Bytes := [0x1B, 0x5B, letter]

theorem feed_arrow (rules : Rules UInt8) {letter : UInt8} {key : Key UInt8}
    (hkey : arrowKey letter = some key) {editor : ListEditor} (hescape : editor.reader.escape = .none) :
    (((editor.feed rules 0x1B).2.feed rules 0x5B).2.feed rules letter).2 =
      ⟨⟨.none, false⟩, (editor.entry.press rules key).2⟩ := by
  obtain ⟨⟨escape, lastWasCr⟩, entry⟩ := editor
  obtain rfl : escape = .none := hescape
  rcases arrowKey_cases hkey with ⟨rfl, rfl⟩ | ⟨rfl, rfl⟩ | ⟨rfl, rfl⟩ | ⟨rfl, rfl⟩
  · rfl
  · rfl
  · rfl
  · rfl

theorem feed_arrows (rules : Rules UInt8) (arrows : List (UInt8 × Key UInt8))
    (harrows : ∀ arrow ∈ arrows, arrowKey arrow.1 = some arrow.2) {editor : ListEditor}
    (hescape : editor.reader.escape = .none) (inputs : List (UInt8 × CliReply))
    (hinputs : inputs.map Prod.fst = arrows.flatMap fun arrow => arrowBytes arrow.1) :
    (run (ListEditor.step rules) editor inputs).2.entry =
      editor.entry.pressAll rules (arrows.map Prod.snd) := by
  induction arrows generalizing editor inputs with
  | nil =>
    obtain rfl := List.map_eq_nil_iff.mp hinputs
    rfl
  | cons arrow arrows ih =>
    rw [List.flatMap_cons] at hinputs
    obtain ⟨esc, inputs, rfl, hesc, hinputs⟩ := List.map_eq_cons_iff.mp hinputs
    obtain ⟨bracket, inputs, rfl, hbracket, hinputs⟩ := List.map_eq_cons_iff.mp hinputs
    obtain ⟨letter, inputs, rfl, hletter, hinputs⟩ := List.map_eq_cons_iff.mp hinputs
    have hfed := feed_arrow rules (harrows arrow (List.mem_cons_self ..)) hescape
    have hnext : (⟨⟨.none, false⟩, (editor.entry.press rules arrow.2).2⟩ : ListEditor).reader.escape =
        .none := rfl
    have hrest := ih (fun other hmem => harrows other (List.mem_cons_of_mem _ hmem)) hnext inputs hinputs
    rw [run_cons, run_cons, run_cons]
    change (run (ListEditor.step rules) (((editor.feed rules esc.1).2.feed rules bracket.1).2.feed
      rules letter.1).2 inputs).2.entry = _
    rw [hesc, hbracket, hletter, hfed]
    exact hrest

theorem feed_refused (rules : Rules UInt8) {editor : ListEditor} (hrefused : editor.entry.refused = true) (c : UInt8) :
    (editor.feed rules c).1 = none ∧
    (editor.feed rules c).2.entry.recorded = editor.entry.recorded ∧
    (c ≠ 0x0D ∧ c ≠ 0x0A → (editor.feed rules c).2.entry.refused = true) := by
  unfold ListEditor.feed
  cases hread : editor.reader.read c with
  | mk key reader =>
    cases key with
    | none => exact ⟨rfl, rfl, fun _ => hrefused⟩
    | some key =>
      dsimp only
      by_cases henter : key = .enter
      · subst henter
        change editor.entry.enter.1 = none ∧ editor.entry.enter.2.recorded = _ ∧ _
        rw [Entry.enter_refused hrefused]
        refine ⟨rfl, rfl, fun hopen => ?_⟩
        have hne := read_ne_enter editor.reader hopen.1 hopen.2
        rw [hread] at hne
        exact absurd rfl hne
      · exact ⟨Entry.press_submits key henter, Entry.press_recorded key henter,
          fun _ => Entry.press_refused hrefused key henter⟩

/-- A line that was refused a character submits nothing, whatever is typed until it ends. -/
theorem run_refused (rules : Rules UInt8) {editor : ListEditor} (hrefused : editor.entry.refused = true)
    (inputs : List (UInt8 × CliReply)) (hopen : ∀ input ∈ inputs, input.1 ≠ 0x0D ∧ input.1 ≠ 0x0A)
    (last : UInt8 × CliReply) :
    (∀ line ∈ (run (ListEditor.step rules) editor (inputs ++ [last])).1, line = none) ∧
    (run (ListEditor.step rules) editor (inputs ++ [last])).2.entry.recorded =
      editor.entry.recorded := by
  induction inputs generalizing editor with
  | nil =>
    obtain ⟨hnone, hrecorded, -⟩ := feed_refused rules hrefused last.1
    exact ⟨fun line hmem => List.mem_singleton.mp hmem ▸ hnone, hrecorded⟩
  | cons input inputs ih =>
    obtain ⟨hnone, hrecorded, hstill⟩ := feed_refused rules hrefused input.1
    obtain ⟨hlines, hrest⟩ := ih (hstill (hopen input (List.mem_cons_self ..)))
      fun other hmem => hopen other (List.mem_cons_of_mem _ hmem)
    refine ⟨fun line hmem => ?_, hrest.trans hrecorded⟩
    rcases List.mem_cons.mp hmem with rfl | htail
    · exact hnone
    · exact hlines line htail

end runs

/-- The line as far as it was typed. -/
def Cli.text (cli : Cli) : Bytes := cli.line.take cli.lineLen

/-- What `history_recall` finds `k` lines back. -/
def Cli.recalled (cli : Cli) (k : ℕ) : Bytes :=
  stringAt cli.historyBuffer
    (cli.historySlot ((cli.historyHead + cli.historyDepth - k) % cli.historyDepth))

/-- What there is of the line and the history is what the editor of lists has. -/
structure SameLine (cli : Cli) (editor : ListEditor) : Prop where
  text_eq : cli.text = editor.entry.line.text
  cursor_eq : cli.editCursor = editor.entry.line.cursor
  cursor_le : cli.editCursor ≤ cli.lineLen
  len_lt : cli.lineLen < cli.lineSize
  refused_eq : cli.overflow = editor.entry.refused
  count_eq : cli.historyCount = min cli.historyDepth editor.entry.recorded.length
  recalled_eq : ∀ k, 0 < k → k ≤ cli.historyCount → cli.recalled k =
    (Entry.recent editor.entry.recorded k).take (cli.historyEntrySize - 1)

theorem Follows.sameLine {config : CliConfig} {cli : Cli} {editor : ListEditor}
    (h : Follows config cli editor) : SameLine cli editor where
  text_eq := by rw [Cli.text, h.line.len_eq, h.line.stored.take_eq]
  cursor_eq := h.line.cursor_eq
  cursor_le := by
    rw [h.line.cursor_eq, h.line.len_eq]
    exact Line.cursor_le _
  len_lt := by
    rw [h.line.len_eq]
    exact h.line.stored.fits
  refused_eq := h.refused_eq
  count_eq := h.remembers.count_eq
  recalled_eq := fun k hpos hk => (h.remembers.recall hpos hk).2

/-- The interpreter refines the editor of lists: whatever bytes it is fed, it has the line and the
cursor of the editor, it executes the lines that the editor submits and hands no other on, and
it uses no slot that it does not have. The arrows go back and forth in the lines recorded, and a
line that was refused a character is neither executed nor recorded. -/
theorem cli_refines_editor {config : CliConfig} {cli : Cli}
    (hinit : cliInit config = (.ok, some cli)) (inputs : List (UInt8 × CliReply)) :
    let after := run Cli.step cli
    let editor := run (ListEditor.step config.rules) .start
    let now := (after inputs).2
    SameLine now (editor inputs).2 ∧
    (now.lineSize = cli.lineSize ∧ now.historyDepth = cli.historyDepth) ∧
    List.Forall₂ (fun events line => Reports now.historyDepth line.toList line events)
      (after inputs).1 (editor inputs).1 ∧
    (∀ k j more, now.escapeState = .none → now.historyCursor < now.historyCount →
      more.map Prod.fst =
        (List.replicate (k + 1) (0x41 : UInt8) ++ List.replicate j 0x42).flatMap arrowBytes →
      (after (inputs ++ more)).2.text =
        (Entry.recent (editor inputs).2.entry.recorded
          (min (now.historyCursor + (k + 1)) now.historyCount - j)).take
            (now.historyEntrySize - 1)) ∧
    (∀ more last, now.overflow = true → (∀ input ∈ more, input.1 ≠ 0x0D ∧ input.1 ≠ 0x0A) →
      (∀ events ∈ (run Cli.step now (more ++ [last])).1,
        executedLines events = [] ∧ handedLines events = []) ∧
      (editor (inputs ++ more ++ [last])).2.entry.recorded =
        (editor inputs).2.entry.recorded) := by
  intro after editor now
  obtain ⟨hreports, hnow⟩ := run_follows (cliInit_follows hinit) inputs
  have hrules := (cliInit_follows hinit).setUp
  refine ⟨hnow.sameLine, ⟨?_, ?_⟩, hnow.setUp.depth_eq ▸ hreports, ?_, ?_⟩
  · have hfirst := hrules.capacity_eq.symm.trans hnow.setUp.capacity_eq
    have htwo := hrules.two_le
    have htwo' := hnow.setUp.two_le
    change (run Cli.step cli inputs).2.lineSize = cli.lineSize
    omega
  · exact hnow.setUp.depth_eq.symm.trans hrules.depth_eq
  · intro k j more hescape hback hmore
    obtain ⟨-, hlater⟩ := run_follows (cliInit_follows hinit) (inputs ++ more)
    have hback' : (editor inputs).2.entry.back < (editor inputs).2.entry.reach config.rules := by
      rw [hnow.reach_eq, ← hnow.back_eq]
      exact hback
    have harrows : ∀ arrow ∈ List.replicate (k + 1) ((0x41 : UInt8), Key.up) ++
        List.replicate j ((0x42 : UInt8), Key.down), arrowKey arrow.1 = some arrow.2 := by
      intro arrow hmem
      rcases List.mem_append.mp hmem with hup | hdown
      · rw [(List.mem_replicate.mp hup).2]
        rfl
      · rw [(List.mem_replicate.mp hdown).2]
        rfl
    have hpressed := feed_arrows config.rules _ harrows (hnow.escape_eq ▸ hescape) more (by
      rw [hmore]
      simp only [List.flatMap_append, List.flatMap_replicate])
    rw [List.map_append, List.map_replicate, List.map_replicate, Entry.pressAll_browse hback' k j,
      hnow.reach_eq, ← hnow.back_eq] at hpressed
    rw [run_append (ListEditor.step config.rules)] at hlater
    rw [hlater.sameLine.text_eq, hpressed, Entry.goBack, Line.text_atEnd, hnow.setUp.cut_eq]
  · intro more last hoverflow hopen
    have hrefused : (editor inputs).2.entry.refused = true := hnow.refused_eq ▸ hoverflow
    obtain ⟨hlines, hrecorded⟩ := run_refused config.rules hrefused more hopen last
    obtain ⟨hlater, -⟩ := run_follows hnow (more ++ [last])
    refine ⟨silent_reports hlater hlines, ?_⟩
    · change (run (ListEditor.step config.rules) .start (inputs ++ more ++ [last])).2.entry.recorded = _
      rw [List.append_assoc, run_append]
      exact hrecorded

/-- A line of three characters, and two lines of history as long. -/
def smallConfig : CliConfig where
  commands := none
  commandCount := 0
  lineBuffer := some [0, 0, 0, 0]
  prompt := none
  echo := true
  enableHelp := false
  lineFilter := true
  historyBuffer := some [0, 0, 0, 0, 0, 0, 0, 0]
  historyEntrySize := 4
  rawLinePrefix := 0x3A

/-- These bytes, fed to an application that does nothing. -/
def fedBytes (bytes : Bytes) : List (UInt8 × CliReply) :=
  bytes.map fun c => (c, ⟨false, [], 0, [], fun _ => 0⟩)

/-- Two characters, and a third between them. -/
theorem cli_refines_editor_inserted : ∃ cli, cliInit smallConfig = (.ok, some cli) ∧
    (run Cli.step cli (fedBytes ([0x61, 0x62] ++ arrowBytes 0x44 ++ [0x63]))).2.text =
      [0x61, 0x63, 0x62] :=
  have hinit : cliInit smallConfig = (.ok, some _) := rfl
  ⟨_, rfl, (cli_refines_editor hinit _).1.text_eq.trans (by decide)⟩

end Pico
