import PicoFramework.Lib.Terminal
import PicoFramework.Proofs.CliEditor

/-! What the interpreter echoes, on a terminal: after every byte of a line that is echoed the row
shows the line in the buffer, with the cursor where it is edited. -/

namespace Pico

open Lib.LineEditor Lib.Run Lib.Terminal

/-- A byte on the terminal: every byte takes a column, but for the backspace. -/
def showByte (row : Row UInt8) (c : UInt8) : Row UInt8 := if c = 0x08 then row.back else row.put c

def display (bytes : Bytes) (row : Row UInt8) : Row UInt8 := bytes.foldl showByte row

/-- From column `start` on the row shows the line, and the cursor is where the line is edited. -/
def OnRow (row : Row UInt8) (start : ℕ) (l : Line UInt8) : Prop :=
  row.Shows 0x20 start l.text l.cursor

section display

theorem display_append (bytes more : Bytes) (row : Row UInt8) :
    display (bytes ++ more) row = display more (display bytes row) := List.foldl_append

theorem display_plain {text : Bytes} (h : Plain text) (row : Row UInt8) :
    display text row = row.puts text := by
  induction text generalizing row with
  | nil => rfl
  | cons c text ih =>
    have hc : c ≠ 0x08 := by
      rintro rfl
      exact absurd (h 0x08 (List.mem_cons_self ..)) (by decide)
    have hshow : showByte row c = row.put c := if_neg hc
    change display text (showByte row c) = (row.put c).puts text
    rw [hshow]
    exact ih (fun d hd => h d (List.mem_cons_of_mem _ hd)) _

theorem display_backs (n : ℕ) (row : Row UInt8) :
    display (List.replicate n 0x08) row = row.backs n := by
  induction n generalizing row with
  | zero => rfl
  | succ n ih => exact ih row.back

end display

section redraw

variable {row : Row UInt8} {start : ℕ} {l : Line UInt8}

theorem OnRow.snoc {before after : Bytes} {c : UInt8} (h : OnRow row start ⟨before ++ [c], after⟩) :
    row.Shows 0x20 start (before ++ c :: after) (before.length + 1) := by
  unfold OnRow at h
  simpa only [Line.text, Line.cursor, List.append_assoc, List.singleton_append, List.length_append,
    List.length_singleton] using h

theorem redrawDelete_shows (h : OnRow row start l) (hplain : Plain l.text) :
    OnRow (display (redrawDelete l) row) start l.deleteLeft := by
  obtain ⟨before, after⟩ := l
  rcases List.eq_nil_or_concat' before with rfl | ⟨before, c, rfl⟩
  · exact h
  have htail : Plain (after ++ [0x20]) := by
    intro d hd
    rcases List.mem_append.mp hd with hafter | hblank
    · exact hplain d (List.mem_append_right _ hafter)
    · rw [List.mem_singleton.mp hblank]
      exact UInt8.le_refl _
  have hover := (Row.Shows.back h.snoc).puts_over (after ++ [0x20]) (by simp)
  rw [← List.append_assoc] at hover
  have hblanked := Row.Shows.blank_iff.mp hover
  rw [List.length_append, List.length_singleton] at hblanked
  rw [Line.deleteLeft_snoc, redrawDelete, if_neg (by simp), List.append_assoc [0x08],
    display_append, display_append, display_plain htail, display_backs]
  exact hblanked.backs _

theorem redrawLeft_shows (h : OnRow row start l) :
    OnRow (display (redrawLeft l) row) start l.left := by
  obtain ⟨before, after⟩ := l
  rcases List.eq_nil_or_concat' before with rfl | ⟨before, c, rfl⟩
  · exact h
  rw [Line.left_snoc, redrawLeft, if_neg (by simp)]
  exact Row.Shows.back h.snoc

theorem redrawRight_shows (h : OnRow row start l) (hplain : Plain l.text) :
    OnRow (display (redrawRight l) row) start l.right := by
  obtain ⟨before, after⟩ := l
  cases after with
  | nil =>
    rw [Line.right_nil]
    exact h
  | cons c rest =>
    have hshows : row.Shows 0x20 start (before ++ c :: rest) before.length := h
    have hput := hshows.put c
    have hc : Plain [c] := fun d hd =>
      hplain d (List.mem_append_right _ (List.mem_singleton.mp hd ▸ List.mem_cons_self ..))
    change OnRow (display [c] row) start _
    rw [display_plain hc, Line.right_cons, OnRow, Line.text, Line.cursor, List.append_assoc,
      List.length_append]
    exact hput

theorem redrawInsert_shows {c : UInt8} (h : OnRow row start l) (hplain : Plain (l.insert c).text) :
    OnRow (display (redrawInsert c l) row) start (l.insert c) := by
  rw [Line.text_insert] at hplain
  have htail : Plain (c :: l.after) := fun d hd => hplain d (List.mem_append_right _ hd)
  have hshows : row.Shows 0x20 start (l.before ++ l.after) l.before.length := h
  have hover := hshows.puts_over (c :: l.after) (by rw [List.length_cons]; omega)
  rw [List.length_cons, Nat.add_comm l.after.length 1, ← Nat.add_assoc] at hover
  rw [redrawInsert, display_append, display_plain htail, display_backs, OnRow, Line.text_insert,
    Line.cursor, Line.insert, List.length_append, List.length_singleton]
  exact hover.backs _

theorem erase_shows {text : Bytes} (h : row.Shows 0x20 start text text.length) :
    (display (List.replicate text.length [0x08, 0x20, 0x08]).flatten row).Shows 0x20 start [] 0 := by
  induction text using List.reverseRecOn generalizing row with
  | nil => exact h
  | append_singleton text c ih =>
    rw [List.length_append, List.length_singleton] at h
    rw [List.length_append, List.length_singleton, List.replicate_succ, List.flatten_cons,
      display_append]
    exact ih h.erase

theorem redrawReplace_shows {text : Bytes} (h : OnRow row start l) (hplain : Plain l.text)
    (htext : Plain text) : OnRow (display (redrawReplace text l) row) start (.atEnd text) := by
  have htail : Plain l.after := fun d hd => hplain d (List.mem_append_right _ hd)
  have hshows : row.Shows 0x20 start (l.before ++ l.after) l.before.length := h
  have hend := hshows.puts_over l.after le_rfl
  rw [← List.length_append] at hend
  change Row.Shows 0x20 (row.puts l.after) start l.text l.text.length at hend
  have herased := erase_shows hend
  rw [redrawReplace, display_append, display_append, display_plain htail, display_plain htext, OnRow,
    Line.text_atEnd, Line.cursor_atEnd]
  have hwritten := Row.Shows.puts_end text herased
  rwa [List.nil_append, List.length_nil, Nat.zero_add] at hwritten

theorem redrawKey_shows (rules : Rules UInt8) (hrefuses : rules.overfull = fun _ l => l)
    {e : Entry UInt8} (key : Key UInt8) (hkey : key ≠ .enter) (h : OnRow row start e.line)
    (hplain : Plain e.line.text) (hpressed : Plain (e.press rules key).2.line.text) :
    OnRow (display (redrawKey rules e key) row) start (e.press rules key).2.line := by
  cases key with
  | char c =>
    change Plain (e.typed rules c).line.text at hpressed
    change OnRow (display (if _ then _ else _) row) start (e.typed rules c).line
    unfold Entry.typed at hpressed ⊢
    dsimp only at hpressed ⊢
    split
    · rename_i hfits
      rw [if_pos hfits] at hpressed
      exact redrawInsert_shows h hpressed
    · rw [hrefuses]
      exact h
  | deleteLeft => exact redrawDelete_shows h hplain
  | left => exact redrawLeft_shows h
  | right => exact redrawRight_shows h hplain
  | up =>
    change Plain (Entry.line (if _ then _ else _)).text at hpressed
    change OnRow (display (if _ then _ else _) row) start (Entry.line (if _ then _ else _))
    split
    · rename_i hback
      rw [if_pos hback, Entry.goBack, Line.text_atEnd] at hpressed
      exact redrawReplace_shows h hplain hpressed
    · exact h
  | down =>
    change Plain (Entry.line (if _ then _ else _)).text at hpressed
    change OnRow (display (if _ then _ else _) row) start (Entry.line (if _ then _ else _))
    split
    · exact h
    · rename_i hback
      rw [if_neg hback, Entry.goBack, Line.text_atEnd] at hpressed
      exact redrawReplace_shows h hplain hpressed
  | enter => exact absurd rfl hkey

end redraw

/-- A row with nothing from the cursor on, as a line ending leaves it: whatever a command and the
prompt have put to the left. -/
structure BlankRow where
  row : Row UInt8
  blank : ∀ i, row.cells (row.cursor + i) = 0x20

/-- An interpreter, the row it writes on, and the column where the line started. -/
structure Console where
  cli : Cli
  row : Row UInt8
  start : ℕ

/-- The byte ends the line being typed; the LF of CR LF does not. -/
def Cli.endsLine (cli : Cli) (c : UInt8) : Bool := c = 0x0D || (c = 0x0A && !cli.lastWasCr)

def Console.begin (cli : Cli) (blank : BlankRow) : Console := ⟨cli, blank.row, blank.row.cursor⟩

/-- A byte fed: its echo is displayed, or the line ends and the next one starts on a blank row. -/
def Console.step (console : Console) (input : UInt8 × CliReply × BlankRow) : Console :=
  let fed := console.cli.feedChar input.1 input.2.1
  if console.cli.endsLine input.1 then .begin fed.2 input.2.2
  else ⟨fed.2, display (written fed.1) console.row, console.start⟩

/-- The row shows the line of the editor, if the line is echoed. -/
structure Mirrors (config : CliConfig) (console : Console) (editor : ListEditor) : Prop where
  follows : Follows config console.cli editor
  onRow : editor.entry.isQuiet = false → OnRow console.row console.start editor.entry.line

section console

variable {config : CliConfig} {console : Console} {editor : ListEditor}

theorem mirrors_begin {cli : Cli} (h : Follows config cli editor)
    (hline : editor.entry.line = .empty) (blank : BlankRow) :
    Mirrors config (.begin cli blank) editor where
  follows := h
  onRow := by
    intro _
    rw [hline]
    exact ⟨blank.blank, rfl⟩

theorem Mirrors.type (h : Mirrors config console editor) (hecho : config.echo = true) {c : UInt8}
    (hcr : c ≠ 0x0D) (hlf : c ≠ 0x0A) (reply : CliReply) :
    ∃ editor', Mirrors config ⟨(console.cli.feedChar c reply).2,
      display (written (console.cli.feedChar c reply).1) console.row, console.start⟩ editor' := by
  obtain ⟨hfollows, hreports, hwritten⟩ := feedChar_performs h.follows hcr hlf reply
  have hne := read_ne_enter editor.reader hcr hlf
  generalize editor.reader.read c = read at hfollows hwritten hne
  obtain ⟨key, reader⟩ := read
  refine ⟨_, hfollows, fun hloud => ?_⟩
  have hshould : (console.cli.feedChar c reply).2.shouldEcho = true := by
    rw [Cli.shouldEcho, ← hfollows.setUp.echo_eq, hecho, hfollows.quiet_eq, hloud]
    rfl
  rw [hwritten, hshould, if_pos rfl]
  cases key with
  | none => exact h.onRow hloud
  | some key =>
    have hkey : key ≠ .enter := fun henter => hne (congrArg some henter)
    have hbefore := h.onRow (Entry.press_isQuiet key hkey hloud)
    exact redrawKey_shows config.rules rfl key hkey hbefore h.follows.plain hfollows.plain

theorem feed_swallowed (h : Follows config console.cli editor) {c : UInt8} (hlf : c = 0x0A)
    (hcr : console.cli.lastWasCr = true) (reply : CliReply) :
    (console.cli.feedChar c reply).1 = [] ∧ (editor.feed config.rules c).2.entry = editor.entry := by
  subst hlf
  have hreader := h.lastWasCr_eq.symm.trans hcr
  constructor
  · unfold Cli.feedChar
    rw [hcr]
    rfl
  · unfold ListEditor.feed KeyReader.read
    rw [hreader]
    rfl

theorem feed_ends (h : Follows config console.cli editor) {c : UInt8}
    (hends : console.cli.endsLine c = true) :
    (editor.feed config.rules c).2.entry.line = .empty := by
  unfold Cli.endsLine at hends
  rw [Bool.or_eq_true, Bool.and_eq_true, decide_eq_true_eq, decide_eq_true_eq, Bool.not_eq_true',
    h.lastWasCr_eq] at hends
  unfold ListEditor.feed KeyReader.read
  rcases hends with rfl | ⟨rfl, hfirst⟩
  · exact Entry.enter_line
  · rw [hfirst]
    exact Entry.enter_line

theorem Mirrors.step (h : Mirrors config console editor) (hecho : config.echo = true)
    (input : UInt8 × CliReply × BlankRow) : ∃ editor', Mirrors config (console.step input) editor' := by
  obtain ⟨c, reply, blank⟩ := input
  unfold Console.step
  dsimp only
  by_cases hend : c = 0x0D ∨ c = 0x0A
  · obtain ⟨hfollows, -⟩ := feedChar_follows h.follows c reply
    by_cases hends : console.cli.endsLine c = true
    · rw [if_pos hends]
      exact ⟨_, mirrors_begin hfollows (feed_ends h.follows hends) blank⟩
    · have hlast : c = 0x0A ∧ console.cli.lastWasCr = true := by
        rw [Cli.endsLine, Bool.or_eq_true, Bool.and_eq_true, decide_eq_true_eq, decide_eq_true_eq,
          Bool.not_eq_true', not_or, not_and, Bool.not_eq_false] at hends
        have hlf := hend.resolve_left hends.1
        exact ⟨hlf, hends.2 hlf⟩
      obtain ⟨hevents, hentry⟩ := feed_swallowed h.follows hlast.1 hlast.2 reply
      rw [if_neg hends, hevents]
      refine ⟨_, hfollows, ?_⟩
      rw [hentry]
      exact h.onRow
  · obtain ⟨hcr, hlf⟩ := not_or.mp hend
    have hopen : ¬ console.cli.endsLine c = true := by
      rw [Cli.endsLine, decide_eq_false hcr, decide_eq_false hlf]
      exact nofun
    rw [if_neg hopen]
    exact h.type hecho hcr hlf reply

end console

/-- With echo on, the row mirrors the line buffer of every line that is not a raw one. -/
theorem cli_mirrors_line {config : CliConfig} {cli : Cli} (hinit : cliInit config = (.ok, some cli))
    (hecho : config.echo = true) (first : BlankRow) (inputs : List (UInt8 × CliReply × BlankRow))
    {now : Console} (hnow : inputs.foldl Console.step (.begin cli first) = now)
    (hraw : now.cli.lineIsRaw = false) :
    (∀ i, now.row.cells (now.start + i) = now.cli.text.getD i 0x20) ∧
    now.row.cursor = now.start + now.cli.editCursor := by
  have hstep : ∀ (console : Console) (input : UInt8 × CliReply × BlankRow),
      (∃ editor, Mirrors config console editor) →
      ∃ editor, Mirrors config (console.step input) editor :=
    fun _ input ⟨_, h⟩ => h.step hecho input
  obtain ⟨editor, hfollows, honRow⟩ := foldl_invariant hstep inputs
    ⟨_, mirrors_begin (cliInit_follows hinit) rfl first⟩
  rw [hnow] at hfollows honRow
  obtain ⟨hcells, hcursor⟩ := honRow (hfollows.quiet_eq.symm.trans hraw)
  rw [hfollows.sameLine.text_eq, hfollows.sameLine.cursor_eq]
  exact ⟨hcells, hcursor⟩

def emptyRow : BlankRow := ⟨⟨fun _ => 0x20, 0⟩, fun _ => rfl⟩

/-- Two characters and one step to the left. -/
def twoTyped : List (UInt8 × CliReply × BlankRow) :=
  (fedBytes ([0x61, 0x62] ++ arrowBytes 0x44)).map fun input => (input.1, input.2, emptyRow)

theorem cli_mirrors_line_two : ∃ cli, cliInit smallConfig = (.ok, some cli) ∧
    ∃ now, twoTyped.foldl Console.step (.begin cli emptyRow) = now ∧
    now.row.cells (now.start + 1) = 0x62 ∧ now.row.cursor = now.start + 1 := by
  refine ⟨_, rfl, _, rfl, ?_⟩
  have hinit : cliInit smallConfig = (.ok, some _) := rfl
  obtain ⟨hcells, hcursor⟩ := cli_mirrors_line hinit rfl emptyRow twoTyped rfl (by decide)
  exact ⟨(hcells 1).trans (by decide), hcursor.trans (by decide)⟩

end Pico
