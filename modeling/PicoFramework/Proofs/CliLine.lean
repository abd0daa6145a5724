import PicoFramework.Lib.LineEditor
import PicoFramework.Spec.Cli

/-! The line buffer of the interpreter: each editing function does to the line in the buffer
what the editor of lists does, and writes what redraws it. -/

namespace Pico

open Lib.LineEditor Lib.Splice

/-- The buffer starts with the text, and has room for its terminator. -/
structure Stored (memory : Bytes) (size : ℕ) (text : Bytes) : Prop where
  length_eq : memory.length = size
  take_eq : memory.take text.length = text
  fits : text.length < size

section stored

variable {memory : Bytes} {size : ℕ} {before after text : Bytes} {c : UInt8}

theorem Stored.take_before (h : Stored memory size (before ++ after)) : memory.take before.length = before := by
  have htake := congrArg (List.take before.length) h.take_eq
  rwa [List.take_take, List.length_append, Nat.min_eq_left (by omega), List.take_left] at htake

theorem Stored.span_after (h : Stored memory size (before ++ after)) :
    span memory before.length after.length = after := by
  have hdrop := congrArg (List.drop before.length) h.take_eq
  rwa [List.drop_take, List.length_append, Nat.add_sub_cancel_left, List.drop_left] at hdrop

theorem Stored.span_one (h : Stored memory size (before ++ c :: after)) :
    span memory before.length 1 = [c] := by
  have hspan := congrArg (List.take 1) h.span_after
  rwa [span, List.take_take, List.length_cons, Nat.min_eq_left (by omega), List.take_succ_cons,
    List.take_zero] at hspan

theorem Stored.set_end (h : Stored memory size text) (i : ℕ) (hi : text.length ≤ i) :
    Stored (memory.set i c) size text where
  length_eq := by rw [List.length_set, h.length_eq]
  take_eq := by rw [List.take_set_of_le hi, h.take_eq]
  fits := h.fits

theorem Stored.delete (h : Stored memory size (before ++ c :: after)) :
    Stored (move memory before.length (before.length + 1) after.length) size (before ++ after) := by
  have hfits := h.fits
  have hlength := h.length_eq
  rw [List.length_append, List.length_cons] at hfits
  have htail : span memory (before.length + 1) after.length = after := by
    have hsplit : Stored memory size ((before ++ [c]) ++ after) := by rwa [List.append_assoc]
    have hspan := hsplit.span_after
    rwa [List.length_append] at hspan
  have hreplace := take_replace memory before.length 1 after.length [] (by omega)
    (by rw [List.length_nil]; omega)
  rw [List.length_nil, Nat.add_zero, overwrite_nil, htail, h.take_before, List.append_nil] at hreplace
  refine ⟨?_, ?_, ?_⟩
  · rw [length_move _ _ _ _ (by omega) (by omega), hlength]
  · rw [List.length_append, hreplace]
  · rw [List.length_append]
    omega

theorem Stored.insert (h : Stored memory size (before ++ after))
    (hroom : (before ++ after).length + 1 < size) :
    Stored ((move memory (before.length + 1) before.length after.length).set before.length c) size
      (before ++ c :: after) := by
  have hlength := h.length_eq
  rw [List.length_append] at hroom
  have hmoved : (move memory (before.length + 1) before.length after.length).length = size := by
    rw [length_move _ _ _ _ (by omega) (by omega), hlength]
  have hset := set_eq_overwrite (move memory (before.length + 1) before.length after.length)
    before.length c (by omega)
  have hreplace := take_replace memory before.length 0 after.length [c]
    (by omega) (by rw [List.length_singleton]; omega)
  simp only [List.length_singleton, Nat.add_zero] at hreplace
  rw [h.span_after, h.take_before, ← hset] at hreplace
  refine ⟨?_, ?_, ?_⟩
  · rw [List.length_set, hmoved]
  · rw [List.length_append, List.length_cons, Nat.add_comm after.length, ← Nat.add_assoc, hreplace,
      List.append_assoc]
    rfl
  · rw [List.length_append, List.length_cons]
    omega

theorem Stored.replace (hlength : memory.length = size) (hfits : text.length < size) :
    Stored ((overwrite memory 0 text).set text.length 0) size text := by
  refine Stored.set_end ⟨?_, ?_, hfits⟩ text.length le_rfl
  · rw [length_overwrite _ _ _ (by omega), hlength]
  · rw [overwrite, List.take_zero, List.nil_append, List.take_left]

theorem takeWhile_string {rest : Bytes} (hnul : 0 ∉ text) :
    (text ++ 0 :: rest).takeWhile (· ≠ 0) = text := by
  rw [List.takeWhile_append_of_pos, List.takeWhile_cons_of_neg (by simp), List.append_nil]
  intro c hc
  rw [decide_eq_true_eq]
  rintro rfl
  exact hnul hc

theorem Stored.stringAt_eq (h : Stored memory size text) (hnul : 0 ∉ text) :
    stringAt (memory.set text.length 0) 0 = text := by
  have hlt : text.length < memory.length := h.length_eq ▸ h.fits
  unfold stringAt
  rw [List.drop_zero, List.set_eq_take_append_cons_drop, if_pos hlt, h.take_eq]
  exact takeWhile_string hnul

end stored

section written

/-- The bytes written to the stream. -/
def written (events : List CliEvent) : Bytes :=
  events.flatMap fun
    | .wrote data => data
    | _ => []

@[simp] theorem written_append (events more : List CliEvent) :
    written (events ++ more) = written events ++ written more := List.flatMap_append

@[simp] theorem written_cliWriteBytes (data : Bytes) : written (cliWriteBytes data) = data := by
  unfold cliWriteBytes
  split
  · rename_i hnil
    exact hnil.symm
  · exact List.append_nil data

theorem written_replicate (events : List CliEvent) (n : ℕ) :
    written (List.replicate n events).flatten = (List.replicate n (written events)).flatten := by
  induction n with
  | zero => rfl
  | succ n ih => rw [List.replicate_succ, List.flatten_cons, written_append, ih]; rfl

@[simp] theorem written_backspaces (n : ℕ) : written (Cli.backspaces n) = List.replicate n 0x08 := by
  unfold Cli.backspaces
  rw [written_replicate, written_cliWriteBytes]
  induction n with
  | zero => rfl
  | succ n ih => rw [List.replicate_succ, List.flatten_cons, ih]; rfl

theorem written_echoed (cli : Cli) (events : List CliEvent) :
    written (cli.echoed events) = if cli.shouldEcho then written events else [] := by
  unfold Cli.echoed
  split
  · rfl
  · rfl

/-- Nothing but writes to the stream. -/
def WritesOnly (events : List CliEvent) : Prop := ∀ event ∈ events, ∃ data, event = .wrote data

theorem WritesOnly.append {events more : List CliEvent} (h : WritesOnly events)
    (hmore : WritesOnly more) : WritesOnly (events ++ more) := by
  intro event hmem
  rcases List.mem_append.mp hmem with hleft | hright
  · exact h event hleft
  · exact hmore event hright

theorem writesOnly_nil : WritesOnly [] := nofun

theorem writesOnly_cliWriteBytes (data : Bytes) : WritesOnly (cliWriteBytes data) := by
  unfold cliWriteBytes
  split
  · exact writesOnly_nil
  · intro event hmem
    exact ⟨data, List.mem_singleton.mp hmem⟩

theorem WritesOnly.flatten_replicate {events : List CliEvent} (h : WritesOnly events) (n : ℕ) :
    WritesOnly (List.replicate n events).flatten := by
  intro event hmem
  obtain ⟨block, hblock, hin⟩ := List.mem_flatten.mp hmem
  rw [(List.mem_replicate.mp hblock).2] at hin
  exact h event hin

theorem writesOnly_backspaces (n : ℕ) : WritesOnly (Cli.backspaces n) :=
  (writesOnly_cliWriteBytes [0x08]).flatten_replicate n

theorem WritesOnly.echoed {events : List CliEvent} (h : WritesOnly events) (cli : Cli) :
    WritesOnly (cli.echoed events) := by
  unfold Cli.echoed
  split
  · exact h
  · exact writesOnly_nil

end written

/-- The interpreter with another line in its buffer. -/
def Cli.edited (cli : Cli) (memory : Bytes) (l : Line UInt8) : Cli :=
  { cli with line := memory, lineLen := l.text.length, editCursor := l.cursor }

structure HoldsLine (cli : Cli) (l : Line UInt8) : Prop where
  stored : Stored cli.line cli.lineSize l.text
  len_eq : cli.lineLen = l.text.length
  cursor_eq : cli.editCursor = l.cursor

/-- What a function of the editor returned: the line in the buffer has become another one, the
stream was written to, and nothing else has happened. -/
structure Edits (cli : Cli) (l : Line UInt8) (redraw : Bytes) (result : List CliEvent × Cli) :
    Prop where
  buffer : ∃ memory, Stored memory cli.lineSize l.text ∧ result.2 = cli.edited memory l
  writesOnly : WritesOnly result.1
  written_eq : written result.1 = if cli.shouldEcho then redraw else []

section editing

variable {cli : Cli} {l : Line UInt8}

theorem HoldsLine.of_eq {cli' : Cli} (h : HoldsLine cli l) (hline : cli'.line = cli.line)
    (hlen : cli'.lineLen = cli.lineLen) (hcursor : cli'.editCursor = cli.editCursor) :
    HoldsLine cli' l where
  stored := by
    rw [Cli.lineSize, hline]
    exact h.stored
  len_eq := hlen.trans h.len_eq
  cursor_eq := hcursor.trans h.cursor_eq

theorem HoldsLine.edited_self (h : HoldsLine cli l) : cli.edited cli.line l = cli := by
  unfold Cli.edited
  rw [← h.len_eq, ← h.cursor_eq]

theorem HoldsLine.idle (h : HoldsLine cli l) : Edits cli l [] ([], cli) where
  buffer := ⟨cli.line, h.stored, h.edited_self.symm⟩
  writesOnly := writesOnly_nil
  written_eq := by
    rw [ite_self]
    rfl

theorem edits_of {memory redraw : Bytes} {n k : ℕ} {events : List CliEvent}
    (hstored : Stored memory cli.lineSize l.text) (hlen : n = l.text.length)
    (hcursor : k = l.cursor) (honly : WritesOnly events) (hwritten : written events = redraw) :
    Edits cli l redraw
      (cli.echoed events, { cli with line := memory, lineLen := n, editCursor := k }) where
  buffer := ⟨memory, hstored, by rw [hlen, hcursor]; rfl⟩
  writesOnly := honly.echoed cli
  written_eq := by rw [written_echoed, hwritten]

theorem HoldsLine.tail_eq (h : HoldsLine cli l) : cli.lineLen - cli.editCursor = l.after.length := by
  rw [h.len_eq, h.cursor_eq, Line.text, Line.cursor, List.length_append]
  omega

/-- What redraws a line whose character left of the cursor was deleted. -/
def redrawDelete (l : Line UInt8) : Bytes :=
  if l.before = [] then []
  else [0x08] ++ l.after ++ [0x20] ++ List.replicate (l.after.length + 1) 0x08

theorem handleBackspace_edits (h : HoldsLine cli l) :
    Edits cli l.deleteLeft (redrawDelete l) cli.handleBackspace := by
  have htail := h.tail_eq
  obtain ⟨before, after⟩ := l
  rcases List.eq_nil_or_concat' before with rfl | ⟨start, c, rfl⟩
  · have hzero : cli.editCursor = 0 := h.cursor_eq
    unfold Cli.handleBackspace
    rw [if_pos hzero]
    exact h.idle
  have hstored : Stored cli.line cli.lineSize (start ++ c :: after) := by
    have hstored := h.stored
    simpa only [Line.text, List.append_assoc, List.singleton_append] using hstored
  have hcursor : cli.editCursor = start.length + 1 := by
    simpa only [Line.cursor, List.length_append, List.length_singleton] using h.cursor_eq
  have hlen : cli.lineLen - 1 = (start ++ after).length := by
    simp only [h.len_eq, Line.text, List.length_append, List.length_singleton]
    omega
  have hdeleted := Stored.set_end (c := 0) hstored.delete (start ++ after).length le_rfl
  unfold Cli.handleBackspace
  rw [if_neg (by omega)]
  dsimp only
  rw [htail, hlen, hcursor, Nat.add_sub_cancel]
  rw [Line.deleteLeft_snoc]
  refine edits_of hdeleted rfl rfl ?_ ?_
  · exact (((writesOnly_cliWriteBytes _).append (writesOnly_cliWriteBytes _)).append
      (writesOnly_cliWriteBytes _)).append (writesOnly_backspaces _)
  · simp only [written_append, written_cliWriteBytes, written_backspaces]
    rw [hdeleted.span_after, redrawDelete, if_neg (by simp)]

/-- What redraws a line whose cursor has moved left. -/
def redrawLeft (l : Line UInt8) : Bytes := if l.before = [] then [] else [0x08]

theorem cursorLeft_edits (h : HoldsLine cli l) : Edits cli l.left (redrawLeft l) cli.cursorLeft := by
  obtain ⟨before, after⟩ := l
  rcases List.eq_nil_or_concat' before with rfl | ⟨start, c, rfl⟩
  · have hzero : cli.editCursor = 0 := h.cursor_eq
    unfold Cli.cursorLeft
    rw [if_pos hzero]
    exact h.idle
  have hcursor : cli.editCursor = start.length + 1 := by
    simpa only [Line.cursor, List.length_append, List.length_singleton] using h.cursor_eq
  have htext := Line.text_left ⟨start ++ [c], after⟩
  have hlen := h.len_eq
  have hstored := h.stored
  rw [← htext] at hlen hstored
  unfold Cli.cursorLeft
  rw [if_neg (by omega), redrawLeft, if_neg (by simp)]
  refine edits_of hstored hlen ?_ (writesOnly_cliWriteBytes _) (written_cliWriteBytes _)
  rw [Line.left_snoc, hcursor]
  rfl

/-- What redraws a line whose cursor has moved right: the character it has passed. -/
def redrawRight (l : Line UInt8) : Bytes := l.after.head?.toList

theorem cursorRight_edits (h : HoldsLine cli l) :
    Edits cli l.right (redrawRight l) cli.cursorRight := by
  have htail := h.tail_eq
  obtain ⟨before, after⟩ := l
  cases after with
  | nil =>
    have hend : cli.editCursor ≥ cli.lineLen := by
      change cli.lineLen - cli.editCursor = 0 at htail
      omega
    unfold Cli.cursorRight
    rw [if_pos hend]
    rw [Line.right_nil]
    exact h.idle
  | cons c rest =>
    have htext := Line.text_right ⟨before, c :: rest⟩
    have hlen := h.len_eq
    have hstored := h.stored
    have hspan : span cli.line cli.editCursor 1 = [c] := by
      rw [h.cursor_eq]
      exact hstored.span_one
    rw [← htext] at hlen hstored
    unfold Cli.cursorRight
    rw [if_neg (by change cli.lineLen - cli.editCursor = rest.length + 1 at htail; omega), hspan]
    refine edits_of hstored hlen ?_ (writesOnly_cliWriteBytes _) (written_cliWriteBytes _)
    rw [Line.right_cons, h.cursor_eq, Line.cursor, Line.cursor, List.length_append]
    rfl

/-- What redraws a line into which a character was typed. -/
def redrawInsert (c : UInt8) (l : Line UInt8) : Bytes :=
  c :: l.after ++ List.replicate l.after.length 0x08

theorem insertCharAtCursor_edits (h : HoldsLine cli l) (c : UInt8)
    (hroom : l.text.length < cli.lineSize - 1) :
    Edits cli (l.insert c) (redrawInsert c l) (cli.insertCharAtCursor c) := by
  have htail := h.tail_eq
  have hlen := h.len_eq
  have hcursor := h.cursor_eq
  have hinserted := Stored.insert (c := c) h.stored (by change l.text.length + 1 < cli.lineSize; omega)
  have hspan : span ((move cli.line (cli.editCursor + 1) cli.editCursor l.after.length).set
      cli.editCursor c) cli.editCursor (l.after.length + 1) = c :: l.after := by
    rw [hcursor]
    exact hinserted.span_after
  rw [← Line.text_insert] at hinserted
  unfold Cli.insertCharAtCursor
  rw [if_neg (by omega)]
  dsimp only
  rw [htail, hspan]
  refine edits_of ?_ ?_ ?_ ?_ ?_
  · rw [hcursor]
    exact hinserted
  · rw [hlen, Line.length_insert]
  · rw [hcursor, Line.cursor, Line.cursor, Line.insert, List.length_append, List.length_singleton]
  · exact (writesOnly_cliWriteBytes _).append (writesOnly_backspaces _)
  · rw [written_append, written_cliWriteBytes, written_backspaces]
    rfl

theorem insertCharAtCursor_full (h : HoldsLine cli l) (c : UInt8)
    (hfull : ¬ l.text.length < cli.lineSize - 1) :
    cli.insertCharAtCursor c = ([], { cli with overflow := true }) := by
  have hlen := h.len_eq
  unfold Cli.insertCharAtCursor
  rw [if_pos (by omega)]

/-- What redraws a line replaced by another text. -/
def redrawReplace (text : Bytes) (l : Line UInt8) : Bytes :=
  l.after ++ (List.replicate l.text.length [0x08, 0x20, 0x08]).flatten ++ text

theorem replaceLine_edits (h : HoldsLine cli l) (text : Bytes) (hfits : text.length < cli.lineSize) :
    Edits cli (.atEnd text) (redrawReplace text l) (cli.replaceLine text) := by
  have htail := h.tail_eq
  have hreplaced : Stored ((overwrite cli.line 0 text).set text.length 0) cli.lineSize text :=
    Stored.replace rfl hfits
  have hafter : (if cli.editCursor < cli.lineLen then
      cliWriteBytes (span cli.line cli.editCursor (cli.lineLen - cli.editCursor)) else []) =
      cliWriteBytes l.after := by
    rw [htail, h.cursor_eq]
    split
    · rw [Line.cursor, h.stored.span_after]
    · rename_i hend
      have hnil : l.after = [] := List.eq_nil_of_length_eq_zero (by rw [h.cursor_eq] at htail; omega)
      rw [hnil]
      rfl
  unfold Cli.replaceLine
  rw [if_neg (by omega)]
  dsimp only
  rw [List.take_length, hafter, h.len_eq]
  refine edits_of ?_ ?_ ?_ ?_ ?_
  · rw [Line.text_atEnd]
    exact hreplaced
  · rw [Line.text_atEnd]
  · rw [Line.cursor_atEnd]
  · exact ((writesOnly_cliWriteBytes _).append
      ((writesOnly_cliWriteBytes _).flatten_replicate _)).append (writesOnly_cliWriteBytes _)
  · simp only [written_append, written_cliWriteBytes, written_replicate]
    rfl

end editing

end Pico
