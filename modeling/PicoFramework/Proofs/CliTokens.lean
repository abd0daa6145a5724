import PicoFramework.Lib.Words
import PicoFramework.Proofs.CliEditor
import PicoFramework.Spec.CliArguments

/-! Lines and tokens. How a line is ended makes no difference to what is dispatched, and in whatever
order a handler asks for tokens, it gets the words of its line. -/

namespace Pico

open Lib.LineEditor Lib.Run Lib.Words

section calls

/-- The calls by which a handler takes its line apart. -/
inductive ArgCall where
  | nextToken
  | argsExhausted
  | rest

inductive ArgAnswer where
  | token (token : Option Bytes)
  | exhausted (exhausted : Bool)
  | rest (rest : Option Bytes)

def Cli.argCall (cli : Cli) : ArgCall → ArgAnswer × Cli
  | .nextToken => (.token cli.nextToken.1, cli.nextToken.2)
  | .argsExhausted => (.exhausted cli.argsExhausted.1, cli.argsExhausted.2)
  | .rest => (.rest cli.rest.1, cli.rest.2)

/-- The same of a text of which `k` words have been taken. -/
def textCall (text : Bytes) (k : ℕ) : ArgCall → ArgAnswer × ℕ
  | .nextToken => (.token (words isSeparator text)[k]?, k + 1)
  | .argsExhausted => (.exhausted ((words isSeparator text).length ≤ k), k)
  | .rest =>
      if k < (words isSeparator text).length then
        (.rest (some (fromWord isSeparator text k)), (words isSeparator text).length)
      else (.rest none, k)

/-- The line buffer holds the text, as far as it has not been parsed: what is left of it has the
words from the `k`-th on. -/
structure ParsesFrom (cli : Cli) (text : Bytes) (k : ℕ) (left : Bytes) : Prop where
  memory : ∃ beyond, cli.line.drop cli.parsePos = left ++ 0 :: beyond
  length : cli.lineLen = cli.parsePos + left.length
  nul_free : 0 ∉ left
  words : left.dropWhile isSeparator = fromWord isSeparator text k

variable {cli : Cli} {text left : Bytes} {k : ℕ}

theorem ParsesFrom.unparsed_eq (h : ParsesFrom cli text k left) : cli.unparsed = left := by
  obtain ⟨beyond, hmemory⟩ := h.memory
  rw [Cli.unparsed, Lib.Splice.span, hmemory, h.length, Nat.add_sub_cancel_left,
    List.take_left]

theorem ParsesFrom.skipSeparators (h : ParsesFrom cli text k left) :
    ParsesFrom cli.skipSeparators text k (fromWord isSeparator text k) := by
  obtain ⟨beyond, hmemory⟩ := h.memory
  have hsplit := List.takeWhile_append_dropWhile (p := isSeparator) (l := left)
  rw [h.words] at hsplit
  have hlength := congrArg List.length hsplit
  rw [List.length_append] at hlength
  refine ⟨⟨beyond, ?_⟩, ?_, ?_, dropWhile_fromWord text k⟩
  · rw [Cli.skipSeparators, h.unparsed_eq]
    change cli.line.drop (cli.parsePos + _) = _
    rw [← List.drop_drop, hmemory]
    conv_lhs => rw [← hsplit, List.append_assoc]
    rw [List.drop_left' (by rw [hsplit])]
  · rw [Cli.skipSeparators, h.unparsed_eq, h.length]
    change cli.parsePos + left.length = cli.parsePos + _ + _
    omega
  · intro hmem
    exact h.nul_free (hsplit ▸ List.mem_append_right _ hmem)

theorem ParsesFrom.stringAt_eq (h : ParsesFrom cli text k left) :
    stringAt cli.line cli.parsePos = left := by
  obtain ⟨beyond, hmemory⟩ := h.memory
  rw [stringAt, hmemory]
  exact takeWhile_string h.nul_free

theorem ParsesFrom.ends_iff (h : ParsesFrom cli text k left) :
    cli.parsePos ≥ cli.lineLen ↔ left = [] := by
  rw [h.length, ← List.length_eq_zero_iff]
  omega

theorem argsExhausted_spec (h : ParsesFrom cli text k left) :
    cli.argsExhausted.1 = decide ((words isSeparator text).length ≤ k) ∧
      ParsesFrom cli.argsExhausted.2 text k (fromWord isSeparator text k) := by
  have hstart := h.skipSeparators
  refine ⟨?_, hstart⟩
  exact decide_eq_decide.mpr (hstart.ends_iff.trans (fromWord_eq_nil_iff text k))

theorem rest_spec (h : ParsesFrom cli text k left) :
    (if k < (words isSeparator text).length then
      cli.rest.1 = some (fromWord isSeparator text k) ∧
        ParsesFrom cli.rest.2 text (words isSeparator text).length []
    else cli.rest.1 = none ∧ ParsesFrom cli.rest.2 text k []) := by
  have hstart := h.skipSeparators
  have hends := hstart.ends_iff
  rw [fromWord_eq_nil_iff] at hends
  unfold Cli.rest
  by_cases hmore : k < (words isSeparator text).length
  · obtain ⟨beyond, hmemory⟩ := hstart.memory
    simp only [hends, not_le.mpr hmore, hmore, if_true, if_false]
    refine ⟨by rw [hstart.stringAt_eq], ⟨beyond, ?_⟩, rfl, by simp, ?_⟩
    · change cli.skipSeparators.line.drop cli.skipSeparators.lineLen = _
      rw [hstart.length, ← List.drop_drop, hmemory, List.drop_left]
      rfl
    · exact ((fromWord_eq_nil_iff text _).mpr le_rfl).symm
  · have hnil := (fromWord_eq_nil_iff text k).mpr (not_lt.mp hmore)
    rw [hnil] at hstart
    simp only [hends, not_lt.mp hmore, hmore, if_true, if_false]
    exact ⟨trivial, hstart⟩

theorem nextToken_spec (h : ParsesFrom cli text k left) :
    cli.nextToken.1 = (words isSeparator text)[k]? ∧
      ∃ left', ParsesFrom cli.nextToken.2 text (k + 1) left' := by
  have hstart := h.skipSeparators
  have hends := hstart.ends_iff
  have hunparsed := hstart.unparsed_eq
  obtain ⟨beyond, hmemory⟩ := hstart.memory
  rw [getElem?_words]
  have hnext := @fromWord_succ _ isSeparator text k
  unfold Cli.nextToken
  generalize cli.skipSeparators = start at hstart hends hunparsed hmemory ⊢
  generalize fromWord isSeparator text k = r at hstart hends hunparsed hmemory hnext ⊢
  by_cases hnil : r = []
  · subst hnil
    simp only [hends, if_true]
    exact ⟨trivial, [], hstart.memory, hstart.length, by simp, hnext.symm⟩
  · simp only [hends, hnil, if_false, hunparsed]
    have hsplit := List.takeWhile_append_dropWhile (p := fun c => !isSeparator c) (l := r)
    have hlength := hstart.length
    generalize r.takeWhile (fun c => !isSeparator c) = word at hsplit ⊢
    cases htail : r.dropWhile fun c => !isSeparator c with
    | nil =>
      rw [htail, List.append_nil] at hsplit
      subst hsplit
      have hend : ¬start.parsePos + word.length < start.lineLen := by omega
      simp only [hend, if_false, hstart.stringAt_eq, true_and]
      refine ⟨[], ⟨beyond, ?_⟩, hlength, by simp, ?_⟩
      · rw [← List.drop_drop, hmemory, List.drop_left]
        rfl
      · rw [hnext, htail]
    | cons d rest =>
      rw [htail] at hsplit hnext
      have hseparator : isSeparator d = true := by
        have hne : (r.dropWhile fun c => !isSeparator c) ≠ [] := by simp [htail]
        have := List.head_dropWhile_not (fun c => !isSeparator c) hne
        simpa [htail] using this
      have hlengths := congrArg List.length hsplit
      rw [List.length_append, List.length_cons] at hlengths
      have hmore : start.parsePos + word.length < start.lineLen := by omega
      have hcut : (start.line.set (start.parsePos + word.length) 0).drop start.parsePos =
          word ++ 0 :: (rest ++ 0 :: beyond) := by
        rw [List.drop_set, if_neg (by omega), Nat.add_sub_cancel_left, hmemory, ← hsplit,
          List.append_assoc, List.set_append_right _ _ le_rfl, Nat.sub_self]
        rfl
      have hword : 0 ∉ word := fun hmem =>
        hstart.nul_free (hsplit ▸ List.mem_append_left _ hmem)
      simp only [hmore, if_true, Option.some.injEq]
      refine ⟨by rw [stringAt, hcut]; exact takeWhile_string hword, rest, ⟨beyond, ?_⟩, ?_, ?_, ?_⟩
      · change (start.line.set (start.parsePos + word.length) 0).drop
          (start.parsePos + word.length + 1) = _
        rw [Nat.add_assoc, ← List.drop_drop, hcut, ← List.drop_drop, List.drop_left]
        rfl
      · change start.lineLen = start.parsePos + word.length + 1 + rest.length
        omega
      · exact fun hmem =>
          hstart.nul_free (hsplit ▸ List.mem_append_right _ (List.mem_cons_of_mem _ hmem))
      · rw [hnext, List.dropWhile_cons_of_pos hseparator]

/-- Whatever calls are made, they are answered by the words of the text. -/
theorem argCalls_spec (h : ParsesFrom cli text k left) (calls : List ArgCall) :
    (run Cli.argCall cli calls).1 = (run (textCall text) k calls).1 := by
  have hstep : ∀ (cli : Cli) (k : ℕ) (call : ArgCall), (∃ left, ParsesFrom cli text k left) →
      (cli.argCall call).1 = (textCall text k call).1 ∧
        ∃ left, ParsesFrom (cli.argCall call).2 text (textCall text k call).2 left := by
    rintro cli k call ⟨left, h⟩
    cases call with
    | nextToken =>
      obtain ⟨htoken, hnext⟩ := nextToken_spec h
      exact ⟨congrArg ArgAnswer.token htoken, hnext⟩
    | argsExhausted =>
      obtain ⟨hends, hnext⟩ := argsExhausted_spec h
      exact ⟨congrArg ArgAnswer.exhausted hends, _, hnext⟩
    | rest =>
      have hrest := rest_spec h
      unfold textCall Cli.argCall
      dsimp only
      split_ifs at hrest ⊢ with hmore
      · exact ⟨congrArg ArgAnswer.rest hrest.1, _, hrest.2⟩
      · exact ⟨congrArg ArgAnswer.rest hrest.1, _, hrest.2⟩
  exact (run_refines hstep cli k calls ⟨left, h⟩).1

end calls

section dispatch

variable {config : CliConfig} {cli : Cli} {editor : ListEditor} {text : Bytes}

/-- A line that is about to be taken apart: terminated, and parsed from its beginning. -/
def Cli.terminated (cli : Cli) : Cli :=
  { cli with line := cli.line.set cli.lineLen 0, parsePos := 0 }

theorem terminated_parses (hstored : Stored cli.line cli.lineSize text)
    (hlen : cli.lineLen = text.length) (hnul : 0 ∉ text) : ParsesFrom cli.terminated text 0 text := by
  have hfits : text.length < cli.line.length := hstored.fits
  refine ⟨⟨cli.line.drop (text.length + 1), ?_⟩, ?_, hnul, rfl⟩
  · change (cli.line.set cli.lineLen 0).drop 0 = _
    rw [List.drop_zero, hlen, List.set_eq_take_append_cons_drop, if_pos hfits, hstored.take_eq]
  · change cli.lineLen = 0 + text.length
    rw [hlen, Nat.zero_add]

/-- A line of separators goes nowhere. Any other is shown to the filter, if there is one, and handed
to the dispatcher unless the filter claims it. -/
theorem executeLine_eq (reply : CliReply) (hstored : Stored cli.line cli.lineSize text)
    (hlen : cli.lineLen = text.length) (hnul : 0 ∉ text) :
    (cli.executeLine reply).2.1 =
      if words isSeparator text = [] then [.executed text]
      else .executed text ::
        ((if cli.lineFilter then .filtered text :: cliWriteBytes reply.filterWrote else []) ++
          if cli.lineFilter && reply.claimed then [] else (cli.terminated.dispatch reply).1) := by
  have hparses := terminated_parses hstored hlen hnul
  have hstring : stringAt (cli.line.set cli.lineLen 0) 0 = text := hparses.stringAt_eq
  have hblank : cli.terminated.argsExhausted.1 = decide (words isSeparator text = []) := by
    rw [(argsExhausted_spec hparses).1]
    exact decide_eq_decide.mpr (by rw [Nat.le_zero, List.length_eq_zero_iff])
  unfold Cli.executeLine
  dsimp only
  rw [show { cli with line := cli.line.set cli.lineLen 0, parsePos := 0 } = cli.terminated from rfl,
    hblank, hstring]
  by_cases hwords : words isSeparator text = []
  · simp [hwords]
  · simp only [hwords, decide_false, Bool.false_eq_true, if_false]
    change (if (cli.lineFilter && reply.claimed) = true then
        (true, CliEvent.executed text ::
          (if cli.lineFilter = true then .filtered text :: cliWriteBytes reply.filterWrote else []),
          cli.terminated)
      else (false, (CliEvent.executed text ::
          (if cli.lineFilter = true then .filtered text :: cliWriteBytes reply.filterWrote else [])) ++
            (cli.terminated.dispatch reply).1, (cli.terminated.dispatch reply).2)).2.1 = _
    cases (cli.lineFilter && reply.claimed) with
    | true => simp
    | false => simp

/-- The interpreter as `execute_line` has it, the line recorded and terminated. -/
def Cli.atDispatch (cli : Cli) : Cli :=
  (if !cli.lineIsRaw then cli.historyPush (cli.line.take cli.lineLen) else ([], cli)).2.terminated

/-- What becomes of a line that is dispatched, `ready` being the interpreter that the handler gets:
a line of separators goes to nobody, the filter sees the line as it is, the first word is the name
of the command, and the handler's calls are answered by the words behind it. -/
structure DispatchLaw (ready : Cli) (reply : CliReply) (text : Bytes) (events : List CliEvent) :
    Prop where
  blank : (∀ d ∈ text, isSeparator d = true) → handedLines events = []
  filtered : words isSeparator text ≠ [] → ready.lineFilter = true → .filtered text ∈ events
  uncut : ∀ line, .filtered line ∈ events → line = text
  handled : words isSeparator text ≠ [] → (ready.lineFilter && reply.claimed) = false →
    ∃ before after, events = before ++ (ready.dispatch reply).1 ++ after
  command : ready.nextToken.1 = (words isSeparator text).head?
  tokens : ∀ calls, (run Cli.argCall ready.nextToken.2 calls).1 = (run (textCall text) 1 calls).1

theorem handedLines_append (events more : List CliEvent) :
    handedLines (events ++ more) = handedLines events ++ handedLines more := List.filterMap_append

theorem Reports.handed_eq_nil {depth : ℕ} {executed : List Bytes} {events : List CliEvent}
    (h : Reports depth executed none events) : handedLines events = [] :=
  List.eq_nil_iff_forall_not_mem.mpr fun line hmem => absurd (h.handed line hmem) nofun

theorem mem_handedLines {events : List CliEvent} {line : Bytes} (h : .filtered line ∈ events) :
    line ∈ handedLines events := List.mem_filterMap.mpr ⟨_, h, rfl⟩

theorem words_separators (hblank : ∀ d ∈ text, isSeparator d = true) :
    words isSeparator text = [] := by
  rw [words_eq, if_pos (List.dropWhile_eq_nil_iff.mpr hblank)]

theorem endOfLine_law (h : Follows config cli editor) (hescape : editor.reader.escape = .none)
    (hrefused : editor.entry.refused = false) (hne : editor.entry.line.text ≠ []) (reply : CliReply) :
    DispatchLaw cli.atDispatch reply editor.entry.line.text (cli.handleEndOfLine reply).1 := by
  obtain ⟨-, hreports⟩ := endOfLine_follows h hescape reply
  obtain ⟨-, -, -, ⟨hline, hlineLen, -⟩, hpushed⟩ := push_follows h
  obtain ⟨filtered, after, hevents⟩ := endOfLine_executes h hrefused hne reply
  have hentered : editor.entry.enter.1 = some editor.entry.line.text :=
    Entry.enter_eq_some_iff.mpr ⟨hrefused, hne, rfl⟩
  unfold Cli.atDispatch
  generalize (if !cli.lineIsRaw then cli.historyPush (cli.line.take cli.lineLen)
    else ([], cli)) = pushed at hline hlineLen hpushed hevents ⊢
  have hstored : Stored pushed.2.line pushed.2.lineSize editor.entry.line.text := by
    rw [Cli.lineSize, hline]
    exact h.line.stored
  have hlen : pushed.2.lineLen = editor.entry.line.text.length := hlineLen.trans h.line.len_eq
  have hexecuted := executeLine_eq reply hstored hlen h.plain.nul_free
  obtain ⟨hcommand, _, hparses⟩ :=
    nextToken_spec (terminated_parses hstored hlen h.plain.nul_free)
  refine ⟨?_, ?_, ?_, ?_, hcommand.trans List.head?_eq_getElem?.symm, argCalls_spec hparses⟩
  · intro hblank
    have hnewline := ((writesOnly_cliWriteBytes (ascii "\r\n")).echoed cli).reports 0 none
    have hprompt : handedLines (if !filtered then after.writePrompt else []) = [] := by
      cases filtered with
      | true => rfl
      | false => exact ((writesOnly_writePrompt after).reports 0 none).handed_eq_nil
    rw [hevents, hexecuted, if_pos (words_separators hblank), handedLines_append,
      handedLines_append, handedLines_append, hnewline.handed_eq_nil, (hpushed none).handed_eq_nil,
      hprompt]
    rfl
  · intro hwords hfilter
    have hfilter : pushed.2.lineFilter = true := hfilter
    rw [hevents, hexecuted, if_neg hwords, hfilter]
    simp
  · intro line hmem
    have hhanded := hreports.handed line (mem_handedLines hmem)
    rw [hentered] at hhanded
    exact (Option.some.inj hhanded).symm
  · intro hwords hclaimed
    have hclaimed : (pushed.2.lineFilter && reply.claimed) = false := hclaimed
    rw [hevents, hexecuted, if_neg hwords, hclaimed, if_neg Bool.false_ne_true]
    generalize (if pushed.2.lineFilter = true then
      CliEvent.filtered editor.entry.line.text :: cliWriteBytes reply.filterWrote else []) = asked
    refine ⟨cli.echoed (cliWriteBytes (ascii "\r\n")) ++ pushed.1 ++
      .executed editor.entry.line.text :: asked, if !filtered then after.writePrompt else [], ?_⟩
    simp only [List.append_assoc, List.cons_append]

theorem dispatchLaw (h : Follows config cli editor) {c : UInt8} {reply : CliReply}
    (hexecuted : executedLines (cli.feedChar c reply).1 = [text]) :
    DispatchLaw { cli with lastWasCr := c = 0x0D, escapeState := .none }.atDispatch reply text
      (cli.feedChar c reply).1 := by
  obtain ⟨⟨hrefused, hne, rfl⟩, hfed⟩ := feedChar_executed h hexecuted
  rw [hfed]
  exact endOfLine_law (h.reading ⟨.none, c = 0x0D⟩) rfl hrefused hne reply

end dispatch

section endings

inductive LineEnding where
  | cr
  | lf
  | crlf

def LineEnding.bytes : LineEnding → Bytes
  | .cr => [0x0D]
  | .lf => [0x0A]
  | .crlf => [0x0D, 0x0A]

/-- Two streams that differ in how their lines are ended. -/
inductive SameButEndings : Bytes → Bytes → Prop
  | nil : SameButEndings [] []
  | byte {c : UInt8} {stream stream' : Bytes} (hcr : c ≠ 0x0D) (hlf : c ≠ 0x0A)
      (h : SameButEndings stream stream') : SameButEndings (c :: stream) (c :: stream')
  | ending (ending ending' : LineEnding) {stream stream' : Bytes}
      (h : SameButEndings stream stream') :
      SameButEndings (ending.bytes ++ stream) (ending'.bytes ++ stream')

/-- Right behind a CR nothing has been entered. -/
def ListEditor.Settled (editor : ListEditor) : Prop :=
  editor.reader.lastWasCr = true →
    editor.reader.escape = .none ∧ editor.entry = Entry.fresh editor.entry.recorded

/-- Alike but for what the last byte was. -/
structure ListEditor.Alike (editor editor' : ListEditor) : Prop where
  settled : editor.Settled
  settled' : editor'.Settled
  escape_eq : editor.reader.escape = editor'.reader.escape
  entry_eq : editor.entry = editor'.entry

variable {config : CliConfig} {cli : Cli} {rules : Rules UInt8} {editor editor' : ListEditor}

theorem run_ending (h : editor.Settled) (ending : LineEnding) :
    (run (ListEditor.feed rules) editor ending.bytes).1.flatMap Option.toList =
        editor.entry.enter.1.toList ∧
      ∃ cr, (run (ListEditor.feed rules) editor ending.bytes).2 =
        ⟨⟨.none, cr⟩, editor.entry.enter.2⟩ := by
  have hcr : editor.feed rules 0x0D = (editor.entry.enter.1, ⟨⟨.none, true⟩, editor.entry.enter.2⟩) :=
    rfl
  cases ending with
  | cr =>
    rw [LineEnding.bytes, run_cons, run_nil, hcr]
    exact ⟨List.append_nil _, true, rfl⟩
  | lf =>
    rw [LineEnding.bytes, run_cons, run_nil]
    by_cases hbehind : editor.reader.lastWasCr = true
    · -- A line that ends here is empty: its end changes nothing.
      obtain ⟨hescape, hentry⟩ := h hbehind
      have hfeed : editor.feed rules 0x0A = (none, ⟨⟨.none, false⟩, editor.entry⟩) := by
        unfold ListEditor.feed KeyReader.read
        rw [hbehind, ← hescape]
        rfl
      rw [hfeed, hentry]
      exact ⟨rfl, false, rfl⟩
    · have hfeed : editor.feed rules 0x0A =
          (editor.entry.enter.1, ⟨⟨.none, false⟩, editor.entry.enter.2⟩) := by
        unfold ListEditor.feed KeyReader.read
        rw [Bool.not_eq_true _ |>.mp hbehind]
        rfl
      rw [hfeed]
      exact ⟨List.append_nil _, false, rfl⟩
  | crlf =>
    rw [LineEnding.bytes, run_cons, run_cons, run_nil, hcr]
    exact ⟨by simp [ListEditor.feed, KeyReader.read], false, rfl⟩

theorem read_forgets (reader : KeyReader) {c : UInt8} (hcr : c ≠ 0x0D) (hlf : c ≠ 0x0A) :
    reader.read c = KeyReader.read ⟨reader.escape, false⟩ c := by
  unfold KeyReader.read
  simp [hcr, hlf]

theorem read_lastWasCr (reader : KeyReader) {c : UInt8} (hcr : c ≠ 0x0D) (hlf : c ≠ 0x0A) :
    (reader.read c).2.lastWasCr = false := by
  unfold KeyReader.read
  simp only [hcr, hlf, decide_false, Bool.false_and, Bool.or_self, Bool.false_eq_true, if_false]
  split
  · rfl
  · rfl
  · split_ifs <;> rfl

theorem feed_reader (rules : Rules UInt8) (editor : ListEditor) (c : UInt8) :
    (editor.feed rules c).2.reader = (editor.reader.read c).2 := by
  unfold ListEditor.feed
  cases editor.reader.read c with
  | mk key reader =>
    cases key with
    | none => rfl
    | some key => rfl

theorem feed_alike (h : editor.Alike editor') {c : UInt8} (hcr : c ≠ 0x0D) (hlf : c ≠ 0x0A) :
    (editor.feed rules c).1 = (editor'.feed rules c).1 ∧
      (editor.feed rules c).2.Alike (editor'.feed rules c).2 := by
  have hfed : editor.feed rules c = editor'.feed rules c := by
    unfold ListEditor.feed
    rw [read_forgets editor.reader hcr hlf, read_forgets editor'.reader hcr hlf, h.escape_eq,
      h.entry_eq]
  have hsettled : (editor'.feed rules c).2.Settled := by
    intro hbehind
    rw [feed_reader, read_lastWasCr editor'.reader hcr hlf] at hbehind
    cases hbehind
  rw [hfed]
  exact ⟨rfl, hsettled, hsettled, rfl, rfl⟩

theorem run_endings {stream stream' : Bytes} (h : SameButEndings stream stream')
    (halike : editor.Alike editor') :
    (run (ListEditor.feed rules) editor stream).1.flatMap Option.toList =
      (run (ListEditor.feed rules) editor' stream').1.flatMap Option.toList := by
  induction h generalizing editor editor' with
  | nil => rfl
  | byte hcr hlf _ ih =>
    obtain ⟨hsubmitted, hnext⟩ := feed_alike halike hcr hlf
    rw [run_cons, run_cons, List.flatMap_cons, List.flatMap_cons, hsubmitted, ih hnext]
  | ending ending ending' _ ih =>
    obtain ⟨hsubmitted, cr, hend⟩ := run_ending halike.settled ending
    obtain ⟨hsubmitted', cr', hend'⟩ := run_ending halike.settled' ending'
    have hnext : ListEditor.Alike ⟨⟨.none, cr⟩, editor.entry.enter.2⟩
        ⟨⟨.none, cr'⟩, editor'.entry.enter.2⟩ := by
      rw [halike.entry_eq]
      exact ⟨fun _ => ⟨rfl, Entry.enter_fresh⟩, fun _ => ⟨rfl, Entry.enter_fresh⟩, rfl, rfl⟩
    rw [run_append, run_append, List.flatMap_append, List.flatMap_append, hsubmitted, hsubmitted',
      hend, hend', halike.entry_eq]
    rw [halike.entry_eq] at hnext
    rw [ih hnext]

theorem run_executed (h : Follows config cli editor) (inputs : List (UInt8 × CliReply)) :
    (run Cli.step cli inputs).1.flatMap executedLines =
      (run (ListEditor.feed config.rules) editor (inputs.map Prod.fst)).1.flatMap Option.toList := by
  obtain ⟨hreports, -⟩ := run_follows h inputs
  rw [run_map]
  change _ = (run (ListEditor.step config.rules) editor inputs).1.flatMap Option.toList
  generalize (run Cli.step cli inputs).1 = answers at hreports ⊢
  generalize (run (ListEditor.step config.rules) editor inputs).1 = lines at hreports ⊢
  induction hreports with
  | nil => rfl
  | cons hline _ ih => rw [List.flatMap_cons, List.flatMap_cons, hline.executed_eq, ih]

/-- Lines and tokens, over every run: how the lines are ended changes nothing in what is dispatched,
and every line that is dispatched goes whole to the filter and in its words to a handler. -/
theorem cli_lines_and_tokens (hinit : cliInit config = (.ok, some cli)) :
    (∀ inputs inputs' : List (UInt8 × CliReply),
      SameButEndings (inputs.map Prod.fst) (inputs'.map Prod.fst) →
      (run Cli.step cli inputs).1.flatMap executedLines =
        (run Cli.step cli inputs').1.flatMap executedLines) ∧
    ∀ (inputs : List (UInt8 × CliReply)) (c : UInt8) (reply : CliReply) (text : Bytes),
      let before := (run Cli.step cli inputs).2
      executedLines (before.feedChar c reply).1 = [text] →
      DispatchLaw { before with lastWasCr := c = 0x0D, escapeState := .none }.atDispatch reply text
        (before.feedChar c reply).1 := by
  have hstart := cliInit_follows hinit
  constructor
  · intro inputs inputs' hsame
    rw [run_executed hstart, run_executed hstart]
    exact run_endings hsame ⟨nofun, nofun, rfl, rfl⟩
  · intro inputs c reply text before hexecuted
    exact dispatchLaw (run_follows hstart inputs).2 hexecuted

/-- Lines ended in another way are dispatched alike; and of a line of three words the filter gets
all, and the handler the words behind the first. -/
theorem cli_lines_and_tokens_small :
    (∃ cli, cliInit smallConfig = (.ok, some cli) ∧
      (run Cli.step cli (fedBytes [0x61, 0x0D, 0x0A, 0x0A])).1.flatMap executedLines =
        (run Cli.step cli (fedBytes [0x61, 0x0A, 0x0D])).1.flatMap executedLines) ∧
    ∃ cli, cliInit { smallConfig with lineBuffer := some (List.replicate 10 0) } =
        (.ok, some cli) ∧
      let reply : CliReply := ⟨false, [], 0, [], fun _ => 0⟩
      let text : Bytes := [0x61, 0x20, 0x31, 0x32, 0x20, 0x37]
      let before := (run Cli.step cli (fedBytes text)).2
      let ready := { before with lastWasCr := true, escapeState := .none }.atDispatch
      .filtered text ∈ (before.feedChar 0x0D reply).1 ∧ ready.nextToken.1 = some [0x61] ∧
        (run Cli.argCall ready.nextToken.2 [.nextToken, .argsExhausted, .rest]).1 =
          [.token (some [0x31, 0x32]), .exhausted false, .rest (some [0x37])] := by
  constructor
  · have hinit : cliInit smallConfig = (.ok, some _) := rfl
    refine ⟨_, hinit, (cli_lines_and_tokens hinit).1 _ _ ?_⟩
    exact .byte (by decide) (by decide) (.ending .crlf .lf (.ending .lf .cr .nil))
  · have hinit : cliInit { smallConfig with lineBuffer := some (List.replicate 10 0) } =
        (.ok, some _) := rfl
    refine ⟨_, hinit, ?_⟩
    have hlaw := (cli_lines_and_tokens hinit).2
      (fedBytes [0x61, 0x20, 0x31, 0x32, 0x20, 0x37]) 0x0D ⟨false, [], 0, [], fun _ => 0⟩
      [0x61, 0x20, 0x31, 0x32, 0x20, 0x37] (by decide +kernel)
    exact ⟨hlaw.filtered (by decide) (by decide +kernel), hlaw.command,
      hlaw.tokens [.nextToken, .argsExhausted, .rest]⟩

end endings

end Pico
