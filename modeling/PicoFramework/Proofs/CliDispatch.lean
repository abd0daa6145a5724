import PicoFramework.Proofs.CliLine

/-! What a line that is executed is handed to, and what a function of the interpreter reports. -/

namespace Pico

open Lib.LineEditor

section reports

/-- The lines that `execute_line` was called on. -/
def executedLines (events : List CliEvent) : List Bytes :=
  events.filterMap fun
    | .executed line => some line
    | _ => none

/-- The lines handed to the filter or to a handler. -/
def handedLines (events : List CliEvent) : List Bytes :=
  events.filterMap fun
    | .filtered line => some line
    | .dispatched _ line => some line
    | _ => none

def slotsUsed (events : List CliEvent) : List ℕ :=
  events.filterMap fun
    | .slot index => some index
    | _ => none

/-- These lines were executed, no line but the one given was handed on, and every slot used is
one of `depth`. -/
structure Reports (depth : ℕ) (executed : List Bytes) (text : Option Bytes)
    (events : List CliEvent) : Prop where
  executed_eq : executedLines events = executed
  handed : ∀ line ∈ handedLines events, text = some line
  slots : ∀ i ∈ slotsUsed events, i < depth

variable {depth : ℕ} {executed executed' : List Bytes} {text : Option Bytes}
  {events more : List CliEvent}

theorem Reports.append (h : Reports depth executed text events)
    (hmore : Reports depth executed' text more) :
    Reports depth (executed ++ executed') text (events ++ more) where
  executed_eq := by
    rw [executedLines, List.filterMap_append]
    exact congrArg₂ _ h.executed_eq hmore.executed_eq
  handed := by
    intro line hmem
    rw [handedLines, List.filterMap_append] at hmem
    rcases List.mem_append.mp hmem with hleft | hright
    · exact h.handed line hleft
    · exact hmore.handed line hright
  slots := by
    intro i hmem
    rw [slotsUsed, List.filterMap_append] at hmem
    rcases List.mem_append.mp hmem with hleft | hright
    · exact h.slots i hleft
    · exact hmore.slots i hright

theorem WritesOnly.reports (h : WritesOnly events) (depth : ℕ) (text : Option Bytes) :
    Reports depth [] text events := by
  have hnone : ∀ {β : Type} (f : CliEvent → Option β), (∀ data, f (.wrote data) = none) →
      events.filterMap f = [] := by
    intro β f hf
    rw [List.filterMap_eq_nil_iff]
    intro event hmem
    obtain ⟨data, rfl⟩ := h event hmem
    exact hf data
  refine ⟨hnone _ fun _ => rfl, ?_, ?_⟩
  · rw [handedLines, hnone _ fun _ => rfl]
    exact nofun
  · rw [slotsUsed, hnone _ fun _ => rfl]
    exact nofun

theorem reports_slot {i : ℕ} (hi : i < depth) (text : Option Bytes) :
    Reports depth [] text [.slot i] where
  executed_eq := rfl
  handed := nofun
  slots := by
    intro j hmem
    obtain rfl := List.mem_singleton.mp hmem
    exact hi

theorem reports_executed (depth : ℕ) (line : Bytes) (text : Option Bytes) :
    Reports depth [line] text [.executed line] := ⟨rfl, nofun, nofun⟩

theorem reports_handed (depth : ℕ) {event : CliEvent} (line : Bytes)
    (hevent : event = .filtered line ∨ ∃ command, event = .dispatched command line) :
    Reports depth [] (some line) [event] := by
  have hhanded : ∀ l ∈ [line], some line = some l := fun l hmem =>
    congrArg some (List.mem_singleton.mp hmem).symm
  rcases hevent with rfl | ⟨command, rfl⟩
  · exact ⟨rfl, hhanded, nofun⟩
  · exact ⟨rfl, hhanded, nofun⟩

end reports

section writes

theorem writesOnly_cliPrintf (text : Bytes) : WritesOnly (cliPrintf text) := writesOnly_cliWriteBytes _

theorem writesOnly_printError (status : ℤ) : WritesOnly (Cli.printError status) :=
  writesOnly_cliPrintf _

theorem writesOnly_printHelp (cli : Cli) : WritesOnly cli.printHelp := by
  unfold Cli.printHelp
  refine WritesOnly.append ?_ ?_
  · intro event hmem
    obtain ⟨command, -, hevent⟩ := List.mem_flatMap.mp hmem
    cases hhelp : command.help with
    | none =>
      rw [hhelp] at hevent
      exact writesOnly_cliPrintf _ event hevent
    | some help =>
      rw [hhelp] at hevent
      exact writesOnly_cliPrintf _ event hevent
  · split
    · exact writesOnly_cliWriteBytes _
    · exact writesOnly_nil

theorem writesOnly_writePrompt (cli : Cli) : WritesOnly cli.writePrompt := writesOnly_cliWriteBytes _

end writes

section dispatching

variable {cli : Cli} (reply : CliReply) (depth : ℕ)

/-- The buffer may have changed, and the place from which it is parsed. -/
def Parsed (cli cli' : Cli) : Prop :=
  ∃ memory pos, memory.length = cli.line.length ∧ cli' = { cli with line := memory, parsePos := pos }

theorem Parsed.trans {cli' cli'' : Cli} (h : Parsed cli cli') (h' : Parsed cli' cli'') :
    Parsed cli cli'' := by
  obtain ⟨memory, pos, hlen, rfl⟩ := h
  obtain ⟨memory', pos', hlen', rfl⟩ := h'
  exact ⟨memory', pos', hlen'.trans hlen, rfl⟩

theorem nextToken_parsed (cli : Cli) : Parsed cli cli.nextToken.2 := by
  unfold Cli.nextToken
  dsimp only
  split
  · exact ⟨_, _, rfl, rfl⟩
  · split
    · exact ⟨_, _, List.length_set, rfl⟩
    · exact ⟨_, _, rfl, rfl⟩

theorem dispatch_reports (cli : Cli) :
    Parsed cli (cli.dispatch reply).2 ∧
    Reports depth [] (some (stringAt cli.line 0)) (cli.dispatch reply).1 := by
  have hparsed := nextToken_parsed cli
  unfold Cli.dispatch
  dsimp only
  generalize cli.nextToken = token at hparsed
  obtain ⟨name, cli'⟩ := token
  cases name with
  | none => exact ⟨hparsed, writesOnly_nil.reports depth _⟩
  | some name =>
    dsimp only
    split
    · exact ⟨hparsed, (writesOnly_printHelp _).reports depth _⟩
    cases cli'.findCommand name with
    | none =>
      dsimp only
      exact ⟨hparsed, (writesOnly_cliPrintf _).reports depth _⟩
    | some command =>
      dsimp only
      split
      · exact ⟨hparsed, (writesOnly_printError _).reports depth _⟩
      refine ⟨hparsed.trans ⟨_, _, List.length_mapIdx, rfl⟩, ?_⟩
      have hwrites : WritesOnly (cliWriteBytes reply.handlerWrote ++
          if reply.status ≠ 0 then Cli.printError reply.status else []) := by
        apply (writesOnly_cliWriteBytes _).append
        split
        · exact writesOnly_printError _
        · exact writesOnly_nil
      exact (reports_handed depth _ (.inr ⟨command, rfl⟩)).append (hwrites.reports depth _)

theorem executeLine_reports {cli : Cli} {text : Bytes} (hstored : Stored cli.line cli.lineSize text)
    (hlen : cli.lineLen = text.length) (hnul : 0 ∉ text) :
    Parsed cli (cli.executeLine reply).2.2 ∧
    Reports depth [text] (some text) (cli.executeLine reply).2.1 := by
  have hstring := hstored.stringAt_eq hnul
  rw [← hlen] at hstring
  unfold Cli.executeLine
  dsimp only
  rw [hstring]
  have hterminated : ∀ pos, Parsed cli { cli with line := cli.line.set cli.lineLen 0, parsePos := pos } :=
    fun pos => ⟨_, pos, List.length_set, rfl⟩
  split
  · exact ⟨hterminated _, reports_executed depth text _⟩
  have hasked : Reports depth [] (some text)
      (if cli.lineFilter then .filtered text :: cliWriteBytes reply.filterWrote else []) := by
    split
    · exact (reports_handed depth text (.inl rfl)).append
        ((writesOnly_cliWriteBytes _).reports depth _)
    · exact writesOnly_nil.reports depth _
  split
  · exact ⟨hterminated _, (reports_executed depth text _).append hasked⟩
  · obtain ⟨hparsed, hreports⟩ := dispatch_reports reply depth
      { cli with line := cli.line.set cli.lineLen 0, parsePos := 0 }
    rw [hstring] at hreports
    exact ⟨(hterminated 0).trans hparsed,
      ((reports_executed depth text _).append hasked).append hreports⟩

end dispatching

end Pico
