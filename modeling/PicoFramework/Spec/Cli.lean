import PicoFramework.Lib.Splice
import PicoFramework.Spec.Basic

/-! `cli.c`: the line editor, its history, and the dispatch of a line. A function returns what it
wrote and whom it called, in order, and the interpreter it leaves. The stream is one that can be
written to; the functions that parse arguments for a handler are left out, and so is what a
handler does, apart from what it answers and what it makes of the line buffer. -/

namespace Pico

open Lib.Splice

def CLI_PRINTF_BUFFER_SIZE : ℕ := 128

/-- `" \t,;"`. -/
def CLI_SEPARATORS : Bytes := [0x20, 0x09, 0x2C, 0x3B]

def CLI_ERR_STATE : ℤ := 3

def isSeparator (c : UInt8) : Bool := c ≠ 0 && CLI_SEPARATORS.contains c

def toUpper (c : UInt8) : UInt8 := if 0x61 ≤ c && c ≤ 0x7A then c - 0x20 else c

def equalsIgnoreCase (a b : Bytes) : Bool := a.map toUpper = b.map toUpper

/-- The C string that starts at `pos`. -/
def stringAt (memory : Bytes) (pos : ℕ) : Bytes := (memory.drop pos).takeWhile (· ≠ 0)

/-- `cli_command_t`; of the handler only whether it is there. -/
structure CliCommand where
  name : Option CString
  help : Option CString
  handler : Bool
deriving DecidableEq

structure CliConfig where
  commands : Option (List CliCommand)
  commandCount : ℕ
  lineBuffer : Option Bytes
  prompt : Option CString
  echo : Bool
  enableHelp : Bool
  lineFilter : Bool
  historyBuffer : Option Bytes
  historyEntrySize : ℕ
  rawLinePrefix : UInt8

inductive CliInitResult where
  | ok
  | errInvalidArg
  | errDuplicateCommand
  | errHistoryRequiresEcho
deriving DecidableEq

inductive CliEscapeState where
  | none
  | gotEsc
  | gotBracket
deriving DecidableEq

structure Cli where
  commands : List CliCommand
  line : Bytes
  lineLen : ℕ
  parsePos : ℕ
  editCursor : ℕ
  overflow : Bool
  lastWasCr : Bool
  escapeState : CliEscapeState
  lineIsRaw : Bool
  rawLinePrefix : UInt8
  prompt : Option CString
  echo : Bool
  enableHelp : Bool
  lineFilter : Bool
  historyBuffer : Bytes
  historyEntrySize : ℕ
  historyDepth : ℕ
  historyHead : ℕ
  historyCount : ℕ
  historyCursor : ℕ
deriving DecidableEq

def Cli.lineSize (cli : Cli) : ℕ := cli.line.length

/-- What the interpreter does to the world, and the calls of its own that are observed. -/
inductive CliEvent where
  | wrote (data : Bytes)
  /-- `history_slot` with this index. -/
  | slot (index : ℕ)
  /-- `execute_line` on the string in the line buffer. -/
  | executed (line : Bytes)
  /-- The filter is given the string in the line buffer. -/
  | filtered (line : Bytes)
  /-- The command's handler is called on what was that line before its name was cut off. -/
  | dispatched (command : CliCommand) (line : Bytes)
deriving DecidableEq

/-- What the application answers while a line is executed. -/
structure CliReply where
  claimed : Bool
  filterWrote : Bytes
  status : ℤ
  handlerWrote : Bytes
  /-- The line buffer as the handler leaves it. -/
  left : ℕ → UInt8

def cliWriteBytes (data : Bytes) : List CliEvent := if data = [] then [] else [.wrote data]

/-- `cli_printf`, of a text that is already formatted. -/
def cliPrintf (text : Bytes) : List CliEvent :=
  cliWriteBytes (text.take (CLI_PRINTF_BUFFER_SIZE - 1))

namespace Cli

def writePrompt (cli : Cli) : List CliEvent := cliWriteBytes ((cli.prompt.map CString.bytes).getD [])

section tokens

/-- The bytes of the line from `parse_pos` on. -/
def unparsed (cli : Cli) : Bytes := span cli.line cli.parsePos (cli.lineLen - cli.parsePos)

def skipSeparators (cli : Cli) : Cli :=
  { cli with parsePos := cli.parsePos + (cli.unparsed.takeWhile isSeparator).length }

def argsExhausted (cli : Cli) : Bool × Cli :=
  let cli := cli.skipSeparators
  (cli.parsePos ≥ cli.lineLen, cli)

/-- `cli_next_token`: the token as a string, the separator behind it cut off. -/
def nextToken (cli : Cli) : Option Bytes × Cli :=
  let cli := cli.skipSeparators
  if cli.parsePos ≥ cli.lineLen then (none, cli)
  else
    let start := cli.parsePos
    let cli :=
      { cli with parsePos := start + (cli.unparsed.takeWhile fun c => !isSeparator c).length }
    let cli :=
      if cli.parsePos < cli.lineLen then
        { cli with line := cli.line.set cli.parsePos 0, parsePos := cli.parsePos + 1 }
      else cli
    (some (stringAt cli.line start), cli)

end tokens

section dispatch

/-- `"%-16s"`. -/
def padded (name : Bytes) : Bytes := name ++ List.replicate (16 - name.length) 0x20

def printHelp (cli : Cli) : List CliEvent :=
  (cli.commands.flatMap fun command =>
    let name := (command.name.map CString.bytes).getD []
    match command.help with
    | some help => cliPrintf (ascii "  " ++ padded name ++ ascii " " ++ help.bytes ++ ascii "\r\n")
    | none => cliPrintf (ascii "  " ++ name ++ ascii "\r\n")) ++
  if cli.enableHelp then cliWriteBytes (ascii "  help             list commands\r\n") else []

def findCommand (cli : Cli) (name : Bytes) : Option CliCommand :=
  cli.commands.find? fun command => equalsIgnoreCase name ((command.name.map CString.bytes).getD [])

def printError (status : ℤ) : List CliEvent :=
  cliPrintf (ascii "error " ++ ascii (toString status) ++ ascii "\r\n")

/-- The end of `execute_line`, for a line the filter did not claim. -/
def dispatch (reply : CliReply) (cli : Cli) : List CliEvent × Cli :=
  let line := stringAt cli.line 0
  match cli.nextToken with
  | (none, cli) => ([], cli)
  | (some name, cli) =>
      if cli.enableHelp && (equalsIgnoreCase name (ascii "help") || equalsIgnoreCase name (ascii "?"))
      then (cli.printHelp, cli)
      else
        match cli.findCommand name with
        | none => (cliPrintf (ascii "unknown command: " ++ name ++ ascii "\r\n"), cli)
        | some command =>
            if !command.handler then (printError CLI_ERR_STATE, cli)
            else
              (.dispatched command line :: cliWriteBytes reply.handlerWrote ++
                  (if reply.status ≠ 0 then printError reply.status else []),
                { cli with line := cli.line.mapIdx fun i _ => reply.left i })

/-- True when the filter claimed the line. -/
def executeLine (reply : CliReply) (cli : Cli) : Bool × List CliEvent × Cli :=
  let cli := { cli with line := cli.line.set cli.lineLen 0, parsePos := 0 }
  let line := stringAt cli.line 0
  let (exhausted, cli) := cli.argsExhausted
  if exhausted then (false, [.executed line], cli)
  else
    let cli := { cli with parsePos := 0 }
    let asked := if cli.lineFilter then .filtered line :: cliWriteBytes reply.filterWrote else []
    if cli.lineFilter && reply.claimed then (true, .executed line :: asked, cli)
    else
      let (events, cli) := cli.dispatch reply
      (false, .executed line :: asked ++ events, cli)

end dispatch

section editing

def shouldEcho (cli : Cli) : Bool := cli.echo && !cli.lineIsRaw

/-- What is written if the line is echoed. -/
def echoed (cli : Cli) (events : List CliEvent) : List CliEvent :=
  if cli.shouldEcho then events else []

/-- `'\b'` as often as this. -/
def backspaces (n : ℕ) : List CliEvent := (List.replicate n (cliWriteBytes [0x08])).flatten

def resetLine (cli : Cli) : Cli :=
  { cli with
    lineLen := 0
    parsePos := 0
    editCursor := 0
    overflow := false
    lineIsRaw := false
    escapeState := .none
    historyCursor := 0
    line := cli.line.set 0 0 }

def handleBackspace (cli : Cli) : List CliEvent × Cli :=
  if cli.editCursor = 0 then ([], cli)
  else
    let tailLen := cli.lineLen - cli.editCursor
    let cli :=
      { cli with
        line := move cli.line (cli.editCursor - 1) cli.editCursor tailLen
        lineLen := cli.lineLen - 1
        editCursor := cli.editCursor - 1 }
    let cli := { cli with line := cli.line.set cli.lineLen 0 }
    (cli.echoed (cliWriteBytes [0x08] ++ cliWriteBytes (span cli.line cli.editCursor tailLen) ++
      cliWriteBytes [0x20] ++ backspaces (tailLen + 1)), cli)

def cursorLeft (cli : Cli) : List CliEvent × Cli :=
  if cli.editCursor = 0 then ([], cli)
  else
    let cli := { cli with editCursor := cli.editCursor - 1 }
    (cli.echoed (cliWriteBytes [0x08]), cli)

def cursorRight (cli : Cli) : List CliEvent × Cli :=
  if cli.editCursor ≥ cli.lineLen then ([], cli)
  else
    (cli.echoed (cliWriteBytes (span cli.line cli.editCursor 1)),
      { cli with editCursor := cli.editCursor + 1 })

def insertCharAtCursor (c : UInt8) (cli : Cli) : List CliEvent × Cli :=
  if cli.lineLen + 1 ≥ cli.lineSize then ([], { cli with overflow := true })
  else
    let tailLen := cli.lineLen - cli.editCursor
    let cli := { cli with line := move cli.line (cli.editCursor + 1) cli.editCursor tailLen }
    let cli := { cli with line := cli.line.set cli.editCursor c, lineLen := cli.lineLen + 1 }
    (cli.echoed (cliWriteBytes (span cli.line cli.editCursor (tailLen + 1)) ++ backspaces tailLen),
      { cli with editCursor := cli.editCursor + 1 })

end editing

section history

/-- The place of a slot in the history buffer. -/
def historySlot (cli : Cli) (index : ℕ) : ℕ := index * cli.historyEntrySize

def historyPush (text : Bytes) (cli : Cli) : List CliEvent × Cli :=
  if cli.historyDepth = 0 then ([], cli)
  else
    let len :=
      if text.length ≥ cli.historyEntrySize then cli.historyEntrySize - 1 else text.length
    let slot := cli.historySlot cli.historyHead
    let buffer := (overwrite cli.historyBuffer slot (text.take len)).set (slot + len) 0
    ([.slot cli.historyHead],
      { cli with
        historyBuffer := buffer
        historyHead := (cli.historyHead + 1) % cli.historyDepth
        historyCount :=
          if cli.historyCount < cli.historyDepth then cli.historyCount + 1 else cli.historyCount })

def replaceLine (text : Bytes) (cli : Cli) : List CliEvent × Cli :=
  let len := if text.length ≥ cli.lineSize then cli.lineSize - 1 else text.length
  let events := cli.echoed
    ((if cli.editCursor < cli.lineLen then
        cliWriteBytes (span cli.line cli.editCursor (cli.lineLen - cli.editCursor)) else []) ++
      (List.replicate cli.lineLen (cliWriteBytes [0x08, 0x20, 0x08])).flatten ++
      cliWriteBytes (text.take len))
  (events,
    { cli with
      line := (overwrite cli.line 0 (text.take len)).set len 0
      lineLen := len
      editCursor := len })

/-- The end of `history_recall`, with its `new_cursor`. -/
def recallAt (newCursor : ℕ) (cli : Cli) : List CliEvent × Cli :=
  if newCursor = 0 then
    let (events, cli) := cli.replaceLine []
    (events, { cli with historyCursor := newCursor })
  else
    let slotIndex := (cli.historyHead + cli.historyDepth - newCursor) % cli.historyDepth
    let entry := stringAt cli.historyBuffer (cli.historySlot slotIndex)
    let (events, cli) := cli.replaceLine entry
    (.slot slotIndex :: events, { cli with historyCursor := newCursor })

/-- The sign of the `direction` of `history_recall`. -/
inductive Direction where
  | older
  | newer

def historyRecall (direction : Direction) (cli : Cli) : List CliEvent × Cli :=
  if cli.historyDepth = 0 ∨ cli.historyCount = 0 then ([], cli)
  else
    match direction with
    | .older =>
        if cli.historyCursor ≥ cli.historyCount then ([], cli)
        else cli.recallAt (cli.historyCursor + 1)
    | .newer => if cli.historyCursor = 0 then ([], cli) else cli.recallAt (cli.historyCursor - 1)

end history

section feeding

def handleEndOfLine (reply : CliReply) (cli : Cli) : List CliEvent × Cli :=
  let newline := cli.echoed (cliWriteBytes (ascii "\r\n"))
  let (filtered, events, cli) :=
    if cli.overflow then (false, cliWriteBytes (ascii "line too long\r\n"), cli)
    else if cli.lineLen > 0 then
      let (pushed, cli) :=
        if !cli.lineIsRaw then cli.historyPush (cli.line.take cli.lineLen) else ([], cli)
      let (filtered, events, cli) := cli.executeLine reply
      (filtered, pushed ++ events, cli)
    else (false, [], cli)
  let cli := cli.resetLine
  (newline ++ events ++ (if !filtered then cli.writePrompt else []), cli)

def handleEscapeLetter (c : UInt8) (cli : Cli) : List CliEvent × Cli :=
  if c = 0x44 then cli.cursorLeft
  else if c = 0x43 then cli.cursorRight
  else if c = 0x41 then cli.historyRecall .older
  else if c = 0x42 then cli.historyRecall .newer
  else ([], cli)

/-- `cli_feed_char`, on an initialised interpreter. -/
def feedChar (cli : Cli) (c : UInt8) (reply : CliReply) : List CliEvent × Cli :=
  if c = 0x0A && cli.lastWasCr then ([], { cli with lastWasCr := false })
  else if c = 0x0D || c = 0x0A then
    { cli with lastWasCr := c = 0x0D, escapeState := .none }.handleEndOfLine reply
  else
    let cli := { cli with lastWasCr := false }
    match cli.escapeState with
    | .gotBracket => { cli with escapeState := .none }.handleEscapeLetter c
    | .gotEsc => ([], { cli with escapeState := if c = 0x5B then .gotBracket else .none })
    | .none =>
        if c = 0x1B then ([], { cli with escapeState := .gotEsc })
        else if c = 0x08 || c = 0x7F then cli.handleBackspace
        else if c < 0x20 then ([], cli)
        else
          let cli :=
            if cli.lineLen = 0 && cli.rawLinePrefix ≠ 0 && c = cli.rawLinePrefix then
              { cli with lineIsRaw := true }
            else cli
          cli.insertCharAtCursor c

end feeding

end Cli

/-- Two commands of one name, or one without a name: what the loops of `cli_init` find first. -/
def checkCommands : List CliCommand → List CliCommand → CliInitResult
  | _, [] => .ok
  | earlier, command :: rest =>
      match command.name with
      | none => .errInvalidArg
      | some name =>
          if name.bytes = [] then .errInvalidArg
          else if earlier.any fun other =>
              equalsIgnoreCase name.bytes ((other.name.map CString.bytes).getD []) then
            .errDuplicateCommand
          else checkCommands (earlier ++ [command]) rest

/-- The tests of `cli_init`. -/
def cliCheck (config : CliConfig) : CliInitResult :=
  if (config.lineBuffer.map List.length).getD 0 < 2 ∨
      (config.commandCount > 0 ∧ config.commands = none) then .errInvalidArg
  else
    match config.historyBuffer with
    | some buffer =>
        if config.historyEntrySize < 2 ∨ buffer.length < config.historyEntrySize then .errInvalidArg
        else if !config.echo then .errHistoryRequiresEcho
        else checkCommands [] ((config.commands.getD []).take config.commandCount)
    | none => checkCommands [] ((config.commands.getD []).take config.commandCount)

/-- `cli_init`: the result, and the interpreter if it is `ok`. -/
def cliInit (config : CliConfig) : CliInitResult × Option Cli :=
  let result := cliCheck config
  if result ≠ .ok then (result, none)
  else
    let cli : Cli :=
      { commands := (config.commands.getD []).take config.commandCount
        line := config.lineBuffer.getD [], lineLen := 0, parsePos := 0, editCursor := 0
        overflow := false, lastWasCr := false, escapeState := .none, lineIsRaw := false
        rawLinePrefix := config.rawLinePrefix, prompt := config.prompt, echo := config.echo
        enableHelp := config.enableHelp, lineFilter := config.lineFilter
        historyBuffer := config.historyBuffer.getD []
        historyEntrySize := config.historyEntrySize
        historyDepth :=
          (config.historyBuffer.map fun buffer => buffer.length / config.historyEntrySize).getD 0
        historyHead := 0, historyCount := 0, historyCursor := 0 }
    (.ok, some cli.resetLine)

end Pico
