import PicoFramework.Spec.RingBuffer

/-! `log_format.c` and `log.c`. A formatted message is what `vsnprintf` would write of it with enough
room, and `none` where it fails; what `snprintf` or `vsnprintf` leaves in a buffer is given without the
terminator. -/

namespace Pico

open Lib.Interleave

def LOG_LINE_LENGTH : ℕ := 160
def LOG_MAX_SINKS : ℕ := 4

section format

/-- `log_level_t`, as the number it is compared by. -/
abbrev LogLevel := UInt32

def LOG_LEVEL_TRACE : LogLevel := 0
def LOG_LEVEL_INFO : LogLevel := 2
def LOG_LEVEL_NONE : LogLevel := 5

/-- `initials`: "TDIWE-". -/
def logLevelInitials : Bytes := [0x54, 0x44, 0x49, 0x57, 0x45, 0x2D]

def logLevelInitial (level : LogLevel) : UInt8 := logLevelInitials.getD level.toNat 0x3F

def logLevelEnabled (level threshold : LogLevel) : Bool := level ≥ threshold && level < LOG_LEVEL_NONE

/-- A number as `%u` prints it, to a width. -/
def printNumber (fill : UInt8) (width n : ℕ) : Bytes :=
  let digits := (Nat.toDigits 10 n).map fun c => UInt8.ofNat c.toNat
  List.replicate (width - digits.length) fill ++ digits

/-- `[%6llu.%03u] %c %s: `, or without the tag. -/
def logPrefixText (level : LogLevel) (timestampUs : UInt64) (tag : Option CString) : Bytes :=
  let totalMs := timestampUs / 1000
  let seconds := totalMs / 1000
  let milliseconds := totalMs % 1000
  let stamp := 0x5B :: (printNumber 0x20 6 seconds.toNat ++
    0x2E :: (printNumber 0x30 3 milliseconds.toNat ++ [0x5D, 0x20, logLevelInitial level, 0x20]))
  match tag with
  | none => stamp
  | some tag => if tag.length = 0 then stamp else stamp ++ tag.bytes ++ [0x3A, 0x20]

def logFormatPrefix (capacity : ℕ) (level : LogLevel) (timestampUs : UInt64)
    (tag : Option CString) : Bytes :=
  if capacity = 0 then []
  else
    let text := logPrefixText level timestampUs tag
    text.take (if text.length < capacity then text.length else capacity - 1)

/-- What `vsnprintf` returns, and what it leaves in a buffer of that size. -/
def vsnprintf (size : ℕ) : Option Bytes → ℤ × Bytes
  | none => (-1, [])
  | some text => (text.length, text.take (size - 1))

/-- The line that `log_vwrite` hands to the sinks. -/
def logLine (level : LogLevel) (timestampUs : UInt64) (tag : Option CString)
    (message : Option Bytes) : Bytes :=
  let line := logFormatPrefix LOG_LINE_LENGTH level timestampUs tag
  let (written, kept) := vsnprintf (LOG_LINE_LENGTH - line.length) message
  let line :=
    if written > 0 then
      let room := LOG_LINE_LENGTH - line.length - 1
      line ++ kept.take (if written.toNat < room then written.toNat else room)
    else line
  if line.length + 2 < LOG_LINE_LENGTH then line ++ [0x0D, 0x0A] else line

end format

section sinks

/-- `log_sink_fn`: a sink of the log's own, or a caller's function with its context. -/
inductive LogSinkFn where
  | stdio
  | memory
  | given (write ctx : ℕ)
deriving DecidableEq

/-- `sink_t`. -/
structure LogSink where
  write : LogSinkFn
  minLevel : LogLevel
deriving DecidableEq

/-- `g_log`. -/
structure Log where
  sinks : List LogSink
  level : LogLevel
  initialised : Bool
  memory : RingBuffer
  memoryReady : Bool
deriving DecidableEq

def logInit (level : LogLevel) : Log where
  sinks := []
  level := level
  initialised := true
  memory := ⟨[], 0, 0⟩
  memoryReady := false

def logAddSink (log : Log) (write : Option LogSinkFn) (minLevel : LogLevel) : Bool × Log :=
  match write with
  | none => (false, log)
  | some write =>
      if !log.initialised || log.sinks.length ≥ LOG_MAX_SINKS then (false, log)
      else (true, { log with sinks := log.sinks ++ [⟨write, minLevel⟩] })

def logAddStdioSink (log : Log) (minLevel : LogLevel) : Bool × Log :=
  logAddSink log (some .stdio) minLevel

/-- The loop of `memory_sink`: the oldest byte goes until there is room, or nothing is left. -/
def makeRoom (length : ℕ) : ℕ → Prog RingBuffer PUnit
  | 0 => pure ⟨⟩
  | fuel + 1 => do
      let free ← ringBufferFree
      if free < length then do
        let discard ← ringBufferPop
        match discard with
        | none => pure ⟨⟩
        | some _ => makeRoom length fuel
      else pure ⟨⟩

/-- `memory_sink`; there is nothing left to drop after as many bytes as the storage has. -/
def memorySink (text : Bytes) : Prog RingBuffer PUnit := do
  let size ← .load RingBuffer.size
  makeRoom text.length size
  let _ ← ringBufferWrite text
  pure ⟨⟩

/-- `log_add_memory_sink`; a buffer is the bytes of its capacity. -/
def logAddMemorySink (log : Log) (buffer : Option Bytes) (minLevel : LogLevel) : Bool × Log :=
  match ringBufferInit buffer with
  | none => (false, log)
  | some memory =>
      match logAddSink { log with memory := memory } (some .memory) minLevel with
      | (false, log) => (false, log)
      | (true, log) => (true, { log with memoryReady := true })

/-- `log_read_memory`: what it copied out, and the number that it returns. -/
def logReadMemory (log : Log) (capacity : ℕ) : (Bytes × ℕ) × Log :=
  if !log.memoryReady || capacity = 0 then (([], 0), log)
  else
    let (read, memory) := (ringBufferRead capacity).run log.memory
    (read, { log with memory := memory })

def logClearMemory (log : Log) : Log :=
  if log.memoryReady then { log with memory := (ringBufferClear.run log.memory).2 } else log

/-- A line is handed to a sink. -/
def Log.hand (log : Log) (sink : LogSink) (text : Bytes) : Log :=
  match sink.write with
  | .memory => { log with memory := ((memorySink text).run log.memory).2 }
  | .stdio => log
  | .given _ _ => log

/-- `log_vwrite` at a time: what is handed to which sinks, and the log behind it. -/
def logVwrite (log : Log) (level : LogLevel) (tag : Option CString) (timestampUs : UInt64)
    (message : Option Bytes) : List (LogSink × Bytes) × Log :=
  if !log.initialised || log.sinks = [] then ([], log)
  else if !logLevelEnabled level log.level then ([], log)
  else
    let line := logLine level timestampUs tag message
    let taking := log.sinks.filter fun sink => level ≥ sink.minLevel
    (taking.map fun sink => (sink, line), taking.foldl (fun log sink => log.hand sink line) log)

end sinks

end Pico
