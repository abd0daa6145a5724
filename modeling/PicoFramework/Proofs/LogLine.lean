import PicoFramework.Spec.Log

/-! The lines that are handed to the sinks: how long they are, and when they end in CR LF. -/

namespace Pico

def CRLF : Bytes := [0x0D, 0x0A]

variable {level : LogLevel} {timestampUs : UInt64} {tag : Option CString}

section lines

theorem length_logFormatPrefix {capacity : ℕ} (hcapacity : 0 < capacity) :
    (logFormatPrefix capacity level timestampUs tag).length < capacity := by
  unfold logFormatPrefix
  rw [if_neg hcapacity.ne']
  dsimp only
  rw [List.length_take]
  split <;> omega

/-- What there is of the line before its end. -/
def logBody (level : LogLevel) (timestampUs : UInt64) (tag : Option CString)
    (message : Option Bytes) : Bytes :=
  (logFormatPrefix LOG_LINE_LENGTH level timestampUs tag ++ message.getD []).take
    (LOG_LINE_LENGTH - 1)

/-- What `vsnprintf` keeps of a message is what `log_vwrite` counts of it. -/
theorem message_kept {line : Bytes} (hline : line.length < LOG_LINE_LENGTH) (text : Bytes) :
    (if (text.length : ℤ) > 0 then
        line ++ (text.take (LOG_LINE_LENGTH - line.length - 1)).take
          (if (text.length : ℤ).toNat < LOG_LINE_LENGTH - line.length - 1 then
            (text.length : ℤ).toNat
          else LOG_LINE_LENGTH - line.length - 1)
      else line) = (line ++ text).take (LOG_LINE_LENGTH - 1) := by
  have hroom : LOG_LINE_LENGTH - 1 - line.length = LOG_LINE_LENGTH - line.length - 1 := by omega
  rw [List.take_append, List.take_of_length_le (by omega : line.length ≤ LOG_LINE_LENGTH - 1), hroom,
    Int.toNat_natCast]
  generalize LOG_LINE_LENGTH - line.length - 1 = room
  split
  · split
    · rw [List.take_of_length_le (by omega : text.length ≤ room), List.take_length]
    · rw [List.take_take, Nat.min_self]
  · obtain rfl : text = [] := List.length_eq_zero_iff.mp (by omega)
    rw [List.take_nil, List.append_nil]

theorem logLine_eq (message : Option Bytes) :
    logLine level timestampUs tag message =
      if (logBody level timestampUs tag message).length + 2 < LOG_LINE_LENGTH then
        logBody level timestampUs tag message ++ CRLF
      else logBody level timestampUs tag message := by
  have hprefix : (logFormatPrefix LOG_LINE_LENGTH level timestampUs tag).length < LOG_LINE_LENGTH :=
    length_logFormatPrefix (by decide)
  unfold logLine logBody
  generalize logFormatPrefix LOG_LINE_LENGTH level timestampUs tag = line at hprefix ⊢
  cases message with
  | none =>
    rw [Option.getD_none, List.append_nil, List.take_of_length_le (by omega)]
    rfl
  | some text =>
    rw [Option.getD_some, ← message_kept hprefix]
    rfl

theorem crlf_suffix_append (body : Bytes) : CRLF <:+ body ++ CRLF := List.suffix_append _ _

theorem logLine_ends_iff (message : Option Bytes) :
    CRLF <:+ logLine level timestampUs tag message ↔
      (logFormatPrefix LOG_LINE_LENGTH level timestampUs tag ++ message.getD []).length + 2 <
          LOG_LINE_LENGTH ∨
        CRLF <:+ logBody level timestampUs tag message := by
  have hshort : (logBody level timestampUs tag message).length + 2 < LOG_LINE_LENGTH ↔
      (logFormatPrefix LOG_LINE_LENGTH level timestampUs tag ++ message.getD []).length + 2 <
        LOG_LINE_LENGTH := by
    have hlength : LOG_LINE_LENGTH = 160 := rfl
    unfold logBody
    rw [List.length_take]
    omega
  rw [logLine_eq, ← hshort]
  split
  · rename_i hlt
    exact iff_of_true (crlf_suffix_append _) (.inl hlt)
  · rename_i hge
    exact (or_iff_right hge).symm

theorem length_logLine_le (message : Option Bytes) :
    (logLine level timestampUs tag message).length ≤ LOG_LINE_LENGTH := by
  have hbody : (logBody level timestampUs tag message).length ≤ LOG_LINE_LENGTH - 1 :=
    List.length_take_le _ _
  rw [logLine_eq]
  split
  · rename_i hlt
    rw [List.length_append]
    exact hlt.le
  · omega

theorem logLine_parts (message : Option Bytes) :
    ∃ kept ending, kept <+: message.getD [] ∧ (ending = CRLF ∨ ending = []) ∧
      logLine level timestampUs tag message =
        logFormatPrefix LOG_LINE_LENGTH level timestampUs tag ++ kept ++ ending := by
  have hprefix : (logFormatPrefix LOG_LINE_LENGTH level timestampUs tag).length < LOG_LINE_LENGTH :=
    length_logFormatPrefix (by decide)
  have hbody : logBody level timestampUs tag message =
      logFormatPrefix LOG_LINE_LENGTH level timestampUs tag ++
        (message.getD []).take
          (LOG_LINE_LENGTH - 1 - (logFormatPrefix LOG_LINE_LENGTH level timestampUs tag).length) := by
    rw [logBody, List.take_append, List.take_of_length_le (by omega)]
  rw [logLine_eq]
  split
  · exact ⟨_, CRLF, List.take_prefix _ _, .inl rfl, by rw [← hbody]⟩
  · exact ⟨_, [], List.take_prefix _ _, .inr rfl, by rw [List.append_nil, ← hbody]⟩

end lines

/-- Every text that is handed to a sink, and exactly when it is a whole line. -/
theorem log_lines_end_iff (log : Log) (level : LogLevel) (tag : Option CString)
    (timestampUs : UInt64) (message : Option Bytes) :
    ∀ handed ∈ (logVwrite log level tag timestampUs message).1,
      handed.2.length ≤ LOG_LINE_LENGTH ∧
      (∃ kept ending, kept <+: message.getD [] ∧ (ending = CRLF ∨ ending = []) ∧
        handed.2 = logFormatPrefix LOG_LINE_LENGTH level timestampUs tag ++ kept ++ ending) ∧
      (CRLF <:+ handed.2 ↔
        (logFormatPrefix LOG_LINE_LENGTH level timestampUs tag ++ message.getD []).length + 2 <
            LOG_LINE_LENGTH ∨
          CRLF <:+ (logFormatPrefix LOG_LINE_LENGTH level timestampUs tag ++ message.getD []).take
            (LOG_LINE_LENGTH - 1)) := by
  intro handed hhanded
  unfold logVwrite at hhanded
  split at hhanded
  · exact absurd hhanded List.not_mem_nil
  split at hhanded
  · exact absurd hhanded List.not_mem_nil
  obtain ⟨sink, -, rfl⟩ := List.mem_map.mp hhanded
  exact ⟨length_logLine_le message, logLine_parts message, logLine_ends_iff message⟩

/-- A log of everything to the console. -/
def consoleLog : Log := (logAddStdioSink (logInit LOG_LEVEL_TRACE) LOG_LEVEL_TRACE).2

/-- A message of three letters. -/
theorem log_lines_end_iff_short :
    CRLF <:+ logLine LOG_LEVEL_INFO 1000 none (some [0x61, 0x62, 0x63]) := by
  have hhanded : (⟨.stdio, LOG_LEVEL_TRACE⟩,
        logLine LOG_LEVEL_INFO 1000 none (some [0x61, 0x62, 0x63])) ∈
      (logVwrite consoleLog LOG_LEVEL_INFO none 1000 (some [0x61, 0x62, 0x63])).1 := by decide
  obtain ⟨-, -, hends⟩ := log_lines_end_iff consoleLog LOG_LEVEL_INFO none 1000
    (some [0x61, 0x62, 0x63]) _ hhanded
  exact hends.mpr (.inl (by decide))

/-- A message that leaves room for two bytes of the buffer, and one of them is for the terminator. -/
theorem log_line_unended :
    ∃ handed ∈ (logVwrite consoleLog LOG_LEVEL_INFO none 1000
        (some (List.replicate 143 0x61))).1,
      handed.2.length = 158 ∧ ¬ CRLF <:+ handed.2 := by
  have hprefix : (logFormatPrefix LOG_LINE_LENGTH LOG_LEVEL_INFO 1000 none).length = 15 := by decide
  have hlength : (logFormatPrefix LOG_LINE_LENGTH LOG_LEVEL_INFO 1000 none ++
      List.replicate 143 (0x61 : UInt8)).length = 158 := by
    rw [List.length_append, hprefix, List.length_replicate]
  have hbody : logBody LOG_LEVEL_INFO 1000 none (some (List.replicate 143 0x61)) =
      logFormatPrefix LOG_LINE_LENGTH LOG_LEVEL_INFO 1000 none ++ List.replicate 143 0x61 := by
    rw [logBody, Option.getD_some, List.take_of_length_le (by rw [hlength]; decide)]
  have hline : logLine LOG_LEVEL_INFO 1000 none (some (List.replicate 143 0x61)) =
      logFormatPrefix LOG_LINE_LENGTH LOG_LEVEL_INFO 1000 none ++ List.replicate 143 0x61 := by
    rw [logLine_eq, hbody, hlength, if_neg (by decide)]
  refine ⟨(⟨.stdio, LOG_LEVEL_TRACE⟩, _), List.mem_singleton.mpr rfl, ?_⟩
  dsimp only
  rw [hline]
  refine ⟨hlength, ?_⟩
  rintro ⟨front, hsplit⟩
  have hlast := congrArg List.getLast? hsplit
  rw [List.getLast?_append, List.getLast?_append, List.getLast?_replicate] at hlast
  have hletter : (0x0A : UInt8) = 0x61 := Option.some.inj hlast
  exact absurd hletter (by decide)

end Pico
