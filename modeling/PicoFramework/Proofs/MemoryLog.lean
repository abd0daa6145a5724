import PicoFramework.Lib.Newest
import PicoFramework.Proofs.RingFifo
import PicoFramework.Spec.Log

/-! The log in memory: what the ring holds of the output that nobody has read. -/

namespace Pico

open Lib.Interleave Lib.Newest Lib.Queue Lib.Run

section sinks

variable {rb : RingBuffer} {q : Fifo UInt8}

theorem HoldsQueue.congr {q' : Fifo UInt8} (h : HoldsQueue rb q) (hcontent : q'.content = q.content)
    (hcapacity : q'.capacity = q.capacity) : HoldsQueue rb q' := by
  obtain ⟨accepted, obtained, hholds, hq, hcap⟩ := h
  exact ⟨accepted, obtained, hholds, hcontent.trans hq, hcapacity.trans hcap⟩

theorem makeRoom_succ (length fuel : ℕ) (h : HoldsQueue rb q) :
    ((makeRoom length (fuel + 1)).run rb).2 =
      if q.free < length then
        match q.content.head? with
        | none => (ringBufferPop.run rb).2
        | some _ => ((makeRoom length fuel).run (ringBufferPop.run rb).2).2
      else rb := by
  have hfree : (ringBufferFree.run rb).1 = q.free := h.free_eq.1
  have hlooks : (ringBufferFree.run rb).2 = rb := rfl
  rw [makeRoom, Prog.run_bind, hfree, hlooks]
  split
  · rw [Prog.run_bind, h.pop.1]
    cases q.content.head? <;> rfl
  · rfl

theorem makeRoom_holds (length : ℕ) {fuel : ℕ} (h : HoldsQueue rb q)
    (hfuel : q.content.length ≤ fuel) :
    HoldsQueue ((makeRoom length fuel).run rb).2 (q.discard (length - q.free)) := by
  induction fuel generalizing rb q with
  | zero =>
    have hnil : q.content = [] := List.length_eq_zero_iff.mp (Nat.le_zero.mp hfuel)
    exact h.congr (by rw [Fifo.discard_content, hnil, List.drop_nil]) rfl
  | succ fuel ih =>
    have hpopped := h.pop.2
    have hfits := q.fits
    rw [makeRoom_succ length fuel h]
    split
    · rename_i hfull
      cases hcontent : q.content with
      | nil =>
        refine hpopped.congr ?_ rfl
        rw [Fifo.discard_content, Fifo.discard_content, hcontent, List.drop_nil, List.drop_nil]
      | cons byte rest =>
        have hshorter : (q.discard 1).content.length ≤ fuel := by
          rw [Fifo.discard_content, List.length_drop]
          omega
        have hlength : q.content.length = rest.length + 1 := by rw [hcontent, List.length_cons]
        have hnext : (q.discard 1).free = q.free + 1 := by
          rw [Fifo.free, Fifo.free, Fifo.discard_content, Fifo.discard_capacity, List.length_drop]
          omega
        refine (ih hpopped hshorter).congr ?_ rfl
        rw [Fifo.discard_content, Fifo.discard_content, Fifo.discard_content, List.drop_drop, hnext]
        congr 1
        omega
    · rename_i hroom
      refine h.congr ?_ rfl
      rw [Fifo.discard_content, Nat.sub_eq_zero_of_le (not_lt.mp hroom), List.drop_zero]

theorem memorySink_holds (text : Bytes) (h : HoldsQueue rb q) :
    HoldsQueue ((memorySink text).run rb).2 (makeRoomAndWrite q text) := by
  have hfuel : q.content.length ≤ rb.size := by
    obtain ⟨accepted, obtained, -, -, hcapacity⟩ := h
    have hfits := q.fits
    omega
  have hroom := makeRoom_holds text.length h hfuel
  have hrun : ((memorySink text).run rb).2 =
      ((ringBufferWrite text).run ((makeRoom text.length rb.size).run rb).2).2 := by
    rw [memorySink, Prog.run_bind, Prog.run_load, Prog.run_bind, Prog.run_bind, Prog.run_pure]
  rw [hrun]
  exact (hroom.write text).2

end sinks

/-- The calls on the log in memory. A sink is handed a line and answers nothing. -/
def Log.answer (log : Log) : Call UInt8 → (Bytes × ℕ) × Log
  | .write text => (([], 0), log.hand ⟨.memory, LOG_LEVEL_TRACE⟩ text)
  | .read capacity => logReadMemory log capacity
  | .clear => (([], 0), logClearMemory log)

section calls

/-- The ring holds what is left of the output. -/
structure Keeps (capacity : ℕ) (log : Log) (unread : Bytes) : Prop where
  ready : log.memoryReady = true
  holds : ∃ q, HoldsQueue log.memory q ∧ q.capacity = capacity ∧ q.content = unread.rtake capacity

/-- A line that the ring does not cut, or cuts without a difference. -/
def FitsIn (capacity : ℕ) : Call UInt8 → Prop
  | .write text => text.take capacity = text.rtake capacity
  | .read _ => True
  | .clear => True

variable {capacity : ℕ} {log : Log} {unread : Bytes}

theorem Keeps.content_eq (h : Keeps capacity log unread) :
    log.memory.content = unread.rtake capacity := by
  obtain ⟨q, hholds, -, hcontent⟩ := h.holds
  rw [hholds.content_eq, hcontent]

theorem Keeps.write (h : Keeps capacity log unread) (text : Bytes) :
    ∃ q, HoldsQueue (log.hand ⟨.memory, LOG_LEVEL_TRACE⟩ text).memory q ∧ q.capacity = capacity ∧
      q.content = (unread.rtake capacity ++ text.take capacity).rtake capacity := by
  obtain ⟨q, hholds, rfl, hcontent⟩ := h.holds
  refine ⟨makeRoomAndWrite q text, memorySink_holds text hholds, rfl, ?_⟩
  rw [content_makeRoomAndWrite, hcontent]

theorem Keeps.read (h : Keeps capacity log unread) (n : ℕ) :
    (logReadMemory log n).1 = (Lib.Newest.answer capacity unread (.read n)).1 ∧
      Keeps capacity (logReadMemory log n).2 (Lib.Newest.answer capacity unread (.read n)).2 := by
  obtain ⟨hready, q, hholds, rfl, hcontent⟩ := h
  unfold logReadMemory Lib.Newest.answer
  dsimp only
  rw [hready]
  by_cases hzero : n = 0
  · subst hzero
    refine ⟨?_, hready, q, hholds, rfl, hcontent⟩
    rw [List.take_zero, Nat.zero_min]
    rfl
  · have hguard : ¬ (!true || decide (n = 0)) = true := by simpa using hzero
    obtain ⟨hanswer, hnext⟩ := ringBufferCall_read n hholds
    obtain ⟨hbytes, hnumber⟩ := Answer.elements.inj hanswer
    rw [if_neg hguard, if_neg hzero, ← hcontent]
    refine ⟨Prod.ext hbytes hnumber, rfl, _, hnext, rfl, ?_⟩
    have hle : (q.content.drop n).length ≤ q.capacity := (List.drop_sublist n _).length_le.trans q.fits
    exact (rtake_of_length_le hle).symm

theorem Keeps.clear (h : Keeps capacity log unread) : Keeps capacity (logClearMemory log) [] := by
  obtain ⟨hready, q, hholds, rfl, hcontent⟩ := h
  have hcleared := hholds.clear
  unfold logClearMemory
  rw [if_pos hready]
  refine ⟨hready, _, hcleared, rfl, ?_⟩
  change q.content.drop q.content.length = _
  rw [List.drop_length, List.rtake_nil]

/-- Each call keeps to the newest output, unless it is a line that the ring cuts and another is left
of it. -/
theorem Keeps.answer (h : Keeps capacity log unread) (call : Call UInt8) :
    (log.answer call).1 = (Lib.Newest.answer capacity unread call).1 ∧
      (FitsIn capacity call →
        Keeps capacity (log.answer call).2 (Lib.Newest.answer capacity unread call).2) ∧
      ((log.answer call).2.memory.content =
          (Lib.Newest.answer capacity unread call).2.rtake capacity → FitsIn capacity call) := by
  cases call with
  | write text =>
    obtain ⟨q, hholds, hcapacity, hcontent⟩ := h.write text
    refine ⟨rfl, fun hfits => ⟨h.ready, q, hholds, hcapacity, ?_⟩, fun hshown => ?_⟩
    · exact hcontent.trans (rtake_append_take_iff.mpr hfits)
    · apply rtake_append_take_iff.mp
      exact (hcontent.symm.trans hholds.content_eq.symm).trans hshown
  | read n =>
    obtain ⟨hanswer, hnext⟩ := h.read n
    exact ⟨hanswer, fun _ => hnext, fun _ => trivial⟩
  | clear => exact ⟨rfl, fun _ => h.clear, fun _ => trivial⟩

theorem keeps_added {log log' : Log} {buffer : Bytes} {minLevel : LogLevel}
    (h : logAddMemorySink log (some buffer) minLevel = (true, log')) :
    Keeps (buffer.length - 1) log' [] := by
  unfold logAddMemorySink at h
  split at h
  · cases h
  rename_i memory hinit
  have hsize : buffer.length = memory.size := ringBufferInit_size hinit
  unfold logAddSink at h
  dsimp only at h
  split at h
  · rename_i heq
    cases h
  · rename_i log'' hadded
    obtain ⟨-, rfl⟩ := Prod.mk.inj h
    split at hadded
    · cases hadded
    obtain ⟨-, rfl⟩ := Prod.mk.inj hadded
    rw [hsize]
    exact ⟨rfl, _, ringBufferInit_holds hinit, rfl, (List.rtake_nil _).symm⟩

end calls

/-- The runs in which the ring always holds the newest output, and its reader gets the oldest of that,
are those whose lines all end with what they begin with, as much of it as the ring holds: those that
the ring holds whole are among them. -/
theorem memoryLog_newest_iff {log log' : Log} {buffer : Bytes} {minLevel : LogLevel}
    (h : logAddMemorySink log (some buffer) minLevel = (true, log')) (calls : List (Call UInt8)) :
    (∀ made, made <+: calls →
      (run Log.answer log' made).1 = (run (Lib.Newest.answer (buffer.length - 1)) [] made).1 ∧
      (run Log.answer log' made).2.memory.content =
        (run (Lib.Newest.answer (buffer.length - 1)) [] made).2.rtake (buffer.length - 1)) ↔
    ∀ text, .write text ∈ calls → text.take (buffer.length - 1) = text.rtake (buffer.length - 1) := by
  have hagrees := run_agrees_iff (Keeps (buffer.length - 1))
    (fun log unread => log.memory.content = unread.rtake (buffer.length - 1))
    (fun _ _ hkeeps => hkeeps.content_eq) (fun _ _ call hkeeps => hkeeps.answer call) (keeps_added h) calls
  rw [hagrees]
  constructor
  · exact fun hall text hmem => hall _ hmem
  · intro hall call hmem
    cases call with
    | write text => exact hall text hmem
    | read n => trivial
    | clear => trivial

/-- A log into a buffer of four bytes. -/
def smallMemoryLog : Log :=
  (logAddMemorySink (logInit LOG_LEVEL_TRACE) (some [0, 0, 0, 0]) LOG_LEVEL_TRACE).2

theorem memoryLog_newest_iff_two :
    (run Log.answer smallMemoryLog [.write [1, 2], .write [3, 4]]).2.memory.content = [2, 3, 4] := by
  have hadded : logAddMemorySink (logInit LOG_LEVEL_TRACE) (some [0, 0, 0, 0]) LOG_LEVEL_TRACE =
      (true, smallMemoryLog) := rfl
  have hlines : ∀ text : Bytes, Call.write text ∈ [.write [1, 2], .write [3, 4]] →
      text.take 3 = text.rtake 3 := by simp [List.rtake]
  have hnewest := (memoryLog_newest_iff hadded [.write [1, 2], .write [3, 4]]).mpr hlines
  exact (hnewest _ (List.prefix_refl _)).2

/-- Of a line of five bytes the first three are left, and not the last. -/
theorem memoryLog_keeps_oldest :
    logAddMemorySink (logInit LOG_LEVEL_TRACE) (some [0, 0, 0, 0]) LOG_LEVEL_TRACE =
        (true, smallMemoryLog) ∧
      (smallMemoryLog.answer (.write [1, 2, 3, 4, 5])).2.memory.content = [1, 2, 3] ∧
      ([1, 2, 3, 4, 5] : Bytes).rtake 3 = [3, 4, 5] := by
  exact ⟨rfl, by decide, by decide⟩

end Pico
