import PicoFramework.Lib.Queue
import PicoFramework.Lib.Run
import PicoFramework.Proofs.RingBuffer

/-! With nobody interfering the ring buffer is a queue that holds one byte less than its
storage has. -/

namespace Pico

open Lib.Interleave Lib.Circular Lib.Queue Lib.Run

/-- Each call of a queue, made on the ring buffer. -/
def RingBuffer.answer (rb : RingBuffer) : Op UInt8 → Answer UInt8 × RingBuffer
  | .push byte => ((ringBufferPush byte).run rb).map .flag id
  | .write data => ((ringBufferWrite data).run rb).map .number id
  | .pop => (ringBufferPop.run rb).map .element id
  | .peek => (ringBufferPeek.run rb).map .element id
  | .read len => ((ringBufferRead len).run rb).map (fun r => .elements r.1 r.2) id
  | .peekMany len => ((ringBufferPeekBytes len).run rb).map (fun bs => .elements bs bs.length) id
  | .discard len => ((ringBufferDiscard len).run rb).map .number id
  | .clear => (ringBufferClear.run rb).map (fun _ => .nothing) id
  | .count => (ringBufferCount.run rb).map .number id
  | .free => (ringBufferFree.run rb).map .number id

/-- The bytes from the tail on. -/
def RingBuffer.content (rb : RingBuffer) : Bytes :=
  (List.range (ringBufferCount.run rb).1).map fun i =>
    rb.storage.getD ((rb.tail + i) % rb.size) 0

/-- The buffer holds what the queue does. -/
def HoldsQueue (rb : RingBuffer) (q : Fifo UInt8) : Prop :=
  ∃ accepted obtained, Buffered rb accepted obtained ∧
    q.content = accepted.drop obtained.length ∧ q.capacity = rb.size - 1

section alone

variable {rb rb' : RingBuffer} {accepted obtained bytes : Bytes} {q : Fifo UInt8}

theorem Buffered.count_eq (h : Buffered rb accepted obtained) :
    (ringBufferCount.run rb).1 = accepted.length - obtained.length := by
  have hrun : (ringBufferCount.run rb).1 =
      if rb.head ≥ rb.tail then rb.head - rb.tail else rb.size - rb.tail + rb.head := rfl
  rw [hrun, h.head_eq, h.tail_eq]
  exact distance_eq h.obtained_prefix.length_le h.fits

theorem Buffered.content_eq (h : Buffered rb accepted obtained) :
    rb.content = accepted.drop obtained.length := by
  unfold RingBuffer.content
  rw [h.count_eq]
  refine List.ext_getElem? fun i => ?_
  rw [List.getElem?_map, List.getElem?_drop]
  rcases Nat.lt_or_ge i (accepted.length - obtained.length) with hlt | hge
  · have hbyte := h.getD_eq (List.prefix_refl _) (Nat.le_add_right _ i) (by omega)
    rw [List.getElem?_range hlt, Option.map_some, ← hbyte, h.tail_eq, Nat.mod_add_mod]
  · rw [List.getElem?_eq_none (by rw [List.length_range]; exact hge),
      List.getElem?_eq_none (by omega)]
    rfl

theorem Buffered.index_lt (h : Buffered rb accepted obtained) :
    rb.head < rb.size ∧ rb.tail < rb.size := by
  have htwo := h.two_le
  rw [h.head_eq, h.tail_eq]
  exact ⟨Nat.mod_lt _ (by omega), Nat.mod_lt _ (by omega)⟩

theorem Published.alone {s' : RingBuffer × Bytes × Bytes}
    (h : Published Prod.fst Prod.snd (rb, accepted, obtained) bytes s' (rb', accepted, obtained))
    (hq : q.content = (accepted ++ bytes).drop obtained.length) (hcap : q.capacity = rb.size - 1) :
    HoldsQueue rb' q := by
  have hnext := (h.commit (accepted ++ bytes, obtained) rfl rfl).holds
  have hsize : rb'.size = rb.size := h.size_eq
  exact ⟨_, _, hnext, hq, by rw [hcap, hsize]⟩

theorem Consumed.alone {s' : RingBuffer × Bytes × Bytes}
    (h : Consumed Prod.fst Prod.snd (rb, accepted, obtained) bytes s' (rb', accepted, obtained))
    (hq : q.content = accepted.drop (obtained.length + bytes.length))
    (hcap : q.capacity = rb.size - 1) : HoldsQueue rb' q := by
  have hnext := (h.commit (accepted, obtained ++ bytes) rfl rfl).holds
  have hsize : rb'.size = rb.size := h.size_eq
  exact ⟨_, _, hnext, by rw [hq, List.length_append], by rw [hcap, hsize]⟩

theorem Saw.alone {s' : RingBuffer} {seen : Bytes}
    (h : Saw Prod.fst Prod.snd (rb, accepted, obtained) (s', accepted, obtained) seen) :
    seen = accepted :=
  h.visible.eq_of_length_le h.grows.length_le

theorem Buffered.free_eq (h : Buffered rb accepted obtained) :
    (ringBufferFree.run rb).1 = rb.size - 1 - (accepted.length - obtained.length) := by
  rw [← h.count_eq]
  rfl

theorem HoldsQueue.content_eq (h : HoldsQueue rb q) : rb.content = q.content := by
  obtain ⟨accepted, obtained, hholds, hcontent, -⟩ := h
  rw [hholds.content_eq, hcontent]

theorem HoldsQueue.free_eq (h : HoldsQueue rb q) :
    (ringBufferFree.run rb).1 = q.free ∧ (ringBufferCount.run rb).1 = q.content.length := by
  obtain ⟨accepted, obtained, hholds, hcontent, hcap⟩ := h
  rw [hholds.free_eq, hholds.count_eq, Fifo.free, hcontent, hcap, List.length_drop]
  exact ⟨rfl, rfl⟩

/-- What `write` and `push` leave behind the bytes there were. -/
theorem write_content {n : ℕ} (hq : q.content = accepted.drop obtained.length)
    (hle : obtained.length ≤ accepted.length) (hn : n = min bytes.length q.free) :
    (q.write bytes).content = (accepted ++ bytes.take n).drop obtained.length := by
  rw [List.drop_append_of_le_length hle, ← hq, hn, Nat.min_comm, ← List.take_eq_take_min]
  rfl

/-- What `read` and `discard` leave of the bytes there were. -/
theorem taken_content {n : ℕ} (hq : q.content = accepted.drop obtained.length) :
    (q.discard n).content =
      accepted.drop (obtained.length + ((accepted.drop obtained.length).take n).length) := by
  rw [← List.drop_drop, ← hq, List.length_take]
  change q.content.drop n = _
  rcases le_total n q.content.length with hle | hge
  · rw [Nat.min_eq_left hle]
  · rw [Nat.min_eq_right hge, List.drop_length, List.drop_eq_nil_of_le hge]

theorem ringBufferCall_push (byte : UInt8) (h : HoldsQueue rb q) :
    (rb.answer (.push byte)).1 = (q.answer (.push byte)).1 ∧
      HoldsQueue (rb.answer (.push byte)).2 (q.answer (.push byte)).2 := by
  obtain ⟨accepted, obtained, hholds, hcontent, hcap⟩ := h
  have hkept : Kept Prod.fst Prod.snd (rb, accepted, obtained) := hholds
  obtain ⟨s', hpublished, taken, htaken, htaken', hok⟩ :=
    wp_run (fun _ _ h => .refl h.holds) (ringBufferPush_spec byte (.refl hkept))
  have hsame : taken.length = obtained.length := le_antisymm htaken'.length_le htaken.length_le
  have hle := hholds.obtained_prefix.length_le
  have hfree : q.free = rb.size - 1 - (accepted.length - obtained.length) := by
    rw [Fifo.free, hcontent, hcap, List.length_drop]
  have hflag : ((ringBufferPush byte).run rb).1 = decide (0 < q.free) := by
    rw [Bool.eq_iff_iff, decide_eq_true_eq, hok, hsame, hfree]
    change accepted.length + 1 < obtained.length + rb.size ↔ _
    omega
  refine ⟨congrArg Answer.flag hflag, hpublished.alone ?_ hcap⟩
  change (q.write [byte]).content = _
  rw [hflag, write_content hcontent hle rfl]
  rcases Nat.eq_zero_or_pos q.free with hzero | hpos
  · rw [hzero]
    rfl
  · rw [List.length_singleton, Nat.min_eq_left hpos, if_pos (decide_eq_true hpos)]
    rfl

theorem ringBufferCall_write (data : Bytes) (h : HoldsQueue rb q) :
    (rb.answer (.write data)).1 = (q.answer (.write data)).1 ∧
      HoldsQueue (rb.answer (.write data)).2 (q.answer (.write data)).2 := by
  obtain ⟨accepted, obtained, hholds, hcontent, hcap⟩ := h
  have hkept : Kept Prod.fst Prod.snd (rb, accepted, obtained) := hholds
  obtain ⟨s', hpublished, taken, htaken, htaken', hn⟩ :=
    wp_run (fun _ _ h => .refl h.holds) (ringBufferWrite_spec data (.refl hkept))
  have hsame : taken.length = obtained.length := le_antisymm htaken'.length_le htaken.length_le
  have hle := hholds.obtained_prefix.length_le
  have hnumber : ((ringBufferWrite data).run rb).1 = min data.length q.free := by
    rw [Fifo.free, hcontent, hcap, List.length_drop, hn, hsame]
  exact ⟨congrArg Answer.number hnumber,
    hpublished.alone (write_content hcontent hle hnumber) hcap⟩

theorem ringBufferCall_pop (h : HoldsQueue rb q) :
    (rb.answer .pop).1 = (q.answer .pop).1 ∧ HoldsQueue (rb.answer .pop).2 (q.answer .pop).2 := by
  obtain ⟨accepted, obtained, hholds, hcontent, hcap⟩ := h
  have hkept : Kept Prod.fst Prod.snd (rb, accepted, obtained) := hholds
  obtain ⟨s', hconsumed, seen, hsaw, hbyte⟩ :=
    wp_run (fun _ _ h => .refl h.holds) (ringBufferPop_spec (.refl hkept))
  obtain rfl := hsaw.alone
  replace hbyte : (ringBufferPop.run rb).1 = q.content.head? := by rw [hcontent, hbyte]
  refine ⟨congrArg Answer.element hbyte, hconsumed.alone ?_ hcap⟩
  change q.content.drop 1 = _
  rw [hbyte, ← List.drop_drop, ← hcontent]
  cases q.content with
  | nil => rfl
  | cons c cs => rfl

theorem ringBufferCall_peek (h : HoldsQueue rb q) :
    (rb.answer .peek).1 = (q.answer .peek).1 ∧
      HoldsQueue (rb.answer .peek).2 (q.answer .peek).2 := by
  obtain ⟨accepted, obtained, hholds, hcontent, hcap⟩ := h
  have hkept : Kept Prod.fst Prod.snd (rb, accepted, obtained) := hholds
  obtain ⟨s', hconsumed, seen, hsaw, hbyte⟩ :=
    wp_run (fun _ _ h => .refl h.holds) (ringBufferPeek_spec (.refl hkept))
  obtain rfl := hsaw.alone
  replace hbyte : (ringBufferPeek.run rb).1 = q.content.head? := by rw [hcontent, hbyte]
  exact ⟨congrArg Answer.element hbyte, hconsumed.alone hcontent hcap⟩

theorem ringBufferCall_read (len : ℕ) (h : HoldsQueue rb q) :
    (rb.answer (.read len)).1 = (q.answer (.read len)).1 ∧
      HoldsQueue (rb.answer (.read len)).2 (q.answer (.read len)).2 := by
  obtain ⟨accepted, obtained, hholds, hcontent, hcap⟩ := h
  have hkept : Kept Prod.fst Prod.snd (rb, accepted, obtained) := hholds
  obtain ⟨s', hconsumed, hcount, seen, hsaw, hbytes⟩ :=
    wp_run (fun _ _ h => .refl h.holds) (ringBufferRead_spec len (.refl hkept))
  obtain rfl := hsaw.alone
  replace hbytes : ((ringBufferRead len).run rb).1.1 = q.content.take len := by
    rw [hcontent, hbytes]
  have hlength : ((ringBufferRead len).run rb).1.2 = min len q.content.length := by
    rw [hcount, hbytes, List.length_take]
  refine ⟨congrArg₂ Answer.elements hbytes hlength, hconsumed.alone ?_ hcap⟩
  rw [hbytes, hcontent]
  exact taken_content hcontent

theorem ringBufferCall_peekMany (len : ℕ) (h : HoldsQueue rb q) :
    (rb.answer (.peekMany len)).1 = (q.answer (.peekMany len)).1 ∧
      HoldsQueue (rb.answer (.peekMany len)).2 (q.answer (.peekMany len)).2 := by
  obtain ⟨accepted, obtained, hholds, hcontent, hcap⟩ := h
  have hkept : Kept Prod.fst Prod.snd (rb, accepted, obtained) := hholds
  obtain ⟨s', hguar, hrely, seen, hsaw, hbytes⟩ :=
    wp_run (fun _ _ h => .refl h.holds) (ringBufferPeekBytes_spec len (.refl hkept))
  obtain rfl := hsaw.alone
  replace hbytes : ((ringBufferPeekBytes len).run rb).1 = q.content.take len := by
    rw [hcontent, hbytes]
  have hlength : ((ringBufferPeekBytes len).run rb).1.length = min len q.content.length := by
    rw [hbytes, List.length_take]
  have hsize : ((ringBufferPeekBytes len).run rb).2.size = rb.size := hrely.size_eq
  exact ⟨congrArg₂ Answer.elements hbytes hlength, _, _, hrely.holds, hcontent,
    hcap.trans (congrArg (· - 1) hsize.symm)⟩

theorem ringBufferCall_discard (len : ℕ) (h : HoldsQueue rb q) :
    (rb.answer (.discard len)).1 = (q.answer (.discard len)).1 ∧
      HoldsQueue (rb.answer (.discard len)).2 (q.answer (.discard len)).2 := by
  obtain ⟨accepted, obtained, hholds, hcontent, hcap⟩ := h
  have hkept : Kept Prod.fst Prod.snd (rb, accepted, obtained) := hholds
  obtain ⟨s', seen, hsaw, hn, hconsumed⟩ :=
    wp_run (fun _ _ h => .refl h.holds) (ringBufferDiscard_spec len (.refl hkept))
  obtain rfl := hsaw.alone
  have hnumber : ((ringBufferDiscard len).run rb).1 = min len q.content.length := by
    rw [hcontent, List.length_drop, hn]
  exact ⟨congrArg Answer.number hnumber, hconsumed.alone (taken_content hcontent) hcap⟩

/-- `ring_buffer_clear` may only be called while the producer rests. -/
theorem ringBufferCall_clear (h : HoldsQueue rb q) :
    (rb.answer .clear).1 = (q.answer .clear).1 ∧
      HoldsQueue (rb.answer .clear).2 (q.answer .clear).2 := by
  obtain ⟨accepted, obtained, hholds, hcontent, hcap⟩ := h
  refine ⟨rfl, accepted, accepted, ⟨hholds.two_le, List.prefix_refl _, ?_, hholds.head_eq,
    hholds.head_eq, hholds.cells.later hholds.obtained_prefix.length_le⟩, ?_, hcap⟩
  · have htwo := hholds.two_le
    change accepted.length < accepted.length + rb.size
    omega
  · change q.content.drop q.content.length = _
    rw [List.drop_length, List.drop_length]

theorem RingBuffer.answer_refines (op : Op UInt8) (h : HoldsQueue rb q) :
    (rb.answer op).1 = (q.answer op).1 ∧ HoldsQueue (rb.answer op).2 (q.answer op).2 := by
  cases op with
  | push byte => exact ringBufferCall_push byte h
  | write data => exact ringBufferCall_write data h
  | pop => exact ringBufferCall_pop h
  | peek => exact ringBufferCall_peek h
  | read len => exact ringBufferCall_read len h
  | peekMany len => exact ringBufferCall_peekMany len h
  | discard len => exact ringBufferCall_discard len h
  | clear => exact ringBufferCall_clear h
  | count => exact ⟨congrArg Answer.number h.free_eq.2, h⟩
  | free => exact ⟨congrArg Answer.number h.free_eq.1, h⟩

end alone

section looks

open Prog

theorem ringBufferCount_looks : ringBufferCount.Looks :=
  .bind (.load _) fun _ => .bind (.load _) fun _ => .pure _

theorem ringBufferPeek_looks : ringBufferPeek.Looks := by
  apply Looks.bind
  · exact .bind (.load _) fun _ => .bind (.load _) fun _ => .pure _
  · intro empty
    split_ifs
    · exact .pure _
    · exact .bind (.load _) fun _ => .bind (.load _) fun _ => .pure _

theorem copyOut_looks (pos n : ℕ) : (copyOut pos n).Looks := by
  induction n generalizing pos with
  | zero => exact .pure _
  | succ n ih => exact .bind (.load _) fun _ => .bind (ih _) fun _ => .pure _

theorem ringBufferPeekBytes_looks (len : ℕ) : (ringBufferPeekBytes len).Looks := by
  apply Looks.bind ringBufferCount_looks
  intro count
  dsimp only
  generalize (if len < count then len else count) = readable
  split_ifs
  · exact .pure _
  · refine .bind (.load _) fun at_ => .bind (copyOut_looks _ _) fun bytes => ?_
    generalize (if readable < at_.2 - at_.1 then readable else at_.2 - at_.1) = first
    split_ifs
    · exact .bind (copyOut_looks _ _) fun more => .pure _
    · exact .bind (.pure _) fun more => .pure _

end looks

theorem ringBufferInit_buffered {storage : Option Bytes} {rb : RingBuffer}
    (hinit : ringBufferInit storage = some rb) : Buffered rb [] [] := by
  cases storage with
  | none => exact absurd hinit (by simp [ringBufferInit])
  | some storage =>
    simp only [ringBufferInit, Option.bind_eq_bind, Option.bind_some] at hinit
    split_ifs at hinit with hsmall
    obtain rfl := Option.some.inj hinit
    have htwo : 2 ≤ storage.length := by omega
    refine ⟨htwo, List.prefix_refl _, ?_, ?_, ?_, fun i _ hlt => absurd hlt (Nat.not_lt_zero i)⟩
    · change 0 < 0 + storage.length
      omega
    · exact (Nat.zero_mod _).symm
    · exact (Nat.zero_mod _).symm

theorem ringBufferInit_size {storage : Option Bytes} {rb : RingBuffer}
    (hinit : ringBufferInit storage = some rb) : (storage.map List.length).getD 0 = rb.size := by
  cases storage with
  | none => exact absurd hinit nofun
  | some storage =>
    simp only [ringBufferInit, Option.bind_eq_bind, Option.bind_some] at hinit
    split_ifs at hinit
    obtain rfl := Option.some.inj hinit
    rfl

section queue

variable {rb : RingBuffer} {q : Fifo UInt8}

theorem HoldsQueue.write (h : HoldsQueue rb q) (data : Bytes) :
    ((ringBufferWrite data).run rb).1 = min data.length q.free ∧
      HoldsQueue ((ringBufferWrite data).run rb).2 (q.write data) := by
  obtain ⟨hanswer, hnext⟩ := ringBufferCall_write data h
  exact ⟨Answer.number.inj hanswer, hnext⟩

theorem HoldsQueue.pop (h : HoldsQueue rb q) :
    (ringBufferPop.run rb).1 = q.content.head? ∧
      HoldsQueue (ringBufferPop.run rb).2 (q.discard 1) := by
  obtain ⟨hanswer, hnext⟩ := ringBufferCall_pop h
  exact ⟨Answer.element.inj hanswer, hnext⟩

theorem HoldsQueue.peekBytes (h : HoldsQueue rb q) (len : ℕ) :
    ((ringBufferPeekBytes len).run rb).1 = q.content.take len := by
  obtain ⟨hanswer, -⟩ := ringBufferCall_peekMany len h
  exact (Answer.elements.inj hanswer).1

theorem HoldsQueue.discard (h : HoldsQueue rb q) (len : ℕ) :
    HoldsQueue ((ringBufferDiscard len).run rb).2 (q.discard len) :=
  (ringBufferCall_discard len h).2

theorem HoldsQueue.clear (h : HoldsQueue rb q) :
    HoldsQueue (ringBufferClear.run rb).2 (q.discard q.content.length) :=
  (ringBufferCall_clear h).2

theorem ringBufferInit_holds {storage : Option Bytes} (hinit : ringBufferInit storage = some rb) :
    HoldsQueue rb (.empty (rb.size - 1)) :=
  ⟨[], [], ringBufferInit_buffered hinit, rfl, rfl⟩

end queue

/-- Any run of calls is answered as by a queue of one byte less than the storage has. -/
theorem ringBuffer_refines_fifo {storage : Option Bytes} {rb : RingBuffer}
    (hinit : ringBufferInit storage = some rb) (ops : List (Op UInt8)) :
    ∃ answers rb' q, run RingBuffer.answer rb ops = (answers, rb') ∧
      run Fifo.answer (.empty (rb.size - 1)) ops = (answers, q) ∧
      rb'.content = q.content ∧ rb'.size = rb.size ∧
      (ringBufferCount.run rb').1 + (ringBufferFree.run rb').1 = rb'.size - 1 ∧
      rb'.head < rb'.size ∧ rb'.tail < rb'.size ∧
      (rb'.answer .peek).2 = rb' ∧ ∀ len, (rb'.answer (.peekMany len)).2 = rb' := by
  have hstart := ringBufferInit_holds hinit
  obtain ⟨hanswers, hend⟩ : (run RingBuffer.answer rb ops).1 =
        (run Fifo.answer (.empty (rb.size - 1)) ops).1 ∧
      HoldsQueue (run RingBuffer.answer rb ops).2 (run Fifo.answer (.empty (rb.size - 1)) ops).2 :=
    run_refines (fun _ _ op h => RingBuffer.answer_refines op h) _ _ ops hstart
  have hcap : (run Fifo.answer (.empty (rb.size - 1)) ops).2.capacity = rb.size - 1 :=
    run_invariant (fun q op h => (Fifo.answer_capacity q op).trans h) _ ops rfl
  obtain ⟨hfree, hcount⟩ := hend.free_eq
  have hcontent := hend.content_eq
  refine ⟨_, _, _, rfl, Prod.ext hanswers.symm rfl, ?_⟩
  obtain ⟨accepted, obtained, hholds, -, hsize⟩ := hend
  have htwo := hholds.two_le
  have htwo' := (ringBufferInit_buffered hinit).two_le
  rw [hcap] at hsize
  refine ⟨hcontent, by omega, ?_, hholds.index_lt.1, hholds.index_lt.2, ringBufferPeek_looks.run_eq _,
    fun len => (ringBufferPeekBytes_looks len).run_eq _⟩
  rw [hcount, hfree, Fifo.count_add_free, hcap, hsize]

theorem ringBuffer_refines_fifo_three :
    (run RingBuffer.answer ⟨[0, 0, 0], 0, 0⟩ [.write [1, 2, 3], .pop, .push 3, .read 5]).1 =
      [.number 2, .element (some 1), .flag true, .elements [2, 3] 2] := by
  obtain ⟨answers, rb', q, hrun, hspec, -⟩ := ringBuffer_refines_fifo
    (show ringBufferInit (some [0, 0, 0]) = some ⟨[0, 0, 0], 0, 0⟩ from rfl)
    [.write [1, 2, 3], .pop, .push 3, .read 5]
  rw [hrun]
  exact (congrArg Prod.fst hspec).symm

end Pico
