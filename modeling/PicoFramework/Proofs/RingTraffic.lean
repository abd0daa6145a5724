import PicoFramework.Proofs.RingFifo

/-! One producer and one consumer at the ring buffer at once. Each goes through its calls one
access to the memory at a time, and an interrupt may fall between any two. -/

namespace Pico

open Lib.Interleave

inductive ProducerCall where
  | push (byte : UInt8)
  | write (data : Bytes)

inductive ConsumerCall where
  | pop
  | peek
  | read (len : ℕ)
  | peekBytes (len : ℕ)
  | discard (len : ℕ)

/-- What the two sides have been answered so far. -/
structure Traffic where
  accepted : Bytes
  obtained : Bytes
  /-- The sum of what the consumer's calls said they took. -/
  count : ℕ
  /-- The bytes each call of the consumer handed out, after so many obtained. -/
  shown : List (ℕ × Bytes)

def Traffic.accept (r : Traffic) (bytes : Bytes) : Traffic :=
  { r with accepted := r.accepted ++ bytes }

def Traffic.obtain (r : Traffic) (taken : Bytes) (n : ℕ) (bytes : Bytes) : Traffic where
  accepted := r.accepted
  obtained := r.obtained ++ taken
  count := r.count + n
  shown := r.shown ++ [(r.obtained.length, bytes)]

def ringProducer : Party RingBuffer Traffic ProducerCall ℕ where
  program
    | .push byte => do
        let ok ← ringBufferPush byte
        pure ok.toNat
    | .write data => ringBufferWrite data
  commit
    | .push byte, n, r => r.accept ([byte].take n)
    | .write data, n, r => r.accept (data.take n)

/-- The bytes handed out, and how many the call says it took; those it discards count as
obtained. -/
def ringConsumer : Party RingBuffer Traffic ConsumerCall (Bytes × ℕ) where
  program
    | .pop => do
        let byte ← ringBufferPop
        pure (byte.toList, byte.toList.length)
    | .peek => do
        let byte ← ringBufferPeek
        pure (byte.toList, 0)
    | .read len => ringBufferRead len
    | .peekBytes len => do
        let bytes ← ringBufferPeekBytes len
        pure (bytes, 0)
    | .discard len => do
        let n ← ringBufferDiscard len
        pure ([], n)
  commit
    | .discard _, answer, r =>
        r.obtain ((r.accepted.drop r.obtained.length).take answer.2) answer.2 answer.1
    | _, answer, r => r.obtain (answer.1.take answer.2) answer.2 answer.1

/-- Whatever the consumer was given is what the producer put there. -/
structure Faithful (r : Traffic) : Prop where
  count_eq : r.count = r.obtained.length
  shown : ∀ e ∈ r.shown, e.2 <+: r.accepted.drop e.1

theorem Faithful.accept {r : Traffic} (h : Faithful r) (bytes : Bytes) :
    Faithful (r.accept bytes) where
  count_eq := h.count_eq
  shown e he := by
    refine (h.shown e he).trans ?_
    change _ <+: (r.accepted ++ bytes).drop e.1
    rw [List.drop_append]
    exact List.prefix_append _ _

theorem Faithful.obtain {r : Traffic} (h : Faithful r) {taken bytes : Bytes} {n : ℕ}
    (hn : n = taken.length) (hbytes : bytes <+: r.accepted.drop r.obtained.length) :
    Faithful (r.obtain taken n bytes) where
  count_eq := by
    change r.count + n = (r.obtained ++ taken).length
    rw [List.length_append, h.count_eq, hn]
  shown e he := by
    rcases List.mem_append.mp he with hold | hnew
    · exact h.shown e hold
    · rw [List.mem_singleton.mp hnew]
      exact hbytes

/-- What is relied on, with the record faithful throughout. -/
abbrev trafficProducerRely (s t : RingBuffer × Traffic) : Prop :=
  ProducerRely Traffic.accepted Traffic.obtained s t ∧ Faithful t.2

abbrev trafficConsumerRely (s t : RingBuffer × Traffic) : Prop :=
  ConsumerRely Traffic.accepted Traffic.obtained s t ∧ Faithful t.2

abbrev TrafficKept (s : RingBuffer × Traffic) : Prop :=
  Kept Traffic.accepted Traffic.obtained s ∧ Faithful s.2

theorem ringProducer_sound :
    Upheld TrafficKept trafficProducerRely trafficConsumerRely ringProducer := by
  intro op s hkept
  cases op with
  | push byte =>
    unfold ringProducer
    simp only
    rw [wp_bind]
    refine wp_mono (wp_frame (ringBufferPush_spec byte (.refl hkept.1)) hkept.2)
      fun ok s' t' h => ?_
    obtain ⟨⟨hpublished, -⟩, hfaithful⟩ := h
    rw [wp_pure]
    refine ⟨hpublished.commit _ ?_ rfl, hfaithful.accept _⟩
    change t'.2.accepted ++ _ = _
    rw [hpublished.acc_eq]
    cases ok with
    | false => rfl
    | true => rfl
  | write data =>
    refine wp_mono (wp_frame (ringBufferWrite_spec data (.refl hkept.1)) hkept.2)
      fun n s' t' h => ?_
    obtain ⟨⟨hpublished, -⟩, hfaithful⟩ := h
    refine ⟨hpublished.commit _ ?_ rfl, hfaithful.accept _⟩
    change t'.2.accepted ++ _ = _
    rw [hpublished.acc_eq]

section consumer

variable {s t s' t' : RingBuffer × Traffic} {seen taken bytes : Bytes} {n : ℕ}

theorem Saw.shown (h : Saw Traffic.accepted Traffic.obtained t t' seen) (n : ℕ) :
    (seen.drop t.2.obtained.length).take n <+: t'.2.accepted.drop t.2.obtained.length :=
  (List.take_prefix _ _).trans (h.visible.drop _)

theorem Consumed.obtain (h : Consumed Traffic.accepted Traffic.obtained t taken s' t')
    (hfaithful : Faithful t'.2) (hn : n = taken.length)
    (hbytes : bytes <+: t'.2.accepted.drop t.2.obtained.length) :
    trafficProducerRely s' (t'.1, t'.2.obtain taken n bytes) := by
  have hsame : t'.2.obtained = t.2.obtained := h.obt_eq
  refine ⟨h.commit _ rfl ?_, hfaithful.obtain hn (by rwa [hsame])⟩
  change t'.2.obtained ++ taken = t.2.obtained ++ taken
  rw [hsame]

theorem ringConsumer_sound :
    Upheld TrafficKept trafficConsumerRely trafficProducerRely ringConsumer := by
  intro op s hkept
  cases op with
  | pop =>
    unfold ringConsumer
    simp only
    rw [wp_bind]
    refine wp_mono (wp_frame (ringBufferPop_spec (.refl hkept.1)) hkept.2) fun byte s' t' h => ?_
    obtain ⟨⟨hconsumed, seen, hsaw, hbyte⟩, hfaithful⟩ := h
    rw [wp_pure, List.take_length]
    refine hconsumed.obtain hfaithful rfl ?_
    have hshown := hsaw.shown 1
    rw [List.take_one, ← hbyte] at hshown
    exact hshown
  | peek =>
    unfold ringConsumer
    simp only
    rw [wp_bind]
    refine wp_mono (wp_frame (ringBufferPeek_spec (.refl hkept.1)) hkept.2) fun byte s' t' h => ?_
    obtain ⟨⟨hconsumed, seen, hsaw, hbyte⟩, hfaithful⟩ := h
    rw [wp_pure, List.take_zero]
    refine hconsumed.obtain hfaithful rfl ?_
    have hshown := hsaw.shown 1
    rw [List.take_one, ← hbyte] at hshown
    exact hshown
  | read len =>
    refine wp_mono (wp_frame (ringBufferRead_spec len (.refl hkept.1)) hkept.2)
      fun read s' t' h => ?_
    obtain ⟨⟨hconsumed, hcount, seen, hsaw, hbytes⟩, hfaithful⟩ := h
    change trafficProducerRely s' (t'.1, t'.2.obtain (read.1.take read.2) read.2 read.1)
    rw [hcount, List.take_length]
    refine hconsumed.obtain hfaithful rfl ?_
    rw [hbytes]
    exact hsaw.shown len
  | peekBytes len =>
    unfold ringConsumer
    simp only
    rw [wp_bind]
    refine wp_mono (wp_frame (ringBufferPeekBytes_spec len (.refl hkept.1)) hkept.2)
      fun bytes s' t' h => ?_
    obtain ⟨⟨hguar, hrely, seen, hsaw, rfl⟩, hfaithful⟩ := h
    rw [wp_pure, List.take_zero]
    exact (Consumed.nothing hguar hrely).obtain hfaithful rfl (hsaw.shown len)
  | discard len =>
    unfold ringConsumer
    simp only
    rw [wp_bind]
    refine wp_mono (wp_frame (ringBufferDiscard_spec len (.refl hkept.1)) hkept.2)
      fun n s' t' h => ?_
    obtain ⟨⟨seen, hsaw, hn, hconsumed⟩, hfaithful⟩ := h
    have hlength : n = ((seen.drop s.2.obtained.length).take len).length := by
      rw [hn, List.length_take, List.length_drop]
    have htaken : (t'.2.accepted.drop t'.2.obtained.length).take n =
        (seen.drop s.2.obtained.length).take len := by
      have hsame : t'.2.obtained = s.2.obtained := hconsumed.obt_eq
      obtain ⟨more, hmore⟩ := hsaw.shown len
      rw [hsame, ← hmore, hlength, List.take_left]
    rw [wp_pure]
    change trafficProducerRely s' (t'.1, t'.2.obtain _ n [])
    rw [htaken]
    exact hconsumed.obtain hfaithful hlength (List.nil_prefix)

end consumer

/-- Whatever the schedule, the consumer has obtained a prefix of what the producer had
accepted, was shown nothing else, and what it has not yet obtained is in the buffer. -/
theorem ringBuffer_interleaved {storage : Option Bytes} {rb : RingBuffer}
    (hinit : ringBufferInit storage = some rb)
    (schedule : List (Move ProducerCall ConsumerCall)) :
    ∃ w, (System.idle rb ⟨[], [], 0, []⟩).moves ringProducer ringConsumer schedule = w ∧
      w.record.obtained <+: w.record.accepted ∧
      w.record.count = w.record.obtained.length ∧
      (∀ e ∈ w.record.shown, e.2 <+: w.record.accepted.drop e.1) ∧
      w.memory.content = w.record.accepted.drop w.record.obtained.length := by
  have hstart : TrafficKept (rb, ⟨[], [], 0, []⟩) :=
    ⟨ringBufferInit_buffered hinit, rfl, fun e he => absurd he (List.not_mem_nil)⟩
  have hend : Consistent ringProducer ringConsumer _ _ _
      ((System.idle rb ⟨[], [], 0, []⟩).moves ringProducer ringConsumer schedule) :=
    (Consistent.idle hstart).moves (compatible.frame fun s => Faithful s.2) ringProducer_sound
      ringConsumer_sound schedule
  obtain ⟨hkept, hfaithful⟩ := hend.holds
  exact ⟨_, rfl, hkept.obtained_prefix, hfaithful.count_eq, hfaithful.shown, hkept.content_eq⟩

/-- A push and a pop that take turns, and two more of each, of which the last push wraps around. -/
def wrapping : List (Move ProducerCall ConsumerCall) :=
  .startLeft (.push 7) :: List.replicate 6 .stepLeft ++
    .startLeft (.push 8) :: .startRight .pop ::
      (List.replicate 6 [.stepLeft, .stepRight]).flatten ++
    .startLeft (.push 9) :: List.replicate 6 .stepLeft ++
    .startRight (.read 2) :: List.replicate 12 .stepRight ++
    .startLeft (.push 4) :: List.replicate 6 .stepLeft

theorem ringBuffer_interleaved_wrapped :
    ∃ w, (System.idle ⟨[0, 0, 0], 0, 0⟩ ⟨[], [], 0, []⟩).moves ringProducer ringConsumer wrapping = w ∧
      w.memory.storage = [4, 8, 9] ∧ w.record.accepted = [7, 8, 9, 4] ∧
      w.record.obtained = [7, 8, 9] ∧ w.record.count = 3 ∧
      (∀ e ∈ w.record.shown, e.2 <+: [7, 8, 9, 4].drop e.1) ∧ w.memory.content = [4] := by
  obtain ⟨w, hw, -, hcount, hshown, hcontent⟩ := ringBuffer_interleaved
    (show ringBufferInit (some [0, 0, 0]) = some ⟨[0, 0, 0], 0, 0⟩ from rfl) wrapping
  have hstorage : w.memory.storage = [4, 8, 9] := hw ▸ by decide +kernel
  have haccepted : w.record.accepted = [7, 8, 9, 4] := hw ▸ by decide +kernel
  have hobtained : w.record.obtained = [7, 8, 9] := hw ▸ by decide +kernel
  rw [hobtained] at hcount hcontent
  rw [haccepted] at hshown hcontent
  exact ⟨w, hw, hstorage, haccepted, hobtained, hcount, hshown, hcontent⟩

end Pico
