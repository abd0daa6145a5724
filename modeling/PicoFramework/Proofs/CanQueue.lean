import PicoFramework.Proofs.RingTraffic
import PicoFramework.Spec.CanFrame

/-! The frame queue. Every record is sixteen bytes, and both indices only ever move by whole
records, so what is between them is a sequence of whole frames. -/

namespace Pico

open Lib.Interleave Lib.Queue Lib.Wire Lib.Run

/-- What the queue keeps of a message. -/
def CanMessage.canonical (m : CanMessage) : CanMessage :=
  { m with
    data := cleared CAN_MAX_DATA_LENGTH (if m.remote then [] else m.data.take m.length.toNat)
    data_length := length_cleared _ _ }

section records

variable {m : CanMessage}

theorem cleared_eq {size : ℕ} {bytes : Bytes} (h : bytes.length ≤ size) :
    cleared size bytes = bytes ++ List.replicate (size - bytes.length) 0 := by
  rw [cleared, List.take_append, List.take_of_length_le h, List.take_replicate,
    Nat.min_eq_left (Nat.sub_le _ _)]

theorem cleared_zeros (size n : ℕ) : cleared size (List.replicate n 0) = cleared size [] := by
  rw [cleared, cleared, List.replicate_append_replicate, List.nil_append, List.take_replicate,
    List.take_replicate]
  congr 1
  omega

theorem length_encodeRecord (m : CanMessage) : (encodeRecord m).length = 16 :=
  length_cleared _ _

/-- The bytes of the data field that a record carries. -/
def CanMessage.body (m : CanMessage) : Bytes := if m.remote then [] else m.data.take m.length.toNat

theorem length_body_le (m : CanMessage) : m.body.length ≤ 8 := by
  unfold CanMessage.body
  split_ifs
  · exact Nat.zero_le _
  · rw [List.length_take, m.data_length]
    exact Nat.min_le_right _ _

theorem encodeRecord_eq (m : CanMessage) :
    encodeRecord m = le32 m.id ++ (m.length ::
      ((if m.extended then FLAG_EXTENDED else 0) ||| (if m.remote then FLAG_REMOTE else 0)) ::
      (m.body ++ List.replicate (10 - m.body.length) 0)) := by
  have hle := length_body_le m
  unfold encodeRecord
  change cleared 16 (le32 m.id ++ _ ++ m.body) = _
  rw [cleared_eq]
  · simp only [List.append_assoc, List.cons_append, List.nil_append, List.length_append,
      length_le32, List.length_cons]
    congr 5
    omega
  · simp only [List.length_append, length_le32, List.length_cons, List.length_nil]
    omega

theorem body_remote (h : m.remote = true) : m.body = [] := by
  rw [CanMessage.body, if_pos h]

theorem body_data (h : m.remote = false) : m.body = m.data.take m.length.toNat := by
  rw [CanMessage.body, h]
  rfl

theorem length_body (hlength : m.length.toNat ≤ CAN_MAX_DATA_LENGTH) (h : m.remote = false) :
    m.body.length = m.length.toNat := by
  rw [body_data h, List.length_take, m.data_length, Nat.min_eq_left hlength]

theorem canMessageIsValid_iff :
    canMessageIsValid m = true ↔
      m.length.toNat ≤ CAN_MAX_DATA_LENGTH ∧ canIdIsValid m.id m.extended = true := by
  unfold canMessageIsValid
  rw [Bool.and_eq_true, decide_eq_true_eq]

theorem canDlcToLength_eq {length : UInt8} (h : length.toNat ≤ CAN_MAX_DATA_LENGTH) :
    canDlcToLength length.toNat = length := by
  unfold canDlcToLength
  rw [if_neg (Nat.not_lt.mpr h)]
  exact UInt8.ofNat_toNat

theorem decodeRecord_encodeRecord (hvalid : canMessageIsValid m = true) :
    decodeRecord (encodeRecord m) = m.canonical := by
  obtain ⟨hlength, -⟩ := canMessageIsValid_iff.mp hvalid
  have hid : ofLe32 (encodeRecord m) OFFSET_ID = m.id := by
    rw [encodeRecord_eq]
    exact ofLe32_append [] _ m.id
  have hlen : (encodeRecord m).getD OFFSET_LENGTH 0 = m.length := by
    rw [encodeRecord_eq]
    rfl
  have hflags : (encodeRecord m).getD OFFSET_FLAGS 0 =
      (if m.extended then FLAG_EXTENDED else 0) ||| (if m.remote then FLAG_REMOTE else 0) := by
    rw [encodeRecord_eq]
    rfl
  have hdata : (encodeRecord m).drop OFFSET_DATA =
      m.body ++ List.replicate (10 - m.body.length) 0 := by
    rw [encodeRecord_eq]
    rfl
  ext : 1
  · exact hid
  · change canDlcToLength ((encodeRecord m).getD OFFSET_LENGTH 0).toNat = m.length
    rw [hlen, canDlcToLength_eq hlength]
  · change decide ((encodeRecord m).getD OFFSET_FLAGS 0 &&& FLAG_EXTENDED ≠ 0) = m.extended
    rw [hflags]
    cases m.extended <;> cases m.remote <;> rfl
  · change decide ((encodeRecord m).getD OFFSET_FLAGS 0 &&& FLAG_REMOTE ≠ 0) = m.remote
    rw [hflags]
    cases m.extended <;> cases m.remote <;> rfl
  · change cleared 8 (((encodeRecord m).drop OFFSET_DATA).take
      (canDlcToLength ((encodeRecord m).getD OFFSET_LENGTH 0).toNat).toNat) = cleared 8 m.body
    rw [hlen, canDlcToLength_eq hlength, hdata]
    cases hremote : m.remote with
    | true => rw [body_remote hremote, List.nil_append, List.take_replicate, cleared_zeros]
    | false => rw [List.take_left' (length_body hlength hremote)]

theorem encodeRecord_canonical (hvalid : canMessageIsValid m = true) :
    encodeRecord m.canonical = encodeRecord m := by
  obtain ⟨hlength, -⟩ := canMessageIsValid_iff.mp hvalid
  have hbody : m.canonical.body = m.body := by
    cases hremote : m.remote with
    | true => rw [body_remote hremote, body_remote (show m.canonical.remote = true from hremote)]
    | false =>
      rw [body_data (show m.canonical.remote = false from hremote)]
      change (cleared 8 m.body).take m.length.toNat = m.body
      rw [cleared_eq (length_body_le m), List.take_left' (length_body hlength hremote)]
  rw [encodeRecord_eq, encodeRecord_eq, hbody]
  rfl

end records

/-- What the two sides have been answered so far. -/
structure CanTraffic where
  pushed : List CanMessage
  popped : List CanMessage
  /-- Valid messages for which `can_queue_push` returned false. -/
  refused : ℕ
  /-- The byte counts that the pops went by. -/
  counts : List ℕ

def CanTraffic.accepted (r : CanTraffic) : Bytes := r.pushed.flatMap encodeRecord

def CanTraffic.obtained (r : CanTraffic) : Bytes := r.popped.flatMap encodeRecord

def canProducer : Party CanQueue CanTraffic CanMessage Bool where
  program := canQueuePush
  commit m ok r :=
    if ok then { r with pushed := r.pushed ++ [m] }
    else if canMessageIsValid m then { r with refused := r.refused + 1 } else r

def canConsumer : Party CanQueue CanTraffic PUnit (ℕ × Option CanMessage) where
  program _ := canQueuePopCounting
  commit _ answer r :=
    { r with popped := r.popped ++ answer.2.toList, counts := r.counts ++ [answer.1] }

/-- What the calls were answered is in order, and what was dropped is counted. -/
structure Orderly (queue : UInt32 × Bool) (r : CanTraffic) : Prop where
  initialised : queue.2 = true
  dropped_eq : queue.1 = UInt32.ofNat r.refused
  valid : ∀ m ∈ r.pushed, canMessageIsValid m = true
  in_order : r.popped <+: r.pushed.map CanMessage.canonical
  whole : ∀ n ∈ r.counts, 16 ∣ n

def CanQueue.rest (queue : CanQueue) : UInt32 × Bool := (queue.dropped, queue.initialised)

def canPart (s : CanQueue × CanTraffic) : RingBuffer × CanTraffic := (s.1.buffer, s.2)

abbrev canKept (s : CanQueue × CanTraffic) : Prop :=
  Kept CanTraffic.accepted CanTraffic.obtained (canPart s) ∧ Orderly s.1.rest s.2

abbrev canProducerRely (s t : CanQueue × CanTraffic) : Prop :=
  ProducerRely CanTraffic.accepted CanTraffic.obtained (canPart s) (canPart t) ∧
    Orderly t.1.rest t.2

abbrev canConsumerRely (s t : CanQueue × CanTraffic) : Prop :=
  ConsumerRely CanTraffic.accepted CanTraffic.obtained (canPart s) (canPart t) ∧
    Orderly t.1.rest t.2

theorem canCompatible : Compatible canKept canProducerRely canConsumerRely :=
  (compatible.focus canPart).frame fun s => Orderly s.1.rest s.2

section traffic

variable {r : CanTraffic} {queue : UInt32 × Bool} {m : CanMessage}

theorem length_flatMap_encodeRecord (ms : List CanMessage) :
    (ms.flatMap encodeRecord).length = 16 * ms.length := by
  induction ms with
  | nil => rfl
  | cons m ms ih =>
    rw [List.flatMap_cons, List.length_append, length_encodeRecord, ih, List.length_cons]
    omega

theorem record_at {ms : List CanMessage} {i : ℕ} (hi : i < ms.length) :
    ((ms.flatMap encodeRecord).drop (16 * i)).take 16 = encodeRecord ms[i] := by
  induction ms generalizing i with
  | nil => exact absurd hi (Nat.not_lt_zero i)
  | cons m ms ih =>
    rw [List.flatMap_cons]
    cases i with
    | zero => exact List.take_left' (length_encodeRecord m)
    | succ i =>
      rw [show 16 * (i + 1) = (encodeRecord m).length + 16 * i by rw [length_encodeRecord]; omega,
        List.drop_length_add_append]
      exact ih (Nat.lt_of_succ_lt_succ hi)

theorem prefix_snoc {α : Type*} {xs ys : List α} {y : α} (h : xs <+: ys)
    (hy : ys[xs.length]? = some y) : xs ++ [y] <+: ys := by
  obtain ⟨more, rfl⟩ := h
  rw [List.getElem?_append_right le_rfl, Nat.sub_self] at hy
  cases more with
  | nil => exact absurd hy nofun
  | cons z more =>
    obtain rfl := Option.some.inj hy
    exact (List.prefix_append_right_inj _).mpr ⟨more, rfl⟩

theorem Orderly.push (h : Orderly queue r) (hvalid : canMessageIsValid m = true) :
    Orderly queue (canProducer.commit m true r) where
  initialised := h.initialised
  dropped_eq := h.dropped_eq
  valid m' hm' := by
    rcases List.mem_append.mp hm' with hold | hnew
    · exact h.valid m' hold
    · rw [List.mem_singleton.mp hnew]
      exact hvalid
  in_order := by
    refine h.in_order.trans ?_
    change _ <+: (r.pushed ++ [m]).map CanMessage.canonical
    rw [List.map_append]
    exact List.prefix_append _ _
  whole := h.whole

theorem Orderly.refuse (h : Orderly queue r) (hvalid : canMessageIsValid m = true) :
    Orderly (queue.1 + 1, queue.2) (canProducer.commit m false r) := by
  have hcommit : canProducer.commit m false r = { r with refused := r.refused + 1 } := by
    unfold canProducer
    simp only [hvalid, Bool.false_eq_true, if_false, if_true]
  rw [hcommit]
  refine ⟨h.initialised, ?_, h.valid, h.in_order, h.whole⟩
  change queue.1 + 1 = UInt32.ofNat (r.refused + 1)
  rw [h.dropped_eq, UInt32.ofNat_add]
  rfl

theorem Orderly.popNone (h : Orderly queue r) {n : ℕ} (hn : 16 ∣ n) :
    Orderly queue (canConsumer.commit ⟨⟩ (n, none) r) where
  initialised := h.initialised
  dropped_eq := h.dropped_eq
  valid := h.valid
  in_order := by
    change r.popped ++ [] <+: _
    rw [List.append_nil]
    exact h.in_order
  whole k hk := by
    rcases List.mem_append.mp hk with hold | hnew
    · exact h.whole k hold
    · rw [List.mem_singleton.mp hnew]
      exact hn

theorem Orderly.popSome (h : Orderly queue r) {n : ℕ} (hn : 16 ∣ n)
    (hlt : r.popped.length < r.pushed.length) :
    Orderly queue (canConsumer.commit ⟨⟩ (n, some r.pushed[r.popped.length].canonical) r) where
  initialised := h.initialised
  dropped_eq := h.dropped_eq
  valid := h.valid
  in_order := by
    refine prefix_snoc h.in_order ?_
    change (r.pushed.map CanMessage.canonical)[r.popped.length]? = _
    rw [List.getElem?_map, List.getElem?_eq_getElem hlt]
    rfl
  whole k hk := by
    rcases List.mem_append.mp hk with hold | hnew
    · exact h.whole k hold
    · rw [List.mem_singleton.mp hnew]
      exact hn

end traffic

section calls

variable {s t : CanQueue × CanTraffic}

theorem onBuffer_spec {α : Type} {p : Prog RingBuffer α}
    {rely guar : RingBuffer × CanTraffic → RingBuffer × CanTraffic → Prop}
    {post : α → RingBuffer × CanTraffic → RingBuffer × CanTraffic → Prop}
    (h : wp rely guar p post (canPart s) (canPart t)) (hframe : Orderly t.1.rest t.2) :
    wp (fun s t => rely (canPart s) (canPart t) ∧ Orderly t.1.rest t.2)
      (fun s t => guar (canPart s) (canPart t) ∧ Orderly t.1.rest t.2) (onBuffer p)
      (fun a s t => post a (canPart s) (canPart t) ∧ Orderly t.1.rest t.2) s t :=
  wp_focus
    (show ∀ (b : RingBuffer) (q : CanQueue), CanQueue.buffer { q with buffer := b } = b from
      fun _ _ => rfl)
    (show ∀ (b : RingBuffer) (q : CanQueue), CanQueue.rest { q with buffer := b } = q.rest from
      fun _ _ => rfl) h hframe

theorem onBuffer_run {α : Type} (p : Prog RingBuffer α) (queue : CanQueue) :
    (onBuffer p).run queue =
      ((p.run queue.buffer).1, { queue with buffer := (p.run queue.buffer).2 }) :=
  Prog.run_focus
    (show ∀ (b : RingBuffer) (q : CanQueue), CanQueue.buffer { q with buffer := b } = b from
      fun _ _ => rfl)
    (fun _ => rfl) (fun _ _ _ => rfl) p queue

/-- `can_queue_push`: a valid message is refused when there was no room for a record as the
consumer's index was read. -/
theorem canQueuePush_spec (m : CanMessage) {s : CanQueue × CanTraffic} (h : canKept s) :
    wp canProducerRely canConsumerRely (canQueuePush m)
      (fun ok s' t' => canConsumerRely s' (t'.1, canProducer.commit m ok t'.2) ∧
        t'.1.buffer.size = s.1.buffer.size ∧ (ok = true → canMessageIsValid m = true) ∧
        ∃ taken, s.2.obtained <+: taken ∧ taken <+: t'.2.obtained ∧
          (canMessageIsValid m = true → (ok = true ↔
            16 ≤ s.1.buffer.size - 1 - (s.2.accepted.length - taken.length)))) s s := by
  unfold canQueuePush
  rw [wp_bind, wp_load]
  refine ⟨canCompatible.refl_right s h, fun t₁ h₁ => ?_⟩
  have hinitialised : t₁.1.initialised = true := h₁.2.initialised
  rw [hinitialised, Bool.not_true, Bool.false_or]
  have hsize₁ : t₁.1.buffer.size = s.1.buffer.size := congrArg List.length h₁.1.storage_eq
  cases hvalid : canMessageIsValid m with
  | false =>
    have hcommit : canProducer.commit m false t₁.2 = t₁.2 := by
      unfold canProducer
      simp only [hvalid, Bool.false_eq_true, if_false]
    rw [Bool.not_false, if_pos rfl, wp_pure, hcommit]
    exact ⟨canCompatible.refl_right t₁ (canCompatible.inv_left _ _ h₁), hsize₁, nofun,
      s.2.obtained, List.prefix_refl _, h₁.1.obt_grows, nofun⟩
  | true =>
    rw [Bool.not_true, if_neg Bool.false_ne_true, wp_bind]
    refine wp_mono (onBuffer_spec (ringBufferFree_spec (.refl h₁.1.holds)) h₁.2)
      fun free s₂ t₂ h₂ => ?_
    obtain ⟨⟨hguar₂, hrely₂, hfree⟩, hframe₂⟩ := h₂
    have hall₂ := h₁.1.trans hrely₂
    have hacc₁ : t₁.2.accepted = s.2.accepted := h₁.1.acc_eq
    rw [canPart, hacc₁] at hfree
    change free = t₁.1.buffer.size - 1 - (s.2.accepted.length - t₂.2.obtained.length) at hfree
    rw [hsize₁] at hfree
    split_ifs with hfull
    · rw [wp_bind, wp_store]
      refine ⟨⟨hguar₂, hframe₂⟩, fun t₃ h₃ => ?_⟩
      have hall := hall₂.trans h₃.1
      rw [wp_pure]
      refine ⟨⟨?_, h₃.2.refuse hvalid⟩, congrArg List.length hall.storage_eq, nofun,
        t₂.2.obtained, hall₂.obt_grows, h₃.1.obt_grows, fun _ => ?_⟩
      · have hcommit : canProducer.commit m false t₃.2 =
            { t₃.2 with refused := t₃.2.refused + 1 } := by
          unfold canProducer
          simp only [hvalid, Bool.false_eq_true, if_false, if_true]
        rw [hcommit]
        exact ⟨h₃.1.holds, rfl, rfl, rfl, List.prefix_refl _⟩
      · rw [← hfree]
        exact ⟨nofun, fun hroom => absurd hfull (Nat.not_lt.mpr hroom)⟩
    · rw [wp_bind]
      refine wp_mono (onBuffer_spec (ringBufferWrite_spec (encodeRecord m) hguar₂) hframe₂)
        fun n s₃ t₃ h₃ => ?_
      obtain ⟨⟨hpublished, taken, htaken, htaken', hn⟩, hframe₃⟩ := h₃
      have hacc₂ : t₂.2.accepted = s.2.accepted := hall₂.acc_eq
      have hsize₂ : t₂.1.buffer.size = s.1.buffer.size := congrArg List.length hall₂.storage_eq
      have hle := htaken.length_le
      change t₂.2.obtained.length ≤ taken.length at hle
      change n = min (encodeRecord m).length
        (t₂.1.buffer.size - 1 - (t₂.2.accepted.length - taken.length)) at hn
      rw [hsize₂, hacc₂, length_encodeRecord] at hn
      have hroom : 16 ≤ s.1.buffer.size - 1 - (s.2.accepted.length - t₂.2.obtained.length) := by
        rw [← hfree]
        exact Nat.not_lt.mp hfull
      obtain rfl : n = 16 := by omega
      rw [wp_pure]
      refine ⟨⟨?_, hframe₃.push hvalid⟩, hpublished.size_eq.trans hsize₂, fun _ => rfl,
        t₂.2.obtained, hall₂.obt_grows, htaken.trans htaken', fun _ => ⟨fun _ => hroom, fun _ => rfl⟩⟩
      refine hpublished.commit _ ?_ rfl
      change (t₃.2.pushed ++ [m]).flatMap encodeRecord = t₂.2.accepted ++ (encodeRecord m).take 16
      have hacc₃ : t₃.2.accepted = t₂.2.accepted := hpublished.acc_eq
      rw [List.flatMap_append, List.flatMap_singleton, ← hacc₃,
        List.take_of_length_le (length_encodeRecord m).le]
      rfl

/-- `can_queue_pop` takes the first frame of those it saw, if there was one. -/
theorem canQueuePop_spec (h : canKept s) :
    wp canConsumerRely canProducerRely canQueuePopCounting
      (fun answer s' t' => canProducerRely s' (t'.1, canConsumer.commit ⟨⟩ answer t'.2) ∧
        t'.1.buffer.size = s.1.buffer.size ∧
        ∃ k, s.2.pushed.length ≤ k ∧ k ≤ t'.2.pushed.length ∧
          answer.2 = (t'.2.pushed.take k)[s.2.popped.length]?.map CanMessage.canonical) s s := by
  unfold canQueuePopCounting
  rw [wp_bind, wp_load]
  refine ⟨canCompatible.refl_left s h, fun t₁ h₁ => ?_⟩
  have hinitialised : t₁.1.initialised = true := h₁.2.initialised
  rw [hinitialised, Bool.not_true, if_neg Bool.false_ne_true, wp_bind]
  refine wp_mono (onBuffer_spec (ringBufferCount_spec (.refl h₁.1.holds)) h₁.2)
    fun count s₂ t₂ h₂ => ?_
  obtain ⟨⟨hguar₂, hrely₂, seen, hsaw, hcount⟩, hframe₂⟩ := h₂
  have hall₂ := h₁.1.trans hrely₂
  -- what was seen was all of the records at some moment
  obtain ⟨w, hw⟩ := hsaw.moment
  have hobtained : t₁.2.obtained = s.2.obtained := h₁.1.obt_eq
  have hseen : seen.length = 16 * w.pushed.length := by
    rw [← hw]
    exact length_flatMap_encodeRecord w.pushed
  have hpopped : s.2.obtained.length = 16 * s.2.popped.length := length_flatMap_encodeRecord _
  change count = seen.length - t₁.2.obtained.length at hcount
  rw [hobtained, hseen, hpopped, ← Nat.mul_sub] at hcount
  have hlower : s.2.accepted.length ≤ seen.length :=
    h₁.1.acc_grows.length_le.trans hsaw.grows.length_le
  have hupper : seen.length ≤ t₂.2.accepted.length := hsaw.visible.length_le
  have hbehind : s.2.obtained.length ≤ seen.length := by
    rw [← hobtained]
    exact hsaw.obtained.length_le
  have hpushed : s.2.accepted.length = 16 * s.2.pushed.length := length_flatMap_encodeRecord _
  have hpushed₂ : t₂.2.accepted.length = 16 * t₂.2.pushed.length := length_flatMap_encodeRecord _
  have hwhole : 16 ∣ count := ⟨_, hcount⟩
  split_ifs with hfew
  · change count < 16 at hfew
    have hnone : w.pushed.length = s.2.popped.length := by omega
    rw [wp_pure]
    refine ⟨⟨?_, hframe₂.popNone hwhole⟩, hall₂.size_eq, w.pushed.length, by omega, by omega, ?_⟩
    · refine (Consumed.nothing hguar₂ hall₂).commit _ rfl ?_
      change (t₂.2.popped ++ []).flatMap encodeRecord = s.2.obtained ++ []
      rw [List.append_nil, List.append_nil]
      exact hall₂.obt_eq
    · rw [hnone, List.getElem?_take_eq_none le_rfl]
      rfl
  · change ¬ count < 16 at hfew
    rw [wp_bind]
    refine wp_mono (onBuffer_spec (ringBufferRead_spec CAN_QUEUE_RECORD_SIZE hguar₂) hframe₂)
      fun read s₃ t₃ h₃ => ?_
    obtain ⟨⟨hconsumed, hread, seen', hsaw', hbytes⟩, hframe₃⟩ := h₃
    have hobtained₂ : t₂.2.obtained = s.2.obtained := hall₂.obt_eq
    have hobtained₃ : t₃.2.obtained = t₂.2.obtained := hconsumed.obt_eq
    have hposition : 16 * t₃.2.popped.length = t₂.2.obtained.length := by
      rw [← length_flatMap_encodeRecord, ← hobtained₃]
      rfl
    have hpopped₃ : t₃.2.popped.length = s.2.popped.length := by
      rw [hobtained₂] at hposition
      omega
    have hlater : seen'.length ≤ t₃.2.accepted.length := hsaw'.visible.length_le
    have hearlier : t₂.2.accepted.length ≤ seen'.length := hsaw'.grows.length_le
    have hpushed₃ : t₃.2.accepted.length = 16 * t₃.2.pushed.length := length_flatMap_encodeRecord _
    have hlt : t₃.2.popped.length < t₃.2.pushed.length := by omega
    change read.1 = (seen'.drop t₂.2.obtained.length).take 16 at hbytes
    have hrecord : read.1 = encodeRecord t₃.2.pushed[t₃.2.popped.length] := by
      have hat := record_at hlt
      obtain ⟨more, hmore⟩ := hsaw'.visible
      change seen' ++ more = t₃.2.pushed.flatMap encodeRecord at hmore
      rw [← hmore, hposition,
        List.drop_append_of_le_length (by rw [hobtained₂]; omega),
        List.take_append_of_le_length (by rw [List.length_drop, hobtained₂]; omega)] at hat
      rw [hbytes, hat]
    have hvalid := hframe₃.valid _ (List.getElem_mem hlt)
    have hlength : read.2 = CAN_QUEUE_RECORD_SIZE := by
      rw [hread, hrecord]
      exact length_encodeRecord _
    rw [if_neg (not_not.mpr hlength), wp_pure, hrecord, decodeRecord_encodeRecord hvalid]
    refine ⟨⟨?_, hframe₃.popSome hwhole hlt⟩, hconsumed.size_eq.trans hall₂.size_eq,
      w.pushed.length, by omega, by omega, ?_⟩
    · refine hconsumed.commit _ rfl ?_
      change (t₃.2.popped ++ [_]).flatMap encodeRecord = t₂.2.obtained ++ read.1
      rw [List.flatMap_append, List.flatMap_singleton, encodeRecord_canonical hvalid, hrecord,
        ← hobtained₃]
      rfl
    · rw [← hpopped₃, List.getElem?_take_of_lt (by omega), List.getElem?_eq_getElem hlt]
      rfl

theorem canProducer_sound : Upheld canKept canProducerRely canConsumerRely canProducer :=
  fun m _ h => wp_mono (canQueuePush_spec m h) fun _ _ _ hend => hend.1

theorem canConsumer_sound : Upheld canKept canConsumerRely canProducerRely canConsumer :=
  fun _ _ h => wp_mono (canQueuePop_spec h) fun _ _ _ hend => hend.1

end calls

inductive CanCall where
  | push (message : CanMessage)
  | pop

def CanQueue.answer (queue : CanQueue) : CanCall → Answer CanMessage × CanQueue
  | .push message => ((canQueuePush message).run queue).map .flag id
  | .pop => (canQueuePop.run queue).map .element id

/-- A queue of frames that keeps them in canonical form, and the number of those dropped. -/
def frameAnswer (s : Fifo CanMessage × ℕ) : CanCall → Answer CanMessage × (Fifo CanMessage × ℕ)
  | .push m =>
      if canMessageIsValid m then
        if s.1.free = 0 then (.flag false, s.1, s.2 + 1)
        else (.flag true, s.1.write [m.canonical], s.2)
      else (.flag false, s)
  | .pop => (.element s.1.content.head?, s.1.discard 1, s.2)

/-- The queue holds these frames. -/
structure HoldsFrames (queue : CanQueue) (s : Fifo CanMessage × ℕ) (r : CanTraffic) : Prop where
  kept : canKept (queue, r)
  content_eq : s.1.content = (r.pushed.drop r.popped.length).map CanMessage.canonical
  capacity_eq : s.1.capacity = (queue.buffer.size - 1) / 16
  refused_eq : s.2 = r.refused

section alone

variable {queue : CanQueue} {s : Fifo CanMessage × ℕ} {r : CanTraffic}

theorem drop_flatMap_encodeRecord (ms : List CanMessage) (n : ℕ) :
    (ms.flatMap encodeRecord).drop (16 * n) = (ms.drop n).flatMap encodeRecord := by
  induction n generalizing ms with
  | zero => rfl
  | succ n ih =>
    cases ms with
    | nil => exact List.drop_nil
    | cons m ms =>
      rw [List.flatMap_cons, show 16 * (n + 1) = (encodeRecord m).length + 16 * n by
        rw [length_encodeRecord]; omega, List.drop_length_add_append]
      exact ih ms

theorem canKept.content_eq (h : canKept (queue, r)) :
    queue.buffer.content = (r.pushed.drop r.popped.length).flatMap encodeRecord := by
  have hcontent : queue.buffer.content = r.accepted.drop r.obtained.length := h.1.content_eq
  have hlength : r.obtained.length = 16 * r.popped.length := length_flatMap_encodeRecord _
  rw [hcontent, hlength]
  exact drop_flatMap_encodeRecord _ _

theorem canKept.bytes (h : canKept (queue, r)) :
    r.accepted.length = 16 * r.pushed.length ∧ r.obtained.length = 16 * r.popped.length ∧
      r.popped.length ≤ r.pushed.length := by
  refine ⟨length_flatMap_encodeRecord _, length_flatMap_encodeRecord _, ?_⟩
  have hle := h.2.in_order.length_le
  rwa [List.length_map] at hle

theorem HoldsFrames.free_eq (h : HoldsFrames queue s r) :
    s.1.free = (queue.buffer.size - 1) / 16 - (r.pushed.length - r.popped.length) := by
  rw [Fifo.free, h.content_eq, h.capacity_eq, List.length_map, List.length_drop]

theorem canQueuePush_refines (m : CanMessage) (h : HoldsFrames queue s r) :
    (queue.answer (.push m)).1 = (frameAnswer s (.push m)).1 ∧
      ∃ r', HoldsFrames (queue.answer (.push m)).2 (frameAnswer s (.push m)).2 r' := by
  obtain ⟨s', hcommit, hsize, hvalid, taken, htaken, htaken', hok⟩ :=
    wp_run (fun s t hst => canCompatible.refl_left t (canCompatible.inv_right s t hst))
      (canQueuePush_spec m h.kept)
  have hsame : taken.length = r.obtained.length := le_antisymm htaken'.length_le htaken.length_le
  obtain ⟨haccepted, hobtained, hle⟩ := h.kept.bytes
  have hkept := canCompatible.inv_right _ _ hcommit
  have hcapacity : s.1.capacity = (((canQueuePush m).run queue).2.buffer.size - 1) / 16 := by
    rw [h.capacity_eq]
    exact congrArg (fun size => (size - 1) / 16) hsize.symm
  change _ → (((canQueuePush m).run queue).1 = true ↔
    16 ≤ queue.buffer.size - 1 - (r.accepted.length - taken.length)) at hok
  change ((canQueuePush m).run queue).1 = true → _ at hvalid
  change canKept (((canQueuePush m).run queue).2,
    canProducer.commit m ((canQueuePush m).run queue).1 r) at hkept
  change Answer.flag ((canQueuePush m).run queue).1 = _ ∧
    ∃ r', HoldsFrames ((canQueuePush m).run queue).2 _ r'
  cases hm : canMessageIsValid m with
  | false =>
    have hflag : ((canQueuePush m).run queue).1 = false := by
      rw [hm] at hvalid
      exact Bool.eq_false_iff.mpr fun htrue => absurd (hvalid htrue) Bool.false_ne_true
    rw [frameAnswer, hm, if_neg Bool.false_ne_true]
    refine ⟨congrArg Answer.flag hflag, r, ?_, h.content_eq, hcapacity, h.refused_eq⟩
    rw [hflag] at hkept
    simpa only [canProducer, hm, Bool.false_eq_true, if_false] using hkept
  | true =>
    have hiff := hok hm
    rw [hsame, haccepted, hobtained] at hiff
    have hfree := h.free_eq
    rw [frameAnswer, hm, if_pos rfl]
    split_ifs with hfull
    · have hflag : ((canQueuePush m).run queue).1 = false := by
        refine Bool.eq_false_iff.mpr fun htrue => ?_
        have := hiff.mp htrue
        omega
      refine ⟨congrArg Answer.flag hflag, _, hkept, ?_, hcapacity, ?_⟩
      · rw [hflag]
        simpa only [canProducer, hm, Bool.false_eq_true, if_false, if_true] using h.content_eq
      · rw [hflag]
        simpa only [canProducer, hm, Bool.false_eq_true, if_false, if_true] using
          congrArg (· + 1) h.refused_eq
    · have hflag : ((canQueuePush m).run queue).1 = true := hiff.mpr (by omega)
      refine ⟨congrArg Answer.flag hflag, _, hkept, ?_, hcapacity, ?_⟩
      · rw [hflag]
        change s.1.content ++ [m.canonical].take s.1.free =
          ((r.pushed ++ [m]).drop r.popped.length).map CanMessage.canonical
        rw [h.content_eq, List.drop_append_of_le_length hle, List.map_append,
          List.take_of_length_le (Nat.pos_of_ne_zero hfull)]
        rfl
      · rw [hflag]
        exact h.refused_eq

theorem canQueuePop_refines (h : HoldsFrames queue s r) :
    (queue.answer .pop).1 = (frameAnswer s .pop).1 ∧
      ∃ r', HoldsFrames (queue.answer .pop).2 (frameAnswer s .pop).2 r' := by
  obtain ⟨s', hcommit, hsize, k, hlower, hupper, hanswer⟩ :=
    wp_run (fun s t hst => canCompatible.refl_right t (canCompatible.inv_left s t hst))
      (canQueuePop_spec h.kept)
  obtain rfl : k = r.pushed.length := le_antisymm hupper hlower
  have hkept := canCompatible.inv_left _ _ hcommit
  have hrun : canQueuePop.run queue =
      ((canQueuePopCounting.run queue).1.2, (canQueuePopCounting.run queue).2) := by
    unfold canQueuePop
    rw [Prog.run_bind]
    rfl
  have hhead : (canQueuePopCounting.run queue).1.2 = s.1.content.head? := by
    rw [h.content_eq, List.head?_map, List.head?_drop]
    change _ = ((r.pushed.take r.pushed.length)[r.popped.length]?).map CanMessage.canonical at hanswer
    rw [hanswer, List.take_length]
  change canKept ((canQueuePopCounting.run queue).2,
    canConsumer.commit ⟨⟩ (canQueuePopCounting.run queue).1 r) at hkept
  change Answer.element (canQueuePop.run queue).1 = Answer.element s.1.content.head? ∧
    ∃ r', HoldsFrames (canQueuePop.run queue).2 (s.1.discard 1, s.2) r'
  rw [hrun]
  refine ⟨congrArg Answer.element hhead, _, hkept, ?_, ?_, h.refused_eq⟩
  · change s.1.content.drop 1 = (r.pushed.drop
      (r.popped ++ (canQueuePopCounting.run queue).1.2.toList).length).map CanMessage.canonical
    rw [hhead, List.length_append, ← List.drop_drop, List.map_drop, ← h.content_eq]
    cases s.1.content with
    | nil => rfl
    | cons m ms => rfl
  · change s.1.capacity = _
    rw [h.capacity_eq]
    exact congrArg (fun size => (size - 1) / 16) hsize.symm

end alone

section init

variable {storage : Option Bytes} {queue : CanQueue}

theorem canQueueInit_kept (hinit : canQueueInit storage = some queue) :
    canKept (queue, ⟨[], [], 0, []⟩) := by
  unfold canQueueInit at hinit
  cases hbuffer : ringBufferInit storage with
  | none => exact absurd (hbuffer ▸ hinit) nofun
  | some buffer =>
    rw [hbuffer] at hinit
    simp only [Option.bind_eq_bind, Option.bind_some] at hinit
    split_ifs at hinit
    obtain rfl := Option.some.inj hinit
    exact ⟨ringBufferInit_buffered hbuffer, rfl, rfl, nofun, List.nil_prefix, nofun⟩

theorem canQueuePush_full {r : CanTraffic} (h : canKept (queue, r)) {m : CanMessage}
    (hvalid : canMessageIsValid m = true)
    (hfull : (queue.buffer.size - 1) / 16 ≤ r.pushed.length - r.popped.length) :
    (canQueuePush m).run queue = (false, { queue with dropped := queue.dropped + 1 }) := by
  have hinitialised : queue.initialised = true := h.2.initialised
  obtain ⟨haccepted, hobtained, -⟩ := h.bytes
  have hrun : (onBuffer ringBufferFree).run queue = ((ringBufferFree.run queue.buffer).1, queue) :=
    onBuffer_run ringBufferFree queue
  have hfree : (ringBufferFree.run queue.buffer).1 < CAN_QUEUE_RECORD_SIZE := by
    have hbuffered : Buffered queue.buffer r.accepted r.obtained := h.1
    rw [hbuffered.free_eq]
    change queue.buffer.size - 1 - (r.accepted.length - r.obtained.length) < 16
    omega
  unfold canQueuePush
  simp only [Prog.run_bind, Prog.run_load, hinitialised, hvalid, Bool.not_true, Bool.or_self,
    Bool.false_eq_true, if_false, hrun, if_pos hfree, Prog.run_store, Prog.run_pure]

/-- The frame queue, called in sequence and by two sides at once. -/
theorem canQueue_refines_fifo (hinit : canQueueInit storage = some queue) :
    (∀ calls, ∃ answers queue' q dropped,
      run CanQueue.answer queue calls = (answers, queue') ∧
      run frameAnswer (.empty ((queue.buffer.size - 1) / 16), 0) calls = (answers, q, dropped) ∧
      queue'.buffer.content = q.content.flatMap encodeRecord ∧
      queue'.dropped = UInt32.ofNat dropped) ∧
    ∀ schedule, ∃ w,
      (System.idle queue ⟨[], [], 0, []⟩).moves canProducer canConsumer schedule = w ∧
      w.record.popped <+: w.record.pushed.map CanMessage.canonical ∧
      w.memory.buffer.content =
        (w.record.pushed.drop w.record.popped.length).flatMap encodeRecord ∧
      (∀ n ∈ w.record.counts, 16 ∣ n) ∧
      w.memory.dropped = UInt32.ofNat w.record.refused ∧
      ∀ m, canMessageIsValid m = true →
        (queue.buffer.size - 1) / 16 ≤ w.record.pushed.length - w.record.popped.length →
        (canQueuePush m).run w.memory =
          (false, { w.memory with dropped := w.memory.dropped + 1 }) := by
  have hkept := canQueueInit_kept hinit
  constructor
  · intro calls
    have hstep : ∀ queue s call, (∃ r, HoldsFrames queue s r) →
        (CanQueue.answer queue call).1 = (frameAnswer s call).1 ∧
          ∃ r, HoldsFrames (CanQueue.answer queue call).2 (frameAnswer s call).2 r := by
      intro queue s call h
      obtain ⟨r, h⟩ := h
      cases call with
      | push m => exact canQueuePush_refines m h
      | pop => exact canQueuePop_refines h
    obtain ⟨hanswers, r, hend⟩ :
        (run CanQueue.answer queue calls).1 =
          (run frameAnswer (.empty ((queue.buffer.size - 1) / 16), 0) calls).1 ∧
        ∃ r, HoldsFrames (run CanQueue.answer queue calls).2
          (run frameAnswer (.empty ((queue.buffer.size - 1) / 16), 0) calls).2 r :=
      run_refines hstep _ _ calls ⟨⟨[], [], 0, []⟩, hkept, rfl, rfl, rfl⟩
    refine ⟨_, _, _, _, rfl, Prod.ext hanswers.symm rfl, ?_, ?_⟩
    · rw [hend.kept.content_eq, hend.content_eq, List.flatMap_map]
      refine List.flatMap_congr fun m hm => ?_
      exact (encodeRecord_canonical (hend.kept.2.valid m (List.mem_of_mem_drop hm))).symm
    · rw [hend.refused_eq]
      exact hend.kept.2.dropped_eq
  · intro schedule
    have hend : Consistent canProducer canConsumer _ _ _
        ((System.idle queue ⟨[], [], 0, []⟩).moves canProducer canConsumer schedule) :=
      (Consistent.idle ⟨hkept, rfl⟩).moves
        (canCompatible.frame fun s => s.1.buffer.size = queue.buffer.size)
        (canProducer_sound.keep fun s t hst hs => hst.1.size_eq.trans hs)
        (canConsumer_sound.keep fun s t hst hs => (congrArg List.length hst.1.storage_eq).trans hs)
        schedule
    obtain ⟨hkept', hsize⟩ := hend.holds
    refine ⟨_, rfl, hkept'.2.in_order, hkept'.content_eq, hkept'.2.whole, hkept'.2.dropped_eq,
      fun m hvalid hfull => canQueuePush_full hkept' hvalid ?_⟩
    rw [hsize]
    exact hfull

end init

/-- A data frame of one byte. -/
def oneByteFrame (id : UInt32) (byte : UInt8) : CanMessage :=
  ⟨id, 1, false, false, [byte, 9, 9, 9, 9, 9, 9, 9], rfl⟩

/-- The same without what is beyond its length. -/
def oneByteCanonical (id : UInt32) (byte : UInt8) : CanMessage :=
  ⟨id, 1, false, false, [byte, 0, 0, 0, 0, 0, 0, 0], rfl⟩

/-- Two frames are pushed while one is popped, turn by turn. -/
def twoFrames : List (Move CanMessage PUnit) :=
  .startLeft (oneByteFrame 0x123 7) :: List.replicate 40 .stepLeft ++
    .startLeft (oneByteFrame 0x124 8) :: .startRight ⟨⟩ ::
      (List.replicate 40 [.stepLeft, .stepRight]).flatten

/-- Room for two frames: a third is dropped, and goes in when one is out. Taking turns, the pop gets
the first while the second is pushed. -/
theorem canQueue_refines_fifo_two :
    (run CanQueue.answer ⟨⟨List.replicate 33 0, 0, 0⟩, 0, true⟩
      [.push (oneByteFrame 0x123 7), .push (oneByteFrame 0x124 8), .push (oneByteFrame 0x125 6), .pop,
        .push (oneByteFrame 0x125 6), .pop, .pop]).1 =
      [.flag true, .flag true, .flag false, .element (some (oneByteCanonical 0x123 7)), .flag true,
        .element (some (oneByteCanonical 0x124 8)), .element (some (oneByteCanonical 0x125 6))] ∧
    ∃ w, (System.idle ⟨⟨List.replicate 33 0, 0, 0⟩, 0, true⟩ ⟨[], [], 0, []⟩).moves canProducer
        canConsumer twoFrames = w ∧
      w.record.popped = [oneByteCanonical 0x123 7] ∧
      w.memory.buffer.content = encodeRecord (oneByteFrame 0x124 8) ∧
      w.memory.dropped = UInt32.ofNat w.record.refused := by
  have hinit : canQueueInit (some (List.replicate 33 0)) =
      some ⟨⟨List.replicate 33 0, 0, 0⟩, 0, true⟩ := rfl
  constructor
  · obtain ⟨answers, queue', q, dropped, hrun, hspec, -⟩ := (canQueue_refines_fifo hinit).1
      [.push (oneByteFrame 0x123 7), .push (oneByteFrame 0x124 8), .push (oneByteFrame 0x125 6), .pop,
        .push (oneByteFrame 0x125 6), .pop, .pop]
    rw [hrun]
    exact (congrArg Prod.fst hspec).symm
  · obtain ⟨w, hw, -, hcontent, -, hdropped, -⟩ := (canQueue_refines_fifo hinit).2 twoFrames
    have hpushed : w.record.pushed = [oneByteFrame 0x123 7, oneByteFrame 0x124 8] :=
      hw ▸ by decide +kernel
    have hpopped : w.record.popped = [oneByteCanonical 0x123 7] := hw ▸ by decide +kernel
    rw [hpushed, hpopped] at hcontent
    refine ⟨w, hw, hpopped, hcontent.trans ?_, hdropped⟩
    exact List.append_nil _

end Pico
