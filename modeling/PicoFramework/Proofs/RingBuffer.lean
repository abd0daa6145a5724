import PicoFramework.Lib.Circular
import PicoFramework.Spec.RingBuffer

/-! What each operation of the ring buffer does while the other side is at work. The bytes
that the producer has had accepted and those that the consumer has taken are two sequences
that only grow; the buffer holds what is in the one and not yet in the other. -/

namespace Pico

open Lib.Interleave Lib.Circular

theorem wrapDown_eq {size fuel index : ℕ} (hsize : 0 < size) (hfuel : index ≤ fuel) :
    wrapDown size fuel index = index % size := by
  induction fuel generalizing index with
  | zero =>
    obtain rfl := Nat.le_zero.mp hfuel
    rfl
  | succ fuel ih =>
    rw [wrapDown]
    split_ifs with hge
    · rw [ih (by omega), Nat.mod_eq_sub_mod hge]
    · exact (Nat.mod_eq_of_lt (by omega)).symm

theorem advance_eq {size : ℕ} (hsize : 0 < size) (index by_ : ℕ) :
    advance size index by_ = (index + by_) % size :=
  wrapDown_eq hsize le_rfl

/-- A buffer between what was accepted and what was obtained. -/
structure Buffered (rb : RingBuffer) (accepted obtained : Bytes) : Prop where
  two_le : 2 ≤ rb.size
  obtained_prefix : obtained <+: accepted
  fits : accepted.length < obtained.length + rb.size
  head_eq : rb.head = accepted.length % rb.size
  tail_eq : rb.tail = obtained.length % rb.size
  cells : Stores rb.storage accepted obtained.length

section sides

variable {ω : Type} {acc obt : ω → Bytes}

/-- What the producer relies on: the consumer only takes. -/
structure ProducerRely (acc obt : ω → Bytes) (s t : RingBuffer × ω) : Prop where
  holds : Buffered t.1 (acc t.2) (obt t.2)
  head_eq : t.1.head = s.1.head
  storage_eq : t.1.storage = s.1.storage
  acc_eq : acc t.2 = acc s.2
  obt_grows : obt s.2 <+: obt t.2

/-- What the consumer relies on: the producer only adds. -/
structure ConsumerRely (acc obt : ω → Bytes) (s t : RingBuffer × ω) : Prop where
  holds : Buffered t.1 (acc t.2) (obt t.2)
  tail_eq : t.1.tail = s.1.tail
  size_eq : t.1.size = s.1.size
  obt_eq : obt t.2 = obt s.2
  acc_grows : acc s.2 <+: acc t.2

/-- The invariant that both sides keep. -/
def Kept (acc obt : ω → Bytes) (s : RingBuffer × ω) : Prop := Buffered s.1 (acc s.2) (obt s.2)

theorem ProducerRely.refl {s : RingBuffer × ω} (h : Kept acc obt s) : ProducerRely acc obt s s :=
  ⟨h, rfl, rfl, rfl, List.prefix_refl _⟩

theorem ConsumerRely.refl {s : RingBuffer × ω} (h : Kept acc obt s) : ConsumerRely acc obt s s :=
  ⟨h, rfl, rfl, rfl, List.prefix_refl _⟩

theorem ProducerRely.trans {s t u : RingBuffer × ω} (h : ProducerRely acc obt s t)
    (h' : ProducerRely acc obt t u) : ProducerRely acc obt s u :=
  ⟨h'.holds, h'.head_eq.trans h.head_eq, h'.storage_eq.trans h.storage_eq,
    h'.acc_eq.trans h.acc_eq, h.obt_grows.trans h'.obt_grows⟩

theorem ConsumerRely.trans {s t u : RingBuffer × ω} (h : ConsumerRely acc obt s t)
    (h' : ConsumerRely acc obt t u) : ConsumerRely acc obt s u :=
  ⟨h'.holds, h'.tail_eq.trans h.tail_eq, h'.size_eq.trans h.size_eq, h'.obt_eq.trans h.obt_eq,
    h.acc_grows.trans h'.acc_grows⟩

theorem compatible : Compatible (Kept acc obt) (ProducerRely acc obt) (ConsumerRely acc obt) where
  inv_left _ _ h := h.holds
  inv_right _ _ h := h.holds
  refl_left _ h := .refl h
  refl_right _ h := .refl h
  trans_left _ _ _ h h' := h.trans h'
  trans_right _ _ _ h h' := h.trans h'

end sides

section producer

variable {ω : Type} {acc obt : ω → Bytes} {s t : RingBuffer × ω}

/-- What a program of the producer has done so far: bytes put behind those accepted, where
the consumer does not look. -/
structure Staged (acc obt : ω → Bytes) (t : RingBuffer × ω) (accepted taken staged : Bytes)
    (t' : RingBuffer × ω) : Prop where
  size_eq : t'.1.size = t.1.size
  acc_eq : acc t'.2 = accepted
  obt_grows : taken <+: obt t'.2
  cells : Stores t'.1.storage (accepted ++ staged) (obt t'.2).length

theorem Staged.rely {accepted taken staged : Bytes} {u v : RingBuffer × ω}
    (h : Staged acc obt t accepted taken staged u) (hrely : ProducerRely acc obt u v) :
    Staged acc obt t accepted taken staged v where
  size_eq := by rw [← h.size_eq, RingBuffer.size, hrely.storage_eq, RingBuffer.size]
  acc_eq := hrely.acc_eq.trans h.acc_eq
  obt_grows := h.obt_grows.trans hrely.obt_grows
  cells := by
    rw [hrely.storage_eq]
    exact h.cells.later hrely.obt_grows.length_le

/-- Copying goes on where the last copy ended. -/
theorem copyIn_spec (bytes : Bytes) {accepted taken staged : Bytes} {pos : ℕ}
    (hguar : ConsumerRely acc obt s t) {u : RingBuffer × ω}
    (hstaged : Staged acc obt u accepted taken staged t)
    (hpos : bytes ≠ [] → pos = (accepted ++ staged).length % u.1.size)
    (hend : pos + bytes.length ≤ u.1.size)
    (hroom : (accepted ++ (staged ++ bytes)).length < taken.length + u.1.size) :
    wp (ProducerRely acc obt) (ConsumerRely acc obt) (copyIn pos bytes)
      (fun _ s' t' => ConsumerRely acc obt s' t' ∧
        Staged acc obt u accepted taken (staged ++ bytes) t') s t := by
  induction bytes generalizing s t staged pos with
  | nil =>
    rw [List.append_nil]
    exact ⟨hguar, hstaged⟩
  | cons c bytes ih =>
    rw [copyIn, wp_bind, wp_store]
    refine ⟨hguar, fun t' hrely => ?_⟩
    have hstaged' := hstaged.rely hrely
    have hholds := hrely.holds
    have htaken := hstaged'.obt_grows.length_le
    simp only [List.length_append, List.length_cons] at hroom hend
    have hsize : t'.1.storage.length = u.1.size := hstaged'.size_eq
    have hset : pos = (accepted ++ staged).length % t'.1.storage.length := by
      rw [hpos (by simp), hsize]
    have hcells := hstaged'.cells.set c (by rw [hsize, List.length_append]; omega)
    rw [← hset] at hcells
    -- the cell is behind everything that was accepted
    have hkept : Buffered { t'.1 with storage := t'.1.storage.set pos c } (acc t'.2) (obt t'.2) := by
      have hsize' : RingBuffer.size { t'.1 with storage := t'.1.storage.set pos c } = t'.1.size :=
        List.length_set
      refine ⟨hsize' ▸ hholds.two_le, hholds.obtained_prefix, hsize' ▸ hholds.fits,
        hsize' ▸ hholds.head_eq, hsize' ▸ hholds.tail_eq, ?_⟩
      rw [hstaged'.acc_eq]
      exact hcells.of_append.of_append
    have hnext : Staged acc obt u accepted taken (staged ++ [c])
        ({ t'.1 with storage := t'.1.storage.set pos c }, t'.2) :=
      ⟨List.length_set.trans hstaged'.size_eq, hstaged'.acc_eq, hstaged'.obt_grows, by
        rw [← List.append_assoc]
        exact hcells⟩
    have hguar' : ConsumerRely acc obt t'
        ({ t'.1 with storage := t'.1.storage.set pos c }, t'.2) :=
      ⟨hkept, rfl, List.length_set, rfl, List.prefix_refl _⟩
    have hpos' : bytes ≠ [] → pos + 1 = (accepted ++ (staged ++ [c])).length % u.1.size := by
      intro hne
      have hlt : pos + 1 < u.1.size := by
        have := List.length_pos_of_ne_nil hne
        omega
      have hhere := hpos (by simp)
      rw [← List.append_assoc, List.length_append, List.length_singleton, Nat.add_mod, ← hhere,
        Nat.mod_eq_of_lt (show 1 < u.1.size by omega), Nat.mod_eq_of_lt hlt]
    have hrest := ih hguar' hnext hpos' (by omega) (by simp; omega)
    refine wp_mono hrest fun _ s' t' h => ?_
    rwa [List.append_assoc] at h

theorem ringBufferFree_spec (hguar : ConsumerRely acc obt s t) :
    wp (ProducerRely acc obt) (ConsumerRely acc obt) ringBufferFree
      (fun free s' t' => ConsumerRely acc obt s' t' ∧ ProducerRely acc obt t t' ∧
        free = t.1.size - 1 - ((acc t.2).length - (obt t'.2).length)) s t := by
  unfold ringBufferFree ringBufferCapacity ringBufferCount
  simp only [wp_bind, wp_load, wp_pure]
  refine ⟨hguar, fun t₁ h₁ => ⟨.refl h₁.holds, fun t₂ h₂ => ⟨.refl h₂.holds, fun t₃ h₃ => ?_⟩⟩⟩
  have hall := (h₁.trans h₂).trans h₃
  have hsize₁ : t₁.1.size = t.1.size := congrArg List.length h₁.storage_eq
  have hsize₃ : t₃.1.size = t.1.size := congrArg List.length hall.storage_eq
  have hholds := h₃.holds
  refine ⟨.refl hholds, hall, ?_⟩
  have hdistance := distance_eq hholds.obtained_prefix.length_le hholds.fits
  rw [← hholds.head_eq, ← hholds.tail_eq, h₃.head_eq] at hdistance
  rw [hdistance, hsize₁, hall.acc_eq]

/-- The end of an operation of the producer: once its bytes are recorded as accepted, its
last step is one the consumer relies on. -/
structure Published (acc obt : ω → Bytes) (t : RingBuffer × ω) (bytes : Bytes)
    (s' t' : RingBuffer × ω) : Prop where
  size_eq : t'.1.size = t.1.size
  acc_eq : acc t'.2 = acc t.2
  obt_grows : obt t.2 <+: obt t'.2
  commit : ∀ w, acc w = acc t.2 ++ bytes → obt w = obt t'.2 → ConsumerRely acc obt s' (t'.1, w)

theorem Published.nothing (hguar : ConsumerRely acc obt s t) {u : RingBuffer × ω}
    (hrely : ProducerRely acc obt u t) : Published acc obt u [] s t where
  size_eq := congrArg List.length hrely.storage_eq
  acc_eq := hrely.acc_eq
  obt_grows := hrely.obt_grows
  commit w hacc hobt := by
    rw [List.append_nil, ← hrely.acc_eq] at hacc
    obtain ⟨hholds, htail, hsize, hobt', hgrows⟩ := hguar
    exact ⟨by rw [hacc, hobt]; exact hholds, htail, hsize, hobt.trans hobt', by rw [hacc]; exact hgrows⟩

theorem setHead_spec {taken staged : Bytes} {u : RingBuffer × ω}
    (hguar : ConsumerRely acc obt s t) (hstaged : Staged acc obt u (acc u.2) taken staged t)
    (htaken : obt u.2 <+: taken)
    (hroom : (acc u.2 ++ staged).length < taken.length + u.1.size) :
    wp (ProducerRely acc obt) (ConsumerRely acc obt)
      (setHead ((acc u.2 ++ staged).length % u.1.size))
      (fun _ s' t' => taken <+: obt t'.2 ∧ Published acc obt u staged s' t') s t := by
  unfold setHead
  rw [wp_store]
  refine ⟨hguar, fun t' hrely => ?_⟩
  have hstaged' := hstaged.rely hrely
  have hholds := hrely.holds
  have hlength := hstaged'.obt_grows.length_le
  have hsize : t'.1.storage.length = u.1.size := hstaged'.size_eq
  refine ⟨hstaged'.obt_grows, hsize, hstaged'.acc_eq, htaken.trans hstaged'.obt_grows,
    fun w hacc hobt => ?_⟩
  have hgrows : acc t'.2 <+: acc w := by
    rw [hacc, hstaged'.acc_eq]
    exact List.prefix_append _ _
  have hobt' : obt w = obt t'.2 := hobt
  refine ⟨⟨hholds.two_le, ?_, ?_, ?_, ?_, ?_⟩, rfl, rfl, hobt', hgrows⟩
  · rw [hobt']
    exact hholds.obtained_prefix.trans hgrows
  · change (acc w).length < (obt w).length + t'.1.storage.length
    rw [hacc, hobt', hsize]
    omega
  · change _ = (acc w).length % t'.1.storage.length
    rw [hacc, hsize]
  · rw [hobt']
    exact hholds.tail_eq
  · rw [hacc, hobt']
    exact hstaged'.cells

theorem ProducerRely.staged {u : RingBuffer × ω} (h : ProducerRely acc obt u t) :
    Staged acc obt u (acc u.2) (obt t.2) [] t where
  size_eq := congrArg List.length h.storage_eq
  acc_eq := h.acc_eq
  obt_grows := List.prefix_refl _
  cells := by
    rw [List.append_nil, ← h.acc_eq]
    exact h.holds.cells

/-- `ring_buffer_push`: refused when the buffer was full as the consumer's index was read. -/
theorem ringBufferPush_spec (byte : UInt8) (hguar : ConsumerRely acc obt s t) :
    wp (ProducerRely acc obt) (ConsumerRely acc obt) (ringBufferPush byte)
      (fun ok s' t' => Published acc obt t (if ok then [byte] else []) s' t' ∧
        ∃ taken, obt t.2 <+: taken ∧ taken <+: obt t'.2 ∧
          (ok = true ↔ (acc t.2).length + 1 < taken.length + t.1.size)) s t := by
  unfold ringBufferPush
  rw [wp_bind, wp_load]
  refine ⟨hguar, fun t₁ h₁ => ?_⟩
  rw [wp_bind, wp_load]
  refine ⟨.refl h₁.holds, fun t₂ h₂ => ?_⟩
  have hall := h₁.trans h₂
  have hsize₁ : t₁.1.size = t.1.size := congrArg List.length h₁.storage_eq
  have hsize : t₂.1.size = t.1.size := congrArg List.length hall.storage_eq
  have hholds := h₂.holds
  have hfits := hholds.fits
  have hle := hholds.obtained_prefix.length_le
  have htwo := hholds.two_le
  have htail := hholds.tail_eq
  rw [hsize] at hfits htwo htail
  rw [hall.acc_eq] at hfits hle
  have hhead : t₁.1.head = (acc t.2).length % t.1.size := by
    rw [h₁.holds.head_eq, h₁.acc_eq, hsize₁]
  have hnext : advance t₁.1.size t₁.1.head 1 = ((acc t.2).length + 1) % t.1.size := by
    rw [hsize₁, advance_eq (by omega), hhead, Nat.mod_add_mod]
  by_cases hfull : (acc t.2).length + 1 < (obt t₂.2).length + t.1.size
  · have hroom : ((acc t.2).length + 1) % t.1.size ≠ t₂.1.tail := by
      rw [htail]
      exact (mod_ne (by omega) (by omega)).symm
    rw [hnext, if_neg hroom, wp_bind, hhead]
    have hlt := Nat.mod_lt (acc t.2).length (show 0 < t.1.size by omega)
    refine wp_mono (copyIn_spec [byte] (.refl hholds) hall.staged (by simp)
      (by rw [List.length_singleton]; omega) (by simp; omega)) fun _ s' t' h => ?_
    obtain ⟨hguar', hstaged⟩ := h
    rw [wp_bind]
    have hset := setHead_spec hguar' hstaged hall.obt_grows (by simp; omega)
    have hlength : (acc t.2 ++ ([] ++ [byte])).length = (acc t.2).length + 1 := by simp
    rw [hlength] at hset
    refine wp_mono hset fun _ s' t' h => ?_
    obtain ⟨htaken, hpublished⟩ := h
    exact ⟨by simpa using hpublished, obt t₂.2, hall.obt_grows, htaken, by simpa using hfull⟩
  · have hroom : ((acc t.2).length + 1) % t.1.size = t₂.1.tail := by
      rw [htail, show (acc t.2).length + 1 = (obt t₂.2).length + t.1.size by omega,
        Nat.add_mod_right]
    rw [hnext, if_pos hroom, wp_pure]
    exact ⟨.nothing (.refl hholds) hall, obt t₂.2, hall.obt_grows, List.prefix_refl _, by simpa using hfull⟩

/-- `ring_buffer_write` takes what had room as the consumer's index was read. -/
theorem ringBufferWrite_spec (data : Bytes) (hguar : ConsumerRely acc obt s t) :
    wp (ProducerRely acc obt) (ConsumerRely acc obt) (ringBufferWrite data)
      (fun n s' t' => Published acc obt t (data.take n) s' t' ∧
        ∃ taken, obt t.2 <+: taken ∧ taken <+: obt t'.2 ∧
          n = min data.length (t.1.size - 1 - ((acc t.2).length - taken.length))) s t := by
  unfold ringBufferWrite
  rw [wp_bind]
  refine wp_mono (ringBufferFree_spec hguar) fun free s₁ t₁ h => ?_
  obtain ⟨hguar₁, hrely, hfree⟩ := h
  have hsize : t₁.1.size = t.1.size := congrArg List.length hrely.storage_eq
  have hholds := hrely.holds
  have hfits := hholds.fits
  have hle := hholds.obtained_prefix.length_le
  have htwo := hholds.two_le
  rw [hsize] at hfits htwo
  rw [hrely.acc_eq] at hfits hle
  have hmin : (if data.length < free then data.length else free) = min data.length free := by
    split_ifs with hlt
    · omega
    · omega
  simp only [hmin]
  generalize hwritable : min data.length free = writable
  split_ifs with hzero
  · rw [wp_pure]
    exact ⟨.nothing hguar₁ hrely, obt t₁.2, hrely.obt_grows, List.prefix_refl _, by
      rw [← hfree, hwritable, hzero]⟩
  · rw [wp_bind, wp_load]
    refine ⟨hguar₁, fun t₂ h₂ => ?_⟩
    have hall := hrely.trans h₂
    have hhead : t₂.1.head = (acc t.2).length % t.1.size := by
      rw [h₂.head_eq, hholds.head_eq, hrely.acc_eq, hsize]
    have hsize₂ : t₂.1.size = t.1.size := congrArg List.length hall.storage_eq
    have hlt := Nat.mod_lt (acc t.2).length (show 0 < t.1.size by omega)
    simp only [hhead, hsize₂]
    generalize hfirst : (if writable < t.1.size - (acc t.2).length % t.1.size then writable
      else t.1.size - (acc t.2).length % t.1.size) = first
    have hfirst_le : first ≤ writable ∧ first ≤ t.1.size - (acc t.2).length % t.1.size ∧
        (first < writable → first = t.1.size - (acc t.2).length % t.1.size) := by
      rw [← hfirst]
      split_ifs with h
      · omega
      · omega
    have hdata : writable ≤ data.length := by omega
    have hstart : Staged acc obt t (acc t.2) (obt t₁.2) [] t₂ := hrely.staged.rely h₂
    rw [wp_bind]
    refine wp_mono (copyIn_spec (data.take first) (.refl h₂.holds) hstart (by simp)
      (by rw [List.length_take]; omega) (by simp; omega)) fun _ s₃ t₃ h₃ => ?_
    obtain ⟨hguar₃, hstaged₃⟩ := h₃
    rw [List.nil_append] at hstaged₃
    have hpublish {s' t' : RingBuffer × ω} (hguar' : ConsumerRely acc obt s' t')
        (hstaged : Staged acc obt t (acc t.2) (obt t₁.2) (data.take writable) t') :
        wp (ProducerRely acc obt) (ConsumerRely acc obt)
          (do setHead (advance t.1.size ((acc t.2).length % t.1.size) writable); pure writable)
          (fun n s' t' => Published acc obt t (data.take n) s' t' ∧
            ∃ taken, obt t.2 <+: taken ∧ taken <+: obt t'.2 ∧
              n = min data.length (t.1.size - 1 - ((acc t.2).length - taken.length))) s' t' := by
      have hlength : (acc t.2 ++ data.take writable).length = (acc t.2).length + writable := by
        rw [List.length_append, List.length_take, Nat.min_eq_left hdata]
      have hset := setHead_spec hguar' hstaged hrely.obt_grows (by rw [hlength]; omega)
      rw [wp_bind, advance_eq (by omega), Nat.mod_add_mod, ← hlength]
      refine wp_mono hset fun _ s' t' h => ?_
      exact ⟨h.2, obt t₁.2, hrely.obt_grows, h.1, by rw [← hfree, hwritable]⟩
    split_ifs with hmore
    · -- the second run starts where the first wrapped
      have hwrap := hfirst_le.2.2 hmore
      rw [wp_bind]
      refine wp_mono (copyIn_spec ((data.drop first).take (writable - first)) hguar₃ hstaged₃ ?_
        (by rw [List.length_take]; omega) (by simp; omega)) fun _ s₄ t₄ h₄ => ?_
      · intro _
        rw [List.length_append, List.length_take, Nat.min_eq_left (by omega), hwrap,
          mod_wrap (by omega)]
      · obtain ⟨hguar₄, hstaged₄⟩ := h₄
        rw [← List.take_add, Nat.add_sub_cancel' hfirst_le.1] at hstaged₄
        exact hpublish hguar₄ hstaged₄
    · have hsame : first = writable := by omega
      rw [hsame] at hstaged₃
      exact hpublish hguar₃ hstaged₃

end producer

section consumer

variable {ω : Type} {acc obt : ω → Bytes} {s t u : RingBuffer × ω}

/-- What a consumer's operation saw of the bytes accepted: all of them at some moment. -/
structure Saw (acc obt : ω → Bytes) (t t' : RingBuffer × ω) (seen : Bytes) : Prop where
  grows : acc t.2 <+: seen
  visible : seen <+: acc t'.2
  obtained : obt t.2 <+: seen
  moment : ∃ w, acc w = seen

theorem Saw.later {seen : Bytes} {t' u : RingBuffer × ω} (h : Saw acc obt t t' seen)
    (hgrows : acc t'.2 <+: acc u.2) : Saw acc obt t u seen :=
  { h with visible := h.visible.trans hgrows }

theorem ringBufferCount_spec (hguar : ProducerRely acc obt s t) :
    wp (ConsumerRely acc obt) (ProducerRely acc obt) ringBufferCount
      (fun count s' t' => ProducerRely acc obt s' t' ∧ ConsumerRely acc obt t t' ∧
        ∃ seen, Saw acc obt t t' seen ∧ count = seen.length - (obt t.2).length) s t := by
  unfold ringBufferCount
  simp only [wp_bind, wp_load, wp_pure]
  refine ⟨hguar, fun t₁ h₁ => ⟨.refl h₁.holds, fun t₂ h₂ => ?_⟩⟩
  have hall := h₁.trans h₂
  have hobtained : obt t.2 <+: acc t₁.2 := h₁.obt_eq ▸ h₁.holds.obtained_prefix
  refine ⟨.refl h₂.holds, hall, acc t₁.2, ⟨h₁.acc_grows, h₂.acc_grows, hobtained, _, rfl⟩, ?_⟩
  have hdistance := distance_eq h₁.holds.obtained_prefix.length_le h₁.holds.fits
  rw [← h₁.holds.head_eq, ← h₁.holds.tail_eq, h₁.obt_eq] at hdistance
  rw [h₂.tail_eq, h₂.size_eq]
  exact hdistance

theorem ringBufferIsEmpty_spec (hguar : ProducerRely acc obt s t) :
    wp (ConsumerRely acc obt) (ProducerRely acc obt) ringBufferIsEmpty
      (fun empty s' t' => ProducerRely acc obt s' t' ∧ ConsumerRely acc obt t t' ∧
        ∃ seen, Saw acc obt t t' seen ∧ (empty = true ↔ seen.length = (obt t.2).length)) s t := by
  unfold ringBufferIsEmpty
  simp only [wp_bind, wp_load, wp_pure]
  refine ⟨hguar, fun t₁ h₁ => ⟨.refl h₁.holds, fun t₂ h₂ => ?_⟩⟩
  have hholds := h₁.holds
  have hobtained : obt t.2 <+: acc t₁.2 := h₁.obt_eq ▸ hholds.obtained_prefix
  refine ⟨.refl h₂.holds, h₁.trans h₂, acc t₁.2,
    ⟨h₁.acc_grows, h₂.acc_grows, hobtained, _, rfl⟩, ?_⟩
  have hle := hobtained.length_le
  have hfits := hholds.fits
  rw [h₁.obt_eq] at hfits
  rw [h₂.tail_eq, hholds.head_eq, hholds.tail_eq, h₁.obt_eq, decide_eq_true_eq]
  constructor
  · intro hsame
    by_contra hne
    exact mod_ne (show (obt t.2).length < (acc t₁.2).length by omega) hfits hsame.symm
  · intro hsame
    rw [hsame]

theorem Buffered.getD_eq {rb : RingBuffer} {accepted obtained seen : Bytes}
    (h : Buffered rb accepted obtained) (hseen : seen <+: accepted) {i : ℕ}
    (hi : obtained.length ≤ i) (hlt : i < seen.length) :
    some (rb.storage.getD (i % rb.size) 0) = seen[i]? := by
  have hcell := h.cells i hi (hlt.trans_le hseen.length_le)
  obtain ⟨more, rfl⟩ := hseen
  rw [List.getElem?_append_left hlt] at hcell
  rw [List.getD_eq_getElem?_getD, ← hcell]
  have hpos : i % rb.size < rb.storage.length :=
    Nat.mod_lt _ (show 0 < rb.size by have := h.two_le; omega)
  change some (rb.storage[i % rb.size]?.getD 0) = rb.storage[i % rb.size]?
  rw [List.getElem?_eq_getElem hpos]
  rfl

theorem copyOut_spec (n : ℕ) {seen : Bytes} {pos k : ℕ} (hguar : ProducerRely acc obt s t)
    (hrely : ConsumerRely acc obt u t) (hseen : seen <+: acc t.2)
    (hpos : n ≠ 0 → pos = ((obt u.2).length + k) % u.1.size) (hend : pos + n ≤ u.1.size)
    (hk : (obt u.2).length + k + n ≤ seen.length) :
    wp (ConsumerRely acc obt) (ProducerRely acc obt) (copyOut pos n)
      (fun bytes s' t' => ProducerRely acc obt s' t' ∧ ConsumerRely acc obt u t' ∧
        seen <+: acc t'.2 ∧ bytes = (seen.drop ((obt u.2).length + k)).take n) s t := by
  induction n generalizing s t pos k with
  | zero => exact ⟨hguar, hrely, hseen, rfl⟩
  | succ n ih =>
    rw [copyOut, wp_bind, wp_load]
    refine ⟨hguar, fun t' hrely' => ?_⟩
    have hall := hrely.trans hrely'
    have hbyte := hall.holds.getD_eq (hseen.trans hrely'.acc_grows)
      (i := (obt u.2).length + k) (by rw [hall.obt_eq]; omega) (by omega)
    rw [hall.size_eq, ← hpos (by omega)] at hbyte
    have hnext : n ≠ 0 → pos + 1 = ((obt u.2).length + (k + 1)) % u.1.size := by
      intro hne
      have hhere := hpos (by omega)
      rw [← Nat.add_assoc, Nat.add_mod, ← hhere, Nat.mod_eq_of_lt (show 1 < u.1.size by omega),
        Nat.mod_eq_of_lt (by omega)]
    rw [wp_bind]
    refine wp_mono (ih (.refl hall.holds) hall (hseen.trans hrely'.acc_grows) hnext (by omega)
      (by omega)) fun bytes s' t'' h => ?_
    obtain ⟨hguar'', hrely'', hseen'', rfl⟩ := h
    refine ⟨hguar'', hrely'', hseen'', ?_⟩
    have hlt : (obt u.2).length + k < seen.length := by omega
    rw [List.getElem?_eq_getElem hlt] at hbyte
    rw [Option.some.inj hbyte, List.drop_eq_getElem_cons hlt, List.take_succ_cons, Nat.add_assoc]

/-- The end of an operation of the consumer: once the bytes it took are recorded, its last
step is one the producer relies on. -/
structure Consumed (acc obt : ω → Bytes) (u : RingBuffer × ω) (bytes : Bytes)
    (s' t' : RingBuffer × ω) : Prop where
  size_eq : t'.1.size = u.1.size
  obt_eq : obt t'.2 = obt u.2
  acc_grows : acc u.2 <+: acc t'.2
  visible : obt u.2 ++ bytes <+: acc t'.2
  commit : ∀ w, acc w = acc t'.2 → obt w = obt u.2 ++ bytes → ProducerRely acc obt s' (t'.1, w)

theorem Consumed.nothing (hguar : ProducerRely acc obt s t) (hrely : ConsumerRely acc obt u t) :
    Consumed acc obt u [] s t where
  size_eq := hrely.size_eq
  obt_eq := hrely.obt_eq
  acc_grows := hrely.acc_grows
  visible := by
    rw [List.append_nil, ← hrely.obt_eq]
    exact hrely.holds.obtained_prefix
  commit w hacc hobt := by
    rw [List.append_nil, ← hrely.obt_eq] at hobt
    obtain ⟨hholds, hhead, hstorage, hacc', hgrows⟩ := hguar
    exact ⟨by rw [hacc, hobt]; exact hholds, hhead, hstorage, hacc.trans hacc',
      by rw [hobt]; exact hgrows⟩

theorem take_visible {obtained seen : Bytes} (h : obtained <+: seen) (n : ℕ) :
    obtained ++ (seen.drop obtained.length).take n <+: seen := by
  obtain ⟨more, rfl⟩ := h
  rw [List.drop_left]
  exact List.prefix_append_right_inj _ |>.mpr (List.take_prefix n more)

theorem setTail_spec {bytes : Bytes} (hguar : ProducerRely acc obt s t)
    (hrely : ConsumerRely acc obt u t) (hvisible : obt u.2 ++ bytes <+: acc t.2) :
    wp (ConsumerRely acc obt) (ProducerRely acc obt)
      (setTail (((obt u.2).length + bytes.length) % u.1.size))
      (fun _ s' t' => acc t.2 <+: acc t'.2 ∧ Consumed acc obt u bytes s' t') s t := by
  unfold setTail
  rw [wp_store]
  refine ⟨hguar, fun t' hrely' => ?_⟩
  have hall := hrely.trans hrely'
  have hholds := hall.holds
  have hvisible' := hvisible.trans hrely'.acc_grows
  have hsize : t'.1.storage.length = u.1.size := hall.size_eq
  refine ⟨hrely'.acc_grows, hsize, hall.obt_eq, hall.acc_grows, hvisible', fun w hacc hobt => ?_⟩
  have hacc' : acc w = acc t'.2 := hacc
  have hgrows : obt t'.2 <+: obt w := by
    rw [hobt, hall.obt_eq]
    exact List.prefix_append _ _
  refine ⟨⟨hholds.two_le, ?_, ?_, ?_, ?_, ?_⟩, rfl, rfl, hacc', hgrows⟩
  · rw [hobt, hacc']
    exact hvisible'
  · rw [hacc']
    exact Nat.lt_of_lt_of_le hholds.fits (Nat.add_le_add_right hgrows.length_le _)
  · rw [hacc']
    exact hholds.head_eq
  · change _ = (obt w).length % t'.1.storage.length
    rw [hobt, hsize, List.length_append]
  · rw [hacc']
    exact hholds.cells.later hgrows.length_le

/-- `ring_buffer_peek` shows the first byte and takes nothing. -/
theorem ringBufferPeek_spec (hguar : ProducerRely acc obt s t) :
    wp (ConsumerRely acc obt) (ProducerRely acc obt) ringBufferPeek
      (fun byte s' t' => Consumed acc obt t [] s' t' ∧
        ∃ seen, Saw acc obt t t' seen ∧ byte = (seen.drop (obt t.2).length).head?) s t := by
  unfold ringBufferPeek
  rw [wp_bind]
  refine wp_mono (ringBufferIsEmpty_spec hguar) fun empty s₁ t₁ h => ?_
  obtain ⟨hguar₁, hrely, seen, hsaw, hempty⟩ := h
  have hobtained := hsaw.obtained
  have hseen := hsaw.visible
  have hle := hobtained.length_le
  split_ifs with hflag
  · rw [wp_pure]
    exact ⟨.nothing hguar₁ hrely, seen, hsaw, by
      rw [List.drop_eq_nil_of_le (hempty.mp hflag).le]
      rfl⟩
  · rw [wp_bind, wp_load]
    refine ⟨hguar₁, fun t₂ h₂ => ?_⟩
    rw [wp_bind, wp_load]
    refine ⟨.refl h₂.holds, fun t₃ h₃ => ?_⟩
    have hall₂ := hrely.trans h₂
    have hall := hall₂.trans h₃
    have hlt : (obt t.2).length < seen.length := by
      rw [hempty] at hflag
      omega
    have hseen₃ := hseen.trans (h₂.trans h₃).acc_grows
    have hbyte := hall.holds.getD_eq hseen₃ (by rw [hall.obt_eq]) hlt
    have htail : t₂.1.tail = (obt t.2).length % t₃.1.size := by
      rw [h₂.holds.tail_eq, hall₂.obt_eq, h₃.size_eq]
    rw [wp_pure]
    refine ⟨.nothing (.refl hall.holds) hall, seen, hsaw.later (h₂.trans h₃).acc_grows, ?_⟩
    rw [htail, hbyte, List.head?_drop]

theorem ringBufferPop_spec (hguar : ProducerRely acc obt s t) :
    wp (ConsumerRely acc obt) (ProducerRely acc obt) ringBufferPop
      (fun byte s' t' => Consumed acc obt t byte.toList s' t' ∧
        ∃ seen, Saw acc obt t t' seen ∧ byte = (seen.drop (obt t.2).length).head?) s t := by
  unfold ringBufferPop
  rw [wp_bind]
  refine wp_mono (ringBufferIsEmpty_spec hguar) fun empty s₁ t₁ h => ?_
  obtain ⟨hguar₁, hrely, seen, hsaw, hempty⟩ := h
  have hobtained := hsaw.obtained
  have hseen := hsaw.visible
  have hle := hobtained.length_le
  split_ifs with hflag
  · rw [wp_pure]
    exact ⟨.nothing hguar₁ hrely, seen, hsaw, by
      rw [List.drop_eq_nil_of_le (hempty.mp hflag).le]
      rfl⟩
  · rw [wp_bind, wp_load]
    refine ⟨hguar₁, fun t₂ h₂ => ?_⟩
    rw [wp_bind, wp_load]
    refine ⟨.refl h₂.holds, fun t₃ h₃ => ?_⟩
    have hall₂ := hrely.trans h₂
    have hall := hall₂.trans h₃
    have hlt : (obt t.2).length < seen.length := by
      rw [hempty] at hflag
      omega
    have hseen₃ := hseen.trans (h₂.trans h₃).acc_grows
    have hbyte := hall.holds.getD_eq hseen₃ (by rw [hall.obt_eq]) hlt
    have htail : t₂.1.tail = (obt t.2).length % t.1.size := by
      rw [h₂.holds.tail_eq, hall₂.obt_eq, hall₂.size_eq]
    rw [hall.size_eq, ← htail] at hbyte
    have hvisible : obt t.2 ++ [t₃.1.storage.getD t₂.1.tail 0] <+: acc t₃.2 := by
      rw [List.getElem?_eq_getElem hlt] at hbyte
      have htake := take_visible hobtained 1
      rw [List.drop_eq_getElem_cons hlt, List.take_succ_cons, List.take_zero,
        ← Option.some.inj hbyte] at htake
      exact htake.trans hseen₃
    have hset := setTail_spec (.refl hall.holds) hall hvisible
    rw [wp_bind, htail, hall₂.size_eq, advance_eq (by have := h₂.holds.two_le; rw [hall₂.size_eq] at this; omega),
      Nat.mod_add_mod, ← htail]
    refine wp_mono hset fun _ s' t' h => ?_
    rw [wp_pure]
    exact ⟨h.2, seen, hsaw.later ((h₂.trans h₃).acc_grows.trans h.1), by rw [hbyte, List.head?_drop]⟩

/-- `ring_buffer_peek_bytes` shows the first bytes and takes nothing. -/
theorem ringBufferPeekBytes_spec (len : ℕ) (hguar : ProducerRely acc obt s t) :
    wp (ConsumerRely acc obt) (ProducerRely acc obt) (ringBufferPeekBytes len)
      (fun bytes s' t' => ProducerRely acc obt s' t' ∧ ConsumerRely acc obt t t' ∧
        ∃ seen, Saw acc obt t t' seen ∧ bytes = (seen.drop (obt t.2).length).take len) s t := by
  unfold ringBufferPeekBytes
  rw [wp_bind]
  refine wp_mono (ringBufferCount_spec hguar) fun count s₁ t₁ h => ?_
  obtain ⟨hguar₁, hrely, seen, hsaw, hcount⟩ := h
  have hobtained := hsaw.obtained
  have hseen := hsaw.visible
  have hle := hobtained.length_le
  have hmin : (if len < count then len else count) = min len count := by
    split_ifs with hlt
    · omega
    · omega
  simp only [hmin]
  generalize hreadable : min len count = readable
  have htake : (seen.drop (obt t.2).length).take readable =
      (seen.drop (obt t.2).length).take len := by
    rw [← hreadable, hcount, ← List.length_drop, ← List.take_eq_take_min]
  split_ifs with hzero
  · rw [wp_pure]
    exact ⟨hguar₁, hrely, seen, hsaw, by rw [← htake, hzero]; rfl⟩
  · rw [wp_bind, wp_load]
    refine ⟨hguar₁, fun t₂ h₂ => ?_⟩
    have hall := hrely.trans h₂
    have hpos : 0 < t.1.size := by
      have := hall.holds.two_le
      rw [hall.size_eq] at this
      omega
    have htail : t₂.1.tail = (obt t.2).length % t.1.size := by
      rw [hall.holds.tail_eq, hall.obt_eq, hall.size_eq]
    have hlt := Nat.mod_lt (obt t.2).length hpos
    simp only [htail, hall.size_eq]
    generalize hfirst : (if readable < t.1.size - (obt t.2).length % t.1.size then readable
      else t.1.size - (obt t.2).length % t.1.size) = first
    have hfirst_le : first ≤ readable ∧ first ≤ t.1.size - (obt t.2).length % t.1.size ∧
        (first < readable → first = t.1.size - (obt t.2).length % t.1.size) := by
      rw [← hfirst]
      split_ifs with h
      · omega
      · omega
    have hfits : seen.length < (obt t.2).length + t.1.size := by
      have hsame : obt t₂.2 = obt t.2 := hall.obt_eq
      have := hall.holds.fits
      have := (hseen.trans h₂.acc_grows).length_le
      rw [hall.size_eq, hsame] at *
      omega
    rw [wp_bind]
    refine wp_mono (copyOut_spec first (k := 0) (.refl hall.holds) hall (hseen.trans h₂.acc_grows)
      (by simp) (by omega) (by omega)) fun bytes s₃ t₃ h₃ => ?_
    obtain ⟨hguar₃, hrely₃, hseen₃, rfl⟩ := h₃
    rw [Nat.add_zero]
    split_ifs with hmore
    · -- the second run starts where the first wrapped
      have hwrap := hfirst_le.2.2 hmore
      have hstart : 0 = ((obt t.2).length + first) % t.1.size := by
        rw [hwrap, mod_wrap hpos]
      rw [wp_bind]
      refine wp_mono (copyOut_spec (readable - first) hguar₃ hrely₃ hseen₃ (fun _ => hstart)
        (by omega) (by omega)) fun more s₄ t₄ h₄ => ?_
      obtain ⟨hguar₄, hrely₄, hseen₄, rfl⟩ := h₄
      rw [wp_pure]
      refine ⟨hguar₄, hrely₄, seen, { hsaw with visible := hseen₄ }, ?_⟩
      rw [← htake, ← List.drop_drop, ← List.take_add, Nat.add_sub_cancel' hfirst_le.1]
    · have hsame : first = readable := by omega
      rw [wp_bind, wp_pure, wp_pure, List.append_nil, hsame]
      exact ⟨hguar₃, hrely₃, seen, { hsaw with visible := hseen₃ }, htake⟩

/-- `ring_buffer_discard` takes what there was as the producer's index was read. -/
theorem ringBufferDiscard_spec (len : ℕ) (hguar : ProducerRely acc obt s t) :
    wp (ConsumerRely acc obt) (ProducerRely acc obt) (ringBufferDiscard len)
      (fun n s' t' => ∃ seen, Saw acc obt t t' seen ∧ n = min len (seen.length - (obt t.2).length) ∧
        Consumed acc obt t ((seen.drop (obt t.2).length).take len) s' t') s t := by
  unfold ringBufferDiscard
  rw [wp_bind]
  refine wp_mono (ringBufferCount_spec hguar) fun count s₁ t₁ h => ?_
  obtain ⟨hguar₁, hrely, seen, hsaw, hcount⟩ := h
  have hobtained := hsaw.obtained
  have hseen := hsaw.visible
  have hmin : (if len < count then len else count) = min len count := by
    split_ifs with hlt
    · omega
    · omega
  simp only [hmin]
  have hlength : ((seen.drop (obt t.2).length).take len).length = min len count := by
    rw [List.length_take, List.length_drop, hcount]
  split_ifs with hzero
  · rw [wp_pure]
    rw [hzero, List.length_eq_zero_iff] at hlength
    refine ⟨seen, hsaw, by rw [← hcount, hzero], ?_⟩
    rw [hlength]
    exact .nothing hguar₁ hrely
  · rw [wp_bind, wp_load]
    refine ⟨hguar₁, fun t₂ h₂ => ?_⟩
    have hall := hrely.trans h₂
    have hpos : 0 < t.1.size := by
      have := hall.holds.two_le
      rw [hall.size_eq] at this
      omega
    have htail : t₂.1.tail = (obt t.2).length % t.1.size := by
      rw [hall.holds.tail_eq, hall.obt_eq, hall.size_eq]
    have hset := setTail_spec (.refl hall.holds) hall
      ((take_visible hobtained len).trans (hseen.trans h₂.acc_grows))
    rw [hlength] at hset
    rw [wp_bind, htail, hall.size_eq, advance_eq hpos, Nat.mod_add_mod]
    refine wp_mono hset fun _ s' t' h => ?_
    rw [wp_pure]
    exact ⟨seen, hsaw.later (h₂.acc_grows.trans h.1), by rw [hcount], h.2⟩

/-- `ring_buffer_read` takes just what it has copied. -/
theorem ringBufferRead_spec (len : ℕ) (hguar : ProducerRely acc obt s t) :
    wp (ConsumerRely acc obt) (ProducerRely acc obt) (ringBufferRead len)
      (fun read s' t' => Consumed acc obt t read.1 s' t' ∧ read.2 = read.1.length ∧
        ∃ seen, Saw acc obt t t' seen ∧ read.1 = (seen.drop (obt t.2).length).take len) s t := by
  unfold ringBufferRead
  rw [wp_bind]
  refine wp_mono (ringBufferPeekBytes_spec len hguar) fun bytes s₁ t₁ h => ?_
  obtain ⟨hguar₁, hrely, seen, hsaw, hbytes⟩ := h
  rw [wp_bind]
  refine wp_mono (ringBufferDiscard_spec bytes.length hguar₁) fun n s₂ t₂ h => ?_
  obtain ⟨seen', hsaw', hn, hconsumed⟩ := h
  -- what was copied is still there, with more behind it
  have hlater : seen <+: seen' := hsaw.visible.trans hsaw'.grows
  have hsame : (seen'.drop (obt t.2).length).take bytes.length = bytes := by
    obtain ⟨more, rfl⟩ := hlater
    rw [List.drop_append_of_le_length hsaw.obtained.length_le, hbytes, List.length_take,
      List.take_append_of_le_length (Nat.min_le_right _ _), ← List.take_eq_take_min]
  rw [hrely.obt_eq, hsame] at hconsumed
  rw [wp_pure]
  refine ⟨⟨hconsumed.size_eq.trans hrely.size_eq, hconsumed.obt_eq.trans hrely.obt_eq,
    hrely.acc_grows.trans hconsumed.acc_grows, ?_, ?_⟩,
    ?_, seen, hsaw.later (hsaw'.grows.trans hsaw'.visible), hbytes⟩
  · rw [← hrely.obt_eq]
    exact hconsumed.visible
  · intro w hacc hobt
    exact hconsumed.commit w hacc (by rw [hobt, hrely.obt_eq])
  · have hlength := congrArg List.length hsame
    rw [List.length_take, List.length_drop] at hlength
    rw [hn, hrely.obt_eq]
    exact hlength

end consumer

end Pico
