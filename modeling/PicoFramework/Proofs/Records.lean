import PicoFramework.Spec.ConfigStore

/-! The record format as a list of records, and what each walk over a buffer that
holds such a list finds. Nothing here needs the keys to be distinct. -/

namespace Pico

open Lib.Splice

/-- One well-formed record. -/
structure Record where
  key : Bytes
  value : Bytes
  key_pos : 0 < key.length
  key_le : key.length ≤ CONFIG_MAX_KEY_LENGTH
  value_le : value.length ≤ CONFIG_MAX_VALUE_LENGTH

theorem record_eq (a b : Record) : a.key = b.key ∧ a.value = b.value ↔ a = b := by
  cases a
  cases b
  simp

instance : DecidableEq Record := fun a b => decidable_of_iff _ (record_eq a b)

def Record.bytes (r : Record) : Bytes := recordBytes r.key r.value

def Record.size (r : Record) : ℕ := configRecordSize r.key.length r.value.length

/-- A concatenation of records. -/
def image (rs : List Record) : Bytes := rs.flatMap Record.bytes

@[simp] theorem image_nil : image [] = [] := rfl

@[simp] theorem image_cons (r : Record) (rs : List Record) :
    image (r :: rs) = r.bytes ++ image rs := rfl

@[simp] theorem image_append (rs ts : List Record) : image (rs ++ ts) = image rs ++ image ts := by
  simp [image]

@[simp] theorem recordBytes_length (key value : Bytes) :
    (recordBytes key value).length = configRecordSize key.length value.length := by
  simp only [recordBytes, configRecordSize, List.length_append, List.length_cons, List.length_nil]
  omega

@[simp] theorem Record.bytes_length (r : Record) : r.bytes.length = r.size :=
  recordBytes_length r.key r.value

theorem Record.size_eq (r : Record) : r.size = r.key.length + r.value.length + 2 := rfl

theorem image_length (rs : List Record) : (image rs).length = (rs.map Record.size).sum := by
  simp [image, List.length_flatMap]

/-- The records from `pos` on: what every walk is entered with. -/
structure RecordsAt (buffer : Bytes) (used pos : ℕ) (rs : List Record) : Prop where
  pos_le : pos ≤ used
  used_le : used ≤ buffer.length
  drop_eq : buffer.drop pos = image rs ++ buffer.drop used

namespace RecordsAt

variable {buffer : Bytes} {used pos : ℕ} {r : Record} {rs : List Record}

theorem used_eq (h : RecordsAt buffer used pos rs) : used = pos + (image rs).length := by
  have hlen := congrArg List.length h.drop_eq
  have := h.pos_le
  have := h.used_le
  simp only [List.length_append, List.length_drop] at hlen
  omega

theorem nil_iff (h : RecordsAt buffer used pos rs) : rs = [] ↔ ¬ pos < used := by
  have hlen := h.used_eq
  constructor
  · rintro rfl
    simp only [image_nil, List.length_nil] at hlen
    omega
  · intro hlt
    cases rs with
    | nil => rfl
    | cons r rs =>
      simp only [image_cons, List.length_append, Record.bytes_length, r.size_eq] at hlen
      omega

theorem lt (h : RecordsAt buffer used pos (r :: rs)) : pos < used := by
  by_contra hlt
  exact absurd (h.nil_iff.mpr hlt) (by simp)

theorem size_le (h : RecordsAt buffer used pos (r :: rs)) : pos + r.size ≤ used := by
  have := h.used_eq
  simp only [image_cons, List.length_append, Record.bytes_length] at this
  omega

theorem tail (h : RecordsAt buffer used pos (r :: rs)) :
    RecordsAt buffer used (pos + r.size) rs := by
  refine ⟨h.size_le, h.used_le, ?_⟩
  rw [← List.drop_drop, h.drop_eq, image_cons, List.append_assoc, List.drop_left' (by simp)]

/-- The record at `pos`, as the buffer holds it. -/
theorem drop_head (h : RecordsAt buffer used pos (r :: rs)) :
    buffer.drop pos = UInt8.ofNat r.key.length :: UInt8.ofNat r.value.length ::
      (r.key ++ (r.value ++ (image rs ++ buffer.drop used))) := by
  rw [h.drop_eq]
  simp [Record.bytes, recordBytes]

theorem keyLength_eq (h : RecordsAt buffer used pos (r :: rs)) :
    (buffer.getD (pos + KEY_LENGTH_AT) 0).toNat = r.key.length := by
  have hdrop := congrArg (fun l => l.getD 0 0) h.drop_head
  have hle : r.key.length < 2 ^ 8 := by
    have := r.key_le
    simp only [CONFIG_MAX_KEY_LENGTH] at this
    omega
  simp only [List.getD_eq_getElem?_getD, List.getElem?_drop, List.getElem?_cons_zero,
    Option.getD_some] at hdrop
  rw [List.getD_eq_getElem?_getD, KEY_LENGTH_AT, hdrop, UInt8.toNat_ofNat_of_lt' hle]

theorem valueLength_eq (h : RecordsAt buffer used pos (r :: rs)) :
    (buffer.getD (pos + VALUE_LENGTH_AT) 0).toNat = r.value.length := by
  have hdrop := congrArg (fun l => l.getD 1 0) h.drop_head
  have hle : r.value.length < 2 ^ 8 := Nat.lt_succ_of_le r.value_le
  simp only [List.getD_eq_getElem?_getD, List.getElem?_drop, List.getElem?_cons_succ,
    List.getElem?_cons_zero, Option.getD_some] at hdrop
  rw [List.getD_eq_getElem?_getD, VALUE_LENGTH_AT, hdrop, UInt8.toNat_ofNat_of_lt' hle]

theorem span_key (h : RecordsAt buffer used pos (r :: rs)) :
    span buffer (pos + KEY_AT) r.key.length = r.key := by
  have hdrop := congrArg (List.drop 2) h.drop_head
  simp only [List.drop_drop, List.drop_succ_cons, List.drop_zero] at hdrop
  rw [span, KEY_AT, hdrop, List.take_left]

theorem span_value (h : RecordsAt buffer used pos (r :: rs)) :
    span buffer (pos + KEY_AT + r.key.length) r.value.length = r.value := by
  have hdrop := congrArg (List.drop 2) h.drop_head
  simp only [List.drop_drop, List.drop_succ_cons, List.drop_zero] at hdrop
  rw [span, KEY_AT, ← List.drop_drop, hdrop, List.drop_left, List.take_left]

end RecordsAt

/-- A store that holds `rs`. -/
structure Holds (store : ConfigStore) (rs : List Record) : Prop where
  initialised : store.initialised = true
  length_buffer : store.buffer.length = store.capacity
  used_le : store.used ≤ store.capacity
  contents : store.buffer.take store.used = image rs

theorem Holds.recordsAt {store : ConfigStore} {rs : List Record} (h : Holds store rs) :
    RecordsAt store.buffer store.used 0 rs := by
  refine ⟨Nat.zero_le _, h.used_le.trans_eq h.length_buffer.symm, ?_⟩
  rw [← h.contents, List.take_append_drop, List.drop_zero]

theorem Holds.used_eq {store : ConfigStore} {rs : List Record} (h : Holds store rs) :
    store.used = (image rs).length := by
  simpa using h.recordsAt.used_eq

/-- The offset of the first record with `key`. -/
def offsetOf (key : Bytes) : List Record → Option ℕ
  | [] => none
  | r :: rs => if r.key = key then some 0 else (offsetOf key rs).map (r.size + ·)

theorem findRecordFrom_eq (store : ConfigStore) (key : Bytes) (fuel pos : ℕ) (rs : List Record)
    (h : RecordsAt store.buffer store.used pos rs) (hfuel : store.used - pos ≤ fuel) :
    findRecordFrom store key fuel pos = (offsetOf key rs).map (pos + ·) := by
  induction rs generalizing fuel pos with
  | nil =>
    have hlt := h.nil_iff.mp rfl
    cases fuel <;> simp [findRecordFrom, offsetOf, hlt]
  | cons r rs ih =>
    have hlt := h.lt
    obtain ⟨fuel, rfl⟩ : ∃ n, fuel = n + 1 := ⟨fuel - 1, by omega⟩
    have hmatch : (r.key.length = key.length ∧
        span store.buffer (pos + KEY_AT) key.length = key) ↔ r.key = key := by
      constructor
      · rintro ⟨hlen, hspan⟩
        rw [← hspan, ← hlen, h.span_key]
      · rintro rfl
        exact ⟨rfl, h.span_key⟩
    simp only [findRecordFrom, ConfigStore.byteAt, h.keyLength_eq, h.valueLength_eq, hlt, hmatch,
      if_true, offsetOf]
    by_cases hkey : r.key = key
    · simp [hkey]
    · have hsize := r.size_eq
      rw [if_neg hkey, if_neg hkey, ← Record.size, ih fuel (pos + r.size) h.tail (by omega),
        Option.map_map]
      congr 1
      funext n
      simp [Nat.add_assoc]

theorem findRecord_eq {store : ConfigStore} {rs : List Record} (h : Holds store rs) (key : Bytes) :
    findRecord store key = offsetOf key rs := by
  rw [findRecord, findRecordFrom_eq store key store.used 0 rs h.recordsAt (by omega)]
  simp

theorem offsetOf_cases (key : Bytes) (rs : List Record) :
    (∃ pre r post, rs = pre ++ r :: post ∧ r.key = key ∧ (∀ x ∈ pre, x.key ≠ key) ∧
      offsetOf key rs = some (image pre).length) ∨
    (offsetOf key rs = none ∧ ∀ x ∈ rs, x.key ≠ key) := by
  induction rs with
  | nil => exact Or.inr ⟨rfl, by simp⟩
  | cons r rs ih =>
    by_cases hkey : r.key = key
    · exact Or.inl ⟨[], r, rs, rfl, hkey, by simp, by simp [offsetOf, hkey]⟩
    · rcases ih with ⟨pre, q, post, rfl, hq, hpre, hoff⟩ | ⟨hoff, hall⟩
      · refine Or.inl ⟨r :: pre, q, post, rfl, hq, ?_, by simp [offsetOf, hkey, hoff]⟩
        simpa [hkey] using hpre
      · exact Or.inr ⟨by simp [offsetOf, hkey, hoff], by simpa [hkey] using hall⟩

theorem configCountFrom_eq (store : ConfigStore) (fuel pos : ℕ) (rs : List Record)
    (h : RecordsAt store.buffer store.used pos rs) (hfuel : store.used - pos ≤ fuel) :
    configCountFrom store fuel pos = rs.length := by
  induction rs generalizing fuel pos with
  | nil =>
    have hlt := h.nil_iff.mp rfl
    cases fuel <;> simp [configCountFrom, hlt]
  | cons r rs ih =>
    have hlt := h.lt
    have hsize := r.size_eq
    obtain ⟨fuel, rfl⟩ : ∃ n, fuel = n + 1 := ⟨fuel - 1, by omega⟩
    simp only [configCountFrom, ConfigStore.byteAt, h.keyLength_eq, h.valueLength_eq, hlt, if_true,
      List.length_cons]
    rw [← Record.size, ih fuel (pos + r.size) h.tail (by omega)]

theorem configKeyAtFrom_eq (store : ConfigStore) (capacity fuel index pos : ℕ) (rs : List Record)
    (h : RecordsAt store.buffer store.used pos rs) (hfuel : store.used - pos ≤ fuel) :
    configKeyAtFrom store capacity fuel index pos =
      (rs[index]?).bind fun r => if r.key.length + 1 > capacity then none else some (r.key ++ [0]) := by
  induction rs generalizing fuel index pos with
  | nil =>
    have hlt := h.nil_iff.mp rfl
    cases fuel <;> simp [configKeyAtFrom, hlt]
  | cons r rs ih =>
    have hlt := h.lt
    have hsize := r.size_eq
    obtain ⟨fuel, rfl⟩ : ∃ n, fuel = n + 1 := ⟨fuel - 1, by omega⟩
    cases index with
    | zero =>
      simp only [configKeyAtFrom, ConfigStore.byteAt, h.keyLength_eq, hlt, if_true, h.span_key,
        List.getElem?_cons_zero, Option.bind_some]
    | succ index =>
      simp only [configKeyAtFrom, ConfigStore.byteAt, h.keyLength_eq, h.valueLength_eq, hlt, if_true,
        List.getElem?_cons_succ]
      rw [← Record.size, ih fuel index (pos + r.size) h.tail (by omega)]

/-- A run of records is accepted by the walk of `config_store_load`. -/
theorem configWalk_of_recordsAt (buffer : Bytes) (used fuel pos : ℕ) (rs : List Record)
    (h : RecordsAt buffer used pos rs) (hfuel : used - pos ≤ fuel) :
    configWalk buffer used fuel pos = true := by
  induction rs generalizing fuel pos with
  | nil =>
    have hlt := h.nil_iff.mp rfl
    cases fuel <;> simp [configWalk, hlt]
  | cons r rs ih =>
    have hlt := h.lt
    have hsize := r.size_eq
    have hfits := h.size_le
    have hkey : ¬ (r.key.length = 0 ∨ r.key.length > CONFIG_MAX_KEY_LENGTH) := by
      have := r.key_pos
      have := r.key_le
      omega
    have hprefix : ¬ used - pos < KEY_AT := by
      simp only [KEY_AT]
      omega
    obtain ⟨fuel, rfl⟩ : ∃ n, fuel = n + 1 := ⟨fuel - 1, by omega⟩
    simp only [configWalk, h.keyLength_eq, h.valueLength_eq, hlt, if_true, if_neg hkey,
      if_neg hprefix]
    rw [← Record.size, if_neg (by omega), ih fuel (pos + r.size) h.tail (by omega)]

theorem recordsAt_of_configWalk (buffer : Bytes) (used fuel pos : ℕ) (hpos : pos ≤ used)
    (hused : used ≤ buffer.length) (h : configWalk buffer used fuel pos = true) :
    ∃ rs, RecordsAt buffer used pos rs := by
  induction fuel generalizing pos with
  | zero =>
    have heq : pos = used := by
      simp only [configWalk, Bool.not_eq_true', decide_eq_false_iff_not] at h
      omega
    exact ⟨[], hpos, hused, by simp [heq]⟩
  | succ fuel ih =>
    by_cases hlt : pos < used
    swap
    · exact ⟨[], hpos, hused, by simp [show pos = used by omega]⟩
    simp only [configWalk, if_pos hlt] at h
    set klen := (buffer.getD (pos + KEY_LENGTH_AT) 0).toNat with hklen
    set vlen := (buffer.getD (pos + VALUE_LENGTH_AT) 0).toNat with hvlen
    split_ifs at h with hshort hkey hsize
    simp only [KEY_AT, configRecordSize, gt_iff_lt, not_or, not_lt] at hshort hkey hsize
    obtain ⟨rs, hrs⟩ := ih (pos + configRecordSize klen vlen)
      (by simp only [configRecordSize]; omega) h
    have hk : (span buffer (pos + 2) klen).length = klen := length_span _ _ _ (by omega)
    have hv : (span buffer (pos + 2 + klen) vlen).length = vlen := length_span _ _ _ (by omega)
    have hvle : vlen ≤ CONFIG_MAX_VALUE_LENGTH := Nat.le_of_lt_succ (UInt8.toNat_lt _)
    refine ⟨⟨span buffer (pos + 2) klen, span buffer (pos + 2 + klen) vlen,
      by omega, by omega, by omega⟩ :: rs, hpos, hused, ?_⟩
    have hbyte (i : ℕ) (hi : pos + i < buffer.length) :
        UInt8.ofNat (buffer.getD (pos + i) 0).toNat = buffer[pos + i] := by
      simp [List.getD_eq_getElem?_getD, List.getElem?_eq_getElem hi]
    have hlengths : buffer.drop pos =
        [UInt8.ofNat klen, UInt8.ofNat vlen] ++ buffer.drop (pos + 2) := by
      rw [hklen, hvlen, KEY_LENGTH_AT, VALUE_LENGTH_AT, hbyte 0 (by omega), hbyte 1 (by omega),
        List.drop_eq_getElem_cons (by omega : pos < buffer.length),
        List.drop_eq_getElem_cons (by omega : pos + 1 < buffer.length)]
      rfl
    have hsplit (p n : ℕ) : buffer.drop p = span buffer p n ++ buffer.drop (p + n) := by
      rw [span, ← List.drop_drop, List.take_append_drop]
    have hnext : pos + 2 + klen + vlen = pos + configRecordSize klen vlen := by
      simp only [configRecordSize]
      omega
    rw [hlengths, hsplit (pos + 2) klen, hsplit (pos + 2 + klen) vlen, hnext, hrs.drop_eq]
    simp only [image_cons, Record.bytes, recordBytes, hk, hv, List.append_assoc]

end Pico
