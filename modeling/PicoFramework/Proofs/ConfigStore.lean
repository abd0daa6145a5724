import PicoFramework.Proofs.Records

/-! Each operation of `config_store.c` on a store that holds a list of records: what it
answers and which list the store holds afterwards. -/

namespace Pico

open Lib.Splice

theorem checkKey_ok {key : Option CString} {k : Bytes} (h : checkKey key = .ok k) :
    0 < k.length ∧ k.length ≤ CONFIG_MAX_KEY_LENGTH := by
  cases key with
  | none => simp [checkKey] at h
  | some c =>
    simp only [checkKey] at h
    split_ifs at h with hempty hlong
    obtain rfl := Except.ok.inj h
    exact ⟨List.length_pos_of_ne_nil hempty, not_lt.mp hlong⟩

theorem checkKey_error {key : Option CString} {e : ConfigResult} (h : checkKey key = .error e) :
    e = .errInvalidArg ∨ e = .errKeyTooLong := by
  cases key with
  | none => exact Or.inl (Except.error.inj h).symm
  | some c =>
    simp only [checkKey] at h
    split_ifs at h
    · exact Or.inl (Except.error.inj h).symm
    · exact Or.inr (Except.error.inj h).symm

/-- A checked key and a value make a record. -/
def newRecord {key : Option CString} {k : Bytes} (h : checkKey key = .ok k) (v : ConfigValue) :
    Record :=
  ⟨k, v.bytes, (checkKey_ok h).1, (checkKey_ok h).2, v.length_le⟩

/-- The first record with the new key replaced, or the new record added at the end. -/
def putRecord (new : Record) : List Record → List Record
  | [] => [new]
  | r :: rs => if r.key = new.key then new :: rs else r :: putRecord new rs

/-- The first record with `key` taken out. -/
def removeRecord (key : Bytes) : List Record → List Record
  | [] => []
  | r :: rs => if r.key = key then rs else r :: removeRecord key rs

/-- The value of the first record with `key`. -/
def lookupRecord (key : Bytes) : List Record → Option Bytes
  | [] => none
  | r :: rs => if r.key = key then some r.value else lookupRecord key rs

theorem putRecord_split (new : Record) {pre post : List Record} {r : Record}
    (hr : r.key = new.key) (hpre : ∀ x ∈ pre, x.key ≠ new.key) :
    putRecord new (pre ++ r :: post) = pre ++ new :: post := by
  induction pre with
  | nil => simp [putRecord, hr]
  | cons x pre ih =>
    rw [List.cons_append, putRecord, if_neg (hpre x (by simp)),
      ih fun y hy => hpre y (by simp [hy]), List.cons_append]

theorem putRecord_absent (new : Record) {rs : List Record} (h : ∀ x ∈ rs, x.key ≠ new.key) :
    putRecord new rs = rs ++ [new] := by
  induction rs with
  | nil => rfl
  | cons x rs ih =>
    rw [putRecord, if_neg (h x (by simp)), ih fun y hy => h y (by simp [hy]), List.cons_append]

theorem removeRecord_split (key : Bytes) {pre post : List Record} {r : Record}
    (hr : r.key = key) (hpre : ∀ x ∈ pre, x.key ≠ key) :
    removeRecord key (pre ++ r :: post) = pre ++ post := by
  induction pre with
  | nil => simp [removeRecord, hr]
  | cons x pre ih =>
    rw [List.cons_append, removeRecord, if_neg (hpre x (by simp)),
      ih fun y hy => hpre y (by simp [hy]), List.cons_append]

theorem lookupRecord_split (key : Bytes) {pre post : List Record} {r : Record}
    (hr : r.key = key) (hpre : ∀ x ∈ pre, x.key ≠ key) :
    lookupRecord key (pre ++ r :: post) = some r.value := by
  induction pre with
  | nil => simp [lookupRecord, hr]
  | cons x pre ih =>
    rw [List.cons_append, lookupRecord, if_neg (hpre x (by simp)),
      ih fun y hy => hpre y (by simp [hy])]

theorem lookupRecord_absent (key : Bytes) {rs : List Record} (h : ∀ x ∈ rs, x.key ≠ key) :
    lookupRecord key rs = none := by
  induction rs with
  | nil => rfl
  | cons x rs ih =>
    rw [lookupRecord, if_neg (h x (by simp)), ih fun y hy => h y (by simp [hy])]

/-- The stores at the end of `config_set` are one write of the whole record. -/
theorem writeRecord_eq (buffer : Bytes) (offset : ℕ) (key value : Bytes)
    (h : offset + configRecordSize key.length value.length ≤ buffer.length) :
    writeRecord buffer offset key value = overwrite buffer offset (recordBytes key value) := by
  simp only [configRecordSize] at h
  have hvalue (b : Bytes) (p : ℕ) :
      (if value.length > 0 then overwrite b p value else b) = overwrite b p value := by
    split_ifs with hpos
    · rfl
    · have hnil : value = [] := List.eq_nil_of_length_eq_zero (by omega)
      rw [hnil, overwrite_nil]
  have hlengths := overwrite_overwrite buffer offset [UInt8.ofNat key.length]
    [UInt8.ofNat value.length] (by omega)
  have hkey := overwrite_overwrite buffer offset
    ([UInt8.ofNat key.length] ++ [UInt8.ofNat value.length]) key (by omega)
  have hall := overwrite_overwrite buffer offset
    ([UInt8.ofNat key.length] ++ [UInt8.ofNat value.length] ++ key) value (by omega)
  simp only [List.length_append, List.length_cons, List.length_nil] at hlengths hkey hall
  simp only [writeRecord, hvalue, KEY_LENGTH_AT, VALUE_LENGTH_AT, KEY_AT, Nat.add_zero]
  rw [hlengths, hkey, Nat.add_assoc offset 2, hall]
  rfl

namespace Holds

variable {store : ConfigStore} {rs : List Record}

theorem recordsAt_split {pre post : List Record} (h : Holds store (pre ++ post)) :
    RecordsAt store.buffer store.used (image pre).length post := by
  have hused := h.used_eq
  rw [image_append, List.length_append] at hused
  refine ⟨by omega, h.recordsAt.used_le, ?_⟩
  have hall := h.recordsAt.drop_eq
  rw [List.drop_zero, image_append, List.append_assoc] at hall
  conv_lhs => rw [hall]
  rw [List.drop_left]

theorem take_split {pre post : List Record} (h : Holds store (pre ++ post)) :
    store.buffer.take (image pre).length = image pre := by
  have hall := h.recordsAt.drop_eq
  rw [List.drop_zero, image_append, List.append_assoc] at hall
  rw [hall, List.take_left]

theorem used_split {pre post : List Record} (h : Holds store (pre ++ post)) :
    store.used = (image pre).length + (image post).length := by
  rw [h.used_eq, image_append, List.length_append]

/-- The record that starts where `pre` ends, as the lengths in the buffer give its size. -/
theorem existing_eq {pre post : List Record} {r : Record} (h : Holds store (pre ++ r :: post)) :
    configRecordSize (store.byteAt ((image pre).length + KEY_LENGTH_AT))
      (store.byteAt ((image pre).length + VALUE_LENGTH_AT)) = r.size := by
  rw [ConfigStore.byteAt, ConfigStore.byteAt, h.recordsAt_split.keyLength_eq,
    h.recordsAt_split.valueLength_eq]
  rfl

end Holds

section operations

variable {store : ConfigStore} {rs : List Record} {key : Option CString} {k : Bytes}

/-- `config_set` of a usable key succeeds exactly when the result fits the buffer. -/
theorem configSet_spec (h : Holds store rs) (hk : checkKey key = .ok k) (v : ConfigValue) :
    (store.capacity < (image (putRecord (newRecord hk v) rs)).length ∧
      configSet store key (some v) = (.errFull, store)) ∨
    ((image (putRecord (newRecord hk v) rs)).length ≤ store.capacity ∧
      ∃ store', configSet store key (some v) = (.ok, store') ∧
        store'.capacity = store.capacity ∧ Holds store' (putRecord (newRecord hk v) rs)) := by
  have hinit := h.initialised
  have hbuf := h.length_buffer
  have hcap := h.used_le
  have hsize : configRecordSize k.length v.bytes.length = (newRecord hk v).size := rfl
  have hbytes : recordBytes k v.bytes = (newRecord hk v).bytes := rfl
  rcases offsetOf_cases k rs with ⟨pre, r, post, rfl, hr, hpre, hoff⟩ | ⟨hoff, hall⟩
  · have hput : putRecord (newRecord hk v) (pre ++ r :: post) = pre ++ newRecord hk v :: post :=
      putRecord_split _ hr hpre
    have hused := h.used_split
    simp only [image_cons, List.length_append, Record.bytes_length] at hused
    simp only [configSet, hinit, hk, findRecord_eq h, hoff, h.existing_eq, hsize, configStoreFree,
      hput, image_append, image_cons, List.length_append, Record.bytes_length]
    simp only [Bool.not_true, Bool.false_eq_true, if_false]
    by_cases hfull : (newRecord hk v).size > r.size ∧
        (newRecord hk v).size - r.size > store.capacity - store.used
    · exact Or.inl ⟨by omega, by rw [if_pos hfull]⟩
    · have hfits : (image pre).length + ((newRecord hk v).size + (image post).length) ≤
          store.capacity := by omega
      have htail : store.used - ((image pre).length + r.size) = (image post).length := by omega
      rw [if_neg hfull]
      refine Or.inr ⟨hfits, _, rfl, rfl, ?_⟩
      have hmove := length_move store.buffer ((image pre).length + (newRecord hk v).size)
        ((image pre).length + r.size) (image post).length (by omega) (by omega)
      have hspan : span store.buffer ((image pre).length + r.size) (image post).length =
          image post := by
        rw [span, h.recordsAt_split.tail.drop_eq, List.take_left]
      have hreplace := take_replace store.buffer (image pre).length r.size (image post).length
        (newRecord hk v).bytes (by omega) (by rw [Record.bytes_length]; omega)
      rw [Record.bytes_length, h.take_split, hspan] at hreplace
      have hwrite : writeRecord (move store.buffer ((image pre).length + (newRecord hk v).size)
            ((image pre).length + r.size) (image post).length) (image pre).length k v.bytes =
          overwrite (move store.buffer ((image pre).length + (newRecord hk v).size)
            ((image pre).length + r.size) (image post).length) (image pre).length
            (newRecord hk v).bytes := by
        rw [writeRecord_eq _ _ _ _ (by rw [hsize]; omega), hbytes]
      rw [htail, hwrite]
      refine ⟨rfl, ?_, ?_, ?_⟩
      · rw [length_overwrite _ _ _ (by rw [Record.bytes_length]; omega), hmove, hbuf]
      · show store.used - r.size + (newRecord hk v).size ≤ store.capacity
        omega
      · show List.take (store.used - r.size + (newRecord hk v).size) _ = _
        rw [show store.used - r.size + (newRecord hk v).size =
          (image pre).length + (newRecord hk v).size + (image post).length by omega, hreplace]
        simp
  · have hput : putRecord (newRecord hk v) rs = rs ++ [newRecord hk v] := putRecord_absent _ hall
    have hused := h.used_eq
    simp only [configSet, hinit, hk, findRecord_eq h, hoff, hsize, configStoreFree, hput,
      image_append, image_cons, image_nil, List.append_nil, List.length_append,
      Record.bytes_length]
    simp only [Bool.not_true, Bool.false_eq_true, if_false]
    by_cases hfull : (newRecord hk v).size > store.capacity - store.used
    · exact Or.inl ⟨by omega, by rw [if_pos hfull]⟩
    · have hfits : store.used + (newRecord hk v).size ≤ store.buffer.length := by omega
      rw [if_neg hfull]
      refine Or.inr ⟨by omega, _, rfl, rfl, ?_⟩
      rw [writeRecord_eq _ _ _ _ (by rw [hsize]; omega), hbytes]
      refine ⟨rfl, ?_, ?_, ?_⟩
      · rw [length_overwrite _ _ _ (by rwa [Record.bytes_length]), hbuf]
      · show store.used + (newRecord hk v).size ≤ store.capacity
        omega
      · show List.take (store.used + (newRecord hk v).size) _ = _
        rw [← Record.bytes_length, take_eq_take_append_span, take_overwrite _ _ _ (by omega),
          span_overwrite _ _ _ (by omega), h.contents]
        simp

/-- `config_get` answers with the value of the first record that has the key. -/
theorem configGet_spec (h : Holds store rs) (hk : checkKey key = .ok k) (capacity : ℕ) :
    configGet store key capacity =
      match lookupRecord k rs with
      | none => ⟨.errNotFound, some 0, none⟩
      | some value =>
          if value.length > capacity then ⟨.errTooSmall, some value.length, none⟩
          else ⟨.ok, some value.length, some value⟩ := by
  have hinit := h.initialised
  rcases offsetOf_cases k rs with ⟨pre, r, post, rfl, hr, hpre, hoff⟩ | ⟨hoff, hall⟩
  · subst hr
    simp only [configGet, hinit, hk, findRecord_eq h, hoff, lookupRecord_split r.key rfl hpre,
      ConfigStore.byteAt, h.recordsAt_split.valueLength_eq, h.recordsAt_split.span_value]
    rfl
  · simp only [configGet, hinit, hk, findRecord_eq h, hoff, lookupRecord_absent k hall]
    rfl

/-- `config_remove` takes out the first record that has the key, when there is one. -/
theorem configRemove_spec (h : Holds store rs) (hk : checkKey key = .ok k) :
    (lookupRecord k rs = none ∧ configRemove store key = (.errNotFound, store)) ∨
    (lookupRecord k rs ≠ none ∧ ∃ store', configRemove store key = (.ok, store') ∧
      store'.capacity = store.capacity ∧ Holds store' (removeRecord k rs)) := by
  have hinit := h.initialised
  have hbuf := h.length_buffer
  have hcap := h.used_le
  rcases offsetOf_cases k rs with ⟨pre, r, post, rfl, hr, hpre, hoff⟩ | ⟨hoff, hall⟩
  · subst hr
    have hused := h.used_split
    simp only [image_cons, List.length_append, Record.bytes_length] at hused
    refine Or.inr ⟨by simp [lookupRecord_split r.key rfl hpre], ?_⟩
    simp only [configRemove, hinit, hk, findRecord_eq h, hoff, h.existing_eq,
      removeRecord_split r.key rfl hpre]
    have htail : store.used - (image pre).length - r.size = (image post).length := by omega
    refine ⟨_, rfl, rfl, rfl, ?_, ?_, ?_⟩
    · show (move _ _ _ _).length = store.capacity
      rw [length_move _ _ _ _ (by omega) (by omega), hbuf]
    · show store.used - r.size ≤ store.capacity
      omega
    · have hclose := take_replace store.buffer (image pre).length r.size (image post).length []
        (by omega) (by simp only [List.length_nil]; omega)
      have hspan : span store.buffer ((image pre).length + r.size) (image post).length =
          image post := by
        rw [span, h.recordsAt_split.tail.drop_eq, List.take_left]
      simp only [overwrite_nil, List.length_nil, Nat.add_zero, List.append_nil, h.take_split,
        hspan] at hclose
      show List.take (store.used - r.size) (move _ _ _ _) = _
      rw [htail, show store.used - r.size = (image pre).length + (image post).length by omega,
        hclose, image_append]
  · refine Or.inl ⟨lookupRecord_absent k hall, ?_⟩
    simp only [configRemove, hinit, hk, findRecord_eq h, hoff]
    rfl

theorem configClear_holds (h : Holds store rs) :
    Holds (configClear store) [] ∧ (configClear store).capacity = store.capacity := by
  rw [configClear, if_pos h.initialised]
  exact ⟨⟨h.initialised, h.length_buffer, Nat.zero_le _, by simp⟩, rfl⟩

theorem config_of_bad_key (h : Holds store rs) {e : ConfigResult} (hk : checkKey key = .error e)
    (v : Option ConfigValue) (capacity : ℕ) :
    configSet store key v = (e, store) ∧ configRemove store key = (e, store) ∧
      configGet store key capacity = ⟨e, none, none⟩ := by
  have hinit := h.initialised
  refine ⟨?_, ?_, ?_⟩
  · simp [configSet, hinit, hk]
  · simp [configRemove, hinit, hk]
  · simp [configGet, hinit, hk]

theorem configSet_null_value (h : Holds store rs) (hk : checkKey key = .ok k) :
    configSet store key none = (.errInvalidArg, store) := by
  simp [configSet, h.initialised, hk]

theorem configCount_spec (h : Holds store rs) : configCount store = rs.length := by
  rw [configCount, if_pos h.initialised,
    configCountFrom_eq store store.used 0 rs h.recordsAt (by omega)]

theorem configKeyAt_spec (h : Holds store rs) (index capacity : ℕ) :
    configKeyAt store index capacity = (rs[index]?).bind fun r =>
      if r.key.length + 1 > capacity then none else some (r.key ++ [0]) := by
  have hinit := h.initialised
  by_cases hcap : capacity = 0
  · have hnone (r : Record) : (if r.key.length + 1 > capacity then none
        else some (r.key ++ [0])) = none := by
      rw [if_pos (by omega)]
    simp [configKeyAt, hcap]
  · rw [configKeyAt, if_neg (by simp [hinit, hcap]),
      configKeyAtFrom_eq store capacity store.used index 0 rs h.recordsAt (by omega)]

theorem configStoreInit_holds {buffer : Bytes} {capacity : ℕ}
    (hlen : buffer.length = capacity)
    (h : configStoreInit (some buffer) capacity = (.ok, some store)) :
    Holds store [] ∧ store.capacity = capacity ∧ capacity ≠ 0 := by
  simp only [configStoreInit] at h
  split_ifs at h with hcap
  · simp at h
  obtain rfl : _ = store := by simpa using h
  exact ⟨⟨rfl, hlen, Nat.zero_le _, rfl⟩, rfl, hcap⟩

/-- `config_store_load` accepts exactly the concatenations of records. -/
theorem configStoreLoad_ok_iff {buffer : Bytes} {capacity used : ℕ}
    (hlen : buffer.length = capacity) (hcap : capacity ≠ 0) :
    (∃ rs, used ≤ capacity ∧ buffer.take used = image rs) ↔
      ∃ store, configStoreLoad (some buffer) capacity used = (.ok, some store) := by
  simp only [configStoreLoad, configStoreInit, if_neg hcap]
  constructor
  · rintro ⟨rs, hused, hrs⟩
    have hat : RecordsAt buffer used 0 rs :=
      ⟨Nat.zero_le _, by omega, by rw [← hrs, List.drop_zero, List.take_append_drop]⟩
    rw [if_neg (by omega), configWalk_of_recordsAt buffer used used 0 rs hat (by omega)]
    exact ⟨_, rfl⟩
  · rintro ⟨store, hload⟩
    split_ifs at hload with hbig hwalk
    · simp at hload
    · obtain ⟨rs, hrs⟩ := recordsAt_of_configWalk buffer used used 0 (Nat.zero_le _)
        (by omega) hwalk
      refine ⟨rs, by omega, ?_⟩
      have hdrop := hrs.drop_eq
      have hall := hrs.used_eq
      rw [List.drop_zero] at hdrop
      rw [hdrop, List.take_left' (by omega)]
    · simp at hload

theorem configStoreLoad_holds {buffer : Bytes} {capacity used : ℕ}
    (h : configStoreLoad (some buffer) capacity used = (.ok, some store)) :
    store = ⟨buffer, capacity, used, true⟩ ∧ used ≤ capacity ∧ capacity ≠ 0 := by
  simp only [configStoreLoad, configStoreInit] at h
  by_cases hcap : capacity = 0
  · simp [hcap] at h
  rw [if_neg hcap] at h
  dsimp only at h
  split_ifs at h with hbig hwalk
  · simp at h
  · obtain rfl : _ = store := by simpa using h
    exact ⟨rfl, by omega, hcap⟩
  · simp at h

theorem configSet_keeps (h : Holds store rs) (key : Option CString) (value : Option ConfigValue) :
    ∃ rs', Holds (configSet store key value).2 rs' := by
  cases hkey : checkKey key with
  | error e =>
    rw [(config_of_bad_key h hkey value 0).1]
    exact ⟨rs, h⟩
  | ok k =>
    cases value with
    | none =>
      rw [configSet_null_value h hkey]
      exact ⟨rs, h⟩
    | some v =>
      rcases configSet_spec h hkey v with ⟨-, hset⟩ | ⟨-, store', hset, -, hholds⟩
      · rw [hset]
        exact ⟨rs, h⟩
      · rw [hset]
        exact ⟨_, hholds⟩

theorem configRemove_keeps (h : Holds store rs) (key : Option CString) :
    ∃ rs', Holds (configRemove store key).2 rs' := by
  cases hkey : checkKey key with
  | error e =>
    rw [(config_of_bad_key h hkey none 0).2.1]
    exact ⟨rs, h⟩
  | ok k =>
    rcases configRemove_spec h hkey with ⟨-, hremove⟩ | ⟨-, store', hremove, -, hholds⟩
    · rw [hremove]
      exact ⟨rs, h⟩
    · rw [hremove]
      exact ⟨_, hholds⟩

theorem configCall_keeps (h : Holds store rs) (call : ConfigCall) :
    ∃ rs', Holds (configCall store call).2 rs' := by
  cases call with
  | set key value => exact configSet_keeps h key value
  | get key capacity => exact ⟨rs, h⟩
  | remove key => exact configRemove_keeps h key
  | clear => exact ⟨[], (configClear_holds h).1⟩
  | setU32 key value => exact configSet_keeps h key _
  | getU32 key fallback => exact ⟨rs, h⟩
  | setString key value =>
    unfold configCall configSetString
    cases value with
    | none => exact ⟨rs, h⟩
    | some value =>
      dsimp only
      split_ifs
      · exact configSet_keeps h key _
      · exact ⟨rs, h⟩

end operations

end Pico
