import Mathlib.Data.Finmap
import PicoFramework.Lib.Run
import PicoFramework.Lib.Wire
import PicoFramework.Proofs.ConfigStore

/-! `config_store` refines a finite map. The map has no buffer, no order and no
record format; a bound on its total size is all that it shares with the store. -/

namespace Pico

open Lib.Splice Lib.Run

abbrev ConfigMap := Finmap fun _ : Bytes => Bytes

def ConfigMap.get (m : ConfigMap) (k : Bytes) : Option Bytes := m.lookup k

/-- The bytes that the entries of a map take as records. -/
def ConfigMap.size (m : ConfigMap) : ℕ :=
  (m.entries.map fun e => configRecordSize e.1.length e.2.length).sum

/-- Records with distinct keys that list exactly the entries of a map. -/
structure Represents (rs : List Record) (m : ConfigMap) : Prop where
  nodup : (rs.map Record.key).Nodup
  lookup : ∀ k, ConfigMap.get m k = lookupRecord k rs

section records

variable {rs : List Record}

theorem lookupRecord_put (new : Record) (rs : List Record) (k : Bytes) :
    lookupRecord k (putRecord new rs) =
      if new.key = k then some new.value else lookupRecord k rs := by
  induction rs with
  | nil => rfl
  | cons r rs ih =>
    rw [putRecord, lookupRecord]
    by_cases hput : r.key = new.key
    · rw [if_pos hput, hput, lookupRecord]
      by_cases hk : new.key = k
      · rw [if_pos hk, if_pos hk]
      · rw [if_neg hk, if_neg hk, if_neg hk]
    · rw [if_neg hput, lookupRecord, ih]
      by_cases hk : r.key = k
      · rw [if_pos hk, if_pos hk, if_neg fun hnew => hput (hk.trans hnew.symm)]
      · rw [if_neg hk, if_neg hk]

theorem mem_key_iff (rs : List Record) (k : Bytes) :
    k ∈ rs.map Record.key ↔ lookupRecord k rs ≠ none := by
  rcases offsetOf_cases k rs with ⟨pre, r, post, rfl, hr, hpre, -⟩ | ⟨-, hall⟩
  · rw [lookupRecord_split k hr hpre]
    simp [hr]
  · rw [lookupRecord_absent k hall]
    simpa using hall

theorem lookupRecord_remove (rs : List Record) (h : (rs.map Record.key).Nodup) (key k : Bytes) :
    lookupRecord k (removeRecord key rs) = if key = k then none else lookupRecord k rs := by
  induction rs with
  | nil => simp [removeRecord, lookupRecord]
  | cons r rs ih =>
    rw [List.map_cons, List.nodup_cons, mem_key_iff, not_not] at h
    rw [removeRecord]
    by_cases hr : r.key = key
    · subst hr
      rw [if_pos rfl, lookupRecord]
      by_cases hk : r.key = k
      · rw [if_pos hk, ← hk, h.1]
      · rw [if_neg hk, if_neg hk]
    · rw [if_neg hr, lookupRecord, ih h.2, lookupRecord]
      by_cases hk : r.key = k
      · rw [if_pos hk, if_neg (fun hkey => hr (hk.trans hkey.symm)), if_pos hk]
      · rw [if_neg hk, if_neg hk]

theorem putRecord_keys (new : Record) (rs : List Record) :
    (putRecord new rs).map Record.key =
      if new.key ∈ rs.map Record.key then rs.map Record.key else rs.map Record.key ++ [new.key] := by
  rcases offsetOf_cases new.key rs with ⟨pre, r, post, rfl, hr, hpre, -⟩ | ⟨-, hall⟩
  · rw [putRecord_split new hr hpre, if_pos (by simp [hr])]
    simp [hr]
  · rw [putRecord_absent new hall, if_neg (by simpa using hall)]
    simp

theorem putRecord_nodup (new : Record) (h : (rs.map Record.key).Nodup) :
    ((putRecord new rs).map Record.key).Nodup := by
  rw [putRecord_keys]
  split_ifs with hmem
  · exact h
  · rw [List.nodup_append]
    exact ⟨h, by simp, by
      rintro a ha b hb rfl
      exact hmem (List.mem_singleton.mp hb ▸ ha)⟩

theorem removeRecord_sublist (key : Bytes) (rs : List Record) :
    List.Sublist (removeRecord key rs) rs := by
  induction rs with
  | nil => exact List.Sublist.refl _
  | cons r rs ih =>
    rw [removeRecord]
    split_ifs
    · exact List.sublist_cons_self _ _
    · exact ih.cons_cons r

end records

namespace Represents

variable {rs : List Record} {m : ConfigMap}

theorem nil : Represents [] ∅ := ⟨List.nodup_nil, fun _ => rfl⟩

theorem put (h : Represents rs m) (new : Record) :
    Represents (putRecord new rs) (m.insert new.key new.value) := by
  refine ⟨putRecord_nodup new h.nodup, fun k => ?_⟩
  rw [lookupRecord_put]
  by_cases hk : new.key = k
  · subst hk
    rw [if_pos rfl, ConfigMap.get, Finmap.lookup_insert]
  · rw [if_neg hk, ConfigMap.get, Finmap.lookup_insert_of_ne _ (Ne.symm hk), ← h.lookup]
    rfl

theorem remove (h : Represents rs m) (key : Bytes) :
    Represents (removeRecord key rs) (m.erase key) := by
  refine ⟨h.nodup.sublist ((removeRecord_sublist key rs).map _), fun k => ?_⟩
  rw [lookupRecord_remove rs h.nodup]
  by_cases hk : key = k
  · rw [if_pos hk, hk, ConfigMap.get, Finmap.lookup_erase]
  · rw [if_neg hk, ConfigMap.get, Finmap.lookup_erase_ne (Ne.symm hk), ← h.lookup]
    rfl

theorem unique {m' : ConfigMap} (h : Represents rs m) (h' : Represents rs m') : m = m' :=
  Finmap.ext_lookup fun k => (h.lookup k).trans (h'.lookup k).symm

theorem keys_eq (h : Represents rs m) : m.keys = (rs.map Record.key).toFinset := by
  ext k
  rw [Finmap.mem_keys, List.mem_toFinset, mem_key_iff, ← h.lookup, ConfigMap.get, Ne,
    Finmap.lookup_eq_none, not_not]

theorem card_keys (h : Represents rs m) : m.keys.card = rs.length := by
  rw [h.keys_eq, List.toFinset_card_of_nodup h.nodup, List.length_map]

theorem lookup_of_mem (h : Represents rs m) {r : Record} (hr : r ∈ rs) :
    ConfigMap.get m r.key = some r.value := by
  rw [h.lookup]
  have hnodup := h.nodup
  clear h
  induction rs with
  | nil => simp at hr
  | cons x rs ih =>
    rw [List.map_cons, List.nodup_cons] at hnodup
    rcases List.mem_cons.mp hr with rfl | hmem
    · rw [lookupRecord, if_pos rfl]
    · have hne : x.key ≠ r.key := fun he => hnodup.1 (he ▸ List.mem_map_of_mem hmem)
      rw [lookupRecord, if_neg hne, ih hmem hnodup.2]

theorem entries_eq (h : Represents rs m) :
    m.entries = (rs.map fun r => (⟨r.key, r.value⟩ : Σ _ : Bytes, Bytes) : List _) := by
  have hkeys : ((rs.map fun r => (⟨r.key, r.value⟩ : Σ _ : Bytes, Bytes)).map Sigma.fst).Nodup := by
    rw [List.map_map]
    exact h.nodup
  refine Multiset.Nodup.ext m.nodup_entries (Multiset.coe_nodup.mpr hkeys.of_map) |>.mpr ?_
  rintro ⟨k, v⟩
  rw [← Finmap.lookup_eq_some_iff, Multiset.mem_coe, List.mem_map]
  constructor
  · intro hlookup
    replace hlookup := (h.lookup k).symm.trans hlookup
    rcases offsetOf_cases k rs with ⟨pre, r, post, rfl, hr, hpre, -⟩ | ⟨-, hall⟩
    · rw [lookupRecord_split k hr hpre, Option.some_inj] at hlookup
      exact ⟨r, by simp, by rw [hr, hlookup]⟩
    · rw [lookupRecord_absent k hall] at hlookup
      exact absurd hlookup (by simp)
  · rintro ⟨r, hr, he⟩
    obtain ⟨rfl, rfl⟩ : r.key = k ∧ r.value = v := by simpa using he
    exact h.lookup_of_mem hr

theorem size_eq (h : Represents rs m) : m.size = (image rs).length := by
  rw [ConfigMap.size, h.entries_eq, Multiset.map_coe, Multiset.sum_coe, List.map_map, image_length]
  rfl

end Represents

section calls

/-- Setting a key of a map bounded by `capacity` bytes. -/
def mapSet (capacity : ℕ) (m : ConfigMap) (key : Option CString) (value : Option ConfigValue) :
    ConfigResult × ConfigMap :=
  match checkKey key, value with
  | .error e, _ => (e, m)
  | .ok _, none => (.errInvalidArg, m)
  | .ok k, some v =>
      if ConfigMap.size (m.insert k v.bytes) ≤ capacity then (.ok, m.insert k v.bytes) else (.errFull, m)

def mapGet (m : ConfigMap) (key : Option CString) (capacity : ℕ) : ConfigGot :=
  match checkKey key with
  | .error e => ⟨e, none, none⟩
  | .ok k =>
      match m.get k with
      | none => ⟨.errNotFound, some 0, none⟩
      | some value =>
          if value.length > capacity then ⟨.errTooSmall, some value.length, none⟩
          else ⟨.ok, some value.length, some value⟩

def mapRemove (m : ConfigMap) (key : Option CString) : ConfigResult × ConfigMap :=
  match checkKey key with
  | .error e => (e, m)
  | .ok k => if m.get k = none then (.errNotFound, m) else (.ok, m.erase k)

/-- A value of four bytes is the word they are the little-endian form of. -/
def mapGetU32 (m : ConfigMap) (key : Option CString) (fallback : UInt32) : ConfigResult × UInt32 :=
  match checkKey key with
  | .error e => (e, fallback)
  | .ok k =>
      match m.get k with
      | none => (.errNotFound, fallback)
      | some value =>
          if value.length = 4 then (.ok, Lib.Wire.ofLe32 value 0) else (.errCorrupt, fallback)

/-- The same calls on a finite map. -/
def mapCall (capacity : ℕ) (m : ConfigMap) : ConfigCall → ConfigReply × ConfigMap
  | .set key value => (.result (mapSet capacity m key value).1, (mapSet capacity m key value).2)
  | .get key cap => (.got (mapGet m key cap), m)
  | .remove key => (.result (mapRemove m key).1, (mapRemove m key).2)
  | .clear => (.result .ok, ∅)
  | .setU32 key value =>
      (.result (mapSet capacity m key (some (u32Value value))).1,
        (mapSet capacity m key (some (u32Value value))).2)
  | .getU32 key fallback => (.word (mapGetU32 m key fallback).1 (mapGetU32 m key fallback).2, m)
  | .setString _ none => (.result .errInvalidArg, m)
  | .setString key (some value) =>
      if h : value.length ≤ CONFIG_MAX_VALUE_LENGTH then
        (.result (mapSet capacity m key (some ⟨value.bytes, h⟩)).1,
          (mapSet capacity m key (some ⟨value.bytes, h⟩)).2)
      else (.result .errValueTooLong, m)

/-- A store of `capacity` bytes that holds a map, as records in some order. -/
def Refines (capacity : ℕ) (store : ConfigStore) (m : ConfigMap) : Prop :=
  store.capacity = capacity ∧ capacity ≠ 0 ∧ ∃ rs, Holds store rs ∧ Represents rs m

variable {capacity : ℕ} {store : ConfigStore} {m : ConfigMap} {key : Option CString} {k : Bytes}

theorem configSet_refines (h : Refines capacity store m) (key : Option CString)
    (value : Option ConfigValue) :
    (configSet store key value).1 = (mapSet capacity m key value).1 ∧
      Refines capacity (configSet store key value).2 (mapSet capacity m key value).2 := by
  obtain ⟨hcap, hpos, rs, hrs, hm⟩ := h
  cases hk : checkKey key with
  | error e =>
    rw [(config_of_bad_key hrs hk value 0).1]
    simp only [mapSet, hk]
    exact ⟨trivial, hcap, hpos, rs, hrs, hm⟩
  | ok k =>
    cases value with
    | none =>
      rw [configSet_null_value hrs hk]
      simp only [mapSet, hk]
      exact ⟨trivial, hcap, hpos, rs, hrs, hm⟩
    | some v =>
      have hsize := (hm.put (newRecord hk v)).size_eq
      have hput : m.insert (newRecord hk v).key (newRecord hk v).value = m.insert k v.bytes := rfl
      rw [hput] at hsize
      simp only [mapSet, hk, hsize]
      rcases configSet_spec hrs hk v with ⟨hfull, hset⟩ | ⟨hfits, store', hset, hcap', hrs'⟩
      · rw [hset, if_neg (by omega)]
        exact ⟨rfl, hcap, hpos, rs, hrs, hm⟩
      · rw [hset, if_pos (by omega)]
        exact ⟨rfl, hcap'.trans hcap, hpos, _, hrs', hm.put (newRecord hk v)⟩

theorem configGet_refines (h : Refines capacity store m) (key : Option CString) (cap : ℕ) :
    configGet store key cap = mapGet m key cap := by
  obtain ⟨-, -, rs, hrs, hm⟩ := h
  cases hk : checkKey key with
  | error e => simp only [(config_of_bad_key hrs hk none cap).2.2, mapGet, hk]
  | ok k =>
    rw [configGet_spec hrs hk, mapGet]
    cases hfound : lookupRecord k rs with
    | none => simp only [hk, hm.lookup, hfound]
    | some value => simp only [hk, hm.lookup, hfound]

theorem configRemove_refines (h : Refines capacity store m) (key : Option CString) :
    (configRemove store key).1 = (mapRemove m key).1 ∧
      Refines capacity (configRemove store key).2 (mapRemove m key).2 := by
  obtain ⟨hcap, hpos, rs, hrs, hm⟩ := h
  cases hk : checkKey key with
  | error e =>
    rw [(config_of_bad_key hrs hk none 0).2.1]
    simp only [mapRemove, hk]
    exact ⟨trivial, hcap, hpos, rs, hrs, hm⟩
  | ok k =>
    simp only [mapRemove, hk, hm.lookup]
    rcases configRemove_spec hrs hk with ⟨hnone, hrm⟩ | ⟨hsome, store', hrm, hcap', hrs'⟩
    · rw [hrm, if_pos hnone]
      exact ⟨rfl, hcap, hpos, rs, hrs, hm⟩
    · rw [hrm, if_neg hsome]
      exact ⟨rfl, hcap'.trans hcap, hpos, _, hrs', hm.remove k⟩

theorem configGetU32_refines (h : Refines capacity store m) (key : Option CString)
    (fallback : UInt32) : configGetU32 store key fallback = mapGetU32 m key fallback := by
  simp only [configGetU32, configGet_refines h, mapGet, mapGetU32]
  cases hk : checkKey key with
  | error e =>
    rcases checkKey_error hk with rfl | rfl <;> simp
  | ok k =>
    cases hl : m.get k with
    | none => simp [hl]
    | some value =>
      by_cases hlen : value.length = 4
      · simp [hl, hlen, Lib.Wire.ofLe32]
      · by_cases hzero : value.length = 0
        · simp [hl, hzero]
        · simp [hl, hlen, Nat.pos_of_ne_zero hzero]

theorem configClear_refines (h : Refines capacity store m) :
    Refines capacity (configClear store) ∅ := by
  obtain ⟨hcap, hpos, rs, hrs, -⟩ := h
  obtain ⟨hclear, hsame⟩ := configClear_holds hrs
  exact ⟨hsame.trans hcap, hpos, [], hclear, .nil⟩

theorem configCall_refines (h : Refines capacity store m) (call : ConfigCall) :
    (configCall store call).1 = (mapCall capacity m call).1 ∧
      Refines capacity (configCall store call).2 (mapCall capacity m call).2 := by
  cases call with
  | set key value =>
    obtain ⟨hr, hnext⟩ := configSet_refines h key value
    exact ⟨congrArg _ hr, hnext⟩
  | get key cap => exact ⟨congrArg _ (configGet_refines h key cap), h⟩
  | remove key =>
    obtain ⟨hr, hnext⟩ := configRemove_refines h key
    exact ⟨congrArg _ hr, hnext⟩
  | clear => exact ⟨rfl, configClear_refines h⟩
  | setU32 key value =>
    obtain ⟨hr, hnext⟩ := configSet_refines h key (some (u32Value value))
    exact ⟨congrArg _ hr, hnext⟩
  | getU32 key fallback =>
    rw [configCall, mapCall, configGetU32_refines h]
    exact ⟨rfl, h⟩
  | setString key value =>
    cases value with
    | none => exact ⟨rfl, h⟩
    | some value =>
      simp only [configCall, mapCall, configSetString]
      split_ifs with hlen
      · obtain ⟨hr, hnext⟩ := configSet_refines h key (some ⟨value.bytes, hlen⟩)
        exact ⟨congrArg _ hr, hnext⟩
      · exact ⟨rfl, h⟩

theorem configCall_error (h : Refines capacity store m) (call : ConfigCall)
    (herr : (configCall store call).1.code ≠ .ok) : (configCall store call).2 = store := by
  obtain ⟨-, -, rs, hrs, -⟩ := h
  have hset (key : Option CString) (value : Option ConfigValue)
      (hne : (configSet store key value).1 ≠ .ok) : (configSet store key value).2 = store := by
    cases hk : checkKey key with
    | error e => rw [(config_of_bad_key hrs hk value 0).1]
    | ok k =>
      cases value with
      | none => rw [configSet_null_value hrs hk]
      | some v =>
        rcases configSet_spec hrs hk v with ⟨-, hfull⟩ | ⟨-, store', hok, -⟩
        · rw [hfull]
        · exact absurd (by rw [hok]) hne
  cases call with
  | set key value => exact hset key value herr
  | get key cap => rfl
  | remove key =>
    cases hk : checkKey key with
    | error e => simp only [configCall, (config_of_bad_key hrs hk none 0).2.1]
    | ok k =>
      rcases configRemove_spec hrs hk with ⟨-, hnone⟩ | ⟨-, store', hok, -⟩
      · simp only [configCall, hnone]
      · exact absurd (by simp only [configCall, hok, ConfigReply.code]) herr
  | clear => exact absurd rfl herr
  | setU32 key value => exact hset key _ herr
  | getU32 key fallback => rfl
  | setString key value =>
    cases value with
    | none => rfl
    | some value =>
      simp only [configCall, configSetString, ConfigReply.code] at herr ⊢
      split_ifs at herr ⊢ with hlen
      · exact hset key _ herr
      · rfl

/-- What a store that holds a map must look like from outside. -/
structure StoreAgrees (capacity : ℕ) (store : ConfigStore) (m : ConfigMap) : Prop where
  used_le : store.used ≤ capacity
  /-- The buffer is at all times an image that loads as the same store. -/
  loads : ∃ rs, store.buffer.take store.used = image rs ∧ Represents rs m ∧
    configStoreLoad (some store.buffer) capacity store.used = (.ok, some store)
  errors_keep : ∀ call, (configCall store call).1.code ≠ .ok → (configCall store call).2 = store
  full_iff : ∀ key k v, checkKey key = .ok k →
    ((configSet store key (some v)).1 = .errFull ↔ capacity < ConfigMap.size (m.insert k v.bytes))
  set_get : ∀ key k v store', checkKey key = .ok k → configSet store key (some v) = (.ok, store') →
    configGet store' key CONFIG_MAX_VALUE_LENGTH = ⟨.ok, some v.bytes.length, some v.bytes⟩ ∧
    ∀ other k' cap, checkKey other = .ok k' → k' ≠ k →
      configGet store' other cap = configGet store other cap
  set_get_u32 : ∀ key w fallback store', configSetU32 store key w = (.ok, store') →
    configGetU32 store' key fallback = (.ok, w)
  count : configCount store = m.keys.card
  enumerates : ∃ keys : List Bytes, keys.Nodup ∧ keys.toFinset = m.keys ∧
    ∀ i cap, CONFIG_MAX_KEY_LENGTH < cap → configKeyAt store i cap = keys[i]?.map (· ++ [0])

theorem mapGet_insert (hk : checkKey key = .ok k) (m : ConfigMap) (v : ConfigValue) :
    mapGet (m.insert k v.bytes) key CONFIG_MAX_VALUE_LENGTH =
      ⟨.ok, some v.bytes.length, some v.bytes⟩ := by
  have hlookup : ConfigMap.get (m.insert k v.bytes) k = some v.bytes := Finmap.lookup_insert m
  have hle := v.length_le
  simp only [mapGet, hk, hlookup]
  rw [if_neg (by omega)]

theorem mapGetU32_insert (hk : checkKey key = .ok k) (m : ConfigMap) (w fallback : UInt32) :
    mapGetU32 (m.insert k (u32Value w).bytes) key fallback = (.ok, w) := by
  have hlookup : ConfigMap.get (m.insert k (u32Value w).bytes) k = some (u32Value w).bytes :=
    Finmap.lookup_insert m
  simp only [mapGetU32, hk, hlookup]
  rw [if_pos (show (u32Value w).bytes.length = 4 from rfl)]
  exact congrArg _ (Lib.Wire.join_le32 w)

theorem mapSet_ok (hk : checkKey key = .ok k) {v : ConfigValue}
    (h : (mapSet capacity m key (some v)).1 = .ok) :
    (mapSet capacity m key (some v)).2 = m.insert k v.bytes := by
  simp only [mapSet, hk] at h ⊢
  split_ifs at h ⊢ with hfits
  rfl

theorem Refines.agrees (h : Refines capacity store m) : StoreAgrees capacity store m := by
  obtain ⟨rfl, hpos, rs, hrs, hm⟩ := id h
  refine ⟨hrs.used_le, ?_, configCall_error h, ?_, ?_, ?_, ?_, ?_⟩
  · obtain ⟨again, hload⟩ := (configStoreLoad_ok_iff hrs.length_buffer hpos).mp
      ⟨rs, hrs.used_le, hrs.contents⟩
    have hsame : again = store := by
      rw [(configStoreLoad_holds hload).1, ← hrs.initialised]
    exact ⟨rs, hrs.contents, hm, hsame ▸ hload⟩
  · intro key k v hk
    rw [(configSet_refines h key (some v)).1]
    simp only [mapSet, hk]
    split_ifs with hfits
    · simp [not_lt.mpr hfits]
    · simp [not_le.mp hfits]
  · intro key k v store' hk hset
    have hnext := configSet_refines h key (some v)
    rw [hset] at hnext
    rw [mapSet_ok hk hnext.1.symm] at hnext
    refine ⟨(configGet_refines hnext.2 key _).trans (mapGet_insert hk m v), ?_⟩
    intro other k' cap hother hne
    rw [configGet_refines hnext.2, configGet_refines h]
    have hsame : ConfigMap.get (m.insert k v.bytes) k' = ConfigMap.get m k' :=
      Finmap.lookup_insert_of_ne m hne
    simp only [mapGet, hother, hsame]
  · intro key w fallback store' hset
    have hnext := configSet_refines h key (some (u32Value w))
    rw [configSetU32] at hset
    rw [hset] at hnext
    cases hk : checkKey key with
    | error e =>
      rw [(config_of_bad_key hrs hk _ 0).1, Prod.mk.injEq] at hset
      rcases checkKey_error hk with rfl | rfl <;> exact absurd hset.1 (by decide)
    | ok k =>
      rw [mapSet_ok hk hnext.1.symm] at hnext
      exact (configGetU32_refines hnext.2 key fallback).trans (mapGetU32_insert hk m w fallback)
  · rw [configCount_spec hrs, hm.card_keys]
  · refine ⟨rs.map Record.key, hm.nodup, hm.keys_eq.symm, ?_⟩
    intro i cap hcap31
    rw [configKeyAt_spec hrs, List.getElem?_map, Option.map_map]
    cases rs[i]? with
    | none => rfl
    | some r =>
      have := r.key_le
      simp only [Option.bind_some, Option.map_some, Function.comp_apply]
      rw [if_neg (by omega)]

/-- How a store comes about: empty, or from an image without duplicate keys. -/
inductive ConfigStart (buffer : Bytes) (capacity : ℕ) : ConfigStore → ConfigMap → Prop
  | init {store : ConfigStore} (h : configStoreInit (some buffer) capacity = (.ok, some store)) :
      ConfigStart buffer capacity store ∅
  | load {store : ConfigStore} {used : ℕ} {rs : List Record} {m : ConfigMap}
      (h : configStoreLoad (some buffer) capacity used = (.ok, some store))
      (hcontents : buffer.take used = image rs) (hm : Represents rs m) :
      ConfigStart buffer capacity store m

theorem ConfigStart.refines {buffer : Bytes} (hlen : buffer.length = capacity)
    (h : ConfigStart buffer capacity store m) : Refines capacity store m := by
  cases h with
  | init h =>
    obtain ⟨hholds, hcap, hpos⟩ := configStoreInit_holds hlen h
    exact ⟨hcap, hpos, [], hholds, .nil⟩
  | load h hcontents hm =>
    obtain ⟨rfl, hused, hpos⟩ := configStoreLoad_holds h
    exact ⟨rfl, hpos, _, ⟨rfl, hlen, hused, hcontents⟩, hm⟩

/-- Every run of calls on a store answers as the same run on a finite map bounded in
size, and the store it ends in holds exactly the map that run ends in. -/
theorem configStore_refines_map {buffer : Bytes} (hlen : buffer.length = capacity)
    (hstart : ConfigStart buffer capacity store m) (calls : List ConfigCall) :
    (run configCall store calls).1 = (run (mapCall capacity) m calls).1 ∧
      StoreAgrees capacity (run configCall store calls).2 (run (mapCall capacity) m calls).2 := by
  obtain ⟨hreplies, hend⟩ := run_refines
    (fun s t call (hr : Refines capacity s t) => configCall_refines hr call) store m calls
    (hstart.refines hlen)
  exact ⟨hreplies, hend.agrees⟩

/-- A store of eight bytes takes one small record and has no room for another. -/
theorem configStore_refines_map_small :
    let key : CString := ⟨[97], by decide⟩
    let value : ConfigValue := ⟨[1, 2], by decide⟩
    let calls : List ConfigCall := [.set (some key) (some value), .get (some key) 8]
    StoreAgrees 8 (run configCall ⟨List.replicate 8 0, 8, 0, true⟩ calls).2
      (run (mapCall 8) ∅ calls).2 :=
  (configStore_refines_map (List.length_replicate : (List.replicate 8 (0 : UInt8)).length = 8)
    (.init rfl) _).2

end calls

end Pico
