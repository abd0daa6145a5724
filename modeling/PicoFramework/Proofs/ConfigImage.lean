import PicoFramework.Proofs.ConfigMap

/-! Which images `config_store_load` accepts, and which of them behave as a map: a list of records
may hold a key twice, and the loader does not look. -/

namespace Pico

open Lib.Run

/-- A key as it is listed: `config_key_at` writes a C string. -/
def listedKey (written : Bytes) : Bytes := written.takeWhile (· ≠ 0)

theorem listedKey_terminated (key : Bytes) : listedKey (key ++ [0]) = listedKey key := by
  induction key with
  | nil => rfl
  | cons c key ih =>
    unfold listedKey at ih ⊢
    rw [List.cons_append, List.takeWhile_cons, List.takeWhile_cons, ih]

section laws

/-- What a store does as a map of its keys. -/
structure MapLaws (store : ConfigStore) : Prop where
  remove_has : ∀ key store', configRemove store key = (.ok, store') → configHas store' key = false
  set_get : ∀ key value store', configSet store key (some value) = (.ok, store') →
    configGet store' key CONFIG_MAX_VALUE_LENGTH =
      ⟨.ok, some value.bytes.length, some value.bytes⟩
  /-- Whatever is called in between. -/
  set_remove : ∀ key value store' calls store'', configSet store key (some value) = (.ok, store') →
    configRemove (run configCall store' calls).2 key = (.ok, store'') →
    configHas store'' key = false
  lists_once : ∀ i j capacity capacity' first second, i ≠ j →
    configKeyAt store i capacity = some first → configKeyAt store j capacity' = some second →
    listedKey first ≠ listedKey second

variable {store store' : ConfigStore} {capacity : ℕ} {m : ConfigMap} {rs : List Record}

/-- The map that a list of records stands for: the first record of a key counts. -/
def recordMap : List Record → ConfigMap
  | [] => ∅
  | r :: rs => (recordMap rs).insert r.key r.value

theorem recordMap_lookup (rs : List Record) (k : Bytes) :
    ConfigMap.get (recordMap rs) k = lookupRecord k rs := by
  induction rs with
  | nil => rfl
  | cons r rs ih =>
    rw [recordMap, lookupRecord]
    by_cases hk : r.key = k
    · subst hk
      rw [if_pos rfl, ConfigMap.get, Finmap.lookup_insert]
    · rw [if_neg hk, ConfigMap.get, Finmap.lookup_insert_of_ne _ (Ne.symm hk), ← ih]
      rfl

theorem Refines.remove_has (h : Refines capacity store m) {key : Option CString}
    (hremove : configRemove store key = (.ok, store')) : configHas store' key = false := by
  obtain ⟨hresult, hnext⟩ := configRemove_refines h key
  rw [hremove] at hresult hnext
  rw [configHas, configGet_refines hnext]
  cases hk : checkKey key with
  | error e =>
    rcases checkKey_error hk with rfl | rfl <;> simp [mapRemove, hk] at hresult
  | ok k =>
    by_cases hget : ConfigMap.get m k = none
    · simp [mapRemove, hk, hget] at hresult
    · have hgone : ConfigMap.get (m.erase k) k = none := Finmap.lookup_erase k m
      simp [mapGet, mapRemove, hk, hget, hgone]

theorem Refines.mapLaws (h : Refines capacity store m) (hrs : Holds store rs)
    (hlisted : (rs.map fun r => listedKey r.key).Nodup) : MapLaws store where
  remove_has key store' hremove := h.remove_has hremove
  set_get key value store' hset := by
    cases hk : checkKey key with
    | error e =>
      rw [(config_of_bad_key hrs hk (some value) 0).1, Prod.mk.injEq] at hset
      rcases checkKey_error hk with rfl | rfl <;> exact absurd hset.1 (by decide)
    | ok k => exact (h.agrees.set_get key k value store' hk hset).1
  set_remove key value store' calls store'' hset hremove := by
    have hnext := (configSet_refines h key (some value)).2
    rw [hset] at hnext
    obtain ⟨-, hlater⟩ := run_refines
      (fun s t call (hr : Refines capacity s t) => configCall_refines hr call) store' _ calls hnext
    exact hlater.remove_has hremove
  lists_once i j capacity capacity' first second hne hfirst hsecond := by
    rw [configKeyAt_spec hrs, Option.bind_eq_some_iff] at hfirst hsecond
    obtain ⟨r, hr, hfirst⟩ := hfirst
    obtain ⟨r', hr', hsecond⟩ := hsecond
    obtain rfl : r.key ++ [0] = first := by
      split_ifs at hfirst
      exact Option.some.inj hfirst
    obtain rfl : r'.key ++ [0] = second := by
      split_ifs at hsecond
      exact Option.some.inj hsecond
    rw [listedKey_terminated, listedKey_terminated]
    intro hsame
    have hlt : i < (rs.map fun r => listedKey r.key).length := by
      rw [List.length_map]
      exact (List.getElem?_eq_some_iff.mp hr).1
    refine hne ((List.getElem?_inj hlt hlisted).mp ?_)
    rw [List.getElem?_map, List.getElem?_map, hr, hr', Option.map_some, Option.map_some, hsame]

theorem MapLaws.nodup (h : MapLaws store) (hrs : Holds store rs) :
    (rs.map fun r => listedKey r.key).Nodup := by
  rw [List.nodup_iff_getElem?_ne_getElem?]
  intro i j hij hj hsame
  rw [List.length_map] at hj
  have hi : i < rs.length := by omega
  have hlisted : ∀ n, ∀ hn : n < rs.length,
      configKeyAt store n (CONFIG_MAX_KEY_LENGTH + 1) = some (rs[n].key ++ [0]) := by
    intro n hn
    have hkey := rs[n].key_le
    rw [configKeyAt_spec hrs, List.getElem?_eq_getElem hn, Option.bind_some, if_neg (by omega)]
  refine h.lists_once i j _ _ _ _ (by omega) (hlisted i hi) (hlisted j hj) ?_
  rw [List.getElem?_map, List.getElem?_map, List.getElem?_eq_getElem hi,
    List.getElem?_eq_getElem hj] at hsame
  rw [listedKey_terminated, listedKey_terminated]
  exact Option.some.inj hsame

end laws

section images

/-- The image is accepted just when it is a list of records that ends at the given length, and then
the store that it is loaded as is a map. -/
structure LoadsAsMap (buffer : Bytes) (used : ℕ) : Prop where
  accepts : (configStoreLoad (some buffer) buffer.length used).1 = .ok ↔
    used ≤ buffer.length ∧ ∃ rs, buffer.take used = image rs
  laws : ∀ store, configStoreLoad (some buffer) buffer.length used = (.ok, some store) →
    MapLaws store

theorem configStoreLoad_accepts {buffer : Bytes} (hbuffer : buffer ≠ []) (used : ℕ) :
    (configStoreLoad (some buffer) buffer.length used).1 = .ok ↔
      used ≤ buffer.length ∧ ∃ rs, buffer.take used = image rs := by
  have hcap : buffer.length ≠ 0 := fun hnil => hbuffer (List.eq_nil_of_length_eq_zero hnil)
  have hiff : (∃ rs, used ≤ buffer.length ∧ buffer.take used = image rs) ↔
      ∃ store, configStoreLoad (some buffer) buffer.length used = (.ok, some store) :=
    configStoreLoad_ok_iff rfl hcap
  constructor
  · intro hok
    have hstore : ∃ store, configStoreLoad (some buffer) buffer.length used = (.ok, some store) := by
      simp only [configStoreLoad, configStoreInit, if_neg hcap] at hok ⊢
      split_ifs at hok ⊢
      simp
    obtain ⟨rs, hused, hrs⟩ := hiff.mpr hstore
    exact ⟨hused, rs, hrs⟩
  · rintro ⟨hused, rs, hrs⟩
    obtain ⟨store, hload⟩ := hiff.mp ⟨rs, hused, hrs⟩
    rw [hload]

/-- An image in a buffer loads as a map exactly when no two of its records list the same key. -/
theorem configStoreLoad_map_iff (buffer : Bytes) (hbuffer : buffer ≠ []) (used : ℕ) :
    LoadsAsMap buffer used ↔ ∀ rs, used ≤ buffer.length → buffer.take used = image rs →
      (rs.map fun r => listedKey r.key).Nodup := by
  have hcap : buffer.length ≠ 0 := fun hnil => hbuffer (List.eq_nil_of_length_eq_zero hnil)
  constructor
  · intro hmap rs hused hrs
    obtain ⟨store, hload⟩ := (configStoreLoad_ok_iff rfl hcap).mp ⟨rs, hused, hrs⟩
    obtain ⟨rfl, -, -⟩ := configStoreLoad_holds hload
    exact (hmap.laws _ hload).nodup ⟨rfl, rfl, hused, hrs⟩
  · intro hnodup
    refine ⟨configStoreLoad_accepts hbuffer used, fun store hload => ?_⟩
    obtain ⟨rs, hused, hrs⟩ := (configStoreLoad_ok_iff rfl hcap).mpr ⟨store, hload⟩
    obtain ⟨rfl, -, -⟩ := configStoreLoad_holds hload
    have hlisted := hnodup rs hused hrs
    have hkeys : (rs.map Record.key).Nodup := by
      refine List.Nodup.of_map listedKey ?_
      rw [List.map_map]
      exact hlisted
    have hholds : Holds ⟨buffer, buffer.length, used, true⟩ rs := ⟨rfl, rfl, hused, hrs⟩
    have hrefines : Refines buffer.length ⟨buffer, buffer.length, used, true⟩ (recordMap rs) :=
      ⟨rfl, hcap, rs, hholds, hkeys, recordMap_lookup rs⟩
    exact hrefines.mapLaws hholds hlisted

theorem record_length_inj {n m : ℕ} (hn : n ≤ 255) (hm : m ≤ 255)
    (h : UInt8.ofNat n = UInt8.ofNat m) : n = m := by
  rw [← UInt8.toNat_inj, UInt8.toNat_ofNat', UInt8.toNat_ofNat'] at h
  omega

theorem Record.bytes_append_inj {r r' : Record} {rest rest' : Bytes}
    (h : r.bytes ++ rest = r'.bytes ++ rest') : r = r' ∧ rest = rest' := by
  have hkey : r.key.length ≤ 255 := r.key_le.trans (by decide)
  have hkey' : r'.key.length ≤ 255 := r'.key_le.trans (by decide)
  simp only [Record.bytes, recordBytes, List.cons_append, List.nil_append, List.append_assoc,
    List.cons.injEq] at h
  obtain ⟨hkeys, hvalues, h⟩ := h
  obtain ⟨hsame, h⟩ := List.append_inj h (record_length_inj hkey hkey' hkeys)
  obtain ⟨hsame', hrest⟩ := List.append_inj h (record_length_inj r.value_le r'.value_le hvalues)
  exact ⟨(record_eq r r').mp ⟨hsame, hsame'⟩, hrest⟩

theorem image_injective {rs rs' : List Record} (h : image rs = image rs') : rs = rs' := by
  induction rs generalizing rs' with
  | nil =>
    cases rs' with
    | nil => rfl
    | cons r' rs' => exact absurd h.symm (by simp [Record.bytes, recordBytes])
  | cons r rs ih =>
    cases rs' with
    | nil => exact absurd h (by simp [Record.bytes, recordBytes])
    | cons r' rs' =>
      rw [image_cons, image_cons] at h
      obtain ⟨rfl, hrest⟩ := Record.bytes_append_inj h
      rw [ih hrest]

/-- Three records, one of them without a value. -/
theorem configStoreLoad_map_three :
    LoadsAsMap (recordBytes [97] [1] ++ recordBytes [98, 99] [2, 3] ++ recordBytes [100] []) 13 := by
  let three : List Record := [⟨[97], [1], by decide, by decide, by decide⟩,
    ⟨[98, 99], [2, 3], by decide, by decide, by decide⟩,
    ⟨[100], [], by decide, by decide, by decide⟩]
  refine (configStoreLoad_map_iff _ (by decide) 13).mpr fun rs hused hrs => ?_
  have hthree : image three = image rs := by
    rw [← hrs]
    decide
  obtain rfl := image_injective hthree
  decide

/-- The key `"a"` twice: accepted, and there after it has been removed. -/
theorem configStoreLoad_twice : ∃ store store',
    configStoreLoad (some (recordBytes [97] [1] ++ recordBytes [97] [2])) 8 8 = (.ok, some store) ∧
    configRemove store (some ⟨[97], by decide⟩) = (.ok, store') ∧
    configHas store' (some ⟨[97], by decide⟩) = true := by
  refine ⟨_, _, rfl, rfl, ?_⟩
  decide

end images

end Pico
