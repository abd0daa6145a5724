import PicoFramework.Proofs.ConfigSlots
import PicoFramework.Proofs.ConfigStore

/-! What `persistent_config_load` adopts, as a function of the chip alone. -/

namespace Pico

open Lib.Nor Lib.Splice

/-- What the chip holds for the next load: the slot that wins, its header and records. -/
def persisted (mem : Mem) (slot : Fin 2 → FlashRegion) : Option (Fin 2 × SlotHeader × Bytes) :=
  chooseSlot (slotRead mem (slot 0)) (slotRead mem (slot 1))

theorem sequenceIsLater_succ (a : UInt32) : sequenceIsLater (a + 1) a = true := by
  have hone : a + 1 - a = 1 := by grind
  rw [sequenceIsLater, hone]
  decide

theorem not_sequenceIsLater_succ (a : UInt32) : sequenceIsLater a (a + 1) = false := by
  have hminus : a - (a + 1) = -1 := by grind
  rw [sequenceIsLater, hminus]
  decide

section persisted

variable {mem : Mem} {slot : Fin 2 → FlashRegion} {target : Fin 2}

theorem persisted_of_unreadable (h : slotRead mem (slot target) = none) :
    persisted mem slot = (slotRead mem (slot (1 - target))).map fun found => (1 - target, found) := by
  unfold persisted
  fin_cases target
  · simp only [Fin.zero_eta, Fin.isValue, sub_zero] at h ⊢
    cases slotRead mem (slot 1) with
    | none => rw [h]; rfl
    | some found => rw [h]; rfl
  · simp only [Fin.mk_one, Fin.isValue, sub_self] at h ⊢
    cases slotRead mem (slot 0) with
    | none => rw [h]; rfl
    | some found => rw [h]; rfl

theorem persisted_of_wins {found : SlotHeader × Bytes}
    (h : slotRead mem (slot target) = some found)
    (hother : ∀ other, slotRead mem (slot (1 - target)) = some other →
      sequenceIsLater found.1.sequence other.1.sequence = true ∧
        sequenceIsLater other.1.sequence found.1.sequence = false) :
    persisted mem slot = some (target, found) := by
  unfold persisted
  fin_cases target
  · simp only [Fin.zero_eta, Fin.isValue, sub_zero] at h hother ⊢
    cases hone : slotRead mem (slot 1) with
    | none => rw [h]; rfl
    | some other => rw [h, chooseSlot, (hother other hone).2, if_neg (by simp)]
  · simp only [Fin.mk_one, Fin.isValue, sub_self] at h hother ⊢
    cases hzero : slotRead mem (slot 0) with
    | none => rw [h]; rfl
    | some other => rw [h, chooseSlot, (hother other hzero).1, if_pos rfl]

theorem persisted_read {i : Fin 2} {found : SlotHeader × Bytes}
    (h : persisted mem slot = some (i, found)) : slotRead mem (slot i) = some found := by
  unfold persisted at h
  cases hzero : slotRead mem (slot 0) with
  | none =>
    cases hone : slotRead mem (slot 1) with
    | none => simp [hzero, hone, chooseSlot] at h
    | some found1 =>
      rw [hzero, hone] at h
      obtain ⟨rfl, rfl⟩ := Prod.mk.inj (Option.some.inj h)
      exact hone
  | some found0 =>
    cases hone : slotRead mem (slot 1) with
    | none =>
      rw [hzero, hone] at h
      obtain ⟨rfl, rfl⟩ := Prod.mk.inj (Option.some.inj h)
      exact hzero
    | some found1 =>
      rw [hzero, hone, chooseSlot] at h
      split_ifs at h
      · obtain ⟨rfl, rfl⟩ := Prod.mk.inj (Option.some.inj h)
        exact hone
      · obtain ⟨rfl, rfl⟩ := Prod.mk.inj (Option.some.inj h)
        exact hzero

theorem slotRead_of_persisted_none (h : persisted mem slot = none) (i : Fin 2) :
    slotRead mem (slot i) = none := by
  have hboth : slotRead mem (slot 0) = none ∧ slotRead mem (slot 1) = none := by
    unfold persisted at h
    cases hzero : slotRead mem (slot 0) with
    | none =>
      cases hone : slotRead mem (slot 1) with
      | none => exact ⟨rfl, rfl⟩
      | some found1 => simp [hzero, hone, chooseSlot] at h
    | some found0 =>
      cases hone : slotRead mem (slot 1) with
      | none => simp [hzero, hone, chooseSlot] at h
      | some found1 =>
        rw [hzero, hone, chooseSlot] at h
        split_ifs at h
  fin_cases i
  · exact hboth.1
  · exact hboth.2

end persisted

/-- A configuration that adopted `rs` from slot `i`. -/
structure Adopted (config : PersistentConfig) (slot : Fin 2 → FlashRegion) (i : Fin 2)
    (header : SlotHeader) (rs : List Record) : Prop where
  slot_eq : config.slot = slot
  current_eq : config.current = i
  sequence_eq : config.sequence = header.sequence
  loaded : config.loaded = true
  holds : Holds config.store rs

/-- A configuration that adopted nothing. -/
structure Fresh (config : PersistentConfig) (slot : Fin 2 → FlashRegion) : Prop where
  slot_eq : config.slot = slot
  current_eq : config.current = 0
  sequence_eq : config.sequence = 0
  loaded : config.loaded = false
  holds : Holds config.store []

/-- The configuration that a load leaves when it adopts nothing. -/
def freshConfig (slot : Fin 2 → FlashRegion) (buffer : Bytes) (capacity : ℕ) : PersistentConfig :=
  { store := { buffer, capacity, used := 0, initialised := true }
    slot, current := 0, sequence := 0, loaded := false }

theorem freshConfig_fresh (slot : Fin 2 → FlashRegion) {buffer : Bytes} {capacity : ℕ}
    (hlen : buffer.length = capacity) : Fresh (freshConfig slot buffer capacity) slot :=
  ⟨rfl, rfl, rfl, rfl, ⟨rfl, hlen, Nat.zero_le _, rfl⟩⟩

section load

variable {build : FlashBuild} {mem : Mem} {slot : Fin 2 → FlashRegion} {buffer : Bytes}
  {capacity : ℕ}

theorem persistentConfigLoad_eq (hslot : slotRegions build = some slot) (hcap : capacity ≠ 0) :
    persistentConfigLoad build mem (some buffer) capacity =
      match persisted mem slot with
      | none =>
          (if flashStorageIsErased mem (slot 0) 0 SLOT_HEADER_SIZE &&
              flashStorageIsErased mem (slot 1) 0 SLOT_HEADER_SIZE then .errEmpty else .errCorrupt,
            some (freshConfig slot buffer capacity))
      | some (i, header, records) =>
          if header.length.toNat > capacity then
            (.errTooLarge, some (freshConfig slot buffer capacity))
          else
            match configStoreLoad (some (overwrite buffer 0 records)) capacity
                header.length.toNat with
            | (.ok, some store) => (.ok, some
                { store, slot, current := i, sequence := header.sequence, loaded := true })
            | _ => (.errCorrupt, some (freshConfig slot (overwrite buffer 0 records) capacity)) := by
  unfold persistentConfigLoad persisted
  simp only [if_neg hcap, hslot]
  rfl

theorem persistentConfigLoad_adopts (hslot : slotRegions build = some slot) (hcap : capacity ≠ 0)
    (hlen : buffer.length = capacity) {i : Fin 2} {header : SlotHeader} {rs : List Record}
    (h : persisted mem slot = some (i, header, image rs)) (hroom : (image rs).length ≤ capacity) :
    ∃ config, persistentConfigLoad build mem (some buffer) capacity = (.ok, some config) ∧
      Adopted config slot i header rs := by
  have hread := (slotRead_eq_some ((slotRegions_spec hslot).1 i)).mp (persisted_read h)
  have hlength : header.length.toNat = (image rs).length := by
    rw [← hread.records_eq, length_read]
  have hbuf : (overwrite buffer 0 (image rs)).length = capacity := by
    rw [length_overwrite _ _ _ (by omega), hlen]
  have htake : (overwrite buffer 0 (image rs)).take header.length.toNat = image rs := by
    rw [hlength, ← span_eq_take, span_overwrite _ _ _ (Nat.zero_le _)]
  obtain ⟨store, hstore⟩ := (configStoreLoad_ok_iff hbuf hcap).mp ⟨rs, by omega, htake⟩
  obtain ⟨rfl, -, -⟩ := configStoreLoad_holds hstore
  rw [persistentConfigLoad_eq hslot hcap, h]
  simp only
  rw [if_neg (by omega), hstore]
  exact ⟨_, rfl, rfl, rfl, rfl, rfl, rfl, hbuf, by rw [hlength]; exact hroom, htake⟩

theorem persistentConfigLoad_nothing (hslot : slotRegions build = some slot) (hcap : capacity ≠ 0)
    (hlen : buffer.length = capacity) (h : persisted mem slot = none) :
    ∃ result config, persistentConfigLoad build mem (some buffer) capacity = (result, some config) ∧
      (result = .errEmpty ∨ result = .errCorrupt) ∧ Fresh config slot := by
  rw [persistentConfigLoad_eq hslot hcap, h]
  refine ⟨_, _, rfl, ?_, freshConfig_fresh slot hlen⟩
  split_ifs
  · exact Or.inl rfl
  · exact Or.inr rfl

theorem persistentConfigLoad_cases {result : PersistentConfigResult} {config : PersistentConfig}
    (hlen : buffer.length = capacity)
    (h : persistentConfigLoad build mem (some buffer) capacity = (result, some config))
    (hresult : result ≠ .errNoSpace) :
    ∃ slot, slotRegions build = some slot ∧
      ((result = .ok ∧ ∃ i header rs, persisted mem slot = some (i, header, image rs) ∧
          Adopted config slot i header rs) ∨
        (result ≠ .ok ∧ Fresh config slot ∧ (result = .errEmpty → persisted mem slot = none))) := by
  have hcap : capacity ≠ 0 := by
    rintro rfl
    simp [persistentConfigLoad] at h
  cases hslot : slotRegions build with
  | none =>
    simp only [persistentConfigLoad, if_neg hcap, hslot, Prod.mk.injEq] at h
    exact absurd h.1.symm hresult
  | some slot =>
    refine ⟨slot, rfl, ?_⟩
    rw [persistentConfigLoad_eq hslot hcap] at h
    cases hheld : persisted mem slot with
    | none =>
      rw [hheld] at h
      obtain ⟨rfl, hconfig⟩ := Prod.mk.inj h
      obtain rfl := Option.some.inj hconfig
      refine Or.inr ⟨?_, freshConfig_fresh slot hlen, fun _ => rfl⟩
      split_ifs
      · simp
      · simp
    | some held =>
      obtain ⟨i, header, records⟩ := held
      have hread := (slotRead_eq_some ((slotRegions_spec hslot).1 i)).mp (persisted_read hheld)
      have hlength : header.length.toNat = records.length := by
        rw [← hread.records_eq, length_read]
      rw [hheld] at h
      simp only at h
      by_cases hlarge : header.length.toNat > capacity
      · rw [if_pos hlarge] at h
        obtain ⟨rfl, hconfig⟩ := Prod.mk.inj h
        obtain rfl := Option.some.inj hconfig
        exact Or.inr ⟨by simp, freshConfig_fresh slot hlen, by simp⟩
      rw [if_neg hlarge] at h
      have hbuf : (overwrite buffer 0 records).length = capacity := by
        rw [length_overwrite _ _ _ (by omega), hlen]
      split at h
      · next store hstore =>
        obtain ⟨rfl, hconfig⟩ := Prod.mk.inj h
        obtain rfl := Option.some.inj hconfig
        obtain ⟨rs, hused, himage⟩ := (configStoreLoad_ok_iff hbuf hcap).mpr ⟨store, hstore⟩
        obtain ⟨rfl, -, -⟩ := configStoreLoad_holds hstore
        have hrecords : records = image rs := by
          rw [← himage, hlength, ← span_eq_take, span_overwrite _ _ _ (Nat.zero_le _)]
        exact Or.inl ⟨rfl, i, header, rs, by rw [hrecords],
          ⟨rfl, rfl, rfl, rfl, rfl, hbuf, hused, himage⟩⟩
      · obtain ⟨rfl, hconfig⟩ := Prod.mk.inj h
        obtain rfl := Option.some.inj hconfig
        exact Or.inr ⟨by simp, freshConfig_fresh slot hbuf, by simp⟩

end load

end Pico
