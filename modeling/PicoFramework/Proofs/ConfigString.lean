import PicoFramework.Proofs.ConfigStore

/-! What `config_get_string` leaves in its buffer: the value, the fallback, or neither. The capacity
reaches `config_get` as a byte. -/

namespace Pico

open Lib.Splice

variable {store : ConfigStore} {rs : List Record} {key : Option CString} {k : Bytes}
  {value : Bytes} {capacity : ℕ} {fallback : Option CString}

section buffers

/-- The buffer holds that text and its terminator, and is as it was past the capacity. -/
structure LeavesText (value : Bytes) (capacity : ℕ) (text after : Bytes) : Prop where
  text_eq : after.take (text.length + 1) = text ++ [0]
  kept : after.drop capacity = value.drop capacity
  length_eq : after.length = value.length

theorem overwrite_terminated (value text : Bytes) :
    overwrite (overwrite value 0 text) text.length [0] = overwrite value 0 (text ++ [0]) := by
  have h := overwrite_overwrite value 0 text [0] (Nat.zero_le _)
  rwa [Nat.zero_add] at h

theorem leavesText_overwrite {text : Bytes} (hfits : text.length + 1 ≤ capacity)
    (hroom : capacity ≤ value.length) :
    LeavesText value capacity text (overwrite value 0 (text ++ [0])) := by
  have hlength : (text ++ [0]).length = text.length + 1 := by simp
  refine ⟨?_, ?_, ?_⟩
  · have hspan := span_overwrite value 0 (text ++ [0]) (Nat.zero_le _)
    rwa [span_eq_take, hlength] at hspan
  · have hdrop := drop_overwrite value 0 (text ++ [0]) (Nat.zero_le _)
    obtain ⟨d, rfl⟩ := Nat.exists_eq_add_of_le hfits
    rw [Nat.zero_add, hlength] at hdrop
    rw [← List.drop_drop, hdrop, List.drop_drop]
  · rw [length_overwrite _ _ _ (by omega)]

end buffers

section outcomes

/-- The fallback as it is copied: cut to leave room for the terminator. -/
def fallbackText (fallback : Option CString) (capacity : ℕ) : Bytes :=
  ((fallback.map CString.bytes).getD []).take (capacity - 1)

/-- `config_get_string` does what it is there for, with a buffer of `capacity` bytes at the start of
`value`. -/
structure FitsOrFallsBack (store : ConfigStore) (key : Option CString) (stored : Option Bytes)
    (value : Bytes) (capacity : ℕ) (fallback : Option CString) : Prop where
  fits : ∀ text, stored = some text → text.length + 1 ≤ capacity →
    ∃ after, configGetString store key (some value) capacity fallback = (.ok, some after) ∧
      LeavesText value capacity text after
  fallsBack : 0 < capacity → (∀ text, stored = some text → capacity < text.length + 1) →
    ∃ after, configGetString store key (some value) capacity fallback =
        (if stored = none then .errNotFound else .errTooSmall, some after) ∧
      LeavesText value capacity (fallbackText fallback capacity) after
  kept : ∃ after, (configGetString store key (some value) capacity fallback).2 = some after ∧
    after.length = value.length ∧ after.drop capacity = value.drop capacity

theorem fallback_written (text value : Bytes) {copy : ℕ}
    (hcopy : copy = if text.length + 1 ≤ capacity then text.length else capacity - 1) :
    overwrite (if copy > 0 then overwrite value 0 (text.take copy) else value) copy [0] =
      overwrite value 0 (text.take (capacity - 1) ++ [0]) := by
  have hcopied : text.take copy = text.take (capacity - 1) := by
    subst hcopy
    split
    · rw [List.take_length, List.take_of_length_le (by omega)]
    · rfl
  have hlength : (text.take copy).length = copy := by
    rw [List.length_take]
    subst hcopy
    split <;> omega
  have hwritten : (if copy > 0 then overwrite value 0 (text.take copy) else value) =
      overwrite value 0 (text.take copy) := by
    split
    · rfl
    · next hzero =>
      have hnil : copy = 0 := by omega
      rw [hnil, List.take_zero, overwrite_nil]
  have hterminated := overwrite_terminated value (text.take copy)
  rw [hlength] at hterminated
  rw [hwritten, hterminated, hcopied]

theorem configGetString_fallback (h : Holds store rs) (hk : checkKey key = .ok k)
    (hcap : 0 < capacity) (hlong : ∀ text, lookupRecord k rs = some text →
      capacity < text.length + 1) :
    configGetString store key (some value) capacity fallback =
      (if lookupRecord k rs = none then .errNotFound else .errTooSmall,
        some (overwrite value 0 (fallbackText fallback capacity ++ [0]))) := by
  have hwritten := @fallback_written capacity
    ((fallback.map CString.bytes).getD []) value _ rfl
  have hzero : capacity ≠ 0 := by omega
  cases hstored : lookupRecord k rs with
  | none =>
    simp only [configGetString, configGet_spec h hk, hstored, hzero, reduceIte, true_or, hwritten,
      fallbackText]
  | some text =>
    have hover := hlong text hstored
    have hprobe : (configGet store key 0).length = some text.length ∧
        (configGet store key 0).result ≠ .errNotFound := by
      rw [configGet_spec h hk, hstored]
      simp only
      split <;> simp
    simp only [configGetString, hprobe, hzero, reduceIte, Option.getD_some, false_or, hover,
      reduceCtorEq, hwritten, fallbackText, gt_iff_lt]

theorem configGetString_fits (h : Holds store rs) (hk : checkKey key = .ok k) {text : Bytes}
    (hstored : lookupRecord k rs = some text) (hfits : text.length + 1 ≤ capacity) :
    configGetString store key (some value) capacity fallback =
      if text.length ≤ (capacity - 1) % 256 then
        (.ok, some (overwrite value 0 (text ++ [0])))
      else (.errTooSmall, some (overwrite value 0 [0])) := by
  have hzero : capacity ≠ 0 := by omega
  have hprobe : (configGet store key 0).length = some text.length ∧
      (configGet store key 0).result ≠ .errNotFound := by
    rw [configGet_spec h hk, hstored]
    simp only
    split <;> simp
  have hnot : ¬text.length + 1 > capacity := by omega
  simp only [configGetString, hprobe, hzero, reduceIte, Option.getD_some, hnot, or_self,
    configGet_spec h hk ((capacity - 1) % 256), hstored]
  by_cases hbyte : text.length ≤ (capacity - 1) % 256
  · have hwritten := overwrite_terminated value text
    simp only [Nat.not_lt.mpr hbyte, reduceIte, ne_eq, not_true_eq_false,
      Option.getD_some, hwritten, hbyte]
  · simp only [Nat.lt_of_not_le hbyte, reduceIte, ne_eq, reduceCtorEq,
      not_false_eq_true, hbyte]

end outcomes

section law

theorem fallbackText_fits (fallback : Option CString) (hcap : 0 < capacity) :
    (fallbackText fallback capacity).length + 1 ≤ capacity := by
  unfold fallbackText
  rw [List.length_take]
  omega

/-- Whatever the capacity and the key's value, only the first `capacity` bytes are written. -/
theorem configGetString_kept (h : Holds store rs) (hk : checkKey key = .ok k)
    (hroom : capacity ≤ value.length) :
    ∃ after, (configGetString store key (some value) capacity fallback).2 = some after ∧
      after.length = value.length ∧ after.drop capacity = value.drop capacity := by
  by_cases hcap : 0 < capacity
  · by_cases hlong : ∀ text, lookupRecord k rs = some text → capacity < text.length + 1
    · have hleft := leavesText_overwrite (fallbackText_fits fallback hcap) hroom
      exact ⟨_, by rw [configGetString_fallback h hk hcap hlong], hleft.length_eq, hleft.kept⟩
    · push Not at hlong
      obtain ⟨text, hstored, hfits⟩ := hlong
      rw [configGetString_fits h hk hstored hfits]
      split
      · have hleft := leavesText_overwrite hfits hroom
        exact ⟨_, rfl, hleft.length_eq, hleft.kept⟩
      · have hleft := @leavesText_overwrite value capacity [] hcap hroom
        exact ⟨_, rfl, hleft.length_eq, hleft.kept⟩
  · have hzero : capacity = 0 := by omega
    exact ⟨value, by simp [configGetString, hzero], rfl, rfl⟩

/-- It does what it is there for exactly when a value that fits the capacity also fits the byte the
capacity is handed on as. -/
theorem configGetString_fits_iff (h : Holds store rs) (hk : checkKey key = .ok k)
    (hroom : capacity ≤ value.length) :
    FitsOrFallsBack store key (lookupRecord k rs) value capacity fallback ↔
      ∀ text, lookupRecord k rs = some text → text.length + 1 ≤ capacity →
        text.length ≤ (capacity - 1) % 256 := by
  constructor
  · intro hlaw text hstored hfits
    obtain ⟨after, hrun, -⟩ := hlaw.fits text hstored hfits
    rw [configGetString_fits h hk hstored hfits] at hrun
    by_contra hbyte
    rw [if_neg hbyte] at hrun
    exact absurd (congrArg Prod.fst hrun) (by simp)
  · intro hbyte
    refine ⟨?_, ?_, configGetString_kept h hk hroom⟩
    · intro text hstored hfits
      rw [configGetString_fits h hk hstored hfits, if_pos (hbyte text hstored hfits)]
      exact ⟨_, rfl, leavesText_overwrite hfits hroom⟩
    · intro hcap hlong
      rw [configGetString_fallback h hk hcap hlong]
      exact ⟨_, rfl, leavesText_overwrite (fallbackText_fits fallback hcap) hroom⟩

/-- A store whose one value is the ten-byte `aaaaaaaaaa`, under the key `a`. -/
def tenByteStore : ConfigStore :=
  ⟨recordBytes [97] (List.replicate 10 97), 13, 13, true⟩

def tenByteKey : CString := ⟨[97], by decide⟩

def tenByteRecord : Record :=
  ⟨[97], List.replicate 10 97, by decide, by decide, by decide⟩

theorem tenByteStore_holds : Holds tenByteStore [tenByteRecord] :=
  ⟨rfl, rfl, by decide, rfl⟩

/-- A buffer of 257 bytes is handed on as one of none, so ten bytes do not fit it. -/
theorem configGetString_refuses : ¬ FitsOrFallsBack tenByteStore (some tenByteKey)
    (lookupRecord [97] [tenByteRecord]) (List.replicate 257 0) 257 none := by
  intro hlaw
  obtain ⟨after, hrun, -⟩ := hlaw.fits (List.replicate 10 97) rfl (by decide)
  have hresult : (configGetString tenByteStore (some tenByteKey) (some (List.replicate 257 0))
      257 none).1 = .errTooSmall := by decide
  rw [hrun] at hresult
  cases hresult

theorem configGetString_fits_small : FitsOrFallsBack tenByteStore (some tenByteKey)
    (lookupRecord [97] [tenByteRecord]) (List.replicate 16 0) 16 none :=
  (configGetString_fits_iff tenByteStore_holds rfl (by decide)).mpr
    fun text htext _ => by
      cases htext
      decide

end law

end Pico
