import PicoFramework.Spec.HomeLed

/-! The range of the strip that is lit: there is always something in it, its endpoints push each
other, and its generation counts the changes. -/

namespace Pico

namespace LedRange

/-- The range selects at least one LED of a strip of that many. -/
structure Selects (range : LedRange) (limit : UInt16) : Prop where
  limit_eq : range.limit = limit
  lt : range.begin.toNat < range.stop.toNat
  le : range.stop.toNat ≤ limit.toNat

variable {range : LedRange} {limit : UInt16}

theorem toNat_pred {value : UInt16} (h : 1 ≤ value.toNat) :
    (value - 1).toNat = value.toNat - 1 :=
  UInt16.toNat_sub_of_le _ _ (UInt16.le_iff_toNat_le.mpr h)

theorem Selects.restored (hlimit : 0 < limit.toNat) (first last : UInt16) :
    (ledRangeRestore limit first last).Selects limit := by
  unfold ledRangeRestore ledRangeInit
  have hne : limit ≠ 0 := fun h => by simp [h] at hlimit
  simp only [if_neg hne]
  split
  · next h =>
    simp only [ge_iff_le, UInt16.le_iff_toNat_le] at h
    have hfirst : 1 ≤ first.toNat := h.1
    refine ⟨rfl, ?_, h.2.2⟩
    simp only [toNat_pred hfirst]
    omega
  · exact ⟨rfl, hlimit, le_rfl⟩

theorem Selects.moved (h : range.Selects limit) {start stop : UInt16}
    (hlt : start.toNat < stop.toNat) (hle : stop.toNat ≤ limit.toNat) :
    (range.moved start stop).Selects limit := by
  unfold LedRange.moved
  split
  · exact ⟨h.limit_eq, hlt, hle⟩
  · exact h

theorem Selects.clampEndpoint (h : range.Selects limit) (value : UInt32) :
    1 ≤ (range.clampEndpoint value).toNat ∧ (range.clampEndpoint value).toNat ≤ limit.toNat := by
  have hlt := h.lt
  have hle := h.le
  unfold LedRange.clampEndpoint
  rw [h.limit_eq]
  split
  · simp only [UInt16.toNat_one]
    omega
  split
  · omega
  · next hpos hle' =>
    have hvalue : value.toNat ≤ limit.toNat := by
      simpa [UInt32.lt_iff_toNat_lt] using hle'
    have hone : 1 ≤ value.toNat := by
      simpa [UInt32.lt_iff_toNat_lt, Nat.one_le_iff_ne_zero, Nat.lt_one_iff] using hpos
    have hsmall : value.toUInt16.toNat = value.toNat := by
      rw [UInt32.toNat_toUInt16]
      exact Nat.mod_eq_of_lt (lt_of_le_of_lt hvalue limit.toNat_lt)
    omega

theorem Selects.step (h : range.Selects limit) (move : RangeMove) :
    (range.step move).Selects limit := by
  have hlt := h.lt
  have hle := h.le
  cases move with
  | set first last =>
    simp only [LedRange.step, LedRange.set, h.limit_eq]
    split
    · exact h
    · next hok =>
      simp only [not_or, gt_iff_lt, UInt16.not_lt, UInt16.le_iff_toNat_le] at hok
      have hfirst : 1 ≤ first.toNat := hok.2.1
      have hordered := hok.2.2.1
      refine h.moved ?_ hok.2.2.2
      rw [toNat_pred hfirst]
      omega
  | setFirst first =>
    obtain ⟨hone, hend⟩ := h.clampEndpoint first
    simp only [LedRange.step, LedRange.setFirst]
    split
    · exact h
    · have hpred := toNat_pred hone
      refine h.moved ?_ ?_
      · split
        · omega
        · next hstart =>
          simp only [ge_iff_le, UInt16.le_iff_toNat_le] at hstart
          omega
      · split
        · exact hend
        · exact hle
  | setLast last =>
    obtain ⟨hone, hend⟩ := h.clampEndpoint last
    simp only [LedRange.step, LedRange.setLast]
    split
    · exact h
    · have hpred := toNat_pred hone
      refine h.moved ?_ hend
      split
      · omega
      · next hstop =>
        simp only [UInt16.le_iff_toNat_le] at hstop
        omega

theorem Selects.first_eq (h : range.Selects limit) :
    range.first.toNat = range.begin.toNat + 1 := by
  have hlt := h.lt
  have hle := h.le
  have hbound := limit.toNat_lt
  have hne : range.limit ≠ 0 := by
    rw [h.limit_eq]
    rintro rfl
    simp at hle
    omega
  rw [LedRange.first, if_pos hne, UInt16.toNat_add, UInt16.toNat_one]
  exact Nat.mod_eq_of_lt (by omega)

/-- What calls lead to, with at least one LED; a restore starts anew whenever it comes. -/
inductive Reached : LedRange → Prop
  | restored {limit : UInt16} (hlimit : limit ≠ 0) (first last : UInt16) :
      Reached (ledRangeRestore limit first last)
  | stepped {range : LedRange} (move : RangeMove) : Reached range → Reached (range.step move)

theorem Reached.selects (h : Reached range) : range.Selects range.limit := by
  have hselects : ∃ limit, range.Selects limit := by
    induction h with
    | restored hlimit first last =>
      have hpos := Nat.pos_of_ne_zero fun hzero => hlimit (UInt16.toNat_inj.mp hzero)
      exact ⟨_, Selects.restored hpos first last⟩
    | stepped move _ ih =>
      obtain ⟨limit, hselects⟩ := ih
      exact ⟨limit, hselects.step move⟩
  obtain ⟨limit, hselects⟩ := hselects
  rw [hselects.limit_eq]
  exact hselects

section endpoints

/-- The endpoint that a value is taken for. -/
def nearest (limit : UInt16) (value : UInt32) : ℕ := max 1 (min value.toNat limit.toNat)

theorem Selects.clampEndpoint_toNat (h : range.Selects limit) (value : UInt32) :
    (range.clampEndpoint value).toNat = nearest limit value := by
  have hlt := h.lt
  have hle := h.le
  have hbound := limit.toNat_lt
  unfold LedRange.clampEndpoint nearest
  rw [h.limit_eq]
  simp only [UInt32.lt_iff_toNat_lt, gt_iff_lt, UInt32.toNat_one, UInt16.toNat_toUInt32]
  split
  · rw [UInt16.toNat_one]
    omega
  split
  · omega
  · rw [UInt32.toNat_toUInt16]
    omega

/-- The generation tells of a change. -/
def Tells (range range' : LedRange) : Prop :=
  range'.generation ≠ range.generation ↔ (range'.begin, range'.stop) ≠ (range.begin, range.stop)

theorem tells_self (range : LedRange) : range.Tells range :=
  iff_of_false (not_not.mpr rfl) (not_not.mpr rfl)

theorem tells_moved (range : LedRange) (start stop : UInt16) :
    range.Tells (range.moved start stop) := by
  unfold LedRange.moved
  split
  · rename_i hchange
    refine iff_of_true ?_ fun hsame => ?_
    · exact fun hsame => absurd (UInt32.add_eq_left.mp hsame) (by decide)
    · obtain ⟨hstart, hstop⟩ := Prod.mk.inj hsame
      exact hchange.elim (fun hne => hne hstart.symm) fun hne => hne hstop.symm
  · exact tells_self range

theorem tells_step (range : LedRange) (move : RangeMove) : range.Tells (range.step move) := by
  cases move with
  | set first last =>
    simp only [LedRange.step, LedRange.set]
    split
    · exact tells_self range
    · exact tells_moved range _ _
  | setFirst first =>
    simp only [LedRange.step, LedRange.setFirst]
    split
    · exact tells_self range
    · exact tells_moved range _ _
  | setLast last =>
    simp only [LedRange.step, LedRange.setLast]
    split
    · exact tells_self range
    · exact tells_moved range _ _

theorem moved_endpoints (range : LedRange) (start stop : UInt16) :
    (range.moved start stop).begin = start ∧ (range.moved start stop).stop = stop := by
  unfold LedRange.moved
  split
  · exact ⟨rfl, rfl⟩
  · rename_i hsame
    simp only [ne_eq, not_or, not_not] at hsame
    exact hsame

theorem Selects.limit_ne (h : range.Selects limit) : range.limit ≠ 0 := by
  have hlt := h.lt
  have hle := h.le
  rw [h.limit_eq]
  intro hzero
  rw [hzero] at hle
  change _ ≤ 0 at hle
  omega

theorem Selects.setFirst (h : range.Selects limit) (value : UInt32) :
    (range.setFirst value).first.toNat = nearest limit value ∧
      (range.setFirst value).last.toNat = max range.last.toNat (nearest limit value) := by
  have hselects := h.step (.setFirst value)
  obtain ⟨hone, -⟩ := h.clampEndpoint value
  have hclamp := h.clampEndpoint_toNat value
  have hpred := toNat_pred hone
  change (range.setFirst value).Selects limit at hselects
  rw [hselects.first_eq]
  unfold LedRange.last LedRange.setFirst
  rw [if_neg h.limit_ne]
  obtain ⟨hbegin, hstop⟩ := moved_endpoints range (range.clampEndpoint value - 1)
    (if range.clampEndpoint value - 1 ≥ range.stop then range.clampEndpoint value else range.stop)
  rw [hbegin, hstop]
  refine ⟨by omega, ?_⟩
  split
  · rename_i hpast
    rw [ge_iff_le, UInt16.le_iff_toNat_le] at hpast
    omega
  · rename_i hwithin
    rw [ge_iff_le, UInt16.le_iff_toNat_le] at hwithin
    omega

theorem Selects.setLast (h : range.Selects limit) (value : UInt32) :
    (range.setLast value).last.toNat = nearest limit value ∧
      (range.setLast value).first.toNat = min range.first.toNat (nearest limit value) := by
  have hselects := h.step (.setLast value)
  obtain ⟨hone, -⟩ := h.clampEndpoint value
  have hclamp := h.clampEndpoint_toNat value
  have hpred := toNat_pred hone
  change (range.setLast value).Selects limit at hselects
  rw [hselects.first_eq, h.first_eq]
  unfold LedRange.last LedRange.setLast
  rw [if_neg h.limit_ne]
  obtain ⟨hbegin, hstop⟩ := moved_endpoints range
    (if range.clampEndpoint value ≤ range.begin then range.clampEndpoint value - 1 else range.begin)
    (range.clampEndpoint value)
  rw [hbegin, hstop]
  refine ⟨hclamp, ?_⟩
  split
  · rename_i hpast
    rw [UInt16.le_iff_toNat_le] at hpast
    omega
  · rename_i hwithin
    rw [UInt16.le_iff_toNat_le] at hwithin
    omega

theorem Selects.set (h : range.Selects limit) (first last : UInt16) :
    (1 ≤ first.toNat ∧ first.toNat ≤ last.toNat ∧ last.toNat ≤ limit.toNat →
      (range.set first last).1 = true ∧ (range.set first last).2.first = first ∧
        (range.set first last).2.last = last) ∧
    (¬ (1 ≤ first.toNat ∧ first.toNat ≤ last.toNat ∧ last.toNat ≤ limit.toNat) →
      range.set first last = (false, range)) := by
  have hrefused : (range.limit = 0 ∨ first < 1 ∨ first > last ∨ last > range.limit) ↔
      ¬ (1 ≤ first.toNat ∧ first.toNat ≤ last.toNat ∧ last.toNat ≤ limit.toNat) := by
    rw [or_iff_right h.limit_ne, h.limit_eq]
    simp only [UInt16.lt_iff_toNat_lt, gt_iff_lt, UInt16.toNat_one]
    omega
  constructor
  · intro hok
    have hset : range.set first last = (true, range.moved (first - 1) last) :=
      if_neg fun hcode => hrefused.mp hcode hok
    obtain ⟨hbegin, hstop⟩ := moved_endpoints range (first - 1) last
    have hlimit : (range.moved (first - 1) last).limit ≠ 0 := by
      have hne := h.limit_ne
      unfold LedRange.moved
      split <;> exact hne
    rw [hset]
    refine ⟨rfl, ?_, hstop⟩
    rw [LedRange.first, if_pos hlimit, hbegin]
    exact UInt16.sub_add_cancel first 1
  · intro hbad
    exact if_pos (hrefused.mpr hbad)

end endpoints

end LedRange

end Pico
