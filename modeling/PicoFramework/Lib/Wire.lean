import Mathlib.Tactic

/-! Fixed-width words as little-endian bytes, and back. -/

namespace Lib.Wire

def le16 (w : UInt16) : List UInt8 := [w.toUInt8, (w >>> 8).toUInt8]

def le32 (w : UInt32) : List UInt8 :=
  [w.toUInt8, (w >>> 8).toUInt8, (w >>> 16).toUInt8, (w >>> 24).toUInt8]

/-- The word whose first byte is at `pos`; bytes past the end read as zero. -/
def ofLe16 (bytes : List UInt8) (pos : ℕ) : UInt16 :=
  (bytes.getD pos 0).toUInt16 ||| ((bytes.getD (pos + 1) 0).toUInt16 <<< 8)

def ofLe32 (bytes : List UInt8) (pos : ℕ) : UInt32 :=
  (bytes.getD pos 0).toUInt32 ||| ((bytes.getD (pos + 1) 0).toUInt32 <<< 8) |||
    ((bytes.getD (pos + 2) 0).toUInt32 <<< 16) ||| ((bytes.getD (pos + 3) 0).toUInt32 <<< 24)

@[simp] theorem length_le32 (w : UInt32) : (le32 w).length = 4 := rfl

/-- The eight bits of `n` from `s` on, put back where they were. -/
theorem testBit_byte (n s i : ℕ) :
    (((n >>> s) % 2 ^ 8) <<< s).testBit i = (decide (s ≤ i ∧ i < s + 8) && n.testBit i) := by
  rw [Nat.testBit_shiftLeft, Nat.testBit_mod_two_pow, Nat.testBit_shiftRight]
  by_cases hs : s ≤ i
  · rw [Nat.add_sub_of_le hs]
    simp [hs, show i - s < 8 ↔ i < s + 8 by omega]
  · simp [hs]

theorem join_nat32 (n : ℕ) (h : n < 2 ^ 32) :
    n % 2 ^ 8 ||| ((n >>> 8) % 2 ^ 8) <<< 8 ||| ((n >>> 16) % 2 ^ 8) <<< 16 |||
      ((n >>> 24) % 2 ^ 8) <<< 24 = n := by
  apply Nat.eq_of_testBit_eq
  intro i
  have hlow := testBit_byte n 0 i
  rw [Nat.shiftRight_zero, Nat.shiftLeft_zero] at hlow
  simp only [Nat.testBit_or, hlow, testBit_byte]
  by_cases hi : i < 32
  · cases n.testBit i
    · simp
    · simp only [Bool.and_true, Bool.or_eq_true, decide_eq_true_eq]
      omega
  · have htop : n.testBit i = false :=
      Nat.testBit_lt_two_pow (lt_of_lt_of_le h (Nat.pow_le_pow_right two_pos (not_lt.mp hi)))
    simp [htop]

/-- A byte shifted into a wider word loses nothing as long as it fits. -/
theorem byte_shiftLeft_lt (k : ℕ) {s w : ℕ} (hs : s + 8 ≤ w) : (k % 2 ^ 8) <<< s < 2 ^ w := by
  rw [Nat.shiftLeft_eq]
  calc k % 2 ^ 8 * 2 ^ s < 2 ^ 8 * 2 ^ s := by gcongr; exact Nat.mod_lt _ (by norm_num)
    _ = 2 ^ (s + 8) := by rw [pow_add, mul_comm]
    _ ≤ 2 ^ w := Nat.pow_le_pow_right two_pos hs

theorem join_le32 (w : UInt32) :
    w.toUInt8.toUInt32 ||| ((w >>> 8).toUInt8.toUInt32 <<< 8) |||
      ((w >>> 16).toUInt8.toUInt32 <<< 16) ||| ((w >>> 24).toUInt8.toUInt32 <<< 24) = w := by
  apply UInt32.toNat_inj.mp
  simp only [UInt32.toNat_or, UInt32.toNat_shiftLeft, UInt8.toNat_toUInt32, UInt32.toNat_toUInt8,
    UInt32.toNat_shiftRight, UInt32.reduceToNat, Nat.reduceMod]
  rw [Nat.mod_eq_of_lt (byte_shiftLeft_lt _ (by norm_num)),
    Nat.mod_eq_of_lt (byte_shiftLeft_lt _ (by norm_num)),
    Nat.mod_eq_of_lt (byte_shiftLeft_lt _ (by norm_num))]
  exact join_nat32 w.toNat w.toNat_lt

theorem getD_length_add {α : Type*} (pre l : List α) (k : ℕ) (d : α) :
    (pre ++ l).getD (pre.length + k) d = l.getD k d := by
  rw [List.getD_eq_getElem?_getD, List.getD_eq_getElem?_getD,
    List.getElem?_append_right (Nat.le_add_right _ _), Nat.add_sub_cancel_left]

/-- A word read where it was written, whatever stands around it. -/
theorem ofLe32_append (pre post : List UInt8) (w : UInt32) :
    ofLe32 (pre ++ (le32 w ++ post)) pre.length = w := by
  have hfirst := getD_length_add pre (le32 w ++ post) 0 0
  rw [Nat.add_zero] at hfirst
  rw [ofLe32, hfirst, getD_length_add, getD_length_add, getD_length_add]
  exact join_le32 w

theorem join_bytes (v : ℕ) {k : ℕ} (hk : k ≤ 4) :
    ((List.range k).foldl (fun word i =>
      word ||| ((UInt8.ofNat (v / 2 ^ (8 * i))).toUInt32 <<< UInt32.ofNat (8 * i))) (0 : UInt32)).toNat =
      v % 256 ^ k := by
  induction k with
  | zero => simp [Nat.mod_one]
  | succ k ih =>
    have hbase : 2 ^ (8 * k) = 256 ^ k := by
      rw [pow_mul]
      norm_num
    have hmod : v % 256 ^ (k + 1) = 256 ^ k * (v / 256 ^ k % 256) + v % 256 ^ k := by
      rw [pow_succ, Nat.mod_mul, Nat.add_comm]
    have hbyte : (UInt8.ofNat (v / 2 ^ (8 * k))).toNat < 2 ^ 8 := UInt8.toNat_lt _
    have hplace : (UInt32.ofNat (8 * k)).toNat % 32 = 8 * k := by
      rw [UInt32.toNat_ofNat', Nat.mod_eq_of_lt (by omega), Nat.mod_eq_of_lt (by omega)]
    have hfits : (UInt8.ofNat (v / 2 ^ (8 * k))).toNat <<< (8 * k) < 2 ^ 32 := by
      have hlt := byte_shiftLeft_lt (UInt8.ofNat (v / 2 ^ (8 * k))).toNat (s := 8 * k) (w := 32)
        (by omega)
      rwa [Nat.mod_eq_of_lt hbyte] at hlt
    have hlow : v % 256 ^ k < 2 ^ (8 * k) := by
      rw [hbase]
      exact Nat.mod_lt _ (by positivity)
    rw [List.range_succ, List.foldl_append, List.foldl_cons, List.foldl_nil, UInt32.toNat_or,
      ih (by omega), UInt32.toNat_shiftLeft, hplace, UInt8.toNat_toUInt32, Nat.mod_eq_of_lt hfits,
      Nat.or_comm, Nat.shiftLeft_eq, mul_comm, ← Nat.two_pow_add_eq_or_of_lt hlow, hbase,
      UInt8.toNat_ofNat', hmod]

end Lib.Wire
