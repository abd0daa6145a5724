import Mathlib.Tactic

/-! Hexadecimal text: two digits a byte, the high half first, in either case. -/

namespace Lib.Hex

/-- "0123456789ABCDEF" -/
def upper : List UInt8 :=
  [0x30, 0x31, 0x32, 0x33, 0x34, 0x35, 0x36, 0x37, 0x38, 0x39, 0x41, 0x42, 0x43, 0x44, 0x45, 0x46]

/-- "0123456789abcdef" -/
def lower : List UInt8 :=
  [0x30, 0x31, 0x32, 0x33, 0x34, 0x35, 0x36, 0x37, 0x38, 0x39, 0x61, 0x62, 0x63, 0x64, 0x65, 0x66]

def Digit (c : UInt8) (n : ℕ) : Prop := upper[n]? = some c ∨ lower[n]? = some c

instance (c : UInt8) (n : ℕ) : Decidable (Digit c n) := inferInstanceAs (Decidable (_ ∨ _))

inductive Spells : List UInt8 → List UInt8 → Prop
  | nil : Spells [] []
  | cons {high low : UInt8} {a b : ℕ} {text bytes : List UInt8} (hhigh : Digit high a)
      (hlow : Digit low b) (h : Spells text bytes) :
      Spells (high :: low :: text) (UInt8.ofNat (16 * a + b) :: bytes)

/-- The text of some bytes, in capitals. -/
def spell (bytes : List UInt8) : List UInt8 :=
  bytes.flatMap fun b => [upper.getD (b.toNat / 16) 0, upper.getD (b.toNat % 16) 0]

theorem Digit.lt {c : UInt8} {n : ℕ} (h : Digit c n) : n < 16 := by
  rcases h with h | h
  · exact (List.getElem?_eq_some_iff.mp h).1
  · exact (List.getElem?_eq_some_iff.mp h).1

theorem Digit.spelled {P : UInt8 → ℕ → Prop}
    (hall : ∀ n < 16, P (upper.getD n 0) n ∧ P (lower.getD n 0) n) {c : UInt8} {n : ℕ}
    (h : Digit c n) : P c n := by
  obtain ⟨hupper, hlower⟩ := hall n h.lt
  rw [List.getD_eq_getElem?_getD] at hupper hlower
  rcases h with h | h
  · rwa [h] at hupper
  · rwa [h] at hlower

theorem digit_upper {n : ℕ} (h : n < 16) : Digit (upper.getD n 0) n := by
  left
  rw [List.getD_eq_getElem?_getD, List.getElem?_eq_getElem (show n < upper.length from h)]
  rfl

theorem spells_spell (bytes : List UInt8) : Spells (spell bytes) bytes := by
  induction bytes with
  | nil => exact .nil
  | cons b bytes ih =>
    have hb := b.toNat_lt
    have hnext := Spells.cons (digit_upper (n := b.toNat / 16) (by omega))
      (digit_upper (n := b.toNat % 16) (by omega)) ih
    rwa [Nat.div_add_mod, UInt8.ofNat_toNat] at hnext

variable {text bytes : List UInt8}

theorem Spells.length (h : Spells text bytes) : text.length = 2 * bytes.length := by
  induction h with
  | nil => rfl
  | cons _ _ _ ih =>
    rw [List.length_cons, List.length_cons, List.length_cons, ih]
    ring

theorem Spells.digit (h : Spells text bytes) : ∀ c ∈ text, ∃ n, Digit c n := by
  induction h with
  | nil => exact nofun
  | cons hhigh hlow _ ih =>
    intro c hc
    rcases List.mem_cons.mp hc with rfl | hc
    · exact ⟨_, hhigh⟩
    · rcases List.mem_cons.mp hc with rfl | hc
      · exact ⟨_, hlow⟩
      · exact ih c hc

end Lib.Hex
