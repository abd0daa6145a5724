import Mathlib.Data.List.TakeWhile
import Mathlib.Tactic

/-! Bytes and C strings as the components pass them. A pointer argument that the
source tests against NULL is an `Option`; a pointer to an object the caller owns
is the object. `size_t` is a natural number, since every size here is bounded by
the memory it counts. -/

namespace Pico

abbrev Bytes := List UInt8

/-- The characters of a NUL-terminated string, the terminator not included. -/
structure CString where
  bytes : Bytes
  nul_free : 0 ∉ bytes
deriving DecidableEq

/-- `strlen`. -/
def CString.length (s : CString) : ℕ := s.bytes.length

theorem cstring_eq {a b : CString} : a = b ↔ a.bytes = b.bytes := by
  cases a
  cases b
  exact CString.mk.injEq _ _ _ _ ▸ Iff.rfl

namespace CString

theorem nul_free_append (a b : CString) : 0 ∉ a.bytes ++ b.bytes := by
  rw [List.mem_append, not_or]
  exact ⟨a.nul_free, b.nul_free⟩

instance : Append CString where
  append a b := ⟨a.bytes ++ b.bytes, nul_free_append a b⟩

/-- What `snprintf` leaves of a string in a buffer of `size` bytes. -/
def cut (size : ℕ) (s : CString) : CString :=
  ⟨s.bytes.take (size - 1), fun h => s.nul_free (List.mem_of_mem_take h)⟩

end CString

/-- The string in a buffer. -/
def bufferString (buffer : Bytes) : CString :=
  ⟨buffer.takeWhile (· ≠ 0), fun h => by simpa using List.mem_takeWhile_imp h⟩

/-- The characters of a literal. -/
def ascii (text : String) : Bytes := text.toList.map fun c => UInt8.ofNat c.toNat

/-- A string of the source. -/
def cstr (text : String) : CString := bufferString (ascii text)

/-- The two slots of a store and the three buffers of a controller are numbered from zero. -/
instance neZero_two : NeZero 2 := ⟨by decide⟩

instance neZero_three : NeZero 3 := ⟨by decide⟩

/-- A value as a `uint32_t` keeps it. -/
def wrap32 (n : ℕ) : ℕ := n % 2 ^ 32

/-- `a - b` in `uint32_t`. -/
def sub32 (a b : ℕ) : ℕ := wrap32 (a + 2 ^ 32 - b)

end Pico
