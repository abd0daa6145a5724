import Mathlib.Tactic

/-! NOR flash as a function from addresses to bytes. Erasing sets every bit of a span;
programming can only clear bits, so it stores the conjunction of the old and the new byte. -/

namespace Lib.Nor

abbrev Mem := ℕ → UInt8

/-- What an erased byte reads. -/
def erased : UInt8 := 0xFF

/-- `n` bytes from `pos` on. -/
def read (mem : Mem) (pos n : ℕ) : List UInt8 := (List.range n).map fun i => mem (pos + i)

/-- The span `[pos, pos + n)` replaced by `bytes`, addressed as the chip is. -/
def scribble (mem : Mem) (pos n : ℕ) (bytes : Mem) : Mem :=
  fun a => if pos ≤ a ∧ a < pos + n then bytes a else mem a

def erase (mem : Mem) (pos n : ℕ) : Mem := scribble mem pos n fun _ => erased

def program (mem : Mem) (pos : ℕ) (data : List UInt8) : Mem :=
  scribble mem pos data.length fun a => mem a &&& data.getD (a - pos) erased

@[simp] theorem length_read (mem : Mem) (pos n : ℕ) : (read mem pos n).length = n := by
  simp [read]

@[simp] theorem read_zero (mem : Mem) (pos : ℕ) : read mem pos 0 = [] := rfl

theorem getElem_read (mem : Mem) (pos n i : ℕ) (h : i < (read mem pos n).length) :
    (read mem pos n)[i] = mem (pos + i) := by
  simp [read]

/-- A span reads as a given list exactly when it does so address by address. -/
theorem read_eq_iff (mem : Mem) (pos n : ℕ) (data : List UInt8) (hn : data.length = n) :
    read mem pos n = data ↔ ∀ i (h : i < n), mem (pos + i) = data[i] := by
  subst hn
  constructor
  · intro h i hi
    rw [← getElem_read mem pos data.length i (by simpa using hi)]
    exact List.getElem_of_eq h _
  · intro h
    refine List.ext_getElem (length_read _ _ _) fun i _ hi => ?_
    rw [getElem_read, h i hi]

theorem read_congr {mem mem' : Mem} {pos n : ℕ}
    (h : ∀ a, pos ≤ a → a < pos + n → mem a = mem' a) : read mem pos n = read mem' pos n := by
  refine List.map_congr_left fun i hi => h _ (by omega) ?_
  have := List.mem_range.mp hi
  omega

theorem scribble_outside {mem bytes : Mem} {pos n a : ℕ} (h : a < pos ∨ pos + n ≤ a) :
    scribble mem pos n bytes a = mem a :=
  if_neg (by omega)

theorem scribble_congr {mem bytes bytes' : Mem} {pos n : ℕ}
    (h : ∀ a, pos ≤ a → a < pos + n → bytes a = bytes' a) :
    scribble mem pos n bytes = scribble mem pos n bytes' := by
  funext a
  unfold scribble
  split_ifs with ha
  · exact h a ha.1 ha.2
  · rfl

theorem erase_inside {mem : Mem} {pos n a : ℕ} (h : pos ≤ a) (h' : a < pos + n) :
    erase mem pos n a = erased :=
  if_pos ⟨h, h'⟩

theorem erase_outside {mem : Mem} {pos n a : ℕ} (h : a < pos ∨ pos + n ≤ a) :
    erase mem pos n a = mem a :=
  scribble_outside h

theorem program_inside {mem : Mem} {pos a : ℕ} {data : List UInt8} (h : pos ≤ a)
    (h' : a < pos + data.length) :
    program mem pos data a = mem a &&& data.getD (a - pos) erased :=
  if_pos ⟨h, h'⟩

theorem program_outside {mem : Mem} {pos a : ℕ} {data : List UInt8}
    (h : a < pos ∨ pos + data.length ≤ a) : program mem pos data a = mem a :=
  scribble_outside h

@[simp] theorem erased_and (b : UInt8) : erased &&& b = b := by
  rw [← UInt8.toBitVec_inj, UInt8.toBitVec_and]
  exact BitVec.allOnes_and

@[simp] theorem and_erased (b : UInt8) : b &&& erased = b := by
  rw [UInt8.and_comm, erased_and]

theorem read_program_iff (mem : Mem) (pos : ℕ) (data : List UInt8) :
    read (program mem pos data) pos data.length = data ↔
      ∀ i, i < data.length → mem (pos + i) &&& data.getD i erased = data.getD i erased := by
  rw [read_eq_iff _ _ _ _ rfl]
  refine forall_congr' fun i => forall_congr' fun hi => ?_
  rw [program_inside (Nat.le_add_right _ _) (by omega), Nat.add_sub_cancel_left,
    List.getD_eq_getElem?_getD, List.getElem?_eq_getElem hi, Option.getD_some]

theorem read_program_erased {mem : Mem} {pos : ℕ} {data : List UInt8}
    (h : ∀ a, pos ≤ a → a < pos + data.length → mem a = erased) :
    read (program mem pos data) pos data.length = data := by
  rw [read_program_iff]
  intro i hi
  rw [h _ (by omega) (by omega), erased_and]

theorem program_erase (mem : Mem) (pos : ℕ) (data : List UInt8) :
    program (erase mem pos data.length) pos data =
      scribble mem pos data.length fun a => data.getD (a - pos) erased := by
  funext a
  by_cases ha : pos ≤ a ∧ a < pos + data.length
  · rw [program_inside ha.1 ha.2, erase_inside ha.1 ha.2, erased_and, scribble, if_pos ha]
  · rw [program_outside (by omega), erase_outside (by omega), scribble_outside (by omega)]

theorem program_erase_read (mem : Mem) (pos source n : ℕ) :
    program (erase mem pos n) pos (read mem source n) =
      scribble mem pos n fun a => mem (source + (a - pos)) := by
  have hlength := length_read mem source n
  have hcopy := program_erase mem pos (read mem source n)
  rw [hlength] at hcopy
  rw [hcopy]
  refine scribble_congr fun a _ _ => ?_
  rw [List.getD_eq_getElem?_getD, List.getElem?_eq_getElem (by omega), Option.getD_some, getElem_read]

theorem scribble_scribble (mem bytes : Mem) (pos m n : ℕ) :
    scribble (scribble mem pos m bytes) (pos + m) n bytes = scribble mem pos (m + n) bytes := by
  funext a
  unfold scribble
  grind

end Lib.Nor
