import Mathlib.Tactic

/-! A message that comes in parts and is put together in a buffer of a fixed capacity: what is
held once some of the parts have come, and what is made of them at the end. -/

namespace Lib.Reassembly

variable {α : Type*}

/-- What has been kept of a message so far, and whether some of it was not. -/
@[ext]
structure Buffer (α : Type*) where
  held : List α := []
  overflowed : Bool := false

namespace Buffer

/-- One more part: as much of it as there is room for. -/
def add (capacity : ℕ) (b : Buffer α) (part : List α) : Buffer α where
  held := b.held ++ part.take (capacity - b.held.length)
  overflowed := b.overflowed || decide (capacity - b.held.length < part.length)

/-- The buffer of a message of which so much has come. -/
def ofPayload (capacity : ℕ) (payload : List α) : Buffer α where
  held := payload.take capacity
  overflowed := decide (capacity < payload.length)

/-- The message, if all of it was kept. -/
def whole (b : Buffer α) : Option (List α) := if b.overflowed then none else some b.held

@[simp] theorem ofPayload_nil (capacity : ℕ) : ofPayload capacity ([] : List α) = {} := by
  simp [ofPayload]

theorem add_ofPayload (capacity : ℕ) (payload part : List α) :
    (ofPayload capacity payload).add capacity part = ofPayload capacity (payload ++ part) := by
  have hspace : capacity - min capacity payload.length = capacity - payload.length := by omega
  apply Buffer.ext
  · simp only [add, ofPayload, List.length_take, hspace, List.take_append]
  · have hlost : capacity < payload.length ∨ capacity - payload.length < part.length ↔
        capacity < payload.length + part.length := by omega
    simp only [add, ofPayload, List.length_take, hspace, List.length_append, ← Bool.decide_or, hlost]

theorem foldl_add (capacity : ℕ) (payload : List α) (parts : List (List α)) :
    parts.foldl (add capacity) (ofPayload capacity payload) =
      ofPayload capacity (payload ++ parts.flatten) := by
  induction parts generalizing payload with
  | nil => simp
  | cons part parts ih =>
    rw [List.foldl_cons, add_ofPayload, ih, List.flatten_cons, List.append_assoc]

theorem whole_ofPayload (capacity : ℕ) (payload : List α) :
    (ofPayload capacity payload).whole =
      if payload.length ≤ capacity then some payload else none := by
  by_cases hfits : payload.length ≤ capacity
  · simp [whole, ofPayload, hfits, List.take_of_length_le hfits]
  · simp [whole, ofPayload, hfits, Nat.lt_of_not_le hfits]

end Buffer

end Lib.Reassembly
