import Mathlib.Tactic

/-! A text cut into fields at every separator, empty fields included, and rules that each of its
fields has to meet. -/

namespace Lib.Fields

variable {α : Type*}

/-- Every field meets a rule, which may ask whether it is the last one. -/
def Meet (rule : List α → Prop → Prop) (fields : List (List α)) : Prop :=
  ∀ i (h : i < fields.length), rule fields[i] (i + 1 = fields.length)

@[simp] theorem meet_singleton (rule : List α → Prop → Prop) (field : List α) :
    Meet rule [field] ↔ rule field True := by
  constructor
  · intro h
    simpa using h 0 (by simp)
  · intro h i hi
    obtain rfl : i = 0 := by simpa using hi
    simpa using h

theorem meet_cons (rule : List α → Prop → Prop) (field : List α) {fields : List (List α)}
    (hfields : fields ≠ []) : Meet rule (field :: fields) ↔ rule field False ∧ Meet rule fields := by
  constructor
  · intro h
    refine ⟨?_, fun i hi => ?_⟩
    · have hfirst := h 0 (by simp)
      simpa [hfields] using hfirst
    · have hnext := h (i + 1) (by simpa using hi)
      simpa using hnext
  · intro ⟨hfield, hrest⟩ i hi
    cases i with
    | zero => simpa [hfields] using hfield
    | succ i => simpa using hrest i (by simpa using hi)

variable [BEq α] [LawfulBEq α]

theorem meet_splitOn (rule : List α → Prop → Prop) {separator : α} {field : List α}
    (hfield : separator ∉ field) : Meet rule (field.splitOn separator) ↔ rule field True := by
  rw [List.splitOn_eq_singleton hfield, meet_singleton]

theorem meet_splitOn_append (rule : List α → Prop → Prop) {separator : α} {field : List α}
    (hfield : separator ∉ field) (rest : List α) :
    Meet rule ((field ++ separator :: rest).splitOn separator) ↔
      rule field False ∧ Meet rule (rest.splitOn separator) := by
  rw [List.splitOn_append_cons_self_of_not_mem hfield,
    meet_cons rule field (List.splitOn_ne_nil separator rest)]

end Lib.Fields
