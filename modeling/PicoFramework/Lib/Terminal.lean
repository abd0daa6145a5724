import Mathlib.Data.List.GetD
import Mathlib.Tactic

/-! One row of a terminal, infinitely wide: a character overwrites the cell under the cursor and
moves the cursor right, a backspace moves it left. What redrawing a line does to the row is said
of the text from some column on, with nothing but blanks behind it. -/

namespace Lib.Terminal

variable {α : Type*}

structure Row (α : Type*) where
  cells : ℕ → α
  cursor : ℕ

namespace Row

def back (row : Row α) : Row α := { row with cursor := row.cursor - 1 }

def put (row : Row α) (c : α) : Row α where
  cells := Function.update row.cells row.cursor c
  cursor := row.cursor + 1

def backs (n : ℕ) (row : Row α) : Row α := back^[n] row

def puts (cs : List α) (row : Row α) : Row α := cs.foldl put row

/-- From column `start` on the row shows the text and then blanks, with the cursor in the
text's column `column`. -/
structure Shows (blank : α) (row : Row α) (start : ℕ) (text : List α) (column : ℕ) : Prop where
  cell : ∀ i, row.cells (start + i) = text.getD i blank
  cursor_eq : row.cursor = start + column

variable {blank : α} {row : Row α} {start column : ℕ} {text : List α}

theorem Shows.blank_iff :
    Shows blank row start (text ++ [blank]) column ↔ Shows blank row start text column := by
  have hsame : ∀ i, (text ++ [blank]).getD i blank = text.getD i blank := by
    intro i
    rcases Nat.lt_trichotomy i text.length with hlt | heq | hgt
    · exact List.getD_append _ _ _ _ hlt
    · subst heq
      rw [List.getD_append_right _ _ _ _ le_rfl, List.getD_eq_default text blank le_rfl, Nat.sub_self]
      rfl
    · rw [List.getD_eq_default _ _ hgt.le,
        List.getD_eq_default _ _ (by rw [List.length_append, List.length_singleton]; omega)]
  constructor
  · exact fun h => ⟨fun i => (h.cell i).trans (hsame i), h.cursor_eq⟩
  · exact fun h => ⟨fun i => (h.cell i).trans (hsame i).symm, h.cursor_eq⟩

theorem Shows.back (h : Shows blank row start text (column + 1)) :
    Shows blank row.back start text column where
  cell := h.cell
  cursor_eq := by
    change row.cursor - 1 = start + column
    rw [h.cursor_eq]
    omega

theorem Shows.backs (n : ℕ) (h : Shows blank row start text (column + n)) :
    Shows blank (row.backs n) start text column := by
  induction n generalizing row with
  | zero => exact h
  | succ n ih => exact ih (Shows.back h)

theorem Shows.put {before rest : List α} (c : α)
    (h : Shows blank row start (before ++ rest) before.length) :
    Shows blank (row.put c) start (before ++ c :: rest.tail) (before.length + 1) where
  cell := by
    intro i
    change Function.update row.cells row.cursor c (start + i) = _
    rw [h.cursor_eq]
    rcases Nat.lt_trichotomy i before.length with hlt | rfl | hgt
    · rw [Function.update_of_ne (by omega), h.cell i, List.getD_append _ _ _ _ hlt,
        List.getD_append _ _ _ _ hlt]
    · rw [Function.update_self, List.getD_append_right _ _ _ _ le_rfl, Nat.sub_self,
        List.getD_cons_zero]
    · obtain ⟨k, hk⟩ : ∃ k, i - before.length = k + 1 := ⟨i - before.length - 1, by omega⟩
      rw [Function.update_of_ne (by omega), h.cell i, List.getD_append_right _ _ _ _ hgt.le,
        List.getD_append_right _ _ _ _ hgt.le, hk, List.getD_cons_succ]
      cases rest with
      | nil => rfl
      | cons x rest => rfl
  cursor_eq := by
    change row.cursor + 1 = start + (before.length + 1)
    rw [h.cursor_eq]
    omega

theorem Shows.puts {before rest : List α} (cs : List α)
    (h : Shows blank row start (before ++ rest) before.length) :
    Shows blank (row.puts cs) start (before ++ cs ++ rest.drop cs.length)
      (before.length + cs.length) := by
  induction cs generalizing row before rest with
  | nil =>
    rw [List.append_nil]
    exact h
  | cons c cs ih =>
    have hput : Shows blank (row.put c) start ((before ++ [c]) ++ rest.tail)
        (before ++ [c]).length := by
      rw [List.append_assoc, List.length_append]
      exact h.put c
    have hrest := ih hput
    rw [List.append_assoc before, List.length_append, List.drop_tail] at hrest
    rw [List.length_cons, Nat.add_comm cs.length 1, ← Nat.add_assoc, Nat.add_comm 1]
    exact hrest

theorem Shows.puts_end (cs : List α) (h : Shows blank row start text text.length) :
    Shows blank (row.puts cs) start (text ++ cs) (text.length + cs.length) := by
  have hall : Shows blank row start (text ++ []) text.length := by rwa [List.append_nil]
  have hputs := hall.puts cs
  rwa [List.drop_nil, List.append_nil] at hputs

theorem Shows.puts_over {before rest : List α} (cs : List α) (hlen : rest.length ≤ cs.length)
    (h : Shows blank row start (before ++ rest) before.length) :
    Shows blank (row.puts cs) start (before ++ cs) (before.length + cs.length) := by
  have hputs := h.puts cs
  rwa [List.drop_eq_nil_of_le hlen, List.append_nil] at hputs

theorem Shows.erase {before : List α} {c : α}
    (h : Shows blank row start (before ++ [c]) (before.length + 1)) :
    Shows blank ((row.back).put blank).back start before before.length := by
  have hput := (Shows.back h).put blank
  exact Shows.back (Shows.blank_iff.mp hput)

end Row

end Lib.Terminal
