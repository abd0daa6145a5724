import Mathlib.Tactic

/-! A queue of so many elements and no more, as a machine that answers calls. -/

namespace Lib.Queue

variable {α : Type*}

structure Fifo (α : Type*) where
  capacity : ℕ
  content : List α
  fits : content.length ≤ capacity

def Fifo.empty (capacity : ℕ) : Fifo α := ⟨capacity, [], Nat.zero_le _⟩

/-- The calls a queue answers. -/
inductive Op (α : Type*) where
  | push (x : α)
  | write (xs : List α)
  | pop
  | peek
  | read (n : ℕ)
  | peekMany (n : ℕ)
  | discard (n : ℕ)
  | clear
  | count
  | free

inductive Answer (α : Type*) where
  | flag (ok : Bool)
  | number (n : ℕ)
  | element (x : Option α)
  | elements (xs : List α) (n : ℕ)
  | nothing

namespace Fifo

def free (q : Fifo α) : ℕ := q.capacity - q.content.length

/-- As many as there is room for, the first ones. -/
def write (q : Fifo α) (xs : List α) : Fifo α where
  capacity := q.capacity
  content := q.content ++ xs.take q.free
  fits := by
    have hfits := q.fits
    rw [List.length_append, List.length_take, free]
    omega

def discard (q : Fifo α) (n : ℕ) : Fifo α where
  capacity := q.capacity
  content := q.content.drop n
  fits := by
    have hfits := q.fits
    rw [List.length_drop]
    omega

@[simp] theorem discard_content (q : Fifo α) (n : ℕ) : (q.discard n).content = q.content.drop n := rfl

@[simp] theorem discard_capacity (q : Fifo α) (n : ℕ) : (q.discard n).capacity = q.capacity := rfl

/-- The answer to a call, and the queue it leaves. -/
def answer (q : Fifo α) : Op α → Answer α × Fifo α
  | .push x => (.flag (0 < q.free), q.write [x])
  | .write xs => (.number (min xs.length q.free), q.write xs)
  | .pop => (.element q.content.head?, q.discard 1)
  | .peek => (.element q.content.head?, q)
  | .read n => (.elements (q.content.take n) (min n q.content.length), q.discard n)
  | .peekMany n => (.elements (q.content.take n) (min n q.content.length), q)
  | .discard n => (.number (min n q.content.length), q.discard n)
  | .clear => (.nothing, q.discard q.content.length)
  | .count => (.number q.content.length, q)
  | .free => (.number q.free, q)

theorem answer_capacity (q : Fifo α) (op : Op α) : (q.answer op).2.capacity = q.capacity := by
  cases op <;> rfl

theorem count_add_free (q : Fifo α) : q.content.length + q.free = q.capacity :=
  Nat.add_sub_cancel' q.fits

end Fifo

end Lib.Queue
