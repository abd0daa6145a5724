import Mathlib.Tactic

/-! What may be said of a sender from outside: what it was offered, what it took, what it
handed to its link, in one session after another. -/

namespace Lib.Outbox

variable {α : Type*}

/-- What was taken in a session, and what the link took of it. -/
structure LinkSession (α : Type*) where
  accepted : List α := []
  sent : List α := []
deriving DecidableEq

inductive Entry (α : Type*) where
  /-- `n` of these were taken. -/
  | wrote (xs : List α) (n : ℕ)
  /-- A segment was offered to a link with so much room, which said it took `n`. -/
  | sent (room : ℕ) (segment : List α) (n : ℕ)
  | link (up : Bool)

structure Ledger (α : Type*) where
  past : List (LinkSession α) := []
  current : LinkSession α := {}
  up : Bool := false
  offered : ℕ := 0
  accepted : ℕ := 0
  offers : List (ℕ × List α) := []

namespace Ledger

/-- What is current goes to the past, and a session with nothing in it is next. -/
def next (l : Ledger α) (up : Bool) : Ledger α :=
  { l with past := l.past ++ [l.current], current := {}, up := up }

/-- A session starts whenever the link comes up, also where it was up already, and ends when it
goes down. -/
def record (l : Ledger α) : Entry α → Ledger α
  | .wrote xs n =>
      { l with
        current := { l.current with accepted := l.current.accepted ++ xs.take n }
        offered := l.offered + xs.length
        accepted := l.accepted + n }
  | .sent room segment n =>
      { l with
        current := { l.current with sent := l.current.sent ++ segment.take n }
        offers := l.offers ++ [(room, segment)] }
  | .link true => l.next true
  | .link false => if l.up then l.next false else l

/-- The entries of a run, from an empty ledger. -/
def ofEntries (entries : List (List (Entry α))) : Ledger α :=
  entries.foldl (fun l es => es.foldl record l) {}

end Ledger

/-- Nothing is lost but what is counted, nothing is sent twice or out of order, and no
session's data goes into another. -/
structure Balanced (l : Ledger α) (pending : List α) (dropped : UInt32) : Prop where
  current_eq : l.current.accepted = l.current.sent ++ pending
  past : ∀ s ∈ l.past, s.sent <+: s.accepted
  offered_eq : UInt32.ofNat l.offered = UInt32.ofNat l.accepted + dropped
  offers_le : ∀ o ∈ l.offers, o.2.length ≤ o.1
  down : l.up = false → pending = []

section balanced

variable {l : Ledger α} {pending segment : List α} {dropped : UInt32}

theorem Balanced.empty : Balanced ({} : Ledger α) [] 0 where
  current_eq := rfl
  past _ h := absurd h List.not_mem_nil
  offered_eq := rfl
  offers_le _ h := absurd h List.not_mem_nil
  down _ := rfl

/-- What the link has taken in a session is a prefix of what was taken from the writer. -/
theorem Balanced.sent_prefix (h : Balanced l pending dropped) :
    l.current.sent <+: l.current.accepted :=
  ⟨pending, h.current_eq.symm⟩

theorem Balanced.wrote (h : Balanced l pending dropped) (xs : List α) {n : ℕ} (hn : n ≤ xs.length)
    (hdown : l.up = false → n = 0) :
    Balanced (l.record (.wrote xs n)) (pending ++ xs.take n)
      (dropped + UInt32.ofNat (xs.length - n)) where
  current_eq := by
    change l.current.accepted ++ xs.take n = l.current.sent ++ (pending ++ xs.take n)
    rw [h.current_eq, List.append_assoc]
  past := h.past
  offered_eq := by
    have hsplit : xs.length = n + (xs.length - n) := by omega
    change UInt32.ofNat (l.offered + xs.length) = UInt32.ofNat (l.accepted + n) + _
    rw [hsplit, UInt32.ofNat_add, UInt32.ofNat_add, UInt32.ofNat_add, h.offered_eq,
      Nat.add_sub_cancel_left]
    ac_rfl
  offers_le := h.offers_le
  down hup := by
    rw [hdown hup, List.take_zero, List.append_nil]
    exact h.down hup

/-- A segment from the front of what is pending; the link may claim to have taken more. -/
theorem Balanced.sent (h : Balanced l pending dropped) (hsegment : segment <+: pending) {room : ℕ}
    (hroom : segment.length ≤ room) (n : ℕ) :
    Balanced (l.record (.sent room segment n)) (pending.drop (min n segment.length)) dropped where
  current_eq := by
    obtain ⟨rest, rfl⟩ := hsegment
    change l.current.accepted = l.current.sent ++ segment.take n ++ _
    rw [h.current_eq, List.append_assoc, List.drop_append_of_le_length (Nat.min_le_right _ _),
      ← List.append_assoc (segment.take n)]
    rcases le_total n segment.length with hle | hge
    · rw [Nat.min_eq_left hle, List.take_append_drop]
    · rw [Nat.min_eq_right hge, List.take_of_length_le hge, List.drop_length, List.append_nil]
  past := h.past
  offered_eq := h.offered_eq
  offers_le o ho := by
    rcases List.mem_append.mp ho with hold | hnew
    · exact h.offers_le o hold
    · rw [List.mem_singleton.mp hnew]
      exact hroom
  down hup := by
    rw [h.down hup, List.drop_nil]

theorem Balanced.next (h : Balanced l pending dropped) (up : Bool) :
    Balanced (l.next up) [] dropped where
  current_eq := rfl
  past s hs := by
    rcases List.mem_append.mp hs with hold | hnew
    · exact h.past s hold
    · rw [List.mem_singleton.mp hnew]
      exact h.sent_prefix
  offered_eq := h.offered_eq
  offers_le := h.offers_le
  down _ := rfl

theorem Balanced.link_down (h : Balanced l pending dropped) :
    Balanced (l.record (.link false)) [] dropped := by
  rw [Ledger.record]
  split_ifs with hup
  · exact h.next false
  · exact h.down (Bool.eq_false_iff.mpr hup) ▸ h

/-- A session starts with nothing taken, so what is pending then is of no session. -/
theorem Balanced.link_up_iff (h : Balanced l pending dropped) :
    Balanced (l.record (.link true)) pending dropped ↔ pending = [] := by
  constructor
  · intro hnext
    have hcurrent : [] = [] ++ pending := hnext.current_eq
    exact hcurrent.symm
  · intro hpending
    subst hpending
    exact h.next true

end balanced

end Lib.Outbox
