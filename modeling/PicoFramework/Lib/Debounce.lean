import Mathlib.Order.Nat

/-! A writer that waits: something that changes is written once it has been quiet for a while, by a
loop that looks at it now and then. Changes are counted, and what is noticed and tried is logged. -/

namespace Lib.Debounce

/-- What the loop has done at a time: noticed a change, written, or failed to. -/
inductive Entry where
  | noticed (ms : ℕ)
  | written (ms : ℕ)
  | failed (ms : ℕ)
deriving DecidableEq

def Entry.ms : Entry → ℕ
  | .noticed ms => ms
  | .written ms => ms
  | .failed ms => ms

/-- A write, whether or not it worked. -/
def Entry.Tries : Entry → Prop
  | .noticed _ => False
  | _ => True

/-- The number of changes there have been, that the loop has seen, and that were written; since when
it has been quiet; when the loop last looked; and the log, the latest first. -/
structure Writer where
  changes : ℕ
  seen : ℕ
  saved : ℕ
  since : ℕ
  now : ℕ
  log : List Entry

namespace Writer

def change (w : Writer) : Writer := { w with changes := w.changes + 1 }

/-- A write at once, by somebody else than the loop. -/
def flush (ok : Bool) (w : Writer) : Writer := if ok then { w with saved := w.changes } else w

def notice (ms : ℕ) (w : Writer) : Writer :=
  if w.changes ≠ w.seen then
    { w with seen := w.changes, since := ms, now := ms, log := .noticed ms :: w.log }
  else { w with now := ms }

/-- The loop writes if there is something to write and it has been quiet for `quiet`. -/
def attempt (quiet ms : ℕ) (ok : Bool) (w : Writer) : Writer :=
  if w.changes ≠ w.saved ∧ w.since + quiet ≤ ms then
    if ok then { w with saved := w.changes, log := .written ms :: w.log }
    else { w with since := ms, log := .failed ms :: w.log }
  else w

def pass (quiet ms : ℕ) (ok : Bool) (w : Writer) : Writer := (w.notice ms).attempt quiet ms ok

/-- Nothing is tried within `quiet` of what was noticed or tried before. -/
def Spaced (quiet : ℕ) (log : List Entry) : Prop :=
  log.Pairwise fun later earlier => later.Tries → earlier.ms + quiet ≤ later.ms

/-- What is unwritten was noticed, or failed to be written, a short while ago. -/
def Recent (quiet : ℕ) (w : Writer) : Prop :=
  ∃ e ∈ w.log, (e = .noticed w.since ∨ e = .failed w.since) ∧ w.now < w.since + quiet

structure Inv (quiet : ℕ) (w : Writer) : Prop where
  seen_le : w.seen ≤ w.changes
  saved_le : w.saved ≤ w.changes
  since_le : w.since ≤ w.now
  log_le : ∀ e ∈ w.log, e.ms ≤ w.now
  -- past the last time that counts there is only a write, and all that was seen is written
  settled : (∀ e ∈ w.log, e.ms ≤ w.since) ∨ w.seen ≤ w.saved
  spaced : Spaced quiet w.log
  recent : w.changes ≠ w.saved → w.changes = w.seen → w.Recent quiet

/-- A state in which nothing is left to write. -/
def start (changes ms : ℕ) : Writer := ⟨changes, changes, changes, ms, ms, []⟩

variable {quiet ms : ℕ} {w : Writer}

theorem inv_start (quiet changes ms : ℕ) : (start changes ms).Inv quiet where
  seen_le := le_rfl
  saved_le := le_rfl
  since_le := le_rfl
  log_le := fun _ he => absurd he List.not_mem_nil
  settled := Or.inr le_rfl
  spaced := List.Pairwise.nil
  recent := fun hne => absurd rfl hne

theorem Inv.change (h : w.Inv quiet) : w.change.Inv quiet where
  seen_le := Nat.le_succ_of_le h.seen_le
  saved_le := Nat.le_succ_of_le h.saved_le
  since_le := h.since_le
  log_le := h.log_le
  settled := h.settled
  spaced := h.spaced
  recent := fun _ heq => absurd heq (Nat.lt_succ_of_le h.seen_le).ne'

theorem Inv.flush (h : w.Inv quiet) (ok : Bool) : (w.flush ok).Inv quiet := by
  cases ok with
  | false => exact h
  | true =>
    exact ⟨h.seen_le, le_rfl, h.since_le, h.log_le, Or.inr h.seen_le, h.spaced,
      fun hne => absurd rfl hne⟩

theorem Spaced.cons_noticed {log : List Entry} (h : Spaced quiet log) :
    Spaced quiet (.noticed ms :: log) :=
  List.pairwise_cons.mpr ⟨fun _ _ htries => htries.elim, h⟩

theorem Spaced.cons {log : List Entry} {e : Entry} (h : Spaced quiet log)
    (hlog : ∀ e' ∈ log, e'.ms + quiet ≤ e.ms) : Spaced quiet (e :: log) :=
  List.pairwise_cons.mpr ⟨fun e' he' _ => hlog e' he', h⟩

/-- After it has looked, the loop has seen all changes; what is unwritten it may have just seen. -/
theorem Inv.notice (h : w.Inv quiet) (hms : w.now ≤ ms) :
    (w.notice ms).seen = (w.notice ms).changes ∧ (w.notice ms).now = ms ∧
      (w.notice ms).since ≤ ms ∧ (w.notice ms).saved ≤ (w.notice ms).changes ∧
      (∀ e ∈ (w.notice ms).log, e.ms ≤ ms) ∧ Spaced quiet (w.notice ms).log ∧
      ((w.notice ms).changes ≠ (w.notice ms).saved →
        (∀ e ∈ (w.notice ms).log, e.ms ≤ (w.notice ms).since) ∧
          ∃ e ∈ (w.notice ms).log,
            e = .noticed (w.notice ms).since ∨ e = .failed (w.notice ms).since) := by
  unfold Writer.notice
  by_cases hseen : w.changes ≠ w.seen
  · rw [if_pos hseen]
    have hall : ∀ e ∈ Entry.noticed ms :: w.log, e.ms ≤ ms := by
      intro e he
      obtain rfl | he := List.mem_cons.mp he
      · exact le_rfl
      · exact (h.log_le e he).trans hms
    exact ⟨rfl, rfl, le_rfl, h.saved_le, hall, h.spaced.cons_noticed,
      fun _ => ⟨hall, .noticed ms, List.mem_cons_self, Or.inl rfl⟩⟩
  · rw [if_neg hseen]
    rw [not_not] at hseen
    refine ⟨hseen.symm, rfl, h.since_le.trans hms, h.saved_le,
      fun e he => (h.log_le e he).trans hms, h.spaced, fun hdirty => ⟨?_, ?_⟩⟩
    · refine h.settled.resolve_right fun hle => hdirty (le_antisymm ?_ h.saved_le)
      exact hseen.le.trans hle
    · obtain ⟨e, he, hwhich, -⟩ := h.recent hdirty hseen
      exact ⟨e, he, hwhich⟩

/-- A pass keeps the invariant, and leaves nothing unwritten but what is recent. -/
theorem Inv.pass (h : w.Inv quiet) (hquiet : 0 < quiet) (hms : w.now ≤ ms) (ok : Bool) :
    (w.pass quiet ms ok).Inv quiet ∧ (w.pass quiet ms ok).now = ms ∧
      (w.pass quiet ms ok).seen = (w.pass quiet ms ok).changes := by
  obtain ⟨hseen, hnow, hsince, hsaved, hall, hspaced, hdirty⟩ := h.notice hms
  unfold Writer.pass
  generalize w.notice ms = v at hseen hnow hsince hsaved hall hspaced hdirty
  unfold Writer.attempt
  by_cases htry : v.changes ≠ v.saved ∧ v.since + quiet ≤ ms
  · rw [if_pos htry]
    have hfar : ∀ e ∈ v.log, e.ms + quiet ≤ ms := by
      intro e he
      exact (Nat.add_le_add_right ((hdirty htry.1).1 e he) quiet).trans htry.2
    cases ok with
    | true =>
      refine ⟨⟨hseen.le, le_rfl, hsince.trans hnow.ge, ?_, Or.inr hseen.le, hspaced.cons hfar,
        fun hne => absurd rfl hne⟩, hnow, hseen⟩
      intro e he
      obtain rfl | he := List.mem_cons.mp he
      · exact hnow.ge
      · exact (hall e he).trans hnow.ge
    | false =>
      have hle : ∀ e ∈ Entry.failed ms :: v.log, e.ms ≤ ms := by
        intro e he
        obtain rfl | he := List.mem_cons.mp he
        · exact le_rfl
        · exact hall e he
      refine ⟨⟨hseen.le, hsaved, hnow.ge, fun e he => (hle e he).trans hnow.ge, Or.inl hle,
        hspaced.cons hfar, fun _ _ => ⟨.failed ms, List.mem_cons_self, Or.inr rfl, ?_⟩⟩, hnow,
        hseen⟩
      exact hnow.le.trans_lt (Nat.lt_add_of_pos_right hquiet)
  · rw [if_neg htry]
    refine ⟨⟨hseen.le, hsaved, hsince.trans hnow.ge, fun e he => (hall e he).trans hnow.ge, ?_,
      hspaced, ?_⟩, hnow, hseen⟩
    · by_cases hclean : v.changes = v.saved
      · exact Or.inr (hseen.le.trans hclean.le)
      · exact Or.inl (hdirty hclean).1
    · intro hne _
      obtain ⟨e, he, hwhich⟩ := (hdirty hne).2
      refine ⟨e, he, hwhich, ?_⟩
      rw [not_and, not_le] at htry
      exact hnow.le.trans_lt (htry hne)

end Writer

end Lib.Debounce
