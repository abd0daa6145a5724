import PicoFramework.Lib.Interleave
import PicoFramework.Lib.Run

/-! One party and a device that changes the memory by itself, between any two of the party's steps.
The rules are those of rely and guarantee; beside them the party's operations may leave something
behind that holds when none is running. -/

namespace Lib.Device

open Lib.Interleave Lib.Run

universe u v w

section programs

variable {σ : Type u} {α β : Type v} {ω : Type w} {R : σ → σ → Prop}

/-- Every step of the program is one of `R`, and its result is one of `post`. -/
def Makes (R : σ → σ → Prop) (post : α → Prop) : Prog σ α → Prop
  | .ret a => post a
  | .step update next => (∀ s, R s (update s)) ∧ ∀ s, Makes R post (next s)

theorem Makes.pure {post : α → Prop} {a : α} (h : post a) : Makes R post (Pure.pure a : Prog σ α) :=
  h

theorem Makes.bind {post : α → Prop} {post' : β → Prop} {p : Prog σ α} {f : α → Prog σ β}
    (hp : Makes R post p) (hf : ∀ a, post a → Makes R post' (f a)) : Makes R post' (p >>= f) := by
  induction p with
  | ret a => exact hf a hp
  | step update next ih => exact ⟨hp.1, fun s => ih s (hp.2 s)⟩

theorem Makes.mono {R' : σ → σ → Prop} {post : α → Prop} {p : Prog σ α} (h : Makes R post p)
    (himp : ∀ s t, R s t → R' s t) : Makes R' post p := by
  induction p with
  | ret a => exact h
  | step update next ih => exact ⟨fun s => himp s _ (h.1 s), fun s => ih s (h.2 s)⟩

theorem Makes.run {post : α → Prop} {p : Prog σ α} (h : Makes R post p) (hrefl : ∀ s, R s s)
    (htrans : ∀ s t u, R s t → R t u → R s u) (s : σ) :
    post (p.run s).1 ∧ R s (p.run s).2 := by
  induction p generalizing s with
  | ret a => exact ⟨h, hrefl s⟩
  | step update next ih =>
    obtain ⟨hpost, hrest⟩ := ih s (h.2 s) (update s)
    exact ⟨hpost, htrans _ _ _ (h.1 s) hrest⟩

/-- What every step keeps, and whatever is relied on keeps, holds throughout. -/
theorem Makes.wp {rely guar : σ × ω → σ × ω → Prop} {kept : σ × ω → Prop} {post : α → Prop}
    {p : Prog σ α} (h : Makes R post p)
    (hstep : ∀ s s', kept s → R s.1 s' → guar s (s', s.2) ∧ kept (s', s.2))
    (hrely : ∀ s t, kept s → rely s t → kept t) {s t : σ × ω} (hguar : guar s t) (ht : kept t) :
    wp rely guar p (fun a s t => post a ∧ guar s t ∧ kept t) s t := by
  induction p generalizing s t with
  | ret a => exact ⟨h, hguar, ht⟩
  | step update next ih =>
    refine ⟨hguar, fun t' ht' => ?_⟩
    obtain ⟨hmade, hkept⟩ := hstep t' (update t'.1) (hrely _ _ ht ht') (h.1 t'.1)
    exact ih t'.1 (h.2 t'.1) hmade hkept

end programs

section hosts

variable {σ : Type u} {ω : Type w} {ι α : Type v} {ε : Type*}

/-- The memory, the record, and the operation that the party is in the middle of. -/
structure Host (σ : Type u) (ω : Type w) (ι α : Type v) where
  memory : σ
  record : ω
  running : Option (ι × Prog σ α)

inductive Turn (ι : Type v) (ε : Type*) where
  | start (op : ι)
  | step
  | event (e : ε)

variable (party : Party σ ω ι α) (react : σ → ε → σ)

namespace Host

/-- One turn; a party that is busy starts nothing, and one that is idle makes no step. -/
def turn (w : Host σ ω ι α) : Turn ι ε → Host σ ω ι α
  | .start op =>
      match w.running with
      | some _ => w
      | none =>
          let (running, record) := party.settle op (party.program op) w.record
          { w with running := running, record := record }
  | .step =>
      match w.running with
      | some (op, .step update next) =>
          let (running, record) := party.settle op (next w.memory) w.record
          { memory := update w.memory, record := record, running := running }
      | _ => w
  | .event e => { w with memory := react w.memory e }

def turns (w : Host σ ω ι α) (schedule : List (Turn ι ε)) : Host σ ω ι α :=
  schedule.foldl (turn party react) w

def idle (memory : σ) (record : ω) : Host σ ω ι α := ⟨memory, record, none⟩

end Host

/-- Where the party is in its operation, as far as the rules go. -/
def Poised (rely guar : σ × ω → σ × ω → Prop) (rest : σ × ω → Prop) (s : σ × ω) :
    Option (ι × Prog σ α) → Prop
  | none => rest s
  | some (_, .ret _) => False
  | some (op, .step update next) => ∀ t, rely s t →
      wp rely guar (next t.1)
        (fun a s t => guar s (t.1, party.commit op a t.2) ∧ rest (t.1, party.commit op a t.2)) t
        (update t.1, t.2)

/-- What an operation has to do from rest. -/
def Fulfilled (rely guar : σ × ω → σ × ω → Prop) (rest : σ × ω → Prop) : Prop :=
  ∀ op s, rest s → wp rely guar (party.program op)
    (fun a s t => guar s (t.1, party.commit op a t.2) ∧ rest (t.1, party.commit op a t.2)) s s

/-- The invariant, and what is relied on, promised and left at rest, go together. -/
structure Attuned (inv rest : σ × ω → Prop) (rely guar : σ × ω → σ × ω → Prop) : Prop where
  inv_rely : ∀ s t, rely s t → inv t
  inv_guar : ∀ s t, guar s t → inv t
  refl : ∀ s, inv s → rely s s
  trans : ∀ s t u, rely s t → rely t u → rely s u
  rest_rely : ∀ s t, rest s → rely s t → rest t
  event : ∀ s e, inv s → rely s (react s.1 e, s.2)

variable {party react} {inv rest : σ × ω → Prop} {rely guar : σ × ω → σ × ω → Prop}

/-- The invariant holds, and the party is where the rules have it. -/
structure Attended (party : Party σ ω ι α) (inv rest : σ × ω → Prop)
    (rely guar : σ × ω → σ × ω → Prop) (w : Host σ ω ι α) : Prop where
  holds : inv (w.memory, w.record)
  poised : Poised party rely guar rest (w.memory, w.record) w.running

theorem settle_poised {op : ι} {p : Prog σ α} {s : σ × ω} {memory : σ} {record : ω}
    (h : wp rely guar p
      (fun a s t => guar s (t.1, party.commit op a t.2) ∧ rest (t.1, party.commit op a t.2)) s
      (memory, record)) :
    guar s (memory, (party.settle op p record).2) ∧
      Poised party rely guar rest (memory, (party.settle op p record).2)
        (party.settle op p record).1 := by
  cases p with
  | ret a => exact h
  | step update next => exact h

/-- What one turn does: the party makes a promised step, or nothing that counts for it happens. -/
theorem Attended.turn {w : Host σ ω ι α} (hc : Attuned react inv rest rely guar)
    (hparty : Fulfilled party rely guar rest) (h : Attended party inv rest rely guar w)
    (turn : Turn ι ε) : Attended party inv rest rely guar (w.turn party react turn) := by
  obtain ⟨memory, record, running⟩ := w
  obtain ⟨hholds, hpoised⟩ := h
  cases turn with
  | start op =>
    cases running with
    | some _ => exact ⟨hholds, hpoised⟩
    | none =>
      obtain ⟨hguar, hnext⟩ := settle_poised (hparty op _ hpoised)
      exact ⟨hc.inv_guar _ _ hguar, hnext⟩
  | step =>
    match running with
    | none => exact ⟨hholds, hpoised⟩
    | some (op, .ret a) => exact hpoised.elim
    | some (op, .step update next) =>
      obtain ⟨hguar, hnext⟩ := settle_poised (hpoised _ (hc.refl _ hholds))
      exact ⟨hc.inv_guar _ _ hguar, hnext⟩
  | event e =>
    have hrely := hc.event (memory, record) e hholds
    refine ⟨hc.inv_rely _ _ hrely, ?_⟩
    match running with
    | none => exact hc.rest_rely _ _ hpoised hrely
    | some (op, .ret a) => exact hpoised
    | some (op, .step update next) => exact fun t ht => hpoised t (hc.trans _ _ _ hrely ht)

theorem Attended.step_guar {w : Host σ ω ι α} (hc : Attuned react inv rest rely guar)
    (h : Attended party inv rest rely guar w) (hbusy : w.running.isSome) :
    guar (w.memory, w.record)
      ((w.turn party react .step).memory, (w.turn party react .step).record) := by
  obtain ⟨memory, record, running⟩ := w
  obtain ⟨hholds, hpoised⟩ := h
  match running with
  | none => exact absurd hbusy (by simp)
  | some (op, .ret a) => exact hpoised.elim
  | some (op, .step update next) =>
    exact (settle_poised (hpoised _ (hc.refl _ hholds))).1

theorem Attended.turns {w : Host σ ω ι α} (hc : Attuned react inv rest rely guar)
    (hparty : Fulfilled party rely guar rest) (h : Attended party inv rest rely guar w)
    (schedule : List (Turn ι ε)) :
    Attended party inv rest rely guar (w.turns party react schedule) :=
  foldl_invariant (fun _ turn hw => hw.turn hc hparty turn) schedule h

section calls

variable (party react)

theorem turns_step (op : ι) (p : Prog σ α) (memory : σ) (record : ω) :
    ∃ n, (⟨memory, (party.settle op p record).2, (party.settle op p record).1⟩ :
        Host σ ω ι α).turns party react (List.replicate n .step) =
      .idle (p.run memory).2 (party.commit op (p.run memory).1 record) := by
  induction p generalizing memory with
  | ret a => exact ⟨0, rfl⟩
  | step update next ih =>
    obtain ⟨n, hn⟩ := ih memory (update memory)
    exact ⟨n + 1, hn⟩

/-- A call that nothing interrupts. -/
theorem turns_call (op : ι) (memory : σ) (record : ω) :
    ∃ n, (Host.idle memory record : Host σ ω ι α).turns party react
        (.start op :: List.replicate n .step) =
      .idle ((party.program op).run memory).2
        (party.commit op ((party.program op).run memory).1 record) :=
  turns_step party react op (party.program op) memory record

end calls

end hosts

end Lib.Device
