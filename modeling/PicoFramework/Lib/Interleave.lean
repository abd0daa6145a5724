import Mathlib.Tactic

/-! Two parties over one memory. A program is a tree of atomic steps, and what it has
achieved is recorded as it makes the last one. The rules are those of rely and guarantee: a
party proves of each of its steps what the other relies on. -/

namespace Lib.Interleave

universe u v w

/-- A program of atomic steps, each of which reads and changes the memory at once. -/
inductive Prog (σ : Type u) (α : Type v) where
  | ret (a : α)
  | step (update : σ → σ) (next : σ → Prog σ α)

namespace Prog

variable {σ : Type u} {α β : Type v}

def bind : Prog σ α → (α → Prog σ β) → Prog σ β
  | .ret a, f => f a
  | .step update next, f => .step update fun s => (next s).bind f

instance : Monad (Prog σ) where
  pure := .ret
  bind := bind

/-- One load from the memory. -/
def load (f : σ → α) : Prog σ α := .step id fun s => .ret (f s)

/-- One store to the memory. -/
def store (f : σ → σ) : Prog σ PUnit := .step f fun _ => .ret ⟨⟩

/-- What a program does when nobody interferes. -/
def run : Prog σ α → σ → α × σ
  | .ret a, s => (a, s)
  | .step update next, s => (next s).run (update s)

@[simp] theorem run_pure (a : α) (s : σ) : (pure a : Prog σ α).run s = (a, s) := rfl

@[simp] theorem run_load (f : σ → α) (s : σ) : (load f).run s = (f s, s) := rfl

@[simp] theorem run_store (f : σ → σ) (s : σ) : (store f : Prog σ PUnit).run s = (⟨⟩, f s) := rfl

@[simp] theorem run_bind (p : Prog σ α) (f : α → Prog σ β) (s : σ) :
    (p >>= f).run s = (f (p.run s).1).run (p.run s).2 := by
  change (p.bind f).run s = _
  induction p generalizing s with
  | ret a => rfl
  | step update next ih => exact ih s (update s)

/-- A program on one part of a larger memory. -/
def focus {τ : Type u} (get : τ → σ) (set : σ → τ → τ) : Prog σ α → Prog τ α
  | .ret a => .ret a
  | .step update next =>
      .step (fun t => set (update (get t)) t) fun t => (next (get t)).focus get set

theorem run_focus {τ : Type u} {get : τ → σ} {set : σ → τ → τ}
    (hget : ∀ s t, get (set s t) = s) (hset : ∀ t, set (get t) t = t)
    (hover : ∀ s s' t, set s (set s' t) = set s t) (p : Prog σ α) (t : τ) :
    (p.focus get set).run t = ((p.run (get t)).1, set (p.run (get t)).2 t) := by
  induction p generalizing t with
  | ret a => exact congrArg (Prod.mk a) (hset t).symm
  | step update next ih =>
    change ((next (get t)).focus get set).run (set (update (get t)) t) = _
    rw [ih, hget, hover]
    rfl

/-- A program that only looks. -/
def Looks : Prog σ α → Prop
  | .ret _ => True
  | .step update next => (∀ s, update s = s) ∧ ∀ s, (next s).Looks

theorem Looks.pure (a : α) : (Pure.pure a : Prog σ α).Looks := trivial

theorem Looks.load (f : σ → α) : (Prog.load f).Looks := ⟨fun _ => rfl, fun _ => trivial⟩

theorem Looks.bind {p : Prog σ α} {f : α → Prog σ β} (hp : p.Looks) (hf : ∀ a, (f a).Looks) :
    (p >>= f).Looks := by
  induction p with
  | ret a => exact hf a
  | step update next ih => exact ⟨hp.1, fun s => ih s (hp.2 s)⟩

theorem Looks.run_eq {p : Prog σ α} (h : p.Looks) (s : σ) : (p.run s).2 = s := by
  induction p generalizing s with
  | ret a => rfl
  | step update next ih => exact (ih s (h.2 s) (update s)).trans (h.1 s)

end Prog

section rules

variable {σ : Type u} {α β : Type v} {ω : Type w}

/-- Whatever the other party does, as far as `rely` goes, every step of the program satisfies
`guar`, and at its end `post` holds of its result and its last step. The step that led up to
the program is still to be answered for: it went from `s` to `t`. -/
def wp (rely guar : σ × ω → σ × ω → Prop) :
    Prog σ α → (α → σ × ω → σ × ω → Prop) → σ × ω → σ × ω → Prop
  | .ret a, post, s, t => post a s t
  | .step update next, post, s, t =>
      guar s t ∧ ∀ t', rely t t' → wp rely guar (next t'.1) post t' (update t'.1, t'.2)

variable {rely guar : σ × ω → σ × ω → Prop} {s t : σ × ω}

@[simp] theorem wp_pure {a : α} {post : α → σ × ω → σ × ω → Prop} :
    wp rely guar (pure a : Prog σ α) post s t ↔ post a s t := Iff.rfl

@[simp] theorem wp_load {f : σ → α} {post : α → σ × ω → σ × ω → Prop} :
    wp rely guar (.load f) post s t ↔
      guar s t ∧ ∀ t', rely t t' → post (f t'.1) t' t' := Iff.rfl

@[simp] theorem wp_store {f : σ → σ} {post : PUnit → σ × ω → σ × ω → Prop} :
    wp rely guar (.store f) post s t ↔
      guar s t ∧ ∀ t', rely t t' → post ⟨⟩ t' (f t'.1, t'.2) := Iff.rfl

@[simp] theorem wp_bind {p : Prog σ α} {f : α → Prog σ β} {post : β → σ × ω → σ × ω → Prop} :
    wp rely guar (p >>= f) post s t ↔
      wp rely guar p (fun a => wp rely guar (f a) post) s t := by
  change wp rely guar (p.bind f) post s t ↔ _
  induction p generalizing s t with
  | ret a => rfl
  | step update next ih =>
    constructor
    · exact fun h => ⟨h.1, fun t' ht' => (ih _).mp (h.2 t' ht')⟩
    · exact fun h => ⟨h.1, fun t' ht' => (ih _).mpr (h.2 t' ht')⟩

theorem wp_mono {p : Prog σ α} {post post' : α → σ × ω → σ × ω → Prop}
    (h : wp rely guar p post s t) (himp : ∀ a s t, post a s t → post' a s t) :
    wp rely guar p post' s t := by
  induction p generalizing s t with
  | ret a => exact himp a s t h
  | step update next ih => exact ⟨h.1, fun t' ht' => ih _ (h.2 t' ht')⟩

/-- What holds of the record alone holds throughout, since only the end of a program changes
the record. -/
theorem wp_frame {p : Prog σ α} {post : α → σ × ω → σ × ω → Prop} {frame : ω → Prop}
    (h : wp rely guar p post s t) (ht : frame t.2) :
    wp (fun s t => rely s t ∧ frame t.2) (fun s t => guar s t ∧ frame t.2) p
      (fun a s t => post a s t ∧ frame t.2) s t := by
  induction p generalizing s t with
  | ret a => exact ⟨h, ht⟩
  | step update next ih =>
    exact ⟨⟨h.1, ht⟩, fun t' ht' => ih _ (h.2 t' ht'.1) ht'.2⟩

/-- A program on one part of the memory keeps to what is promised of that part, and what holds
of the rest of the memory and the record holds throughout. -/
theorem wp_focus {τ : Type u} {δ : Type*} {get : τ → σ} {set : σ → τ → τ} {rest : τ → δ}
    (hget : ∀ s t, get (set s t) = s) (hrest : ∀ s t, rest (set s t) = rest t)
    {p : Prog σ α} {post : α → σ × ω → σ × ω → Prop} {frame : δ → ω → Prop} {u v : τ × ω}
    (h : wp rely guar p post (get u.1, u.2) (get v.1, v.2)) (hv : frame (rest v.1) v.2) :
    wp (fun u v => rely (get u.1, u.2) (get v.1, v.2) ∧ frame (rest v.1) v.2)
      (fun u v => guar (get u.1, u.2) (get v.1, v.2) ∧ frame (rest v.1) v.2) (p.focus get set)
      (fun a u v => post a (get u.1, u.2) (get v.1, v.2) ∧ frame (rest v.1) v.2) u v := by
  induction p generalizing u v with
  | ret a => exact ⟨h, hv⟩
  | step update next ih =>
    refine ⟨⟨h.1, hv⟩, fun v' hv' => ih (get v'.1) ?_ ?_⟩
    · have hnext := h.2 _ hv'.1
      rw [← hget (update (get v'.1)) v'.1] at hnext
      exact hnext
    · rw [hrest]
      exact hv'.2

/-- The same with more in the record than the program's rules speak of. -/
theorem wp_view {ψ : Type*} {view : ψ → ω} {p : Prog σ α} {post : α → σ × ω → σ × ω → Prop}
    {u v : σ × ψ} (h : wp rely guar p post (u.1, view u.2) (v.1, view v.2)) :
    wp (fun u v => rely (u.1, view u.2) (v.1, view v.2))
      (fun u v => guar (u.1, view u.2) (v.1, view v.2)) p
      (fun a u v => post a (u.1, view u.2) (v.1, view v.2)) u v := by
  induction p generalizing u v with
  | ret a => exact h
  | step update next ih => exact ⟨h.1, fun v' hv' => ih _ (h.2 _ hv')⟩

theorem wp_keep {p : Prog σ α} {post : α → σ × ω → σ × ω → Prop} {kept : σ × ω → Prop}
    (hkeep : ∀ s t, guar s t → kept s → kept t) (h : wp rely guar p post s t) (hs : kept s) :
    wp (fun s t => rely s t ∧ kept t) (fun s t => guar s t ∧ kept t) p
      (fun a s t => post a s t ∧ kept s) s t := by
  induction p generalizing s t with
  | ret a => exact ⟨h, hs⟩
  | step update next ih =>
    exact ⟨⟨h.1, hkeep s t h.1 hs⟩, fun t' ht' => ih _ (h.2 t' ht'.1) ht'.2⟩

theorem wp_run {p : Prog σ α} {post : α → σ × ω → σ × ω → Prop}
    (hrefl : ∀ s t, guar s t → rely t t) (h : wp rely guar p post s t) :
    ∃ s', post (p.run t.1).1 s' ((p.run t.1).2, t.2) := by
  induction p generalizing s t with
  | ret a => exact ⟨s, h⟩
  | step update next ih => exact ih t.1 (h.2 t (hrefl s t h.1))

end rules

section systems

variable {σ : Type u} {ω : Type w} {ι κ α β : Type v}

/-- What a party may do, and how the record changes when an operation ends. -/
structure Party (σ : Type u) (ω : Type w) (ι α : Type v) where
  program : ι → Prog σ α
  commit : ι → α → ω → ω

/-- The memory, the record, and the operation each party is in the middle of. -/
structure System (σ : Type u) (ω : Type w) (ι α κ β : Type v) where
  memory : σ
  record : ω
  left : Option (ι × Prog σ α)
  right : Option (κ × Prog σ β)

inductive Move (ι κ : Type v) where
  | startLeft (op : ι)
  | stepLeft
  | startRight (op : κ)
  | stepRight

/-- An operation that has made its last step is over. -/
def Party.settle (party : Party σ ω ι α) (op : ι) (p : Prog σ α) (record : ω) :
    Option (ι × Prog σ α) × ω :=
  match p with
  | .ret a => (none, party.commit op a record)
  | .step update next => (some (op, .step update next), record)

variable (leftParty : Party σ ω ι α) (rightParty : Party σ ω κ β)

/-- One move; a party that is busy starts nothing, and one that is idle makes no step. -/
def System.move (w : System σ ω ι α κ β) : Move ι κ → System σ ω ι α κ β
  | .startLeft op =>
      match w.left with
      | some _ => w
      | none =>
          let (left, record) := leftParty.settle op (leftParty.program op) w.record
          { w with left := left, record := record }
  | .stepLeft =>
      match w.left with
      | some (op, .step update next) =>
          let (left, record) := leftParty.settle op (next w.memory) w.record
          { w with memory := update w.memory, left := left, record := record }
      | _ => w
  | .startRight op =>
      match w.right with
      | some _ => w
      | none =>
          let (right, record) := rightParty.settle op (rightParty.program op) w.record
          { w with right := right, record := record }
  | .stepRight =>
      match w.right with
      | some (op, .step update next) =>
          let (right, record) := rightParty.settle op (next w.memory) w.record
          { w with memory := update w.memory, right := right, record := record }
      | _ => w

/-- Any interleaving is a list of moves. -/
def System.moves (w : System σ ω ι α κ β) (schedule : List (Move ι κ)) : System σ ω ι α κ β :=
  schedule.foldl (System.move leftParty rightParty) w

/-- Where a party is in its operation, as far as the rules go. -/
def Ready (rely guar : σ × ω → σ × ω → Prop) (party : Party σ ω ι α) (s : σ × ω) :
    Option (ι × Prog σ α) → Prop
  | none => True
  | some (_, .ret _) => False
  | some (op, .step update next) => ∀ t, rely s t →
      wp rely guar (next t.1) (fun a s t => guar s (t.1, party.commit op a t.2)) t
        (update t.1, t.2)

variable {rely guar : σ × ω → σ × ω → Prop} {party : Party σ ω ι α}

theorem settle_ready {op : ι} {p : Prog σ α} {s : σ × ω} {memory : σ} {record : ω}
    (h : wp rely guar p (fun a s t => guar s (t.1, party.commit op a t.2)) s (memory, record)) :
    guar s (memory, (party.settle op p record).2) ∧
      Ready rely guar party (memory, (party.settle op p record).2) (party.settle op p record).1 := by
  cases p with
  | ret a => exact ⟨h, trivial⟩
  | step update next => exact h

theorem Ready.mono {s t : σ × ω} {running : Option (ι × Prog σ α)}
    (h : Ready rely guar party s running) (htrans : ∀ u, rely t u → rely s u) :
    Ready rely guar party t running := by
  match running with
  | none => trivial
  | some (_, .ret _) => exact h
  | some (op, .step update next) => exact fun u hu => h u (htrans u hu)

/-- What each party relies on the other keeps, and is kept by whatever happens. -/
structure Compatible (inv : σ × ω → Prop) (relyLeft relyRight : σ × ω → σ × ω → Prop) : Prop where
  inv_left : ∀ s t, relyLeft s t → inv t
  inv_right : ∀ s t, relyRight s t → inv t
  refl_left : ∀ s, inv s → relyLeft s s
  refl_right : ∀ s, inv s → relyRight s s
  trans_left : ∀ s t u, relyLeft s t → relyLeft t u → relyLeft s u
  trans_right : ∀ s t u, relyRight s t → relyRight t u → relyRight s u

/-- What holds throughout may be added to all that is relied on. -/
theorem Compatible.frame {inv : σ × ω → Prop} {relyLeft relyRight : σ × ω → σ × ω → Prop}
    (hc : Compatible inv relyLeft relyRight) (frame : σ × ω → Prop) :
    Compatible (fun s => inv s ∧ frame s) (fun s t => relyLeft s t ∧ frame t)
      (fun s t => relyRight s t ∧ frame t) where
  inv_left s t h := ⟨hc.inv_left s t h.1, h.2⟩
  inv_right s t h := ⟨hc.inv_right s t h.1, h.2⟩
  refl_left s h := ⟨hc.refl_left s h.1, h.2⟩
  refl_right s h := ⟨hc.refl_right s h.1, h.2⟩
  trans_left s t u h h' := ⟨hc.trans_left s t u h.1 h'.1, h'.2⟩
  trans_right s t u h h' := ⟨hc.trans_right s t u h.1 h'.1, h'.2⟩

/-- The same of one part of a larger memory. -/
theorem Compatible.focus {τ : Type*} {inv : σ × ω → Prop}
    {relyLeft relyRight : σ × ω → σ × ω → Prop} (hc : Compatible inv relyLeft relyRight)
    (part : τ × ω → σ × ω) :
    Compatible (fun s => inv (part s)) (fun s t => relyLeft (part s) (part t))
      (fun s t => relyRight (part s) (part t)) where
  inv_left s t := hc.inv_left (part s) (part t)
  inv_right s t := hc.inv_right (part s) (part t)
  refl_left s := hc.refl_left (part s)
  refl_right s := hc.refl_right (part s)
  trans_left s t u := hc.trans_left (part s) (part t) (part u)
  trans_right s t u := hc.trans_right (part s) (part t) (part u)

theorem Compatible.view {ψ : Type*} {inv : σ × ω → Prop}
    {relyLeft relyRight : σ × ω → σ × ω → Prop} (hc : Compatible inv relyLeft relyRight)
    (view : ψ → ω) :
    Compatible (fun s : σ × ψ => inv (s.1, view s.2))
      (fun s t => relyLeft (s.1, view s.2) (t.1, view t.2))
      (fun s t => relyRight (s.1, view s.2) (t.1, view t.2)) where
  inv_left s t := hc.inv_left (s.1, view s.2) (t.1, view t.2)
  inv_right s t := hc.inv_right (s.1, view s.2) (t.1, view t.2)
  refl_left s := hc.refl_left (s.1, view s.2)
  refl_right s := hc.refl_right (s.1, view s.2)
  trans_left s t u := hc.trans_left (s.1, view s.2) (t.1, view t.2) (u.1, view u.2)
  trans_right s t u := hc.trans_right (s.1, view s.2) (t.1, view t.2) (u.1, view u.2)

variable {leftParty : Party σ ω ι α} {rightParty : Party σ ω κ β} {inv : σ × ω → Prop}
  {relyLeft relyRight : σ × ω → σ × ω → Prop}

/-- An operation is right if it can start wherever the invariant holds. -/
def Upheld (inv : σ × ω → Prop) (rely guar : σ × ω → σ × ω → Prop) (party : Party σ ω ι α) : Prop :=
  ∀ op s, inv s →
    wp rely guar (party.program op) (fun a s t => guar s (t.1, party.commit op a t.2)) s s

theorem Upheld.keep (h : Upheld inv rely guar party) {kept : σ × ω → Prop}
    (hkeep : ∀ s t, guar s t → kept s → kept t) :
    Upheld (fun s => inv s ∧ kept s) (fun s t => rely s t ∧ kept t) (fun s t => guar s t ∧ kept t)
      party := by
  intro op s hs
  refine wp_mono (wp_keep hkeep (h op s hs.1) hs.2) fun a s' t' hend => ?_
  exact ⟨hend.1, hkeep _ _ hend.1 hend.2⟩

/-- The invariant holds, and both parties are where the rules have them. -/
structure Consistent (leftParty : Party σ ω ι α) (rightParty : Party σ ω κ β)
    (inv : σ × ω → Prop) (relyLeft relyRight : σ × ω → σ × ω → Prop)
    (w : System σ ω ι α κ β) : Prop where
  holds : inv (w.memory, w.record)
  left : Ready relyLeft relyRight leftParty (w.memory, w.record) w.left
  right : Ready relyRight relyLeft rightParty (w.memory, w.record) w.right

theorem Consistent.move {w : System σ ω ι α κ β} (hc : Compatible inv relyLeft relyRight)
    (hleft : Upheld inv relyLeft relyRight leftParty)
    (hright : Upheld inv relyRight relyLeft rightParty)
    (h : Consistent leftParty rightParty inv relyLeft relyRight w) (m : Move ι κ) :
    Consistent leftParty rightParty inv relyLeft relyRight (w.move leftParty rightParty m) := by
  obtain ⟨memory, record, left, right⟩ := w
  obtain ⟨hholds, hl, hr⟩ := h
  cases m with
  | startLeft op =>
    cases left with
    | some running => exact ⟨hholds, hl, hr⟩
    | none =>
      obtain ⟨hguar, hready⟩ := settle_ready (hleft op _ hholds)
      exact ⟨hc.inv_right _ _ hguar, hready, hr.mono fun u => hc.trans_right _ _ u hguar⟩
  | stepLeft =>
    match left with
    | none => exact ⟨hholds, hl, hr⟩
    | some (op, .ret a) => exact hl.elim
    | some (op, .step update next) =>
      obtain ⟨hguar, hready⟩ := settle_ready (hl _ (hc.refl_left _ hholds))
      exact ⟨hc.inv_right _ _ hguar, hready, hr.mono fun u => hc.trans_right _ _ u hguar⟩
  | startRight op =>
    cases right with
    | some running => exact ⟨hholds, hl, hr⟩
    | none =>
      obtain ⟨hguar, hready⟩ := settle_ready (hright op _ hholds)
      exact ⟨hc.inv_left _ _ hguar, hl.mono fun u => hc.trans_left _ _ u hguar, hready⟩
  | stepRight =>
    match right with
    | none => exact ⟨hholds, hl, hr⟩
    | some (op, .ret a) => exact hr.elim
    | some (op, .step update next) =>
      obtain ⟨hguar, hready⟩ := settle_ready (hr _ (hc.refl_right _ hholds))
      exact ⟨hc.inv_left _ _ hguar, hl.mono fun u => hc.trans_left _ _ u hguar, hready⟩

/-- The invariant holds throughout every interleaving. -/
theorem Consistent.moves {w : System σ ω ι α κ β} (hc : Compatible inv relyLeft relyRight)
    (hleft : Upheld inv relyLeft relyRight leftParty)
    (hright : Upheld inv relyRight relyLeft rightParty)
    (h : Consistent leftParty rightParty inv relyLeft relyRight w) (schedule : List (Move ι κ)) :
    Consistent leftParty rightParty inv relyLeft relyRight
      (w.moves leftParty rightParty schedule) := by
  induction schedule generalizing w with
  | nil => exact h
  | cons m schedule ih => exact ih (h.move hc hleft hright m)

/-- A system in which both parties are idle. -/
def System.idle (memory : σ) (record : ω) : System σ ω ι α κ β := ⟨memory, record, none, none⟩

theorem Consistent.idle {memory : σ} {record : ω} (h : inv (memory, record)) :
    Consistent leftParty rightParty inv relyLeft relyRight (System.idle memory record) :=
  ⟨h, trivial, trivial⟩

end systems

end Lib.Interleave
