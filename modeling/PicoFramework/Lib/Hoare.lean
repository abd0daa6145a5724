import Mathlib.Tactic

/-! What a stateful computation ensures: from every state of the precondition, a result and a state
of the postcondition. The rules follow the computation. -/

namespace Lib.Hoare

universe u

variable {σ α β : Type u} {pre pre' : σ → Prop} {post post' : α → σ → Prop} {s : σ}

def Ensures (pre : σ → Prop) (p : StateM σ α) (post : α → σ → Prop) : Prop :=
  ∀ s, pre s → post (p.run s).1 (p.run s).2

namespace Ensures

variable {p : StateM σ α} {f : α → StateM σ β} {out : β → σ → Prop}

theorem pure {a : α} (h : ∀ s, pre s → post a s) : Ensures pre (Pure.pure a) post := h

theorem bind (hp : Ensures pre p post) (hf : ∀ a, Ensures (post a) (f a) out) :
    Ensures pre (p >>= f) out :=
  fun s hs => hf _ _ (hp s hs)

theorem mono (h : Ensures pre p post) (hpost : ∀ a s, post a s → post' a s) :
    Ensures pre p post' :=
  fun s hs => hpost _ _ (h s hs)

theorem weaken (h : Ensures pre p post) (hpre : ∀ s, pre' s → pre s) : Ensures pre' p post :=
  fun s hs => h s (hpre s hs)

theorem get_bind {f : σ → StateM σ β} (h : ∀ s, pre s → Ensures (· = s) (f s) out) :
    Ensures pre (get >>= f) out :=
  fun s hs => h s hs s rfl

theorem read {f : σ → StateM σ β} (h : ∀ a, Ensures pre (f a) out) : Ensures pre (get >>= f) out :=
  fun s hs => h s s hs

theorem assume {c : Prop} (h : c → Ensures pre p post) : Ensures (fun s => pre s ∧ c) p post :=
  fun s hs => h hs.2 s hs.1

theorem any {ι : Sort*} {start : ι → σ → Prop} (h : ∀ i, Ensures (start i) p post) :
    Ensures (fun s => ∃ i, start i s) p post :=
  fun s ⟨i, hi⟩ => h i s hi

theorem trivial : Ensures pre p fun _ _ => True := fun _ _ => True.intro

theorem modify {out : PUnit → σ → Prop} {update : σ → σ}
    (h : ∀ s, pre s → out PUnit.unit (update s)) : Ensures pre (modify update) out := h

theorem of_run {q : StateM σ α} (h : ∀ s, pre s → p.run s = q.run s) (hq : Ensures pre q post) :
    Ensures pre p post := by
  intro s hs
  rw [h s hs]
  exact hq s hs

theorem ite {c : Prop} [Decidable c] {q : StateM σ α} (hp : c → Ensures pre p post)
    (hq : ¬ c → Ensures pre q post) : Ensures pre (if c then p else q) post := by
  split
  · exact hp ‹_›
  · exact hq ‹_›

end Ensures

end Lib.Hoare
