import Mathlib.Tactic

/-! Two stateful computations, one on a view of the state of the other, that do the same. A state
with something noted in it is seen without it so. -/

namespace Lib.Mirror

universe u

variable {σ τ α β : Type u} {view : σ → τ}

def Reflects (view : σ → τ) (p : StateM σ α) (q : StateM τ α) : Prop :=
  ∀ s, q.run (view s) = ((p.run s).1, view (p.run s).2)

namespace Reflects

variable {p : StateM σ α} {q : StateM τ α}

theorem pure (a : α) : Reflects view (Pure.pure a : StateM σ α) (Pure.pure a : StateM τ α) :=
  fun _ => rfl

theorem bind {f : α → StateM σ β} {g : α → StateM τ β} (hp : Reflects view p q)
    (hf : ∀ a, Reflects view (f a) (g a)) : Reflects view (p >>= f) (q >>= g) := by
  intro s
  have hnext := hf (p.run s).1 (p.run s).2
  change (g (q.run (view s)).1).run (q.run (view s)).2 = _
  rw [hp s]
  exact hnext

theorem get_bind {f : σ → StateM σ β} {g : τ → StateM τ β}
    (h : ∀ s, Reflects view (f s) (g (view s))) : Reflects view (get >>= f) (get >>= g) :=
  fun s => h s s

theorem ite {c : Prop} [Decidable c] {p' : StateM σ α} {q' : StateM τ α} (hp : Reflects view p q)
    (hp' : Reflects view p' q') : Reflects view (if c then p else p') (if c then q else q') := by
  split
  · exact hp
  · exact hp'

theorem set (s : σ) :
    Reflects view (MonadStateOf.set s : StateM σ PUnit) (MonadStateOf.set (view s) : StateM τ PUnit) :=
  fun _ => rfl

theorem modify {f : σ → σ} {g : τ → τ} (h : ∀ s, g (view s) = view (f s)) :
    Reflects view (modify f : StateM σ PUnit) (modify g : StateM τ PUnit) := by
  intro s
  change (PUnit.unit, g (view s)) = _
  rw [h]
  rfl

end Reflects

end Lib.Mirror
