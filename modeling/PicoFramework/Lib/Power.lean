import Mathlib.Tactic

/-! Computations that may lose power between two steps. A weakest precondition has two
postconditions: one for a computation that returns, one for the state that a power cut
leaves behind. -/

namespace Lib.Power

variable {σ α β : Type}

/-- `none` is a computation cut short; the state is what the cut left. -/
abbrev Powered (σ : Type) := OptionT (StateM σ)

/-- `x` started in `s` returns in `Q`, or is cut in `C`. -/
def wp (x : Powered σ α) (Q : α → σ → Prop) (C : σ → Prop) (s : σ) : Prop :=
  match x.run.run s with
  | (some a, t) => Q a t
  | (none, t) => C t

@[simp] theorem wp_pure (a : α) (Q : α → σ → Prop) (C : σ → Prop) (s : σ) :
    wp (pure a) Q C s ↔ Q a s := Iff.rfl

@[simp] theorem wp_get (Q : σ → σ → Prop) (C : σ → Prop) (s : σ) :
    wp (get : Powered σ σ) Q C s ↔ Q s s := Iff.rfl

theorem wp_bind (x : Powered σ α) (f : α → Powered σ β) (Q : β → σ → Prop) (C : σ → Prop)
    (s : σ) : wp (x >>= f) Q C s ↔ wp x (fun a => wp (f a) Q C) C s := by
  have hrun : (x >>= f).run.run s = match x.run.run s with
      | (some a, t) => (f a).run.run t
      | (none, t) => (none, t) := by
    rw [OptionT.run_bind, Option.elimM, StateT.run_bind]
    rcases x.run.run s with ⟨_ | a, t⟩
    · rfl
    · rfl
  unfold wp
  rw [hrun]
  rcases x.run.run s with ⟨_ | a, t⟩
  · rfl
  · rfl

theorem wp_mono {x : Powered σ α} {Q Q' : α → σ → Prop} {C C' : σ → Prop} {s : σ}
    (h : wp x Q C s) (hQ : ∀ a t, Q a t → Q' a t) (hC : ∀ t, C t → C' t) : wp x Q' C' s := by
  unfold wp at h ⊢
  rcases hrun : x.run.run s with ⟨_ | a, t⟩
  · rw [hrun] at h
    exact hC t h
  · rw [hrun] at h
    exact hQ a t h

theorem wp_trivial (x : Powered σ α) {Q : α → σ → Prop} {C : σ → Prop} (hQ : ∀ a t, Q a t)
    (hC : ∀ t, C t) (s : σ) : wp x Q C s := by
  unfold wp
  rcases x.run.run s with ⟨_ | a, t⟩
  · exact hC t
  · exact hQ a t

/-- The two halves of a run: what was proved about the start, then about the rest. -/
theorem wp_seq {x : Powered σ α} {f : α → Powered σ β} {P : α → σ → Prop} {Q : β → σ → Prop}
    {C : σ → Prop} {s : σ} (hx : wp x P C s) (hf : ∀ a t, P a t → wp (f a) Q C t) :
    wp (x >>= f) Q C s :=
  (wp_bind x f Q C s).mpr (wp_mono hx hf fun _ h => h)

theorem wp_returned {x : Powered σ α} {Q : α → σ → Prop} {C : σ → Prop} {s t : σ} {a : α}
    (hrun : x.run.run s = (some a, t)) : wp x Q C s ↔ Q a t := by
  unfold wp
  rw [hrun]

theorem wp_cut {x : Powered σ α} {Q : α → σ → Prop} {C : σ → Prop} {s t : σ}
    (hrun : x.run.run s = (none, t)) : wp x Q C s ↔ C t := by
  unfold wp
  rw [hrun]

/-- Whatever state it is run in, what a computation returns is in `A`. -/
def Returns (x : Powered σ α) (A : α → Prop) : Prop :=
  ∀ s, wp x (fun a _ => A a) (fun _ => True) s

section returns

variable {A : α → Prop} {B : β → Prop} {x y : Powered σ α} {f : α → Powered σ β}

theorem Returns.pure {a : α} (h : A a) : Returns (pure a : Powered σ α) A := fun _ => h

theorem Returns.bind (hf : ∀ a, Returns (f a) B) : Returns (x >>= f) B :=
  fun s => wp_seq (wp_trivial x (fun _ _ => True.intro) (fun _ => True.intro) s)
    fun a t _ => hf a t

theorem Returns.ite {c : Prop} [Decidable c] (hx : c → Returns x A) (hy : ¬ c → Returns y A) :
    Returns (if c then x else y) A := by
  split_ifs with h
  · exact hx h
  · exact hy h

theorem Returns.run (h : Returns x A) {s t : σ} {a : α} (hrun : x.run.run s = (some a, t)) : A a :=
  (wp_returned hrun).mp (h s)

end returns

end Lib.Power

/-! Computations that write within a set of addresses only, when they return and when power goes
while they run. What two of them with sets apart know of their own part of a memory, the other
cannot make untrue. -/

namespace Lib.Confined

open Lib.Power

variable {σ α β A V : Type} {look : σ → A → V} {S T : Set A}

/-- The memory in `t` is that in `s`, outside a set. -/
def Spares (look : σ → A → V) (S : Set A) (s t : σ) : Prop := ∀ a, a ∉ S → look t a = look s a

theorem Spares.refl (s : σ) : Spares look S s s := fun _ _ => rfl

theorem Spares.trans {s t u : σ} (h : Spares look S s t) (h' : Spares look S t u) :
    Spares look S s u :=
  fun a ha => (h' a ha).trans (h a ha)

theorem Spares.mono {s t : σ} (h : Spares look S s t) (hsub : S ⊆ T) : Spares look T s t :=
  fun a ha => h a fun hin => ha (hsub hin)

theorem Spares.apart {s t : σ} (h : Spares look S s t) (hapart : ∀ a ∈ S, a ∉ T) {a : A}
    (ha : a ∈ T) : look t a = look s a :=
  h a fun hin => hapart a hin ha

def WritesIn (look : σ → A → V) (S : Set A) (x : Powered σ α) : Prop :=
  ∀ s, wp x (fun _ t => Spares look S s t) (fun t => Spares look S s t) s

theorem WritesIn.pure (a : α) : WritesIn look S (pure a : Powered σ α) :=
  fun s => (wp_pure _ _ _ _).mpr (Spares.refl s)

theorem WritesIn.bind {x : Powered σ α} {f : α → Powered σ β} (hx : WritesIn look S x)
    (hf : ∀ a, WritesIn look S (f a)) : WritesIn look S (x >>= f) := by
  intro s
  rw [wp_bind]
  refine wp_mono (hx s) (fun a t ht => ?_) fun _ ht => ht
  exact wp_mono (hf a t) (fun _ _ hu => ht.trans hu) fun _ hu => ht.trans hu

theorem WritesIn.get : WritesIn look S (get : Powered σ σ) :=
  fun s => (wp_get _ _ _).mpr (Spares.refl s)

theorem WritesIn.ite {x y : Powered σ α} {c : Prop} [Decidable c] (hx : WritesIn look S x)
    (hy : WritesIn look S y) : WritesIn look S (if c then x else y) := by
  split_ifs
  · exact hx
  · exact hy

theorem WritesIn.mono {x : Powered σ α} (h : WritesIn look S x) (hsub : S ⊆ T) :
    WritesIn look T x :=
  fun s => wp_mono (h s) (fun _ _ ht => ht.mono hsub) fun _ ht => ht.mono hsub

/-- Nothing that is run after something that writes within a set sees a difference outside it. -/
theorem WritesIn.returned {x : Powered σ α} (h : WritesIn look S x) {s t : σ} {a : Option α}
    (hrun : x.run.run s = (a, t)) : Spares look S s t := by
  cases a with
  | some a => exact (wp_returned hrun).mp (h s)
  | none => exact (wp_cut hrun).mp (h s)

end Lib.Confined
