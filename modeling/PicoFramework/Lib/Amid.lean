import PicoFramework.Lib.Power
import PicoFramework.Lib.Run

/-! A computation whose surroundings go on changing the state before each of its accesses. What is
coming is decided beforehand, so that a property of every run is one of every schedule; a
computation that reaches the end of the schedule is cut there. -/

namespace Lib.Amid

open Lib.Power

variable {σ ε α β : Type}

/-- The state, and what is to happen before each access that is still to come. -/
structure Course (σ ε : Type) where
  state : σ
  coming : List (List ε)

section computations

/-- One access, which is made at once. -/
def access (react : σ → ε → σ) (f : σ → α × σ) : Powered (Course σ ε) α := do
  let s ← get
  match s.coming with
  | [] => failure
  | before :: coming =>
      let made := f (before.foldl react s.state)
      set (⟨made.2, coming⟩ : Course σ ε)
      pure made.1

def look (react : σ → ε → σ) (f : σ → α) : Powered (Course σ ε) α :=
  access react fun s => (f s, s)

def change (react : σ → ε → σ) (f : σ → σ) : Powered (Course σ ε) Unit :=
  access react fun s => ((), f s)

def spin (body : Powered (Course σ ε) Bool) : ℕ → Powered (Course σ ε) Unit
  | 0 => failure
  | n + 1 => do
      if ← body then pure () else spin body n

/-- A loop that goes on until its body says so. Each round makes an access at least, and so there
are no more rounds than the schedule has accesses. -/
def untilDone (body : Powered (Course σ ε) Bool) : Powered (Course σ ε) Unit := do
  let s ← get
  spin body s.coming.length

def spinSome (body : Powered (Course σ ε) (Option α)) : ℕ → Powered (Course σ ε) α
  | 0 => failure
  | n + 1 => do
      let found ← body
      found.elim (spinSome body n) pure

/-- A loop that is left with something. -/
def untilSome (body : Powered (Course σ ε) (Option α)) : Powered (Course σ ε) α := do
  let s ← get
  spinSome body s.coming.length

/-- A loop over `n` indices, from `i` on. -/
def countFrom (body : ℕ → Powered (Course σ ε) Unit) (i : ℕ) : ℕ → Powered (Course σ ε) Unit
  | 0 => pure ()
  | n + 1 => do
      body i
      countFrom body (i + 1) n

end computations

/-- From a state in `P` the computation returns in `Q`, or is cut in `C`. -/
def Along (x : Powered (Course σ ε) α) (P : σ → Prop) (Q : α → σ → Prop) (C : σ → Prop) : Prop :=
  ∀ s : Course σ ε, P s.state → wp x (fun a t => Q a t.state) (fun t => C t.state) s

section rules

variable {react : σ → ε → σ} {P P' I : σ → Prop} {Q Q' : α → σ → Prop} {C C' : σ → Prop}

theorem Along.pure {a : α} (h : ∀ t, P t → Q a t) :
    Along (Pure.pure a : Powered (Course σ ε) α) P Q C :=
  fun s hs => h s.state hs

theorem Along.bind {R : β → σ → Prop} {x : Powered (Course σ ε) α} {f : α → Powered (Course σ ε) β}
    (hx : Along x P Q C) (hf : ∀ a, Along (f a) (Q a) R C) : Along (x >>= f) P R C :=
  fun s hs => wp_seq (hx s hs) fun a t ht => hf a t ht

theorem Along.mono {x : Powered (Course σ ε) α} (h : Along x P Q C) (hP : ∀ t, P' t → P t)
    (hQ : ∀ a t, Q a t → Q' a t) (hC : ∀ t, C t → C' t) : Along x P' Q' C' :=
  fun s hs => wp_mono (h s (hP _ hs)) (fun a t => hQ a t.state) fun t => hC t.state

theorem Along.pre {x : Powered (Course σ ε) α} (h : Along x P Q C) (hP : ∀ t, P' t → P t) :
    Along x P' Q C :=
  h.mono hP (fun _ _ => id) fun _ => id

theorem Along.post {x : Powered (Course σ ε) α} (h : Along x P Q C)
    (hQ : ∀ a t, Q a t → Q' a t) : Along x P Q' C :=
  h.mono (fun _ => id) hQ fun _ => id

theorem Along.ite {c : Prop} [Decidable c] {x y : Powered (Course σ ε) α}
    (hx : c → Along x P Q C) (hy : ¬c → Along y P Q C) : Along (if c then x else y) P Q C := by
  split
  · next h => exact hx h
  · next h => exact hy h

/-- What holds of everything in `P` may be used. -/
theorem Along.given {p : Prop} {x : Powered (Course σ ε) α} (hp : ∀ t, P t → p)
    (h : p → Along x P Q C) : Along x P Q C :=
  fun s hs => h (hp _ hs) s hs

theorem Along.access {f : σ → α × σ} (hreact : ∀ t e, P t → P (react t e))
    (hcut : ∀ t, P t → C t) (hf : ∀ t, P t → Q (f t).1 (f t).2) :
    Along (access react f) P Q C := by
  rintro ⟨state, coming⟩ hs
  cases coming with
  | nil => exact hcut state hs
  | cons before coming =>
    exact hf _ (Run.foldl_invariant hreact before hs)

theorem Along.look {f : σ → α} (hreact : ∀ t e, P t → P (react t e)) (hcut : ∀ t, P t → C t)
    (hf : ∀ t, P t → Q (f t) t) : Along (look react f) P Q C :=
  Along.access hreact hcut hf

theorem Along.change {f : σ → σ} {Q : σ → Prop} (hreact : ∀ t e, P t → P (react t e))
    (hcut : ∀ t, P t → C t) (hf : ∀ t, P t → Q (f t)) :
    Along (change react f) P (fun _ => Q) C :=
  Along.access hreact hcut hf

theorem Along.untilDone {body : Powered (Course σ ε) Bool} {Q : σ → Prop}
    (hbody : Along body I (fun done t => if done then Q t else I t) C) (hcut : ∀ t, I t → C t) :
    Along (untilDone body) I (fun _ => Q) C := by
  have hspin : ∀ n, Along (spin body n) I (fun _ => Q) C := by
    intro n
    induction n with
    | zero => exact fun s hs => hcut s.state hs
    | succ n ih =>
      refine hbody.bind fun done => ?_
      cases done with
      | true => exact Along.pure fun _ h => h
      | false => exact ih
  exact fun s hs => hspin s.coming.length s hs

theorem Along.untilLook {test : σ → Bool} {Q : σ → Prop} (hreact : ∀ t e, P t → P (react t e))
    (hcut : ∀ t, P t → C t) (htest : ∀ t, P t → test t = true → Q t) :
    Along (Amid.untilDone (Amid.look react test)) P (fun _ => Q) C := by
  refine Along.untilDone (Along.look hreact hcut fun t ht => ?_) hcut
  split
  · next h => exact htest t ht h
  · exact ht

theorem Along.untilSome {body : Powered (Course σ ε) (Option α)}
    (hbody : Along body I (fun found t => found.elim (I t) fun a => Q a t) C)
    (hcut : ∀ t, I t → C t) : Along (untilSome body) I Q C := by
  have hspin : ∀ n, Along (spinSome body n) I Q C := by
    intro n
    induction n with
    | zero => exact fun s hs => hcut s.state hs
    | succ n ih =>
      refine hbody.bind fun found => ?_
      cases found with
      | none => exact ih
      | some a => exact Along.pure fun _ h => h
  exact fun s hs => hspin s.coming.length s hs

theorem Along.countFrom {body : ℕ → Powered (Course σ ε) Unit} {I : ℕ → σ → Prop} {i n : ℕ}
    (hbody : ∀ j, i ≤ j → j < i + n → Along (body j) (I j) (fun _ => I (j + 1)) C) :
    Along (countFrom body i n) (I i) (fun _ => I (i + n)) C := by
  induction n generalizing i with
  | zero => exact Along.pure fun _ h => h
  | succ n ih =>
    refine (hbody i (le_refl i) (by omega)).bind fun _ => ?_
    have hrest := ih (i := i + 1) fun j hj hjn => hbody j (by omega) (by omega)
    rwa [show i + 1 + n = i + (n + 1) by omega] at hrest

theorem Along.reaches {x : Powered (Course σ ε) α} (h : Along x P Q C)
    (hQ : ∀ a t, Q a t → C t) {s : Course σ ε} (hs : P s.state) : C (x.run.run s).2.state := by
  have hwp := h s hs
  unfold wp at hwp
  rcases hrun : x.run.run s with ⟨_ | a, t⟩
  · rw [hrun] at hwp
    exact hwp
  · rw [hrun] at hwp
    exact hQ a _ hwp

theorem Along.returns {x : Powered (Course σ ε) α} (h : Along x P Q C) {s : Course σ ε}
    (hs : P s.state) {a : α} (ha : (x.run.run s).1 = some a) :
    Q a (x.run.run s).2.state := by
  have hwp := h s hs
  unfold wp at hwp
  rcases hrun : x.run.run s with ⟨_ | b, t⟩
  · rw [hrun] at ha
    cases ha
  · rw [hrun] at ha hwp
    cases ha
    exact hwp

end rules

end Lib.Amid
