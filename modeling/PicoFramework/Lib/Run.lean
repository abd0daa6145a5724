import Mathlib.Tactic

/-! Runs of machines: a machine that answers each input, and a transition relation
whose steps the environment chooses. Each induction over a run is made once here. -/

namespace Lib.Run

section answering

variable {σ τ ι ο : Type*}

/-- The answers of a machine to a list of inputs, and the state it ends in. -/
def run (step : σ → ι → ο × σ) : σ → List ι → List ο × σ
  | s, [] => ([], s)
  | s, i :: is =>
      let answer := step s i
      let rest := run step answer.2 is
      (answer.1 :: rest.1, rest.2)

@[simp] theorem run_nil (step : σ → ι → ο × σ) (s : σ) : run step s [] = ([], s) := rfl

@[simp] theorem run_cons (step : σ → ι → ο × σ) (s : σ) (i : ι) (is : List ι) :
    run step s (i :: is) =
      ((step s i).1 :: (run step (step s i).2 is).1, (run step (step s i).2 is).2) := rfl

theorem run_append (step : σ → ι → ο × σ) (s : σ) (is js : List ι) :
    run step s (is ++ js) =
      ((run step s is).1 ++ (run step (run step s is).2 js).1,
        (run step (run step s is).2 js).2) := by
  induction is generalizing s with
  | nil => rfl
  | cons i is ih => simp only [List.cons_append, run_cons, ih]

theorem run_snd (step : σ → ι → ο × σ) (s : σ) (is : List ι) :
    (run step s is).2 = is.foldl (fun s i => (step s i).2) s := by
  induction is generalizing s with
  | nil => rfl
  | cons i is ih => exact ih _

theorem run_map {κ : Type*} (step : σ → κ → ο × σ) (look : ι → κ) (s : σ) (is : List ι) :
    run step s (is.map look) = run (fun s i => step s (look i)) s is := by
  induction is generalizing s with
  | nil => rfl
  | cons i is ih => simp only [List.map_cons, run_cons, ih]

theorem run_invariant {step : σ → ι → ο × σ} {inv : σ → Prop}
    (hstep : ∀ s i, inv s → inv (step s i).2) (s : σ) (is : List ι) (h : inv s) :
    inv (run step s is).2 := by
  induction is generalizing s with
  | nil => exact h
  | cons i is ih => exact ih _ (hstep s i h)

theorem run_refines {step : σ → ι → ο × σ} {spec : τ → ι → ο × τ} {R : σ → τ → Prop}
    (hstep : ∀ s t i, R s t → (step s i).1 = (spec t i).1 ∧ R (step s i).2 (spec t i).2)
    (s : σ) (t : τ) (is : List ι) (h : R s t) :
    (run step s is).1 = (run spec t is).1 ∧ R (run step s is).2 (run spec t is).2 := by
  induction is generalizing s t with
  | nil => exact ⟨rfl, h⟩
  | cons i is ih =>
    obtain ⟨hanswer, hnext⟩ := hstep s t i h
    obtain ⟨hrest, hend⟩ := ih _ _ hnext
    exact ⟨by simp only [run_cons, hanswer, hrest], hend⟩

/-- Two machines whose related states give related answers give related answers in every run. -/
theorem run_simulates {ο' : Type*} {step : σ → ι → ο × σ} {spec : τ → ι → ο' × τ}
    {R : σ → τ → Prop} {A : ο → ο' → Prop}
    (hstep : ∀ s t i, R s t → A (step s i).1 (spec t i).1 ∧ R (step s i).2 (spec t i).2)
    (s : σ) (t : τ) (is : List ι) (h : R s t) :
    List.Forall₂ A (run step s is).1 (run spec t is).1 ∧ R (run step s is).2 (run spec t is).2 := by
  induction is generalizing s t with
  | nil => exact ⟨.nil, h⟩
  | cons i is ih =>
    obtain ⟨hanswer, hnext⟩ := hstep s t i h
    obtain ⟨hrest, hend⟩ := ih _ _ hnext
    exact ⟨.cons hanswer hrest, hend⟩

/-- Where related states answer alike, and are related again after an input that meets a condition but
show a difference after another, the runs that show none are those of inputs that all meet it. -/
theorem run_agrees_iff {step : σ → ι → ο × σ} {spec : τ → ι → ο × τ} (R shown : σ → τ → Prop)
    {ok : ι → Prop} (hshown : ∀ s t, R s t → shown s t)
    (hstep : ∀ s t i, R s t → (step s i).1 = (spec t i).1 ∧
      (ok i → R (step s i).2 (spec t i).2) ∧ (shown (step s i).2 (spec t i).2 → ok i))
    {s : σ} {t : τ} (h : R s t) (is : List ι) :
    (∀ js, js <+: is → (run step s js).1 = (run spec t js).1 ∧
        shown (run step s js).2 (run spec t js).2) ↔ ∀ i ∈ is, ok i := by
  induction is generalizing s t with
  | nil =>
    refine iff_of_true (fun js hjs => ?_) fun i hi => absurd hi List.not_mem_nil
    rw [List.prefix_nil.mp hjs]
    exact ⟨rfl, hshown s t h⟩
  | cons i is ih =>
    obtain ⟨hanswer, hkeeps, hok⟩ := hstep s t i h
    rw [List.forall_mem_cons]
    constructor
    · intro hall
      have hmeets : ok i := hok (hall [i] (List.cons_prefix_cons.mpr ⟨rfl, List.nil_prefix⟩)).2
      refine ⟨hmeets, (ih (hkeeps hmeets)).mp fun js hjs => ?_⟩
      obtain ⟨hanswers, hnext⟩ := hall (i :: js) (List.cons_prefix_cons.mpr ⟨rfl, hjs⟩)
      exact ⟨(List.cons.inj hanswers).2, hnext⟩
    · rintro ⟨hmeets, hlater⟩ js hjs
      cases js with
      | nil => exact ⟨rfl, hshown s t h⟩
      | cons j js =>
        obtain ⟨rfl, htail⟩ := List.cons_prefix_cons.mp hjs
        obtain ⟨hanswers, hnext⟩ := (ih (hkeeps hmeets)).mpr hlater js htail
        exact ⟨by rw [run_cons, run_cons, hanswer, hanswers], hnext⟩

end answering

section conditional

variable {σ ι : Type*}

/-- Every step of the run meets a condition on the state before it and on what it is. -/
def Meets (step : σ → ι → σ) (ok : σ → ι → Prop) : σ → List ι → Prop
  | _, [] => True
  | s, i :: is => ok s i ∧ Meets step ok (step s i) is

theorem Meets.append_iff {step : σ → ι → σ} {ok : σ → ι → Prop} {s : σ} {is js : List ι} :
    Meets step ok s (is ++ js) ↔ Meets step ok s is ∧ Meets step ok (is.foldl step s) js := by
  induction is generalizing s with
  | nil => exact (and_iff_right trivial).symm
  | cons i is ih =>
    change ok s i ∧ Meets step ok (step s i) (is ++ js) ↔ (ok s i ∧ _) ∧ _
    rw [ih, and_assoc]
    rfl

/-- An invariant of every step that meets the condition holds at the end of every run whose
steps all do. -/
theorem Meets.invariant {step : σ → ι → σ} {ok : σ → ι → Prop} {inv : σ → Prop}
    (hstep : ∀ s i, ok s i → inv s → inv (step s i)) {s : σ} {is : List ι}
    (h : Meets step ok s is) (hs : inv s) : inv (is.foldl step s) := by
  induction is generalizing s with
  | nil => exact hs
  | cons i is ih => exact ih h.2 (hstep s i h.1 hs)

/-- Where a step keeps the invariant when it meets the condition, and shows when it does not, the
runs whose steps all meet the condition are those that show nothing. -/
theorem Meets.iff_shown {step : σ → ι → σ} {ok : σ → ι → Prop} {inv shown : σ → Prop} {is : List ι}
    (hshown : ∀ s, inv s → shown s)
    (hstep : ∀ i ∈ is, ∀ s, inv s → (ok s i → inv (step s i)) ∧ (shown (step s i) → ok s i))
    {s : σ} (hs : inv s) :
    (∀ js, js <+: is → shown (js.foldl step s)) ↔ Meets step ok s is := by
  induction is generalizing s with
  | nil =>
    refine ⟨fun _ => trivial, fun _ js hjs => ?_⟩
    rw [List.prefix_nil.mp hjs]
    exact hshown s hs
  | cons i is ih =>
    obtain ⟨hkeeps, hok⟩ := hstep i (List.mem_cons_self ..) s hs
    have hrest := fun j hmem => hstep j (List.mem_cons_of_mem i hmem)
    constructor
    · intro h
      have hmeets : ok s i := hok (h [i] (List.cons_prefix_cons.mpr ⟨rfl, List.nil_prefix⟩))
      refine ⟨hmeets, (ih hrest (hkeeps hmeets)).mp fun js hjs => ?_⟩
      exact h (i :: js) (List.cons_prefix_cons.mpr ⟨rfl, hjs⟩)
    · rintro ⟨hmeets, hlater⟩ js hjs
      cases js with
      | nil => exact hshown s hs
      | cons j js =>
        obtain ⟨rfl, htail⟩ := List.cons_prefix_cons.mp hjs
        exact (ih hrest (hkeeps hmeets)).mpr hlater js htail

theorem foldl_run {τ ο : Type*} (step : σ → ι → ο × σ) (record : τ → ο → τ) (s : σ) (t : τ)
    (is : List ι) :
    is.foldl (fun p i => ((step p.1 i).2, record p.2 (step p.1 i).1)) (s, t) =
      ((run step s is).2, (run step s is).1.foldl record t) := by
  induction is generalizing s t with
  | nil => rfl
  | cons i is ih => exact ih _ _

theorem Meets.fst_iff {τ : Type*} {step : σ → ι → σ} {both : σ × τ → ι → σ × τ} {ok : σ → ι → Prop}
    (hfst : ∀ p i, (both p i).1 = step p.1 i) (is : List ι) (p : σ × τ) :
    Meets both (fun p i => ok p.1 i) p is ↔ Meets step ok p.1 is := by
  induction is generalizing p with
  | nil => exact Iff.rfl
  | cons i is ih =>
    apply and_congr_right
    intro _
    rw [ih, hfst]

/-- The same of a machine that answers, with what is made of the answers. -/
theorem Meets.iff_run_shown {τ ο : Type*} {step : σ → ι → ο × σ} {record : τ → ο → τ}
    {ok : σ → ι → Prop} {inv shown : σ → τ → Prop} (hshown : ∀ s t, inv s t → shown s t)
    (hstep : ∀ s t i, inv s t → (ok s i → inv (step s i).2 (record t (step s i).1)) ∧
      (shown (step s i).2 (record t (step s i).1) → ok s i))
    {s : σ} {t : τ} (hs : inv s t) (is : List ι) :
    (∀ js, js <+: is → shown (run step s js).2 ((run step s js).1.foldl record t)) ↔
      Meets (fun s i => (step s i).2) ok s is := by
  let both : σ × τ → ι → σ × τ := fun p i => ((step p.1 i).2, record p.2 (step p.1 i).1)
  let holds : σ × τ → Prop := fun p => inv p.1 p.2
  let shows : σ × τ → Prop := fun p => shown p.1 p.2
  have hpair : (∀ js, js <+: is → shows (js.foldl both (s, t))) ↔
      Meets both (fun p i => ok p.1 i) (s, t) is := by
    apply Meets.iff_shown (fun p (hp : holds p) => hshown p.1 p.2 hp)
    · intro i _ p hp
      exact hstep p.1 p.2 i hp
    · exact hs
  simp only [both, shows, foldl_run] at hpair
  rw [hpair]
  exact Meets.fst_iff (fun _ _ => rfl) is (s, t)

/-- A run that shows nothing at its end shows nothing on the way, where no step hides what was
shown. -/
theorem Meets.iff_shown_last {step : σ → ι → σ} {ok : σ → ι → Prop} {inv shown : σ → Prop}
    (hlast : ∀ s i, shown (step s i) → shown s) (hshown : ∀ s, inv s → shown s)
    (hstep : ∀ s i, inv s → (ok s i → inv (step s i)) ∧ (shown (step s i) → ok s i))
    {s : σ} {is : List ι} (hs : inv s) : shown (is.foldl step s) ↔ Meets step ok s is := by
  rw [← Meets.iff_shown hshown (fun i _ t ht => hstep t i ht) hs]
  constructor
  · rintro h js ⟨rest, rfl⟩
    rw [List.foldl_append] at h
    induction rest using List.reverseRecOn with
    | nil => exact h
    | append_singleton rest i ih =>
      apply ih
      rw [List.foldl_append] at h
      exact hlast _ i h
  · intro h
    exact h is (List.prefix_refl is)

/-- Where a step shows nothing exactly when nothing was shown and it meets the condition, so does a
run. -/
theorem Meets.iff_end {step : σ → ι → σ} {ok : σ → ι → Prop} {inv shown : σ → Prop}
    (hinv : ∀ s i, inv s → inv (step s i))
    (hstep : ∀ s i, inv s → (shown (step s i) ↔ shown s ∧ ok s i)) {s : σ} {is : List ι}
    (hs : inv s) : shown (is.foldl step s) ↔ shown s ∧ Meets step ok s is := by
  induction is generalizing s with
  | nil => exact (and_iff_left trivial).symm
  | cons i is ih =>
    change shown (is.foldl step (step s i)) ↔ shown s ∧ ok s i ∧ Meets step ok (step s i) is
    rw [ih (hinv s i hs), hstep s i hs, and_assoc]

theorem Meets.count_le {step : σ → ι → σ} {ok : σ → ι → Prop} {inv : σ → Prop} {count : σ → ℕ}
    (hstep : ∀ s i, ok s i → inv s → inv (step s i) ∧ count s ≤ count (step s i)) {s : σ}
    {is : List ι} (h : Meets step ok s is) (hs : inv s) : count s ≤ count (is.foldl step s) := by
  induction is generalizing s with
  | nil => exact le_rfl
  | cons i is ih =>
    obtain ⟨hnext, hmono⟩ := hstep s i h.1 hs
    exact hmono.trans (ih h.2 hnext)

/-- A count that no step raises by more than one reaches every number on the way. A run that keeps
what holds below `n` and fails at `n` is one that does not count so far. -/
theorem Meets.iff_below {step : σ → ι → σ} {ok : σ → ι → Prop} {inv kept : σ → Prop} {count : σ → ℕ}
    {n : ℕ}
    (hstep : ∀ s i, ok s i → inv s →
      inv (step s i) ∧ count s ≤ count (step s i) ∧ count (step s i) ≤ count s + 1)
    (hbelow : ∀ s, inv s → count s < n → kept s) (hat : ∀ s, inv s → count s = n → ¬ kept s)
    {s : σ} {is : List ι} (h : Meets step ok s is) (hs : inv s) (hle : count s ≤ n) :
    (∀ js, js <+: is → kept (js.foldl step s)) ↔ count (is.foldl step s) < n := by
  induction is generalizing s with
  | nil =>
    constructor
    · intro hkept
      have hnow := hkept [] List.nil_prefix
      rcases Nat.lt_or_eq_of_le hle with hlt | heq
      · exact hlt
      · exact absurd hnow (hat s hs heq)
    · intro hlt js hjs
      rw [List.prefix_nil.mp hjs]
      exact hbelow s hs hlt
  | cons i is ih =>
    obtain ⟨hok, hlater⟩ := h
    obtain ⟨hnext, hmono, hone⟩ := hstep s i hok hs
    have hgrows : count (step s i) ≤ count (is.foldl step (step s i)) :=
      hlater.count_le (fun t j hj ht => ⟨(hstep t j hj ht).1, (hstep t j hj ht).2.1⟩) hnext
    constructor
    · intro hkept
      have hnow := hkept [] List.nil_prefix
      have hlt : count s < n := by
        rcases Nat.lt_or_eq_of_le hle with hlt | heq
        · exact hlt
        · exact absurd hnow (hat s hs heq)
      refine (ih hlater hnext (by omega)).mp fun js hjs => ?_
      exact hkept (i :: js) (List.cons_prefix_cons.mpr ⟨rfl, hjs⟩)
    · intro hlt js hjs
      change count (is.foldl step (step s i)) < n at hlt
      cases js with
      | nil => exact hbelow s hs (by omega)
      | cons j js =>
        obtain ⟨rfl, htail⟩ := List.cons_prefix_cons.mp hjs
        exact (ih hlater hnext (by omega)).mpr hlt js htail

theorem foldl_invariant {step : σ → ι → σ} {inv : σ → Prop}
    (hstep : ∀ s i, inv s → inv (step s i)) {s : σ} (is : List ι) (hs : inv s) :
    inv (is.foldl step s) := by
  induction is generalizing s with
  | nil => exact hs
  | cons i is ih => exact ih (hstep s i hs)

end conditional

section relation

variable {σ ε : Type*}

/-- Runs of a transition relation, with the events in order. -/
inductive Steps (step : σ → ε → σ → Prop) : σ → List ε → σ → Prop
  | nil (s : σ) : Steps step s [] s
  | snoc {s t u : σ} {evs : List ε} {e : ε} (h : Steps step s evs t) (he : step t e u) :
      Steps step s (evs ++ [e]) u

theorem Steps.invariant {step : σ → ε → σ → Prop} {inv : σ → Prop}
    (hstep : ∀ s e t, inv s → step s e t → inv t) {s t : σ} {evs : List ε}
    (h : Steps step s evs t) (hs : inv s) : inv t := by
  induction h with
  | nil => exact hs
  | snoc _ he ih => exact hstep _ _ _ ih he

end relation

end Lib.Run
