import Mathlib.Tactic

/-! Parties that share one medium. What a party hands over waits in a queue of its own, and when
it goes out each of the others may get a copy of it. A copy need only be like the original. -/

namespace Lib.Broadcast

variable {ι μ ω : Type*} [DecidableEq ι]

/-- The queues, and the history: what each party handed over, what went out and from whom, and the
copies that each party got. -/
structure Medium (ι μ ω : Type*) where
  sent : ι → List μ
  outgoing : ι → List ω
  said : List (ι × ω)
  heard : ι → List ω

def Medium.silent : Medium ι μ ω := ⟨fun _ => [], fun _ => [], [], fun _ => []⟩

def Medium.put (pack : μ → ω) (i : ι) (m : μ) (w : Medium ι μ ω) : Medium ι μ ω :=
  { w with
    sent := Function.update w.sent i (w.sent i ++ [m])
    outgoing := Function.update w.outgoing i (w.outgoing i ++ [pack m]) }

/-- What this party has waited with longest goes out. -/
def Medium.speak (i : ι) (x : ω) (rest : List ω) (copies : ι → Option ω) (w : Medium ι μ ω) :
    Medium ι μ ω :=
  { w with
    outgoing := Function.update w.outgoing i rest
    said := w.said ++ [(i, x)]
    heard := fun j => w.heard j ++ (copies j).toList }

/-- What one party handed over, of what has gone out. -/
def from_ (told : List (ι × μ)) (i : ι) : List μ := (told.filter fun e => e.1 = i).map Prod.snd

theorem from_snoc_self (told : List (ι × μ)) (i : ι) (m : μ) :
    from_ (told ++ [(i, m)]) i = from_ told i ++ [m] := by
  unfold from_
  rw [List.filter_append, List.map_append, List.filter_singleton, decide_eq_true rfl]
  rfl

theorem from_snoc_of_ne (told : List (ι × μ)) {i j : ι} (m : μ) (h : i ≠ j) :
    from_ (told ++ [(i, m)]) j = from_ told j := by
  unfold from_
  rw [List.filter_append, List.filter_singleton, decide_eq_false h]
  exact congrArg (List.map Prod.snd) (List.append_nil _)

/-- What went out is `told`: of each party it is the first that it handed over, the rest is still
in its queue, and what a party heard is like a part of what the others told, in order. -/
structure Conveyed (pack : μ → ω) (like : ω → ω → Prop) (w : Medium ι μ ω)
    (told : List (ι × μ)) : Prop where
  said : w.said = told.map fun e => (e.1, pack e.2)
  queued : ∀ i, ∃ waiting, w.sent i = from_ told i ++ waiting ∧ w.outgoing i = waiting.map pack
  heard : ∀ j, ∃ way : List (ι × μ), way.Sublist told ∧ (∀ e ∈ way, e.1 ≠ j) ∧
    List.Forall₂ (fun e x => like (pack e.2) x) way (w.heard j)

variable {pack : μ → ω} {like : ω → ω → Prop} {w : Medium ι μ ω} {told : List (ι × μ)}

theorem Conveyed.silent : Conveyed pack like (Medium.silent : Medium ι μ ω) [] where
  said := rfl
  queued _ := ⟨[], rfl, rfl⟩
  heard _ := ⟨[], List.Sublist.refl _, fun _ he => absurd he List.not_mem_nil, .nil⟩

theorem Conveyed.put (h : Conveyed pack like w told) (i : ι) (m : μ) :
    Conveyed pack like (w.put pack i m) told where
  said := h.said
  queued j := by
    obtain ⟨waiting, hsent, hout⟩ := h.queued j
    by_cases hj : j = i
    · subst hj
      refine ⟨waiting ++ [m], ?_, ?_⟩
      · change Function.update w.sent j _ j = _
        rw [Function.update_self, hsent, List.append_assoc]
      · change Function.update w.outgoing j _ j = _
        rw [Function.update_self, hout, List.map_append]
        rfl
    · refine ⟨waiting, ?_, ?_⟩
      · change Function.update w.sent i _ j = _
        rw [Function.update_of_ne hj, hsent]
      · change Function.update w.outgoing i _ j = _
        rw [Function.update_of_ne hj, hout]
  heard := h.heard

theorem Conveyed.speak (h : Conveyed pack like w told) {i : ι} {x : ω} {rest : List ω}
    (hfirst : w.outgoing i = x :: rest) {copies : ι → Option ω}
    (hcopies : ∀ j y, copies j = some y → i ≠ j ∧ like x y) :
    ∃ m, pack m = x ∧ Conveyed pack like (w.speak i x rest copies) (told ++ [(i, m)]) := by
  obtain ⟨waiting, hsent, hout⟩ := h.queued i
  rw [hfirst] at hout
  obtain ⟨m, later, hwaiting, rfl, hrest⟩ := List.map_eq_cons_iff.mp hout.symm
  refine ⟨m, rfl, ?_, fun j => ?_, fun j => ?_⟩
  · change w.said ++ [(i, pack m)] = _
    rw [h.said, List.map_append]
    rfl
  · by_cases hj : j = i
    · subst hj
      refine ⟨later, ?_, ?_⟩
      · change w.sent j = _
        rw [hsent, hwaiting, from_snoc_self, List.append_assoc]
        rfl
      · change Function.update w.outgoing j rest j = _
        rw [Function.update_self, hrest]
    · obtain ⟨waiting', hsent', hout'⟩ := h.queued j
      refine ⟨waiting', ?_, ?_⟩
      · rw [from_snoc_of_ne told m (Ne.symm hj)]
        exact hsent'
      · change Function.update w.outgoing i rest j = _
        rw [Function.update_of_ne hj, hout']
  · obtain ⟨way, hway, hothers, hlike⟩ := h.heard j
    change ∃ way : List (ι × μ), _ ∧ _ ∧ List.Forall₂ _ way (w.heard j ++ (copies j).toList)
    cases hcopy : copies j with
    | none =>
      refine ⟨way, hway.trans (List.sublist_append_left _ _), hothers, ?_⟩
      rw [Option.toList_none, List.append_nil]
      exact hlike
    | some y =>
      obtain ⟨hne, hy⟩ := hcopies j y hcopy
      refine ⟨way ++ [(i, m)], hway.append_right _, fun e he => ?_, ?_⟩
      · rcases List.mem_append.mp he with hold | hnew
        · exact hothers e hold
        · rw [List.mem_singleton.mp hnew]
          exact hne
      · exact List.rel_append hlike (.cons hy .nil)

theorem forall₂_sublist {α β : Type*} {r : α → β → Prop} {xs : List α} {ys zs : List β}
    (h : List.Forall₂ r xs ys) (hsub : zs.Sublist ys) :
    ∃ ws, ws.Sublist xs ∧ List.Forall₂ r ws zs := by
  induction hsub generalizing xs with
  | slnil => exact ⟨[], List.nil_sublist _, .nil⟩
  | cons y _ ih =>
    cases h with
    | cons _ htail =>
      obtain ⟨ws, hws, hzs⟩ := ih htail
      exact ⟨ws, hws.cons _, hzs⟩
  | cons_cons y _ ih =>
    cases h with
    | cons hhead htail =>
      obtain ⟨ws, hws, hzs⟩ := ih htail
      exact ⟨_ :: ws, hws.cons_cons _, .cons hhead hzs⟩

end Lib.Broadcast
