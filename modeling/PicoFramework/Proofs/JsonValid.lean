import PicoFramework.Proofs.JsonScan

/-! `json_valid_n` accepts the texts of the scanner's own grammar. That grammar has every
text of RFC 8259 in it, and others besides. -/

namespace Pico

open Lib.Json

section strict

theorem hex_ne {c : UInt8} (h : isHexDigit c = true) : c ≠ 0x22 ∧ c ≠ 0x5C := by
  constructor
  · rintro rfl
    exact absurd h (by decide)
  · rintro rfl
    exact absurd h (by decide)

theorem scannedChars_of_strict {chars : Bytes} (h : StrictChars chars) : ScannedChars chars := by
  induction h with
  | nil => exact .nil
  | plain _ hquote hescape _ ih => exact .plain hquote hescape ih
  | escape _ _ ih => exact .escape ih
  | unicode hhex _ ih =>
    refine .escape ?_
    -- the four digits are characters like any other
    have hplain := fun x hx => hex_ne (hhex x hx)
    simp only [List.mem_cons, List.not_mem_nil, or_false, forall_eq_or_imp, forall_eq] at hplain
    obtain ⟨ha, hb, hc, hd⟩ := hplain
    exact .plain ha.1 ha.2 (.plain hb.1 hb.2 (.plain hc.1 hc.2 (.plain hd.1 hd.2 ih)))

def EndsInDigit (text : Bytes) : Prop := text.getLast?.any isDigit = true

theorem EndsInDigit.append {text : Bytes} (h : EndsInDigit text) (before : Bytes) :
    EndsInDigit (before ++ text) := by
  unfold EndsInDigit at h ⊢
  rw [List.getLast?_append]
  cases hlast : text.getLast? with
  | none => simp [hlast] at h
  | some c => simpa [hlast] using h

theorem EndsInDigit.of_digits {ds : Bytes} (h : Digits ds) (hne : ds ≠ []) : EndsInDigit ds := by
  unfold EndsInDigit
  rw [List.getLast?_eq_some_getLast hne]
  exact h _ (List.getLast_mem hne)

theorem scannedNumber_of_strict {minus int frac exp : Bytes} (h : StrictNumber minus int frac exp) :
    ScannedNumber minus int frac exp := by
  have hint : Digits int ∧ int ≠ [] := by
    rcases h.int with rfl | ⟨d, ds, hlow, hhigh, hds, rfl⟩
    · exact ⟨by intro c hc; obtain rfl := List.mem_singleton.mp hc; decide, by simp⟩
    · refine ⟨fun c hc => ?_, by simp⟩
      rcases List.mem_cons.mp hc with rfl | hc
      · simp only [isDigit, Bool.and_eq_true, decide_eq_true_eq]
        exact ⟨UInt8.le_trans (by decide) hlow, hhigh⟩
      · exact hds c hc
  have hfrac : frac = [] ∨ EndsInDigit frac := by
    rcases h.frac with hnil | ⟨ds, hne, hds, rfl⟩
    · exact Or.inl hnil
    · exact Or.inr ((EndsInDigit.of_digits hds hne).append [0x2E])
  have hexp : exp = [] ∨ EndsInDigit exp := by
    rcases h.exp with hnil | ⟨e, sign, ds, -, -, hne, hds, rfl⟩
    · exact Or.inl hnil
    · exact Or.inr ((EndsInDigit.of_digits hds hne).append (e :: sign))
  refine ⟨?_, hint.1, ?_, ?_, ?_⟩
  · rcases h.minus with rfl | rfl
    · exact Or.inl rfl
    · exact Or.inr (Or.inl rfl)
  · rcases h.frac with hnil | ⟨ds, -, hds, hfrac⟩
    · exact Or.inl hnil
    · exact Or.inr ⟨ds, hds, hfrac⟩
  · rcases h.exp with hnil | ⟨e, sign, ds, he, hsign, -, hds, hexp⟩
    · exact Or.inl hnil
    · exact Or.inr ⟨e, sign, ds, he, hsign, hds, hexp⟩
  · change EndsInDigit _
    refine EndsInDigit.append ?_ minus
    rcases hexp with rfl | hexp
    · rw [List.append_nil]
      rcases hfrac with rfl | hfrac
      · rw [List.append_nil]
        exact EndsInDigit.of_digits hint.1 hint.2
      · exact hfrac.append int
    · exact (hexp.append frac).append int

theorem scanned_string_of_strict {text : Bytes} (h : rfc8259.string text) : scanned.string text := by
  obtain ⟨chars, hchars, htext⟩ := h
  exact ⟨chars, scannedChars_of_strict hchars, htext⟩

theorem scanned_number_of_strict {text : Bytes} (h : rfc8259.number text) : scanned.number text := by
  obtain ⟨minus, int, frac, exp, hnumber, htext⟩ := h
  exact ⟨minus, int, frac, exp, scannedNumber_of_strict hnumber, htext⟩

theorem scanned_value_of_strict {n : ℕ} {value : Bytes} (h : Value rfc8259 n value) :
    Value scanned n value :=
  h.mono (fun _ => scanned_string_of_strict) fun _ => scanned_number_of_strict

theorem scanned_text_of_strict {n : ℕ} {text : Bytes} (h : Text rfc8259 n text) :
    Text scanned n text := by
  obtain ⟨before, value, after, hbefore, hvalue, hafter, htext⟩ := h
  exact ⟨before, value, after, hbefore, scanned_value_of_strict hvalue, hafter, htext⟩

end strict

section valid

/-- The documents that `json_valid_n` accepts are those of the scanner's grammar. -/
theorem jsonValidN_eq_text (text : Bytes) :
    jsonValidN text = true ↔ Text scanned JSON_MAX_DEPTH text := by
  unfold jsonValidN
  constructor
  · intro h
    obtain ⟨before, hbefore, htext⟩ := exists_skipWhitespace text
    cases hskip : skipValue JSON_MAX_DEPTH (skipWhitespace text) with
    | none => simp [hskip] at h
    | some p =>
      obtain ⟨value, hvalue, hp⟩ := skipValue_sound _ _ _ hskip
      obtain ⟨after, hafter, hend⟩ := exists_skipWhitespace p
      simp only [hskip] at h
      rw [List.isEmpty_iff.mp h, List.append_nil] at hend
      exact ⟨before, value, after, hbefore, hvalue, hafter, by rw [htext, hp, hend]⟩
  · rintro ⟨before, value, after, hbefore, hvalue, hafter, rfl⟩
    have hends : NumberEnds after := fun c hc =>
      number_ends_at_space (hafter c (List.mem_of_mem_head? hc))
    have hspace : skipWhitespace after = [] := by
      have := skipWhitespace_append (p := []) hafter
      rwa [List.append_nil] at this
    rw [skipWhitespace_append hbefore, skipWhitespace_value hvalue, skipValue_complete _ _ _ hvalue hends]
    simp only [hspace, List.isEmpty_nil]

theorem strict_head {n : ℕ} {text : Bytes} (h : Value rfc8259 n text) : text.head? ≠ some 0x2B := by
  cases h with
  | string h =>
    obtain ⟨chars, -, rfl⟩ := h
    simp
  | number h =>
    obtain ⟨minus, int, frac, exp, hnumber, rfl⟩ := h
    rcases hnumber.minus with rfl | rfl
    · rcases hnumber.int with rfl | ⟨d, ds, hlow, -, -, rfl⟩
      · simp
      · intro hhead
        obtain rfl : d = 0x2B := Option.some.inj hhead
        exact absurd hlow (by decide)
    · simp
  | literal h =>
    simp only [literals, List.mem_cons, List.not_mem_nil, or_false] at h
    rcases h with rfl | rfl | rfl
    · simp
    · simp
    · simp
  | empty bracket h =>
    cases bracket with
    | object => simp [Bracket.text, Bracket.opening]
    | array => simp [Bracket.text, Bracket.opening]
  | container bracket hne hlead hafter hvalue =>
    cases bracket with
    | object => simp [Bracket.text, Bracket.opening]
    | array => simp [Bracket.text, Bracket.opening]

end valid

/-- `json_valid_n` decides the scanner's grammar, and every text of RFC 8259 within the depth
is in it. -/
theorem jsonValidN_iff (text : Bytes) :
    (jsonValidN text = true ↔ Text scanned JSON_MAX_DEPTH text) ∧
      (Text rfc8259 JSON_MAX_DEPTH text → jsonValidN text = true) :=
  ⟨jsonValidN_eq_text text, fun h => (jsonValidN_eq_text text).mpr (scanned_text_of_strict h)⟩

/-- `+1` is accepted, and is no text of RFC 8259. -/
theorem jsonValidN_not_rfc8259 :
    ¬ ∀ text, jsonValidN text = true ↔ Text rfc8259 JSON_MAX_DEPTH text := by
  intro h
  obtain ⟨before, value, after, hbefore, hvalue, -, htext⟩ := (h [0x2B, 0x31]).mp (by decide)
  cases before with
  | cons c before =>
    obtain ⟨hc, -⟩ := List.cons.inj htext
    exact absurd (hbefore c (by simp)) (by rw [← hc]; decide)
  | nil =>
    cases value with
    | nil =>
      obtain ⟨c, tail, hc, -⟩ := value_start (scanned_value_of_strict hvalue)
      cases hc
    | cons c value =>
      obtain ⟨hc, -⟩ := List.cons.inj htext
      exact strict_head hvalue (by rw [← hc]; rfl)

end Pico
