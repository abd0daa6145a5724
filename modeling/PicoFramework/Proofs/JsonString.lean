import PicoFramework.Spec.Json

/-! How `json.c` decodes the inside of a string. `unescape` and `escaped_equals` walk it by
different rules; both follow the one relation `Decodes`. -/

namespace Pico

/-- How one character may be written inside a string. -/
inductive Encodes (decoded : UInt8) : Bytes → Prop
  | plain (h : decoded ≠ 0x5C) : Encodes decoded [decoded]
  | escape {e : UInt8} (h : simpleEscape e = some decoded) : Encodes decoded [0x5C, e]
  | unicode {a b c d : UInt8} (h : unicodeEscape a b c d = some decoded) :
      Encodes decoded [0x5C, 0x75, a, b, c, d]

/-- What the inside of a string stands for. -/
inductive Decodes : Bytes → Bytes → Prop
  | nil : Decodes [] []
  | cons {char rest out : Bytes} {decoded : UInt8} (hchar : Encodes decoded char)
      (hrest : Decodes rest out) : Decodes (char ++ rest) (decoded :: out)

theorem simpleEscape_u : simpleEscape 0x75 = none := by decide

section steps

variable {decoded : UInt8} {char : Bytes}

theorem Encodes.unescapeChar_eq (h : Encodes decoded char) (rest : Bytes) :
    unescapeChar (char ++ rest) = some (decoded, rest) := by
  cases h with
  | plain h => simp [unescapeChar, h]
  | @escape e h =>
    have he : e ≠ 0x75 := by
      rintro rfl
      cases simpleEscape_u.symm.trans h
    simp [unescapeChar, he, h]
  | unicode h => simp [unescapeChar, h]

theorem unescapeChar_sound {p rest : Bytes} (h : unescapeChar p = some (decoded, rest)) :
    ∃ char, Encodes decoded char ∧ p = char ++ rest := by
  cases p with
  | nil => cases h
  | cons c p =>
    unfold unescapeChar at h
    simp only at h
    split_ifs at h with hescape
    · cases h
      exact ⟨[decoded], .plain hescape, rfl⟩
    · rw [not_not] at hescape
      subst hescape
      cases p with
      | nil => cases h
      | cons e p =>
        simp only at h
        split_ifs at h with hu
        · subst hu
          split at h
          · obtain ⟨x, hx, hpair⟩ := Option.map_eq_some_iff.mp h
            cases hpair
            exact ⟨_, .unicode hx, rfl⟩
          · cases h
        · obtain ⟨x, hx, hpair⟩ := Option.map_eq_some_iff.mp h
          cases hpair
          exact ⟨_, .escape hx, rfl⟩

theorem Encodes.width (h : Encodes decoded char) (rest : Bytes) :
    escapeWidth (char ++ rest) = char.length := by
  cases h with
  | plain h => simp [escapeWidth, h]
  | @escape e h =>
    have he : e ≠ 0x75 := by
      rintro rfl
      cases simpleEscape_u.symm.trans h
    simp [escapeWidth, he]
  | unicode h => simp [escapeWidth]

theorem Encodes.ne_nil (h : Encodes decoded char) : char ≠ [] := by
  cases h with
  | plain h => simp
  | escape h => simp
  | unicode h => simp

theorem unescape_nil (capacity : ℕ) : unescape [] capacity = some [] := by
  cases capacity with
  | zero => rfl
  | succ capacity => rfl

theorem unescape_full (c : UInt8) (rest : Bytes) : unescape (c :: rest) 0 = none := rfl

theorem Encodes.unescape_eq (h : Encodes decoded char) (rest : Bytes) (capacity : ℕ) :
    unescape (char ++ rest) (capacity + 1) = (unescape rest capacity).map (decoded :: ·) := by
  have hchar := h.unescapeChar_eq rest
  obtain ⟨c, tail, rfl⟩ := List.exists_cons_of_ne_nil h.ne_nil
  rw [List.cons_append] at hchar ⊢
  rw [unescape, hchar]
  rfl

/-- A character of a string that `unescape` resolves. -/
theorem unescape_cons_sound {c : UInt8} {body out : Bytes} {capacity : ℕ}
    (h : unescape (c :: body) (capacity + 1) = some out) :
    ∃ decoded char rest more, Encodes decoded char ∧ c :: body = char ++ rest ∧
      out = decoded :: more ∧ unescape rest capacity = some more := by
  rw [unescape] at h
  obtain ⟨⟨decoded, rest⟩, hchar, h⟩ := Option.bind_eq_some_iff.mp h
  obtain ⟨more, hmore, rfl⟩ := Option.map_eq_some_iff.mp h
  obtain ⟨char, hencodes, hbody⟩ := unescapeChar_sound hchar
  exact ⟨decoded, char, rest, more, hencodes, hbody, rfl, hmore⟩

end steps

/-- `unescape` into a buffer gives what the string stands for, if that fits. -/
theorem unescape_iff {body out : Bytes} {capacity : ℕ} :
    unescape body capacity = some out ↔ Decodes body out ∧ out.length ≤ capacity := by
  constructor
  · intro h
    induction capacity generalizing body out with
    | zero =>
      cases body with
      | nil =>
        cases h
        exact ⟨.nil, Nat.zero_le _⟩
      | cons c body => cases (unescape_full c body).symm.trans h
    | succ capacity ih =>
      cases body with
      | nil =>
        cases h
        exact ⟨.nil, Nat.zero_le _⟩
      | cons c body =>
        obtain ⟨decoded, char, rest, more, hchar, hbody, rfl, hmore⟩ := unescape_cons_sound h
        obtain ⟨hdecodes, hlength⟩ := ih hmore
        exact ⟨hbody ▸ .cons hchar hdecodes, Nat.succ_le_succ hlength⟩
  · rintro ⟨hdecodes, hlength⟩
    induction hdecodes generalizing capacity with
    | nil => exact unescape_nil capacity
    | cons hchar _ ih =>
      obtain ⟨capacity, rfl⟩ := Nat.exists_eq_add_of_le' (Nat.one_le_of_lt hlength)
      rw [hchar.unescape_eq, ih (Nat.le_of_succ_le_succ hlength)]
      rfl

theorem Decodes.length_le {body out : Bytes} (h : Decodes body out) : out.length ≤ body.length := by
  induction h with
  | nil => exact Nat.le_refl 0
  | cons hchar _ ih =>
    have hpos := List.length_pos_of_ne_nil hchar.ne_nil
    rw [List.length_append, List.length_cons]
    omega

theorem escapedEquals_cons {decoded : UInt8} {char : Bytes} (h : Encodes decoded char)
    (rest : Bytes) (x : UInt8) (expected : Bytes) : escapedEquals (char ++ rest) (x :: expected) =
      if x ≠ decoded then false else escapedEquals rest expected := by
  have hne : (char ++ rest).isEmpty = false := by simp [h.ne_nil]
  have hone : unescape char 1 = some [decoded] := by
    have := h.unescape_eq [] 0
    rwa [List.append_nil] at this
  simp only [escapedEquals, hne, h.width, List.take_left, List.drop_left, hone]
  rw [if_neg (by simp), if_neg (by simp)]

/-- `escaped_equals` compares with what the string stands for. -/
theorem escapedEquals_iff {body expected : Bytes} :
    escapedEquals body expected = true ↔ Decodes body expected := by
  constructor
  · intro h
    induction expected generalizing body with
    | nil =>
      obtain rfl : body = [] := List.isEmpty_iff.mp h
      exact .nil
    | cons x expected ih =>
      have hall := h
      unfold escapedEquals at h
      simp only at h
      split_ifs at h with hempty hwidth
      split at h
      · rename_i decoded hone
        -- the first character takes the whole of its width
        cases hpiece : body.take (escapeWidth body) with
        | nil => simp [hpiece, unescape] at hone
        | cons c piece =>
          rw [hpiece] at hone
          obtain ⟨first, char, rest, more, hchar, hbody, hout, hmore⟩ := unescape_cons_sound hone
          obtain ⟨rfl, rfl⟩ := List.cons.inj hout
          obtain rfl : rest = [] := by
            cases rest with
            | nil => rfl
            | cons c rest => cases (unescape_full c rest).symm.trans hmore
          have hsplit : body = char ++ body.drop (escapeWidth body) := by
            conv_lhs => rw [← List.take_append_drop (escapeWidth body) body]
            rw [hpiece, hbody, List.append_nil]
          rw [hsplit, escapedEquals_cons hchar] at hall
          split_ifs at hall with hx
          rw [not_not] at hx
          subst hx
          rw [hsplit]
          exact .cons hchar (ih hall)
      · cases h
  · intro h
    induction h with
    | nil => rfl
    | cons hchar _ ih => rw [escapedEquals_cons hchar, if_neg (by simp), ih]

theorem escapedEquals_iff_unescape {body expected : Bytes} :
    escapedEquals body expected = true ↔ unescape body body.length = some expected := by
  rw [escapedEquals_iff, unescape_iff]
  exact ⟨fun h => ⟨h, h.length_le⟩, fun h => h.1⟩

section copying

variable {value : JsonValue} {e : CString}

/-- `strcmp(buffer, e) = 0`, of a buffer with a terminator in it. -/
def ReadsAs (buffer : Bytes) (e : CString) : Prop := buffer.takeWhile (· ≠ 0) = e.bytes

/-- A string that is written without a NUL in it reads as itself. -/
theorem readsAs_terminated {out : Bytes} (h : 0 ∉ out) : ReadsAs (out ++ [0]) e ↔ out = e.bytes := by
  have hall : ∀ c ∈ out, decide (c ≠ 0) = true := by
    intro c hc
    rw [decide_eq_true_eq]
    rintro rfl
    exact h hc
  rw [ReadsAs, List.takeWhile_append_of_pos hall]
  simp

/-- What `json_get_string` is left with by every buffer that is large enough. -/
def CopiesOut (value : JsonValue) (out : Bytes) : Prop :=
  ∃ enough, ∀ size, enough ≤ size → jsonGetString value size = some out

theorem copiesOut_iff {out : Bytes} :
    CopiesOut value out ↔ value.type = .string ∧ 2 ≤ value.length ∧ Decodes value.body out := by
  constructor
  · rintro ⟨enough, hcopies⟩
    have hcopy := hcopies (enough + 1) (Nat.le_succ _)
    unfold jsonGetString at hcopy
    split at hcopy
    · cases hcopy
    · next hrefused =>
      obtain ⟨-, hrest⟩ := not_or.mp hrefused
      obtain ⟨htype, hlength⟩ := not_or.mp hrest
      exact ⟨not_not.mp htype, not_lt.mp hlength, (unescape_iff.mp hcopy).1⟩
  · rintro ⟨htype, hlength, hdecodes⟩
    refine ⟨out.length + 1, fun size hsize => ?_⟩
    have hnot : ¬(size = 0 ∨ value.type ≠ .string ∨ value.length < 2) := by
      rintro (h | h | h)
      · omega
      · exact h htype
      · omega
    rw [jsonGetString, if_neg hnot]
    exact unescape_iff.mpr ⟨hdecodes, by omega⟩

theorem jsonStringEquals_decodes : jsonStringEquals value e = true ↔
    value.type = .string ∧ 2 ≤ value.length ∧ Decodes value.body e.bytes := by
  unfold jsonStringEquals
  split
  · next hrefused =>
    constructor
    · exact fun h => by cases h
    · rintro ⟨htype, hlength, -⟩
      rcases hrefused with h | h
      · exact absurd htype h
      · omega
  · next hrefused =>
    push Not at hrefused
    rw [escapedEquals_iff]
    exact ⟨fun h => ⟨hrefused.1, hrefused.2, h⟩, fun h => h.2.2⟩

/-- Comparing in place agrees with copying out and comparing, as long as no NUL is copied. -/
theorem jsonStringEquals_iff (value : JsonValue) (e : CString) : jsonStringEquals value e = true ↔
    ∃ out, CopiesOut value out ∧ 0 ∉ out ∧ ReadsAs (out ++ [0]) e := by
  constructor
  · intro h
    exact ⟨e.bytes, copiesOut_iff.mpr (jsonStringEquals_decodes.mp h), e.nul_free,
      (readsAs_terminated e.nul_free).mpr rfl⟩
  · rintro ⟨out, hcopies, hnul, hreads⟩
    obtain rfl := (readsAs_terminated hnul).mp hreads
    exact jsonStringEquals_decodes.mpr (copiesOut_iff.mp hcopies)

/-- `"a\u0000b"` between its quotes: what is copied out of it reads as `a`, which it does not equal
in place. -/
theorem jsonStringEquals_nul :
    let text : Bytes := [0x22, 0x61, 0x5C, 0x75, 0x30, 0x30, 0x30, 0x30, 0x62, 0x22]
    skipString text = some [] ∧ jsonStringEquals (located text []) (cstr "a") = false ∧
      CopiesOut (located text []) [0x61, 0x00, 0x62] ∧
      ReadsAs ([0x61, 0x00, 0x62] ++ [0]) (cstr "a") := by
  refine ⟨by decide, by decide, ?_, rfl⟩
  refine copiesOut_iff.mpr ⟨by decide, by decide, ?_⟩
  exact (unescape_iff.mp (show unescape _ 3 = some [0x61, 0x00, 0x62] by decide)).1

end copying

end Pico
