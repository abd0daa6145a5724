import Mathlib.Data.List.DropRight
import Mathlib.Data.List.TakeWhile
import PicoFramework.Lib.Json
import PicoFramework.Spec.Json

/-! What the scanner of `json.c` passes over. Its tokens are looser than those of
RFC 8259; over them it accepts exactly the values of the grammar, down to JSON_MAX_DEPTH. -/

namespace Pico

open Lib.Json

/-- The inside of a string: a backslash takes the next byte with it, whatever that is. -/
inductive ScannedChars : Bytes → Prop
  | nil : ScannedChars []
  | plain {c : UInt8} {rest : Bytes} (hquote : c ≠ 0x22) (hescape : c ≠ 0x5C)
      (h : ScannedChars rest) : ScannedChars (c :: rest)
  | escape {c : UInt8} {rest : Bytes} (h : ScannedChars rest) : ScannedChars (0x5C :: c :: rest)

def Sign (text : Bytes) : Prop := text = [] ∨ text = [0x2D] ∨ text = [0x2B]

/-- A number, of which no part but a last digit is required. -/
structure ScannedNumber (sign whole frac exp : Bytes) : Prop where
  sign_eq : Sign sign
  digits : Digits whole
  frac_eq : frac = [] ∨ ∃ ds, Digits ds ∧ frac = 0x2E :: ds
  exp_eq : exp = [] ∨
    ∃ e sg ds, (e = 0x65 ∨ e = 0x45) ∧ Sign sg ∧ Digits ds ∧ exp = e :: (sg ++ ds)
  last : (sign ++ (whole ++ (frac ++ exp))).getLast?.any isDigit = true

/-- The tokens that the scanner knows. -/
def scanned : Tokens where
  string text := ∃ chars, ScannedChars chars ∧ text = 0x22 :: (chars ++ [0x22])
  number text := ∃ sign whole frac exp, ScannedNumber sign whole frac exp ∧
    text = sign ++ (whole ++ (frac ++ exp))

section whitespace

theorem skipWhitespace_append {space p : Bytes} (h : Whitespace space) :
    skipWhitespace (space ++ p) = skipWhitespace p :=
  List.dropWhile_append_of_pos h

theorem skipWhitespace_cons {c : UInt8} {p : Bytes} (h : isWhitespace c = false) :
    skipWhitespace (c :: p) = c :: p :=
  List.dropWhile_cons_of_neg (by rw [show isJsonSpace c = false from h]; simp)

theorem skipWhitespace_idem (p : Bytes) : skipWhitespace (skipWhitespace p) = skipWhitespace p :=
  List.dropWhile_idempotent _ p

theorem exists_skipWhitespace (p : Bytes) : ∃ space, Whitespace space ∧ p = space ++ skipWhitespace p :=
  ⟨p.takeWhile isJsonSpace, fun _ hc => List.mem_takeWhile_imp hc,
    List.takeWhile_append_dropWhile.symm⟩

end whitespace

section strings

theorem skipStringBody_quote (rest : Bytes) : skipStringBody (0x22 :: rest) = some rest := by
  cases rest with
  | nil => rfl
  | cons c rest => rfl

theorem skipStringBody_escape (c : UInt8) (rest : Bytes) :
    skipStringBody (0x5C :: c :: rest) = skipStringBody rest := rfl

theorem skipStringBody_plain {c : UInt8} (hquote : c ≠ 0x22) (hescape : c ≠ 0x5C) (rest : Bytes) :
    skipStringBody (c :: rest) = skipStringBody rest := by
  cases rest with
  | nil => simp only [skipStringBody, if_neg hescape, if_neg hquote]
  | cons next rest => simp only [skipStringBody, if_neg hescape, if_neg hquote]

theorem skipStringBody_complete {chars : Bytes} (h : ScannedChars chars) (rest : Bytes) :
    skipStringBody (chars ++ 0x22 :: rest) = some rest := by
  induction h with
  | nil => exact skipStringBody_quote rest
  | plain hquote hescape _ ih =>
    rw [List.cons_append, skipStringBody_plain hquote hescape, ih]
  | escape _ ih => rw [List.cons_append, List.cons_append, skipStringBody_escape, ih]

theorem skipStringBody_sound {p rest : Bytes} (h : skipStringBody p = some rest) :
    ∃ chars, ScannedChars chars ∧ p = chars ++ 0x22 :: rest := by
  -- a backslash takes two bytes, so the recursion is on what both leave
  induction hn : p.length using Nat.strong_induction_on generalizing p with
  | _ n ih =>
    cases p with
    | nil => cases h
    | cons c p =>
      rw [List.length_cons] at hn
      by_cases hescape : c = 0x5C
      · subst hescape
        cases p with
        | nil => cases h
        | cons next p =>
          rw [List.length_cons] at hn
          rw [skipStringBody_escape] at h
          obtain ⟨chars, hchars, rfl⟩ := ih _ (by omega) h rfl
          exact ⟨_, .escape hchars, rfl⟩
      · by_cases hquote : c = 0x22
        · subst hquote
          rw [skipStringBody_quote] at h
          exact ⟨[], .nil, by rw [Option.some.inj h]; rfl⟩
        · rw [skipStringBody_plain hquote hescape] at h
          obtain ⟨chars, hchars, rfl⟩ := ih _ (by omega) h rfl
          exact ⟨_, .plain hquote hescape hchars, rfl⟩

theorem skipString_complete {text : Bytes} (h : scanned.string text) (rest : Bytes) :
    skipString (text ++ rest) = some rest := by
  obtain ⟨chars, hchars, rfl⟩ := h
  rw [List.cons_append, List.append_assoc, List.singleton_append, skipString, if_neg (by simp)]
  exact skipStringBody_complete hchars rest

theorem skipString_sound {p rest : Bytes} (h : skipString p = some rest) :
    ∃ text, scanned.string text ∧ p = text ++ rest := by
  unfold skipString at h
  cases p with
  | nil => cases h
  | cons c p =>
    simp only at h
    split_ifs at h with hquote
    obtain ⟨chars, hchars, rfl⟩ := skipStringBody_sound h
    rw [not_not] at hquote
    subst hquote
    exact ⟨_, ⟨chars, hchars, rfl⟩, by simp⟩

end strings

section numbers

/-- What may follow a number without being taken into it. -/
def NumberEnds (rest : Bytes) : Prop :=
  ∀ c ∈ rest.head?, isDigit c = false ∧ c ≠ 0x2E ∧ c ≠ 0x65 ∧ c ≠ 0x45

theorem skipSign_append {sign rest : Bytes} (h : Sign sign)
    (hrest : ∀ c ∈ rest.head?, c ≠ 0x2D ∧ c ≠ 0x2B) : skipSign (sign ++ rest) = rest := by
  rcases h with rfl | rfl | rfl
  · cases rest with
    | nil => rfl
    | cons c rest => exact if_neg (not_or.mpr (hrest c rfl))
  · rfl
  · rfl

theorem skipDigits_append {ds rest : Bytes} (h : Digits ds)
    (hrest : ∀ c ∈ rest.head?, isDigit c = false) : skipDigits (ds ++ rest) = rest := by
  refine (List.dropWhile_append_of_pos h).trans ?_
  cases rest with
  | nil => rfl
  | cons c rest =>
    exact List.dropWhile_cons_of_neg (by rw [hrest c rfl]; simp)

theorem skipFraction_append {frac rest : Bytes}
    (h : frac = [] ∨ ∃ ds, Digits ds ∧ frac = 0x2E :: ds)
    (hrest : ∀ c ∈ rest.head?, isDigit c = false ∧ c ≠ 0x2E) :
    skipFraction (frac ++ rest) = rest := by
  rcases h with rfl | ⟨ds, hds, rfl⟩
  · cases rest with
    | nil => rfl
    | cons c rest => exact if_neg (hrest c rfl).2
  · exact skipDigits_append hds fun c hc => (hrest c hc).1

theorem skipExponent_append {exp rest : Bytes} (h : exp = [] ∨ ∃ e sg ds,
      (e = 0x65 ∨ e = 0x45) ∧ Sign sg ∧ Digits ds ∧ exp = e :: (sg ++ ds) ∧ ds ≠ [])
    (hrest : ∀ c ∈ rest.head?, isDigit c = false ∧ c ≠ 0x65 ∧ c ≠ 0x45) :
    skipExponent (exp ++ rest) = rest := by
  rcases h with rfl | ⟨e, sg, ds, he, hsg, hds, rfl, hne⟩
  · cases rest with
    | nil => rfl
    | cons c rest => exact if_neg (not_or.mpr (hrest c rfl).2)
  · have hsign : skipSign (sg ++ (ds ++ rest)) = ds ++ rest := by
      refine skipSign_append hsg fun c hc => ?_
      obtain ⟨d, ds, rfl⟩ := List.exists_cons_of_ne_nil hne
      obtain rfl := Option.some.inj hc
      have hd := hds d (by simp)
      constructor
      · rintro rfl
        exact absurd hd (by decide)
      · rintro rfl
        exact absurd hd (by decide)
    rw [List.cons_append, List.append_assoc, skipExponent, if_pos he, hsign]
    exact skipDigits_append hds fun c hc => (hrest c hc).1

theorem exists_skipSign (p : Bytes) : ∃ sign, Sign sign ∧ p = sign ++ skipSign p := by
  cases p with
  | nil => exact ⟨[], Or.inl rfl, rfl⟩
  | cons c p =>
    unfold skipSign
    simp only
    split_ifs with h
    · rcases h with rfl | rfl
      · exact ⟨_, Or.inr (Or.inl rfl), rfl⟩
      · exact ⟨_, Or.inr (Or.inr rfl), rfl⟩
    · exact ⟨[], Or.inl rfl, rfl⟩

theorem exists_skipDigits (p : Bytes) : ∃ ds, Digits ds ∧ p = ds ++ skipDigits p :=
  ⟨p.takeWhile isJsonDigit, fun _ hc => List.mem_takeWhile_imp hc,
    List.takeWhile_append_dropWhile.symm⟩

theorem exists_skipFraction (p : Bytes) : ∃ frac, (frac = [] ∨ ∃ ds, Digits ds ∧ frac = 0x2E :: ds) ∧
    p = frac ++ skipFraction p := by
  cases p with
  | nil => exact ⟨[], Or.inl rfl, rfl⟩
  | cons c p =>
    unfold skipFraction
    simp only
    split_ifs with h
    · subst h
      obtain ⟨ds, hds, hp⟩ := exists_skipDigits p
      exact ⟨_, Or.inr ⟨ds, hds, rfl⟩, by rw [List.cons_append, ← hp]⟩
    · exact ⟨[], Or.inl rfl, rfl⟩

theorem exists_skipExponent (p : Bytes) : ∃ exp, (exp = [] ∨ ∃ e sg ds, (e = 0x65 ∨ e = 0x45) ∧
    Sign sg ∧ Digits ds ∧ exp = e :: (sg ++ ds)) ∧ p = exp ++ skipExponent p := by
  cases p with
  | nil => exact ⟨[], Or.inl rfl, rfl⟩
  | cons c p =>
    unfold skipExponent
    simp only
    split_ifs with h
    · obtain ⟨sg, hsg, hp⟩ := exists_skipSign p
      obtain ⟨ds, hds, hq⟩ := exists_skipDigits (skipSign p)
      exact ⟨_, Or.inr ⟨c, sg, ds, h, hsg, hds, rfl⟩,
        by rw [List.cons_append, List.append_assoc, ← hq, ← hp]⟩
    · exact ⟨[], Or.inl rfl, rfl⟩

theorem skipNumber_sound {p rest : Bytes} (h : skipNumber p = some rest) :
    ∃ text, scanned.number text ∧ p = text ++ rest := by
  obtain ⟨sign, hsign, h₁⟩ := exists_skipSign p
  obtain ⟨whole, hwhole, h₂⟩ := exists_skipDigits (skipSign p)
  obtain ⟨frac, hfrac, h₃⟩ := exists_skipFraction (skipDigits (skipSign p))
  obtain ⟨exp, hexp, h₄⟩ := exists_skipExponent (skipFraction (skipDigits (skipSign p)))
  unfold skipNumber at h
  simp only at h
  split_ifs at h with hlast
  obtain rfl := Option.some.inj h
  have hp : p = (sign ++ (whole ++ (frac ++ exp))) ++
      skipExponent (skipFraction (skipDigits (skipSign p))) := by
    rw [List.append_assoc, List.append_assoc, List.append_assoc, ← h₄, ← h₃, ← h₂, ← h₁]
  refine ⟨_, ⟨sign, whole, frac, exp, ⟨hsign, hwhole, hfrac, hexp, ?_⟩, rfl⟩, hp⟩
  generalize skipExponent (skipFraction (skipDigits (skipSign p))) = rest at hp hlast
  rw [hp, List.length_append, Nat.add_sub_cancel, List.take_left] at hlast
  exact hlast

theorem skipNumber_complete {text rest : Bytes} (h : scanned.number text) (hrest : NumberEnds rest) :
    skipNumber (text ++ rest) = some rest := by
  obtain ⟨sign, whole, frac, exp, hnumber, rfl⟩ := h
  have hlast := hnumber.last
  -- an exponent has a digit, since the number ends in one
  have hexp : exp = [] ∨ ∃ e sg ds, (e = 0x65 ∨ e = 0x45) ∧ Sign sg ∧ Digits ds ∧
      exp = e :: (sg ++ ds) ∧ ds ≠ [] := by
    rcases hnumber.exp_eq with hnil | ⟨e, sg, ds, he, hsg, hds, hexp⟩
    · exact Or.inl hnil
    · refine Or.inr ⟨e, sg, ds, he, hsg, hds, hexp, ?_⟩
      rintro rfl
      rw [hexp, List.append_nil] at hlast
      rcases hsg with rfl | rfl | rfl
      · rcases he with rfl | rfl
        · simp [isDigit] at hlast
        · simp [isDigit] at hlast
      · simp [isDigit] at hlast
      · simp [isDigit] at hlast
  have hafterFrac : ∀ c ∈ (exp ++ rest).head?, isDigit c = false ∧ c ≠ 0x2E := by
    intro c hc
    rcases hexp with rfl | ⟨e, sg, ds, he, -, -, rfl, -⟩
    · exact ⟨(hrest c hc).1, (hrest c hc).2.1⟩
    · obtain rfl := Option.some.inj hc
      rcases he with rfl | rfl
      · decide
      · decide
  have hafterWhole : ∀ c ∈ (frac ++ (exp ++ rest)).head?, isDigit c = false := by
    intro c hc
    rcases hnumber.frac_eq with rfl | ⟨ds, -, rfl⟩
    · exact (hafterFrac c hc).1
    · obtain rfl := Option.some.inj hc
      decide
  have hafterSign : ∀ c ∈ (whole ++ (frac ++ (exp ++ rest))).head?, c ≠ 0x2D ∧ c ≠ 0x2B := by
    intro c hc
    cases whole with
    | cons d ds =>
      obtain rfl := Option.some.inj hc
      have hd := hnumber.digits d (by simp)
      constructor
      · rintro rfl
        exact absurd hd (by decide)
      · rintro rfl
        exact absurd hd (by decide)
    | nil =>
      rcases hnumber.frac_eq with rfl | ⟨ds, -, rfl⟩
      · rcases hexp with rfl | ⟨e, sg, ds, he, -, -, rfl, -⟩
        · rcases hnumber.sign_eq with rfl | rfl | rfl
          · simp at hlast
          · simp [isDigit] at hlast
          · simp [isDigit] at hlast
        · obtain rfl := Option.some.inj hc
          rcases he with rfl | rfl
          · decide
          · decide
      · obtain rfl := Option.some.inj hc
        decide
  have hskip : skipExponent (skipFraction (skipDigits (skipSign
      (sign ++ (whole ++ (frac ++ exp)) ++ rest)))) = rest := by
    simp only [List.append_assoc]
    rw [skipSign_append hnumber.sign_eq hafterSign, skipDigits_append hnumber.digits hafterWhole,
      skipFraction_append hnumber.frac_eq hafterFrac,
      skipExponent_append hexp fun c hc => ⟨(hrest c hc).1, (hrest c hc).2.2⟩]
  unfold skipNumber
  simp only [hskip]
  rw [List.length_append, Nat.add_sub_cancel, List.take_left]
  exact if_pos hlast

/-- What a number may begin with. -/
def isNumberStart (c : UInt8) : Bool :=
  isDigit c || c = 0x2D || c = 0x2B || c = 0x2E || c = 0x65 || c = 0x45

theorem number_start {text : Bytes} (h : scanned.number text) :
    ∃ c rest, text = c :: rest ∧ isNumberStart c = true := by
  obtain ⟨sign, whole, frac, exp, hnumber, rfl⟩ := h
  rcases hnumber.sign_eq with rfl | rfl | rfl
  · cases whole with
    | cons d ds => exact ⟨d, _, rfl, by simp [isNumberStart, hnumber.digits d (by simp)]⟩
    | nil =>
      rcases hnumber.frac_eq with rfl | ⟨ds, -, rfl⟩
      · rcases hnumber.exp_eq with rfl | ⟨e, sg, ds, he, -, -, rfl⟩
        · exact absurd hnumber.last (by simp)
        · exact ⟨e, _, rfl, by rcases he with rfl | rfl <;> decide⟩
      · exact ⟨0x2E, _, rfl, by decide⟩
  · exact ⟨0x2D, _, rfl, by decide⟩
  · exact ⟨0x2B, _, rfl, by decide⟩

end numbers

section values

theorem skipLiteral_complete (word rest : Bytes) : skipLiteral (word ++ rest) word = some rest := by
  rw [skipLiteral, if_pos (List.isPrefixOf_iff_prefix.mpr (List.prefix_append word rest)),
    List.drop_left]

theorem skipLiteral_sound {p word rest : Bytes} (h : skipLiteral p word = some rest) :
    p = word ++ rest := by
  unfold skipLiteral at h
  split_ifs at h with hbegins
  obtain ⟨tail, rfl⟩ := List.isPrefixOf_iff_prefix.mp hbegins
  rw [List.drop_left] at h
  rw [Option.some.inj h]

theorem value_start {n : ℕ} {text : Bytes} (h : Value scanned n text) :
    ∃ c rest, text = c :: rest ∧ isWhitespace c = false ∧ c ≠ 0x7D ∧ c ≠ 0x5D := by
  cases h with
  | string h =>
    obtain ⟨chars, -, rfl⟩ := h
    exact ⟨0x22, _, rfl, by decide⟩
  | number h =>
    obtain ⟨c, rest, rfl, hc⟩ := number_start h
    have hne {d : UInt8} (hd : isNumberStart d = false) : c ≠ d := by
      rintro rfl
      rw [hc] at hd
      cases hd
    refine ⟨c, rest, rfl, ?_, hne (by decide), hne (by decide)⟩
    simp [isWhitespace, hne (d := 0x20) (by decide), hne (d := 0x09) (by decide),
      hne (d := 0x0A) (by decide), hne (d := 0x0D) (by decide)]
  | literal h =>
    simp only [literals, List.mem_cons, List.not_mem_nil, or_false] at h
    rcases h with rfl | rfl | rfl
    · exact ⟨_, _, rfl, by decide⟩
    · exact ⟨_, _, rfl, by decide⟩
    · exact ⟨_, _, rfl, by decide⟩
  | empty bracket h =>
    cases bracket with
    | object => exact ⟨_, _, rfl, by decide⟩
    | array => exact ⟨_, _, rfl, by decide⟩
  | container bracket hne hlead hafter hvalue =>
    cases bracket with
    | object => exact ⟨_, _, rfl, by decide⟩
    | array => exact ⟨_, _, rfl, by decide⟩

theorem skipWhitespace_value {n : ℕ} {text : Bytes} (h : Value scanned n text) (rest : Bytes) :
    skipWhitespace (text ++ rest) = text ++ rest := by
  obtain ⟨c, tail, rfl, hc, -⟩ := value_start h
  exact skipWhitespace_cons hc

end values

section items

variable {sv : Bytes → Option Bytes} {bracket : Bracket} {n : ℕ}

theorem skipName_complete {naming : Naming} (h : naming.WellFormed scanned) (rest : Bytes) :
    skipName (naming.text ++ rest) = some (naming.lead ++ rest) := by
  have hname (more : Bytes) : skipWhitespace (naming.name ++ more) = naming.name ++ more := by
    obtain ⟨chars, -, hquote⟩ := h.name
    rw [hquote]
    exact skipWhitespace_cons (by decide)
  unfold skipName Naming.text
  simp only [List.append_assoc, List.cons_append]
  rw [skipWhitespace_append h.before, hname, skipString_complete h.name]
  simp only [Option.bind_eq_bind, Option.bind_some]
  rw [skipWhitespace_append h.gap, skipWhitespace_cons (by decide)]
  exact if_neg (by simp)

theorem skipName_sound {p rest : Bytes} (h : skipName p = some rest) :
    ∃ naming : Naming, naming.WellFormed scanned ∧ naming.lead = [] ∧ p = naming.text ++ rest := by
  unfold skipName at h
  simp only [Option.bind_eq_bind, Option.bind_eq_some_iff] at h
  obtain ⟨nameEnd, hname, hcolon⟩ := h
  obtain ⟨before, hbefore, hp⟩ := exists_skipWhitespace p
  obtain ⟨name, hstring, hsplit⟩ := skipString_sound hname
  obtain ⟨gap, hgap, hend⟩ := exists_skipWhitespace nameEnd
  cases hrest : skipWhitespace nameEnd with
  | nil => simp [hrest] at hcolon
  | cons c tail =>
    rw [hrest] at hcolon hend
    simp only at hcolon
    split_ifs at hcolon with hc
    rw [not_not] at hc
    obtain rfl := Option.some.inj hcolon
    refine ⟨⟨before, name, gap, []⟩, ⟨hbefore, hstring, hgap, Whitespace.nil⟩, rfl, ?_⟩
    rw [hp, hsplit, hend, hc]
    simp [Naming.text]

/-- What leads up to a value, as the loop of `skip_container` passes it. -/
def skipLead (bracket : Bracket) (p : Bytes) : Option Bytes :=
  if bracket.opening = 0x7B then skipName p else some p

theorem skipLead_complete {lead : Bytes} (h : bracket.Lead scanned lead) (rest : Bytes) :
    ∃ q, skipLead bracket (lead ++ rest) = some q ∧ skipWhitespace q = skipWhitespace rest := by
  cases bracket with
  | object =>
    obtain ⟨naming, hwell, rfl⟩ := h
    exact ⟨_, skipName_complete hwell rest, skipWhitespace_append hwell.lead⟩
  | array => exact ⟨_, rfl, skipWhitespace_append h⟩

theorem skipLead_sound {p q : Bytes} (h : skipLead bracket p = some q) :
    ∃ lead, bracket.Lead scanned lead ∧ p = lead ++ skipWhitespace q := by
  obtain ⟨space, hspace, hq⟩ := exists_skipWhitespace q
  cases bracket with
  | object =>
    obtain ⟨naming, hwell, hlead, hp⟩ := skipName_sound h
    refine ⟨_, ⟨{ naming with lead := space }, ⟨hwell.before, hwell.name, hwell.gap, hspace⟩, rfl⟩, ?_⟩
    rw [hp]
    conv_lhs => rw [hq]
    simp [Naming.text, hlead]
  | array =>
    obtain rfl := Option.some.inj h
    exact ⟨space, hspace, hq⟩

theorem skipItems_succ (fuel : ℕ) (p : Bytes) :
    skipItems sv bracket.opening bracket.closing (fuel + 1) p =
      (skipLead bracket p).bind fun p => (sv (skipWhitespace p)).bind fun p =>
        match skipWhitespace p with
        | [] => none
        | c :: rest =>
            if c = bracket.closing then some rest
            else if c ≠ 0x2C then none
            else skipItems sv bracket.opening bracket.closing fuel (skipWhitespace rest) := by
  cases bracket with
  | object => rfl
  | array => rfl

theorem skipLead_space (bracket : Bracket) (p : Bytes) : (skipLead bracket (skipWhitespace p)).map skipWhitespace =
    (skipLead bracket p).map skipWhitespace := by
  cases bracket with
  | object =>
    change (skipName _).map _ = (skipName _).map _
    unfold skipName
    rw [skipWhitespace_idem]
  | array =>
    change some (skipWhitespace (skipWhitespace p)) = some (skipWhitespace p)
    rw [skipWhitespace_idem]

theorem skipItems_space (fuel : ℕ) (p : Bytes) :
    skipItems sv bracket.opening bracket.closing fuel (skipWhitespace p) =
      skipItems sv bracket.opening bracket.closing fuel p := by
  cases fuel with
  | zero => rfl
  | succ fuel =>
    have hlead := skipLead_space bracket p
    rw [skipItems_succ, skipItems_succ]
    cases h : skipLead bracket p with
    | none =>
      rw [h] at hlead
      rw [Option.map_eq_none_iff.mp hlead]
    | some q =>
      rw [h] at hlead
      obtain ⟨q', hq', hsame⟩ := Option.map_eq_some_iff.mp hlead
      rw [hq', Option.bind_some, Option.bind_some, hsame]

theorem number_ends_at_space {c : UInt8} (h : isWhitespace c = true) :
    isDigit c = false ∧ c ≠ 0x2E ∧ c ≠ 0x65 ∧ c ≠ 0x45 := by
  simp only [isWhitespace, Bool.or_eq_true, decide_eq_true_eq] at h
  rcases h with ((rfl | rfl) | rfl) | rfl
  · decide
  · decide
  · decide
  · decide

theorem numberEnds_after (bracket : Bracket) {after : Bytes} (h : Whitespace after) {c : UInt8}
    (hc : c = bracket.closing ∨ c = 0x2C) (rest : Bytes) : NumberEnds (after ++ c :: rest) := by
  intro d hd
  cases after with
  | nil =>
    obtain rfl : c = d := Option.some.inj hd
    rcases hc with rfl | rfl
    · cases bracket with
      | object => decide
      | array => decide
    · decide
  | cons e after =>
    obtain rfl : e = d := Option.some.inj hd
    exact number_ends_at_space (h e (by simp))

/-- What the loop needs of the values of a container: that the scanner passes them. -/
def Passes (sv : Bytes → Option Bytes) (n : ℕ) : Prop :=
  ∀ text rest, Value scanned n text → NumberEnds rest → sv (text ++ rest) = some rest

def Sound (sv : Bytes → Option Bytes) (n : ℕ) : Prop :=
  ∀ p rest, sv p = some rest → ∃ text, Value scanned n text ∧ p = text ++ rest

theorem skipItem_complete (hsv : Passes sv n) {item : Item}
    (hitem : bracket.Lead scanned item.lead ∧ Value scanned n item.value ∧ Whitespace item.after)
    {c : UInt8} (hc : c = bracket.closing ∨ c = 0x2C) (fuel : ℕ) (rest : Bytes) :
    skipItems sv bracket.opening bracket.closing (fuel + 1) (item.text ++ c :: rest) =
      if c = bracket.closing then some rest
      else if c ≠ 0x2C then none
      else skipItems sv bracket.opening bracket.closing fuel rest := by
  obtain ⟨hlead, hvalue, hafter⟩ := hitem
  obtain ⟨q, hq, hspace⟩ :=
    skipLead_complete hlead (item.value ++ (item.after ++ c :: rest))
  have hblank : isWhitespace c = false := by
    rcases hc with rfl | rfl
    · cases bracket with
      | object => decide
      | array => decide
    · decide
  rw [skipItems_succ, Item.text, List.append_assoc, List.append_assoc, hq, Option.bind_some, hspace,
    skipWhitespace_value hvalue, hsv _ _ hvalue (numberEnds_after bracket hafter hc rest), Option.bind_some,
    skipWhitespace_append hafter, skipWhitespace_cons hblank]
  simp only [skipItems_space]

theorem skipItems_complete (hsv : Passes sv n) {items : List Item} (hne : items ≠ [])
    (hitems : ∀ item ∈ items, bracket.Lead scanned item.lead ∧ Value scanned n item.value ∧
      Whitespace item.after) {fuel : ℕ} (hfuel : items.length ≤ fuel) (rest : Bytes) :
    skipItems sv bracket.opening bracket.closing fuel (joined items ++ bracket.closing :: rest) =
      some rest := by
  induction items generalizing fuel with
  | nil => exact absurd rfl hne
  | cons item items ih =>
    obtain ⟨fuel, rfl⟩ : ∃ k, fuel = k + 1 := ⟨fuel - 1, by simp at hfuel; omega⟩
    have hitem := hitems item (by simp)
    cases items with
    | nil =>
      rw [joined, skipItem_complete hsv hitem (Or.inl rfl), if_pos rfl]
    | cons next items =>
      have hcomma : (0x2C : UInt8) ≠ bracket.closing := by
        cases bracket with
        | object => decide
        | array => decide
      rw [joined, List.append_assoc, List.cons_append,
        skipItem_complete hsv hitem (Or.inr rfl), if_neg hcomma, if_neg (by simp)]
      exact ih (by simp) (fun x hx => hitems x (List.mem_cons_of_mem _ hx))
        (by simpa using hfuel)

theorem skipItems_sound (hsv : Sound sv n) {fuel : ℕ} {p rest : Bytes}
    (h : skipItems sv bracket.opening bracket.closing fuel p = some rest) :
    ∃ items : List Item, items ≠ [] ∧ (∀ item ∈ items, bracket.Lead scanned item.lead ∧
      Value scanned n item.value ∧ Whitespace item.after) ∧
      p = joined items ++ bracket.closing :: rest := by
  induction fuel generalizing p with
  | zero => cases h
  | succ fuel ih =>
    rw [skipItems_succ] at h
    simp only [Option.bind_eq_some_iff] at h
    obtain ⟨q, hlead, valueEnd, hvalue, hnext⟩ := h
    obtain ⟨lead, hlead, hp⟩ := skipLead_sound hlead
    obtain ⟨value, hvalue, hq⟩ := hsv _ _ hvalue
    obtain ⟨after, hafter, hend⟩ := exists_skipWhitespace valueEnd
    rw [hq, hend] at hp
    have hitem : bracket.Lead scanned lead ∧ Value scanned n value ∧ Whitespace after :=
      ⟨hlead, hvalue, hafter⟩
    cases htail : skipWhitespace valueEnd with
    | nil => simp [htail] at hnext
    | cons c tail =>
      rw [htail] at hnext hp
      simp only [skipItems_space] at hnext
      split_ifs at hnext with hclosing hcomma
      · obtain rfl := Option.some.inj hnext
        refine ⟨[⟨lead, value, after⟩], by simp, by simpa using hitem, ?_⟩
        rw [hp, hclosing]
        simp [joined, Item.text]
      · rw [not_not] at hcomma
        obtain ⟨items, hne, hitems, htail⟩ := ih hnext
        refine ⟨⟨lead, value, after⟩ :: items, by simp, ?_, ?_⟩
        · intro x hx
          rcases List.mem_cons.mp hx with rfl | hx
          · exact hitem
          · exact hitems x hx
        · rw [hp, hcomma, htail, joined_cons_ne_nil _ hne]
          simp [Item.text]

theorem length_le_joined {items : List Item} (h : ∀ item ∈ items, Value scanned n item.value) :
    items.length ≤ (joined items).length := by
  induction items with
  | nil => simp
  | cons item items ih =>
    obtain ⟨c, tail, hvalue, -⟩ := value_start (h item (by simp))
    have hone : 1 ≤ item.text.length := by simp [Item.text, hvalue]; omega
    cases items with
    | nil => simpa [joined] using hone
    | cons next items =>
      have hrest := ih fun x hx => h x (List.mem_cons_of_mem _ hx)
      simp only [joined, List.length_append, List.length_cons] at hrest ⊢
      omega

theorem skipContainer_eq (p : Bytes) : skipContainer sv bracket.opening p =
    if (skipWhitespace p).head? = some bracket.closing then some ((skipWhitespace p).drop 1)
    else skipItems sv bracket.opening bracket.closing p.length p := by
  rw [← skipItems_space]
  cases bracket with
  | object => rfl
  | array => rfl

theorem head_item_ne {item : Item} (hlead : bracket.Lead scanned item.lead)
    (hvalue : Value scanned n item.value) (rest : Bytes) :
    (skipWhitespace (item.text ++ rest)).head? ≠ some bracket.closing := by
  rw [Item.text, List.append_assoc]
  cases bracket with
  | object =>
    obtain ⟨naming, hwell, hlead⟩ := hlead
    obtain ⟨chars, -, hname⟩ := hwell.name
    rw [← hlead, Naming.text, List.append_assoc, skipWhitespace_append hwell.before, hname]
    simp only [List.cons_append]
    rw [skipWhitespace_cons (by decide), List.head?_cons]
    decide
  | array =>
    obtain ⟨c, tail, hc, hspace, -, hclosing⟩ := value_start hvalue
    rw [skipWhitespace_append hlead, hc]
    simp only [List.cons_append]
    rw [skipWhitespace_cons hspace, List.head?_cons]
    exact fun h => hclosing (Option.some.inj h)

theorem skipContainer_complete (hsv : Passes sv n) {inside : Bytes}
    (h : bracket.Holds scanned n inside) (rest : Bytes) :
    skipContainer sv bracket.opening (inside ++ bracket.closing :: rest) = some rest := by
  have hclosing : isWhitespace bracket.closing = false := by
    cases bracket with
    | object => decide
    | array => decide
  rw [skipContainer_eq]
  rcases h with hspace | ⟨items, hne, hitems, rfl⟩
  · rw [skipWhitespace_append hspace, skipWhitespace_cons hclosing]
    exact if_pos rfl
  · have hlength := length_le_joined fun item hitem => (hitems item hitem).2.1
    rw [if_neg, skipItems_complete hsv hne hitems (by rw [List.length_append]; omega)]
    cases items with
    | nil => exact absurd rfl hne
    | cons item items =>
      obtain ⟨hlead, hvalue, -⟩ := hitems item (by simp)
      cases items with
      | nil => exact head_item_ne hlead hvalue _
      | cons next items =>
        rw [joined, List.append_assoc]
        exact head_item_ne hlead hvalue _

theorem skipContainer_sound (hsv : Sound sv n) {p rest : Bytes}
    (h : skipContainer sv bracket.opening p = some rest) :
    ∃ inside, bracket.Holds scanned n inside ∧ p = inside ++ bracket.closing :: rest := by
  rw [skipContainer_eq] at h
  split_ifs at h with hempty
  · obtain ⟨space, hspace, hp⟩ := exists_skipWhitespace p
    cases hq : skipWhitespace p with
    | nil => simp [hq] at hempty
    | cons c q =>
      rw [hq] at hempty h hp
      obtain rfl : c = bracket.closing := Option.some.inj hempty
      obtain rfl : q = rest := Option.some.inj h
      exact ⟨space, Or.inl hspace, hp⟩
  · obtain ⟨items, hne, hitems, hp⟩ := skipItems_sound hsv h
    exact ⟨_, Or.inr ⟨items, hne, hitems, rfl⟩, hp⟩

end items

section values

theorem skipValue_bracket (n : ℕ) (bracket : Bracket) (p : Bytes) :
    skipValue (n + 1) (bracket.opening :: p) = skipContainer (skipValue n) bracket.opening p := by
  cases bracket with
  | object => rfl
  | array => rfl

theorem skipValue_number {c : UInt8} (hc : isNumberStart c = true) (n : ℕ) (p : Bytes) :
    skipValue n (c :: p) = skipNumber (c :: p) := by
  have hne {d : UInt8} (hd : isNumberStart d = false) : c ≠ d := by
    rintro rfl
    rw [hc] at hd
    cases hd
  have hwith (container : UInt8 → Bytes → Option Bytes) :
      skipValueWith container (c :: p) = skipNumber (c :: p) := by
    unfold skipValueWith
    simp only [hne (d := 0x22) (by decide), hne (d := 0x7B) (by decide),
      hne (d := 0x5B) (by decide), hne (d := 0x74) (by decide), hne (d := 0x66) (by decide),
      hne (d := 0x6E) (by decide), if_false, or_self]
  cases n with
  | zero => exact hwith _
  | succ n => exact hwith _

theorem skipValue_string (n : ℕ) (p : Bytes) : skipValue n (0x22 :: p) = skipString (0x22 :: p) := by
  cases n with
  | zero => rfl
  | succ n => rfl

theorem skipValue_literal {word : Bytes} (h : word ∈ literals) (n : ℕ) (rest : Bytes) :
    skipValue n (word ++ rest) = some rest := by
  simp only [literals, List.mem_cons, List.not_mem_nil, or_false] at h
  have hskip := skipLiteral_complete word rest
  rcases h with rfl | rfl | rfl
  all_goals
    cases n with
    | zero => exact hskip
    | succ n => exact hskip

theorem skipValue_complete (n : ℕ) : Passes (skipValue n) n := by
  induction n with
  | zero =>
    intro text rest h hrest
    cases h with
    | string h =>
      obtain ⟨chars, hchars, rfl⟩ := h
      exact (skipValue_string _ _).trans (skipString_complete ⟨chars, hchars, rfl⟩ rest)
    | number h =>
      obtain ⟨c, tail, rfl, hc⟩ := number_start h
      exact (skipValue_number hc _ _).trans (skipNumber_complete h hrest)
    | literal h => exact skipValue_literal h _ rest
  | succ n ih =>
    intro text rest h hrest
    cases h with
    | string h =>
      obtain ⟨chars, hchars, rfl⟩ := h
      exact (skipValue_string _ _).trans (skipString_complete ⟨chars, hchars, rfl⟩ rest)
    | number h =>
      obtain ⟨c, tail, rfl, hc⟩ := number_start h
      exact (skipValue_number hc _ _).trans (skipNumber_complete h hrest)
    | literal h => exact skipValue_literal h _ rest
    | empty bracket h =>
      rw [Bracket.text, List.cons_append, List.append_assoc, skipValue_bracket]
      exact skipContainer_complete ih (Or.inl h) rest
    | container bracket hne hlead hafter hvalue =>
      rw [Bracket.text, List.cons_append, List.append_assoc, skipValue_bracket]
      exact skipContainer_complete ih (Or.inr ⟨_, hne, fun item hitem =>
        ⟨hlead item hitem, hvalue item hitem, hafter item hitem⟩, rfl⟩) rest

theorem skipValueWith_sound {n : ℕ} {container : UInt8 → Bytes → Option Bytes}
    (hcontainer : ∀ (bracket : Bracket) p rest, container bracket.opening p = some rest →
      ∃ text, Value scanned n text ∧ bracket.opening :: p = text ++ rest) :
    Sound (skipValueWith container) n := by
  intro p rest h
  unfold skipValueWith at h
  cases p with
  | nil => cases h
  | cons c p =>
    simp only at h
    split_ifs at h with hquote hbracket htrue hfalse hnull
    · obtain ⟨text, htext, hp⟩ := skipString_sound h
      exact ⟨text, .string htext, hp⟩
    · rcases hbracket with rfl | rfl
      · exact hcontainer .object p rest h
      · exact hcontainer .array p rest h
    · exact ⟨_, .literal (by simp [literals]), skipLiteral_sound h⟩
    · exact ⟨_, .literal (by simp [literals]), skipLiteral_sound h⟩
    · exact ⟨_, .literal (by simp [literals]), skipLiteral_sound h⟩
    · obtain ⟨text, htext, hp⟩ := skipNumber_sound h
      exact ⟨text, .number htext, hp⟩

theorem skipValue_sound (n : ℕ) : Sound (skipValue n) n := by
  induction n with
  | zero => exact skipValueWith_sound fun bracket p rest h => by cases h
  | succ n ih =>
    refine skipValueWith_sound fun bracket p rest h => ?_
    obtain ⟨inside, hinside, hp⟩ := skipContainer_sound ih h
    exact ⟨_, hinside.value, by rw [hp]; simp [Bracket.text]⟩

end values

end Pico
