import PicoFramework.Lib.Numeral
import PicoFramework.Proofs.JsonRoundTrip

/-! `json_get_int` on the numbers that the scanner passes over, against the rational number each of
them stands for. -/

namespace Pico

open Lib.Json Lib.Numeral

variable {sign whole frac exp rest ds : Bytes}

section tokens

def digitOf (c : UInt8) : ℕ := (c - 0x30).toNat

def exponentOf : Bytes → ℤ
  | 0x2D :: ds => -(value 10 0 (ds.map digitOf) : ℤ)
  | 0x2B :: ds => value 10 0 (ds.map digitOf)
  | ds => value 10 0 (ds.map digitOf)

/-- The number that the parts of a token stand for. -/
def tokenDecimal (sign whole frac exp : Bytes) : Decimal where
  negative := sign = [0x2D]
  whole := whole.map digitOf
  fraction := (frac.drop 1).map digitOf
  exponent := exponentOf (exp.drop 1)

theorem digitOf_lt {c : UInt8} (h : isDigit c = true) : digitOf c < 10 := by
  simp only [isDigit, Bool.and_eq_true, decide_eq_true_eq, UInt8.le_iff_toNat_le,
    UInt8.reduceToNat] at h
  have hlow : (0x30 : UInt8) ≤ c := UInt8.le_iff_toNat_le.mpr h.1
  have hzero : (0x30 : UInt8).toNat = 48 := rfl
  rw [digitOf, UInt8.toNat_sub_of_le _ _ hlow]
  omega

theorem digits_lt (h : Digits ds) : ∀ digit ∈ ds.map digitOf, digit < 10 := by
  intro digit hdigit
  obtain ⟨c, hc, rfl⟩ := List.mem_map.mp hdigit
  exact digitOf_lt (h c hc)

theorem ScannedNumber.head_ne (h : ScannedNumber sign whole frac exp) :
    ∀ c ∈ (whole ++ (frac ++ exp)).head?, c ≠ 0x2D ∧ c ≠ 0x2B := by
  intro c hc
  cases whole with
  | cons d ds =>
    obtain rfl := Option.some.inj hc
    exact JsonTree.digits_head h.digits d rfl
  | nil =>
    rcases h.frac_eq with rfl | ⟨ds, -, rfl⟩
    · rcases h.exp_eq with rfl | ⟨e, sg, ds, he, -, -, rfl⟩
      · cases hc
      · obtain rfl := Option.some.inj hc
        rcases he with rfl | rfl
        · decide
        · decide
    · obtain rfl := Option.some.inj hc
      decide

theorem ScannedNumber.head_minus (h : ScannedNumber sign whole frac exp) :
    (sign ++ (whole ++ (frac ++ exp))).head? = some 0x2D ↔ sign = [0x2D] := by
  rcases h.sign_eq with rfl | rfl | rfl
  · rw [List.nil_append]
    constructor
    · intro hhead
      exact absurd rfl (h.head_ne _ hhead).1
    · intro hnil
      cases hnil
  · simp
  · simp

theorem ScannedNumber.head_notDigit (h : ScannedNumber sign whole frac exp) :
    ∀ c ∈ (frac ++ exp).head?, isDigit c = false := by
  intro c hc
  rcases h.frac_eq with rfl | ⟨ds, -, rfl⟩
  · rcases h.exp_eq with rfl | ⟨e, sg, ds, he, -, -, rfl⟩
    · cases hc
    · obtain rfl := Option.some.inj hc
      rcases he with rfl | rfl
      · decide
      · decide
  · obtain rfl := Option.some.inj hc
    decide

end tokens

section reading

/-- A loop that takes digits until something else comes, and gives up once its value passes a
bound. -/
structure ReadsDigits (bound : ℕ) (read : ℕ → Bytes → Option (ℕ × Bytes)) : Prop where
  digit : ∀ acc d rest, isDigit d = true → read acc (d :: rest) =
    if acc * 10 + digitOf d > bound then none else read (acc * 10 + digitOf d) rest
  other : ∀ acc rest, (∀ c ∈ rest.head?, isDigit c = false) → read acc rest = some (acc, rest)

theorem ReadsDigits.append {bound : ℕ} {read : ℕ → Bytes → Option (ℕ × Bytes)}
    (h : ReadsDigits bound read) (hds : Digits ds) (hrest : ∀ c ∈ rest.head?, isDigit c = false)
    (acc : ℕ) : read acc (ds ++ rest) =
      (bounded 10 bound acc (ds.map digitOf)).map fun value => (value, rest) := by
  induction ds generalizing acc with
  | nil => exact h.other acc rest hrest
  | cons d ds ih =>
    rw [List.cons_append, h.digit acc d _ (hds d List.mem_cons_self), List.map_cons, bounded]
    split
    · rfl
    · exact ih (fun c hc => hds c (List.mem_cons_of_mem _ hc)) _

/-- The magnitude is the value of the digits, unless that is more than any `int32_t` has. -/
theorem readMagnitude_digits : ReadsDigits 2147483648 readMagnitude where
  digit acc d rest hd := by
    rw [readMagnitude, if_pos (show isJsonDigit d = true from hd)]
    rfl
  other acc rest hrest := by
    cases rest with
    | nil => rfl
    | cons c rest =>
      have hc : isJsonDigit c = false := hrest c rfl
      rw [readMagnitude, if_neg (Bool.eq_false_iff.mp hc)]

theorem length_eq_append_iff (xs ys : Bytes) : ys.length = (xs ++ ys).length ↔ xs = [] := by
  rw [List.length_append, ← List.length_eq_zero_iff]
  omega

/-- `json_get_int` on a number, in its parts. -/
theorem jsonGetInt_parts (h : ScannedNumber sign whole frac exp) (rest : Bytes) :
    jsonGetInt (located (sign ++ (whole ++ (frac ++ exp)) ++ rest) rest) =
      if whole = [] then none
      else if value 10 0 (whole.map digitOf) > 2147483648 then none
      else if frac ++ exp ≠ [] ∧ (frac ++ exp).head? ≠ some 0x2E then none
      else if sign = [0x2D] then some (Int32.ofInt (-(value 10 0 (whole.map digitOf) : ℤ)))
      else if value 10 0 (whole.map digitOf) > 2147483647 then none
      else some (Int32.ofInt (value 10 0 (whole.map digitOf))) := by
  have hnumber : scanned.number (sign ++ (whole ++ (frac ++ exp))) :=
    ⟨sign, whole, frac, exp, h, rfl⟩
  have hne : sign ++ (whole ++ (frac ++ exp)) ≠ [] := by
    intro hnil
    have hlast := h.last
    rw [hnil] at hlast
    cases hlast
  have hhead := h.head_minus
  have hskip := skipSign_append h.sign_eq h.head_ne
  generalize sign ++ (whole ++ (frac ++ exp)) = text at hnumber hne hhead hskip ⊢
  generalize hvalue : located (text ++ rest) rest = token
  have htext : token.text = text := by
    rw [← hvalue]
    simp [located, JsonValue.text]
  have htype : token.type = .number := by
    rw [← hvalue]
    exact (located_type (@Value.number scanned 0 _ hnumber) rest).trans (typeOf_number hnumber)
  have hlength : token.length ≠ 0 := by
    rw [← hvalue]
    simpa [located] using hne
  have hminus : (text.head? = some 0x2D) = (sign = [0x2D]) := propext hhead
  have hread := readMagnitude_digits.append h.digits h.head_notDigit 0
  rw [bounded_eq (by decide) (Nat.zero_le _)] at hread
  unfold jsonGetInt
  simp only [htype, ne_eq, not_true_eq_false, hlength, or_self, if_false, hminus, htext,
    hskip, hread]
  by_cases hlarge : value 10 0 (whole.map digitOf) > 2147483648
  · rw [if_neg (Nat.not_le.mpr hlarge), if_pos hlarge, ite_self]
    rfl
  · have hempty := length_eq_append_iff whole (frac ++ exp)
    rw [if_pos (Nat.not_lt.mp hlarge), if_neg hlarge]
    simp only [Option.map_some, Option.bind_eq_bind, Option.bind_some, hempty, gt_iff_lt]

/-- The exact value of a token, cut to an integer towards zero, is what is returned when an
`int32_t` has it; nothing is when none has. -/
def ReadsExactly (value : JsonValue) (d : Decimal) : Prop :=
  ∀ v : Int32, jsonGetInt value = some v ↔ v.toInt = towardZero d.toRat

theorem int32_ofInt_iff {n : ℤ} (h : -2147483648 ≤ n ∧ n ≤ 2147483647) (v : Int32) :
    some (Int32.ofInt n) = some v ↔ v.toInt = n := by
  have hround : (Int32.ofInt n).toInt = n := Int32.toInt_ofInt_of_le h.1 (by omega)
  rw [Option.some.injEq, ← Int32.toInt_inj, hround, eq_comm]

theorem none_iff {v : Int32} {n : ℤ} (h : v.toInt ≠ n) :
    (none : Option Int32) = some v ↔ v.toInt = n := by
  constructor
  · exact nofun
  · exact fun hv => absurd hv h

theorem jsonGetInt_exact (h : ScannedNumber sign whole frac []) (hwhole : whole ≠ [])
    (rest : Bytes) :
    ReadsExactly (located (sign ++ (whole ++ (frac ++ [])) ++ rest) rest)
      (tokenDecimal sign whole frac []) := by
  intro v
  have hfraction : Digits (frac.drop 1) := by
    rcases h.frac_eq with rfl | ⟨ds, hds, rfl⟩
    · exact fun c hc => by cases hc
    · exact hds
  have hcut : towardZero (tokenDecimal sign whole frac []).toRat =
      if sign = [0x2D] then -(value 10 0 (whole.map digitOf) : ℤ)
      else value 10 0 (whole.map digitOf) := by
    rw [Decimal.towardZero_toRat (digits_lt hfraction) rfl]
    simp only [tokenDecimal, decide_eq_true_eq]
  have hpoint : ¬(frac ++ [] ≠ [] ∧ (frac ++ []).head? ≠ some 0x2E) := by
    rintro ⟨hne, hhead⟩
    rcases h.frac_eq with rfl | ⟨ds, -, rfl⟩
    · exact hne rfl
    · exact hhead rfl
  have hlow := v.le_toInt
  have hhigh := v.toInt_lt
  rw [jsonGetInt_parts h, hcut, if_neg hwhole, if_neg hpoint]
  generalize value 10 0 (whole.map digitOf) = magnitude
  by_cases hsign : sign = [0x2D]
  · rw [if_pos hsign, if_pos hsign]
    split
    · exact none_iff (by omega)
    · exact int32_ofInt_iff (by omega) v
  · rw [if_neg hsign, if_neg hsign]
    split
    · exact none_iff (by omega)
    split
    · exact none_iff (by omega)
    · exact int32_ofInt_iff (by omega) v

/-- What `json_get_int` does with a number of those parts: without an exponent it reads it exactly,
provided that a digit comes before the point; it refuses one whose exponent follows the whole
digits. -/
structure ReadsNumber (value : JsonValue) (sign whole frac exp : Bytes) : Prop where
  exact : whole ≠ [] → exp = [] → ReadsExactly value (tokenDecimal sign whole frac exp)
  scaled : frac = [] → exp ≠ [] → jsonGetInt value = none
  unstarted : whole = [] → jsonGetInt value = none

/-- Every token that the scanner passes over has those parts and is read so. -/
theorem jsonGetInt_token {p rest : Bytes} (h : skipNumber p = some rest) :
    ∃ sign whole frac exp, ScannedNumber sign whole frac exp ∧
      p = sign ++ (whole ++ (frac ++ exp)) ++ rest ∧
      ReadsNumber (located p rest) sign whole frac exp := by
  obtain ⟨text, ⟨sign, whole, frac, exp, hnumber, rfl⟩, rfl⟩ := skipNumber_sound h
  refine ⟨sign, whole, frac, exp, hnumber, rfl, ?_, ?_, ?_⟩
  · intro hwhole hexp
    subst hexp
    exact jsonGetInt_exact hnumber hwhole rest
  · intro hfrac hexp
    subst hfrac
    have hhead : ([] ++ exp).head? ≠ some 0x2E := by
      rcases hnumber.exp_eq with rfl | ⟨e, sg, ds, he, -, -, rfl⟩
      · exact absurd rfl hexp
      · intro hpoint
        obtain rfl := Option.some.inj hpoint
        rcases he with he | he
        · exact absurd he (by decide)
        · exact absurd he (by decide)
    rw [jsonGetInt_parts hnumber]
    split
    · rfl
    split
    · rfl
    · exact if_pos ⟨hexp, hhead⟩
  · intro hwhole
    rw [jsonGetInt_parts hnumber, if_pos hwhole]

theorem jsonGetInt_token_fraction :
    ∃ sign whole frac exp, ScannedNumber sign whole frac exp ∧
      ascii "-12.9" = sign ++ (whole ++ (frac ++ exp)) ++ [] ∧
      ReadsNumber (located (ascii "-12.9") []) sign whole frac exp :=
  jsonGetInt_token (by decide)

/-- `1e3` is a number to the scanner and stands for 1000, which is refused. -/
theorem jsonGetInt_refuses_exponent : skipNumber (ascii "1e3") = some [] ∧
    ScannedNumber [] [0x31] [] [0x65, 0x33] ∧
    ¬ ReadsExactly (located (ascii "1e3") []) (tokenDecimal [] [0x31] [] [0x65, 0x33]) := by
  refine ⟨by decide, ⟨.inl rfl, ?_, .inl rfl, .inr ⟨0x65, [], [0x33], .inl rfl, .inl rfl, ?_,
    rfl⟩, by decide⟩, ?_⟩
  · intro c hc
    rw [List.mem_singleton.mp hc]
    decide
  · intro c hc
    rw [List.mem_singleton.mp hc]
    decide
  · intro hexact
    have hvalue : (tokenDecimal [] [0x31] [] [0x65, 0x33]).toRat = 1000 := by
      have hexponent : exponentOf [0x33] = 3 := rfl
      have hone : digitOf 0x31 = 1 := rfl
      norm_num [tokenDecimal, Decimal.toRat, hexponent, hone]
    have hcut : towardZero (1000 : ℚ) = 1000 := by
      rw [towardZero, if_pos (by norm_num)]
      norm_num
    have hthousand := (hexact 1000).mpr (by rw [hvalue, hcut]; rfl)
    have hnone : jsonGetInt (located (ascii "1e3") []) = none := by decide
    rw [hnone] at hthousand
    cases hthousand

end reading

end Pico
