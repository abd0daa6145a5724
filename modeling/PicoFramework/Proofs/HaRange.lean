import PicoFramework.Lib.Bits
import PicoFramework.Proofs.JsonNumber
import PicoFramework.Spec.HomeAssistant

/-! The numbers of a range, as they come in and as they go out. -/

namespace Pico

open Lib.Json Lib.Numeral

/-- A number as a slider may send it: behind the digits so many zeros of a fraction, and no point
where there are none. -/
structure RangeCommand where
  before : Bytes
  plus : Bool
  digits : Bytes
  zeros : ℕ
  after : Bytes
  before_spaces : Whitespace before
  digits_all : Digits digits
  digits_ne : digits ≠ []
  after_spaces : Whitespace after

namespace RangeCommand

def sign (plus : Bool) : Bytes := if plus then [0x2B] else []

def fraction : ℕ → Bytes
  | 0 => []
  | zeros + 1 => 0x2E :: List.replicate (zeros + 1) 0x30

def text (command : RangeCommand) : Bytes :=
  command.before ++ (sign command.plus ++
    (command.digits ++ (fraction command.zeros ++ command.after)))

def value (command : RangeCommand) : ℕ := Lib.Numeral.value 10 0 (command.digits.map digitOf)

end RangeCommand

section parts

variable {ds rest p : Bytes} {v number : ℕ}

theorem whitespace_head {space : Bytes} (h : Whitespace space) :
    ∀ c ∈ space.head?, isDigit c = false ∧ c ≠ 0x2E := by
  intro c hc
  have hspace := h c (List.mem_of_mem_head? hc)
  have hother : ∀ c : UInt8, isWhitespace c = true → isDigit c = false ∧ c ≠ 0x2E :=
    Lib.Bits.forall_byte (P := fun c => isWhitespace c = true → isDigit c = false ∧ c ≠ 0x2E)
      (by decide)
  exact hother c hspace

theorem rangeDigits_digits : ReadsDigits 0xFFFFFFFF rangeDigits where
  digit v d rest hd := by
    have hlt : digitOf d < 10 := digitOf_lt hd
    have hguard : v > (0xFFFFFFFF - digitOf d) / 10 ↔ v * 10 + digitOf d > 0xFFFFFFFF := by omega
    rw [rangeDigits, if_pos (show isJsonDigit d = true from hd)]
    exact if_congr hguard rfl rfl
  other v rest hrest := by
    cases rest with
    | nil => rfl
    | cons c rest =>
      have hc : isJsonDigit c = false := hrest c rfl
      rw [rangeDigits, if_neg (Bool.eq_false_iff.mp hc)]

theorem exists_rangeDigits (h : rangeDigits v p = some (number, rest)) :
    ∃ ds, Digits ds ∧ p = ds ++ rest := by
  induction p generalizing v with
  | nil =>
    obtain ⟨-, rfl⟩ := Prod.mk.inj (Option.some.inj h)
    exact ⟨[], fun c hc => absurd hc List.not_mem_nil, rfl⟩
  | cons c p ih =>
    unfold rangeDigits at h
    split at h
    · rename_i hc
      dsimp only at h
      split at h
      · cases h
      · obtain ⟨ds, hds, rfl⟩ := ih h
        exact ⟨c :: ds, List.forall_mem_cons.mpr ⟨hc, hds⟩, rfl⟩
    · obtain ⟨-, rfl⟩ := Prod.mk.inj (Option.some.inj h)
      exact ⟨[], fun c hc => absurd hc List.not_mem_nil, rfl⟩

theorem skipZeroFraction_append (zeros : ℕ) {after : Bytes} (h : Whitespace after) :
    skipZeroFraction (RangeCommand.fraction zeros ++ after) = some after := by
  have hhead := whitespace_head h
  cases zeros with
  | zero =>
    cases after with
    | nil => rfl
    | cons c after => exact if_pos (hhead c rfl).2
  | succ zeros =>
    have hdropped : (List.replicate (zeros + 1) 0x30 ++ after).dropWhile (· = (0x30 : UInt8)) =
        after := by
      rw [List.dropWhile_append_of_pos (by simp)]
      cases after with
      | nil => rfl
      | cons c after =>
        refine List.dropWhile_cons_of_neg ?_
        rw [decide_eq_true_eq]
        rintro rfl
        exact absurd (hhead _ rfl).1 (by decide)
    have hsome : after.length ≠ (List.replicate (zeros + 1) 0x30 ++ after).length := by
      rw [List.length_append, List.length_replicate]
      omega
    rw [RangeCommand.fraction, List.cons_append, skipZeroFraction]
    dsimp only
    rw [if_neg (by decide), hdropped, if_neg hsome]

theorem exists_skipZeroFraction (h : skipZeroFraction p = some rest) :
    ∃ zeros, p = RangeCommand.fraction zeros ++ rest := by
  unfold skipZeroFraction at h
  split at h
  · obtain rfl := Option.some.inj h
    exact ⟨0, rfl⟩
  · rename_i c p
    dsimp only at h
    split_ifs at h with hpoint hnone
    · obtain rfl := Option.some.inj h
      exact ⟨0, rfl⟩
    · obtain rfl := Option.some.inj h
      obtain rfl := not_not.mp hpoint
      have hzeros : p.takeWhile (· = 0x30) = List.replicate (p.takeWhile (· = 0x30)).length 0x30 := by
        refine List.eq_replicate_of_mem fun c hc => ?_
        have hzero := List.mem_takeWhile_imp hc
        exact of_decide_eq_true hzero
      have hsplit : p.takeWhile (· = 0x30) ++ p.dropWhile (· = 0x30) = p :=
        List.takeWhile_append_dropWhile
      obtain ⟨zeros, hlength⟩ : ∃ zeros, (p.takeWhile (· = 0x30)).length = zeros + 1 := by
        apply Nat.exists_eq_succ_of_ne_zero
        intro hzero
        rw [List.length_eq_zero_iff.mp hzero, List.nil_append] at hsplit
        exact hnone (congrArg List.length hsplit)
      refine ⟨zeros + 1, ?_⟩
      rw [RangeCommand.fraction, List.cons_append, ← hlength, ← hzeros, hsplit]

end parts

section commands

variable {plus : Bool} {ds rest : Bytes}

/-- Where the digits are looked for. -/
def behindSign (payload : Bytes) : Bytes :=
  let p := payload.dropWhile isJsonSpace
  if p.head? = some 0x2B then p.drop 1 else p

theorem haParseRangeCommand_eq {payload : Bytes} (hne : payload ≠ []) :
    haParseRangeCommand payload =
      (rangeDigits 0 (behindSign payload)).bind fun read =>
        if read.2.length = (behindSign payload).length then none
        else (skipZeroFraction read.2).bind fun rest =>
          if rest.dropWhile isJsonSpace ≠ [] then none else some (UInt32.ofNat read.1) := by
  unfold haParseRangeCommand behindSign
  rw [if_neg hne]
  rfl

theorem behindSign_append {before : Bytes} (hbefore : Whitespace before) (hds : Digits ds)
    (hne : ds ≠ []) : behindSign (before ++ (RangeCommand.sign plus ++ (ds ++ rest))) = ds ++ rest := by
  have hskip : (before ++ (RangeCommand.sign plus ++ (ds ++ rest))).dropWhile isJsonSpace =
      (RangeCommand.sign plus ++ (ds ++ rest)).dropWhile isJsonSpace :=
    List.dropWhile_append_of_pos hbefore
  unfold behindSign
  rw [hskip]
  cases plus with
  | true => rfl
  | false =>
    obtain ⟨d, ds, rfl⟩ := List.exists_cons_of_ne_nil hne
    have hd := hds d List.mem_cons_self
    have hspace : ¬isJsonSpace d = true := by
      intro hspace
      have hwhite : Whitespace [d] := List.forall_mem_singleton.mpr hspace
      have hother := (whitespace_head hwhite d rfl).1
      rw [hd] at hother
      cases hother
    have hplus : d ≠ 0x2B := by
      rintro rfl
      exact absurd hd (by decide)
    simp [RangeCommand.sign, hspace, hplus]

theorem exists_behindSign (payload : Bytes) :
    ∃ before plus, Whitespace before ∧
      payload = before ++ (RangeCommand.sign plus ++ behindSign payload) := by
  have hsplit : payload.takeWhile isJsonSpace ++ payload.dropWhile isJsonSpace = payload :=
    List.takeWhile_append_dropWhile
  have hbefore : Whitespace (payload.takeWhile isJsonSpace) :=
    fun c hc => List.mem_takeWhile_imp hc
  unfold behindSign
  dsimp only
  split
  · rename_i hplus
    obtain ⟨p, hp⟩ := List.head?_eq_some_iff.mp hplus
    refine ⟨_, true, hbefore, ?_⟩
    rw [hp] at hsplit ⊢
    exact hsplit.symm
  · exact ⟨_, false, hbefore, hsplit.symm⟩

/-- A command is read as its value, unless that is more than a `uint32_t` has. -/
theorem haParseRangeCommand_text (command : RangeCommand) :
    haParseRangeCommand command.text =
      if command.value < 2 ^ 32 then some (UInt32.ofNat command.value) else none := by
  obtain ⟨before, plus, digits, zeros, after, hbefore, hdigits, hne, hafter⟩ := command
  have hbehind : behindSign (before ++ (RangeCommand.sign plus ++
      (digits ++ (RangeCommand.fraction zeros ++ after)))) =
        digits ++ (RangeCommand.fraction zeros ++ after) := behindSign_append hbefore hdigits hne
  have hpayload : before ++ (RangeCommand.sign plus ++
      (digits ++ (RangeCommand.fraction zeros ++ after))) ≠ [] := by
    intro hnil
    rw [hnil] at hbehind
    exact hne (List.append_eq_nil_iff.mp hbehind.symm).1
  have hfraction : ∀ c ∈ (RangeCommand.fraction zeros ++ after).head?, isDigit c = false := by
    intro c hc
    cases zeros with
    | zero => exact (whitespace_head hafter c hc).1
    | succ zeros =>
      obtain rfl := Option.some.inj hc
      decide
  have hread := rangeDigits_digits.append hdigits hfraction 0
  rw [bounded_eq (by decide) (Nat.zero_le _)] at hread
  have hended : after.dropWhile isJsonSpace = [] := List.dropWhile_eq_nil_iff.mpr hafter
  unfold RangeCommand.text RangeCommand.value
  dsimp only
  rw [haParseRangeCommand_eq hpayload, hbehind, hread]
  by_cases hvalue : Lib.Numeral.value 10 0 (digits.map digitOf) < 2 ^ 32
  · rw [if_pos hvalue, if_pos (by omega), Option.map_some, Option.bind_some,
      if_neg ((length_eq_append_iff digits _).not.mpr hne), skipZeroFraction_append zeros hafter,
      Option.bind_some, hended, if_neg (not_not.mpr rfl)]
  · rw [if_neg hvalue, if_neg (by omega)]
    rfl

theorem exists_rangeCommand {payload : Bytes} {number : UInt32}
    (h : haParseRangeCommand payload = some number) :
    ∃ command : RangeCommand, command.text = payload := by
  have hne : payload ≠ [] := by
    rintro rfl
    cases h
  rw [haParseRangeCommand_eq hne, Option.bind_eq_some_iff] at h
  obtain ⟨⟨value, rest⟩, hdigits, h⟩ := h
  dsimp only at h
  split at h
  · cases h
  rename_i hread
  obtain ⟨after, hfraction, h⟩ := Option.bind_eq_some_iff.mp h
  split at h
  · cases h
  rename_i hended
  obtain ⟨before, plus, hbefore, hpayload⟩ := exists_behindSign payload
  obtain ⟨digits, hall, hdigits⟩ := exists_rangeDigits hdigits
  obtain ⟨zeros, rfl⟩ := exists_skipZeroFraction hfraction
  rw [hdigits] at hread hpayload
  have hsome : digits ≠ [] := (length_eq_append_iff digits _).not.mp hread
  have hafter : Whitespace after := List.dropWhile_eq_nil_iff.mp (not_not.mp hended)
  exact ⟨⟨before, plus, digits, zeros, after, hbefore, hall, hsome, hafter⟩, hpayload.symm⟩

end commands

section printing

theorem ascii_toString (n : ℕ) :
    ascii (toString n) = (Nat.toDigits 10 n).map fun c => UInt8.ofNat c.toNat := by
  unfold ascii
  rw [Nat.toString_eq_ofList_toDigits, String.toList_ofList]

theorem digit_byte {c : Char} (h : c.isDigit = true) :
    isDigit (UInt8.ofNat c.toNat) = true ∧ digitOf (UInt8.ofNat c.toNat) = c.toNat - 48 := by
  have hten : ∀ d < 10, isDigit (UInt8.ofNat (48 + d)) = true ∧
      digitOf (UInt8.ofNat (48 + d)) = 48 + d - 48 := by decide
  obtain ⟨hlow, hhigh⟩ := Char.isDigit_iff_toNat.mp h
  obtain ⟨d, hd⟩ := Nat.exists_eq_add_of_le (show 48 ≤ c.toNat from hlow)
  have hd9 : c.toNat ≤ 57 := hhigh
  rw [hd]
  exact hten d (by omega)

theorem ascii_digits (n : ℕ) : Digits (ascii (toString n)) := by
  rw [ascii_toString]
  intro b hb
  obtain ⟨c, hc, rfl⟩ := List.mem_map.mp hb
  exact (digit_byte (Nat.isDigit_of_mem_toDigits (by decide) (by decide) hc)).1

theorem ascii_value (n : ℕ) : Lib.Numeral.value 10 0 ((ascii (toString n)).map digitOf) = n := by
  have hfold : ∀ (cs : List Char) (v : ℕ), (∀ c ∈ cs, c.isDigit = true) →
      Lib.Numeral.value 10 v ((cs.map fun c => UInt8.ofNat c.toNat).map digitOf) =
        Nat.ofDigitChars 10 cs v := by
    intro cs
    induction cs with
    | nil => exact fun _ _ => rfl
    | cons c cs ih =>
      intro v hcs
      obtain ⟨hc, hcs⟩ := List.forall_mem_cons.mp hcs
      rw [List.map_cons, List.map_cons, value_cons, (digit_byte hc).2, ih _ hcs,
        Nat.ofDigitChars_cons, Nat.mul_comm v]
      rfl
  rw [ascii_toString, hfold _ _ fun c hc => Nat.isDigit_of_mem_toDigits (by decide) (by decide) hc]
  exact Nat.ofDigitChars_ten_toDigits

/-- The endpoint of a range that an entity shows. -/
def LedRange.endpoint (range : LedRange) : HaRangeEndpoint → UInt16
  | .first => range.first
  | .last => range.last

theorem haBuildRangeState_eq (range : LedRange) (endpoint : HaRangeEndpoint) (size : ℕ) :
    haBuildRangeState range endpoint size =
      if (ascii (toString (range.endpoint endpoint).toNat)).length < size then
        some (ascii (toString (range.endpoint endpoint).toNat))
      else none := by
  have hendpoint : (if endpoint = .first then range.first else range.last) =
      range.endpoint endpoint := by
    cases endpoint <;> rfl
  have hpos : 0 < (ascii (toString (range.endpoint endpoint).toNat)).length := by
    rw [ascii_toString, List.length_map]
    exact Nat.length_toDigits_pos
  unfold haBuildRangeState
  rw [hendpoint]
  split
  · rename_i hsize
    rw [hsize, if_neg (Nat.not_lt_zero _)]
  · exact if_congr (and_iff_right hpos) rfl rfl

theorem haParseRangeCommand_printed {n : ℕ} (h : n < 2 ^ 32) :
    haParseRangeCommand (ascii (toString n)) = some (UInt32.ofNat n) := by
  have hspaces : Whitespace [] := fun c hc => absurd hc List.not_mem_nil
  have hne : ascii (toString n) ≠ [] := by
    rw [ascii_toString]
    exact List.map_eq_nil_iff.not.mpr Nat.toDigits_ne_nil
  have hvalue := ascii_value n
  have hread := haParseRangeCommand_text
    ⟨[], false, ascii (toString n), 0, [], hspaces, ascii_digits n, hne, hspaces⟩
  unfold RangeCommand.value RangeCommand.text at hread
  dsimp only [RangeCommand.sign, RangeCommand.fraction] at hread
  rw [hvalue, if_pos h] at hread
  simpa using hread

end printing

section results

theorem haParseRangeCommandInto_text (command : RangeCommand) (hvalue : command.value < 2 ^ 32)
    (out : UInt32) :
    haParseRangeCommandInto command.text out = (true, UInt32.ofNat command.value) := by
  rw [haParseRangeCommandInto, haParseRangeCommand_text, if_pos hvalue]

theorem haParseRangeCommandInto_true_iff (payload : Bytes) (out : UInt32) :
    (haParseRangeCommandInto payload out).1 = true ↔
      ∃ command : RangeCommand, command.text = payload ∧ command.value < 2 ^ 32 := by
  constructor
  · intro htrue
    unfold haParseRangeCommandInto at htrue
    split at htrue
    · rename_i number hsome
      obtain ⟨command, rfl⟩ := exists_rangeCommand hsome
      rw [haParseRangeCommand_text] at hsome
      split at hsome
      · rename_i hvalue
        exact ⟨command, rfl, hvalue⟩
      · cases hsome
    · cases htrue
  · rintro ⟨command, rfl, hvalue⟩
    rw [haParseRangeCommandInto_text command hvalue]

theorem haParseRangeCommandInto_false {payload : Bytes} {out : UInt32}
    (h : (haParseRangeCommandInto payload out).1 = false) :
    (haParseRangeCommandInto payload out).2 = out := by
  unfold haParseRangeCommandInto at h ⊢
  split at h
  · cases h
  · rfl

theorem haBuildRangeState_fits (range : LedRange) (endpoint : HaRangeEndpoint) :
    (ascii (toString (range.endpoint endpoint).toNat)).length < HA_NUMBER_STATE_BUFFER_SIZE := by
  have hlt := (range.endpoint endpoint).toNat_lt
  have hlength : (ascii (toString (range.endpoint endpoint).toNat)).length ≤ 5 := by
    rw [ascii_toString, List.length_map]
    exact (Nat.length_toDigits_le_iff (by decide) (by decide)).mpr (by omega)
  exact hlength.trans_lt (by decide)

theorem haParseRangeCommandInto_state {range : LedRange} {endpoint : HaRangeEndpoint} {size : ℕ}
    {text : Bytes} (h : haBuildRangeState range endpoint size = some text) (out : UInt32) :
    haParseRangeCommandInto text out = (true, (range.endpoint endpoint).toUInt32) := by
  have hlt := (range.endpoint endpoint).toNat_lt.trans (show 2 ^ 16 < 2 ^ 32 by decide)
  have hprinted : UInt32.ofNat (range.endpoint endpoint).toNat =
      (range.endpoint endpoint).toUInt32 := by
    rw [← UInt32.toNat_inj, UInt32.toNat_ofNat_of_lt' hlt, UInt16.toNat_toUInt32]
  rw [haBuildRangeState_eq] at h
  split at h
  · obtain rfl := Option.some.inj h
    rw [haParseRangeCommandInto, haParseRangeCommand_printed hlt, hprinted]
  · cases h

end results

/-- Exactly the commands are read, each as its value, and what is published of a range is one of
them. -/
theorem rangeCommand_exact :
    (∀ (payload : Bytes) (out : UInt32),
      ((haParseRangeCommandInto payload out).1 = true ↔
        ∃ command : RangeCommand, command.text = payload ∧ command.value < 2 ^ 32) ∧
      (∀ command : RangeCommand, command.text = payload → command.value < 2 ^ 32 →
        (haParseRangeCommandInto payload out).2.toNat = command.value) ∧
      ((haParseRangeCommandInto payload out).1 = false →
        (haParseRangeCommandInto payload out).2 = out)) ∧
    ∀ (range : LedRange) (endpoint : HaRangeEndpoint) (out : UInt32),
      (∃ text, haBuildRangeState range endpoint HA_NUMBER_STATE_BUFFER_SIZE = some text) ∧
      ∀ size text, haBuildRangeState range endpoint size = some text →
        haParseRangeCommandInto text out = (true, (range.endpoint endpoint).toUInt32) := by
  refine ⟨fun payload out => ⟨haParseRangeCommandInto_true_iff payload out, ?_,
    haParseRangeCommandInto_false⟩, fun range endpoint out => ⟨?_, fun size text htext =>
      haParseRangeCommandInto_state htext out⟩⟩
  · rintro command rfl hvalue
    rw [haParseRangeCommandInto_text command hvalue]
    exact UInt32.toNat_ofNat_of_lt' hvalue
  · exact ⟨_, (haBuildRangeState_eq _ _ _).trans (if_pos (haBuildRangeState_fits range endpoint))⟩

end Pico
