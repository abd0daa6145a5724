import PicoFramework.Lib.Bits
import PicoFramework.Lib.Numeral
import PicoFramework.Spec.CliArguments

/-! The integers of a command line, against the numbers that its numerals stand for. The loop of
`parse_u32` keeps 32 bits of a number and does not see what it loses. -/

namespace Pico

open Lib.Numeral

section numerals

/-- What a character is worth as a hexadecimal digit. -/
def digitWorth (c : UInt8) : Option ℕ :=
  if 0x30 ≤ c ∧ c ≤ 0x39 then some (c.toNat - 0x30)
  else if 0x41 ≤ c ∧ c ≤ 0x46 then some (c.toNat - 0x41 + 10)
  else if 0x61 ≤ c ∧ c ≤ 0x66 then some (c.toNat - 0x61 + 10)
  else none

/-- The digit of a base. -/
def digitIn (base : ℕ) (c : UInt8) : Option ℕ := (digitWorth c).filter (· < base)

/-- The number that a text of digits stands for. -/
def numeral (base : ℕ) (text : Bytes) : Option ℕ :=
  if text = [] then none else (text.mapM (digitIn base)).map (value base 0)

/-- What follows `0x` or `0X`. -/
def afterPrefix (token : Bytes) : Option Bytes :=
  match token with
  | a :: b :: digits => if a = 0x30 ∧ (b = 0x78 ∨ b = 0x58) then some digits else none
  | _ => none

/-- Hexadecimal behind a prefix, decimal without. -/
def unsignedNumeral (token : Bytes) : Option ℕ :=
  match afterPrefix token with
  | some digits => numeral 16 digits
  | none => numeral 10 token

/-- Hexadecimal with or without a prefix. -/
def hexNumeral (token : Bytes) : Option ℕ := numeral 16 ((afterPrefix token).getD token)

/-- An unsigned numeral behind a sign, or without one: whether it is negative, and its magnitude. -/
def signedNumeral (token : Bytes) : Option (Bool × ℕ) :=
  if token.head? = some 0x2D then (unsignedNumeral (token.drop 1)).map (true, ·)
  else if token.head? = some 0x2B then (unsignedNumeral (token.drop 1)).map (false, ·)
  else (unsignedNumeral token).map (false, ·)

/-- The integer of a sign and a magnitude. -/
def signedInt (number : Bool × ℕ) : ℤ := if number.1 then -number.2 else number.2

/-- The largest magnitude that an `int32_t` has with that sign. -/
def limitOf (negative : Bool) : ℕ := if negative then 2147483648 else 2147483647

/-- A number is read exactly where the result type has it; everything else is refused, and leaves
the output as it was. -/
structure ReadOrRefused {α : Type*} (exact : α → ℤ) (number : Option ℤ) (out : α)
    (result : Bool × α) : Prop where
  accepted : ∀ v, result = (true, v) ↔ number = some (exact v)
  refused : result.1 = false → result.2 = out

theorem readOrRefused_iff {α β : Type*} {exact : α → ℤ} {out : α} {result : Bool × α}
    (hinj : Function.Injective exact) {number : Option β} (toInt : β → ℤ) (keeps : β → Prop)
    [DecidablePred keeps] (read : β → α)
    (hresult : result = number.elim (false, out) fun n =>
      if keeps n then (true, read n) else (false, out)) :
    ReadOrRefused exact (number.map toInt) out result ↔
      ∀ n, number = some n → if keeps n then exact (read n) = toInt n else ∀ v, exact v ≠ toInt n := by
  subst hresult
  cases number with
  | none => exact iff_of_true ⟨by simp, by simp⟩ (by simp)
  | some n =>
    simp only [Option.some.injEq, forall_eq', Option.map_some, Option.elim_some]
    by_cases hkeeps : keeps n
    · simp only [if_pos hkeeps]
      constructor
      · intro law
        exact (Option.some.inj ((law.accepted (read n)).mp rfl)).symm
      · intro hread
        refine ⟨fun v => ?_, by simp⟩
        rw [Prod.mk.injEq, eq_self, true_and, Option.some.injEq, ← hread, hinj.eq_iff]
    · simp only [if_neg hkeeps]
      constructor
      · intro law v hv
        have := (law.accepted v).mpr (congrArg some hv.symm)
        simp at this
      · intro hrange
        refine ⟨fun v => iff_of_false (by simp) ?_, by simp⟩
        exact fun hv => hrange v (Option.some.inj hv).symm

end numerals

section loops

theorem hexValue_worth (c : UInt8) : (hexValue c).map UInt32.toNat = digitWorth c :=
  Lib.Bits.forall_byte (P := fun c => (hexValue c).map UInt32.toNat = digitWorth c)
    (by decide) c

theorem digitIn_eq (base : UInt32) (c : UInt8) :
    digitIn base.toNat c = ((hexValue c).filter (· < base)).map UInt32.toNat := by
  rw [digitIn, ← hexValue_worth]
  cases hexValue c with
  | none => rfl
  | some digit =>
    by_cases h : digit < base
    · simp [Option.filter, h, UInt32.lt_iff_toNat_lt.mp h]
    · simp [Option.filter, h, mt UInt32.lt_iff_toNat_lt.mpr h]

theorem parseDigits_eq (base v : UInt32) (text : Bytes) :
    parseDigits base v text =
      (text.mapM (digitIn base.toNat)).map fun digits =>
        UInt32.ofNat (value base.toNat v.toNat digits) := by
  induction text generalizing v with
  | nil => simp [parseDigits]
  | cons c rest ih =>
    rw [parseDigits, List.mapM_cons, digitIn_eq]
    cases hexValue c with
    | none => rfl
    | some digit =>
      by_cases h : digit < base
      · have hkeep : Option.filter (· < base) (some digit) = some digit := by simp [Option.filter, h]
        simp only [hkeep, UInt32.not_le.mpr h, if_false, Option.map_some, ih,
          Option.bind_eq_bind, Option.bind_some]
        cases rest.mapM (digitIn base.toNat) with
        | none => rfl
        | some digits =>
          simp only [Option.map_some, Option.bind_some, Option.pure_def, value_cons]
          congr 1
          rw [← UInt32.toNat_inj]
          simp only [UInt32.toNat_ofNat', UInt32.toNat_add, UInt32.toNat_mul, Nat.mod_add_mod,
            value_mod]
      · have hdrop : Option.filter (· < base) (some digit) = none := by simp [Option.filter, h]
        simp only [hdrop, UInt32.not_lt.mp h, if_true, Option.map_none]
        rfl

theorem parseU32_eq (token : Bytes) (base : UInt32) :
    parseU32 token base = (numeral base.toNat token).map UInt32.ofNat := by
  unfold parseU32 numeral
  split_ifs with hempty
  · rfl
  · rw [parseDigits_eq, Option.map_map]
    rfl

theorem toUpper_eq_x (b : UInt8) : toUpper b = 0x58 ↔ b = 0x78 ∨ b = 0x58 :=
  Lib.Bits.forall_byte (P := fun b => toUpper b = 0x58 ↔ b = 0x78 ∨ b = 0x58)
    (by decide) b

theorem stripHexPrefix_eq (token : Bytes) :
    stripHexPrefix token = match afterPrefix token with
      | some digits => (digits, true)
      | none => (token, false) := by
  match token with
  | [] => rfl
  | [_] => rfl
  | a :: b :: digits =>
    simp only [stripHexPrefix, afterPrefix, toUpper_eq_x]
    split_ifs with hbegins
    · rfl
    · rfl

theorem parse_unsigned (token : Bytes) :
    parseU32 (stripHexPrefix token).1 (if (stripHexPrefix token).2 then 16 else 10) =
      (unsignedNumeral token).map UInt32.ofNat := by
  rw [stripHexPrefix_eq, unsignedNumeral]
  cases afterPrefix token with
  | none => exact parseU32_eq token 10
  | some digits => exact parseU32_eq digits 16

theorem parse_hex (token : Bytes) :
    parseU32 (stripHexPrefix token).1 16 = (hexNumeral token).map UInt32.ofNat := by
  rw [stripHexPrefix_eq, hexNumeral]
  cases afterPrefix token with
  | none => exact parseU32_eq token 16
  | some digits => exact parseU32_eq digits 16

end loops

section calls

variable (cli : Cli)

theorem nextU32_eq (out : UInt32) :
    (cli.nextU32 out).1 = (cli.nextToken.1.bind unsignedNumeral).elim (false, out)
      fun n => if True then (true, UInt32.ofNat n) else (false, out) := by
  unfold Cli.nextU32
  obtain ⟨token, after⟩ := cli.nextToken
  cases token with
  | none => rfl
  | some token =>
    simp only [parse_unsigned, Option.bind_some, if_true]
    cases unsignedNumeral token with
    | none => rfl
    | some n => rfl

theorem nextHex32_eq (out : UInt32) :
    (cli.nextHex32 out).1 = (cli.nextToken.1.bind hexNumeral).elim (false, out)
      fun n => if True then (true, UInt32.ofNat n) else (false, out) := by
  unfold Cli.nextHex32
  obtain ⟨token, after⟩ := cli.nextToken
  cases token with
  | none => rfl
  | some token =>
    simp only [parse_hex, Option.bind_some, if_true]
    cases hexNumeral token with
    | none => rfl
    | some n => rfl

theorem limit_eq {α : Type*} (negative : Bool) {limit : UInt32}
    (hlimit : limit.toNat = limitOf negative) (n : ℕ) (kept refused : α) :
    (if UInt32.ofNat n > limit then refused else kept) =
      if n % 2 ^ 32 ≤ limitOf negative then kept else refused := by
  have hpast : UInt32.ofNat n > limit ↔ ¬n % 2 ^ 32 ≤ limitOf negative := by
    rw [← hlimit]
    exact UInt32.lt_iff_toNat_lt.trans not_le.symm
  simp only [hpast, ite_not]

theorem nextI32_eq (out : Int32) :
    (cli.nextI32 out).1 = (cli.nextToken.1.bind signedNumeral).elim (false, out) fun n =>
      if n.2 % 2 ^ 32 ≤ limitOf n.1 then
        (true, Int32.ofInt (signedInt (n.1, n.2 % 2 ^ 32)))
      else (false, out) := by
  have hmagnitude (n : ℕ) (negative : Bool) {limit : UInt32}
      (hlimit : limit.toNat = limitOf negative) (after : Cli) :
      (if UInt32.ofNat n > limit then ((false, out), after)
        else ((true, Int32.ofInt (signedInt (negative, (UInt32.ofNat n).toNat))), after)).1 =
      if n % 2 ^ 32 ≤ limitOf negative then
        (true, Int32.ofInt (signedInt (negative, n % 2 ^ 32)))
      else (false, out) := by
    simp only [limit_eq negative hlimit]
    split_ifs with hfits
    · rfl
    · rfl
  unfold Cli.nextI32
  obtain ⟨token, after⟩ := cli.nextToken
  cases token with
  | none => rfl
  | some token =>
    simp only [Option.bind_some, signedNumeral]
    by_cases hminus : token.head? = some 0x2D
    · simp only [hminus, true_or, if_true, parse_unsigned]
      cases unsignedNumeral (token.drop 1) with
      | none => rfl
      | some n => exact hmagnitude n true rfl after
    · by_cases hplus : token.head? = some 0x2B
      · simp only [hplus, or_true, if_true, parse_unsigned]
        cases unsignedNumeral (token.drop 1) with
        | none => rfl
        | some n => exact hmagnitude n false rfl after
      · simp only [hminus, hplus, or_self, if_false, parse_unsigned]
        cases unsignedNumeral token with
        | none => rfl
        | some n => exact hmagnitude n false rfl after

/-- A register of 32 bits reads a number exactly when the number fits it. -/
theorem readOrRefused_u32 {number : Option ℕ} {out : UInt32} {result : Bool × UInt32}
    (hresult : result = number.elim (false, out) fun n =>
      if True then (true, UInt32.ofNat n) else (false, out)) :
    ReadOrRefused (fun v : UInt32 => (v.toNat : ℤ)) (number.map Int.ofNat) out result ↔
      ∀ n, number = some n → n < 2 ^ 32 := by
  have hinj : Function.Injective fun v : UInt32 => (v.toNat : ℤ) := fun v w h =>
    UInt32.toNat_inj.mp (Int.ofNat.inj h)
  rw [readOrRefused_iff hinj Int.ofNat (fun _ => True) UInt32.ofNat hresult]
  simp only [if_true, Int.ofNat_eq_natCast, Nat.cast_inj]
  refine forall_congr' fun n => imp_congr_right fun _ => ?_
  rw [show (UInt32.ofNat n).toNat = n % 2 ^ 32 from rfl]
  constructor
  · intro hmod
    rw [← hmod]
    exact Nat.mod_lt _ (by decide)
  · exact Nat.mod_eq_of_lt

theorem signedInt_le {number : Bool × ℕ} (h : number.2 ≤ limitOf number.1) :
    -2147483648 ≤ signedInt number ∧ signedInt number ≤ 2147483647 := by
  obtain ⟨negative, n⟩ := number
  cases negative with
  | true =>
    simp only [signedInt, limitOf, if_true] at h ⊢
    omega
  | false =>
    simp only [signedInt, limitOf, Bool.false_eq_true, if_false] at h ⊢
    omega

theorem signedInt_ne {number : Bool × ℕ} (h : limitOf number.1 < number.2) (v : Int32) :
    v.toInt ≠ signedInt number := by
  have hlow := v.le_toInt
  have hhigh := v.toInt_lt
  obtain ⟨negative, n⟩ := number
  cases negative with
  | true =>
    simp only [signedInt, limitOf, if_true] at h ⊢
    omega
  | false =>
    simp only [signedInt, limitOf, Bool.false_eq_true, if_false] at h ⊢
    omega

/-- With a sign, the number must fit the register, or what the register has left of it must be
refused. -/
theorem readOrRefused_i32 {number : Option (Bool × ℕ)} {out : Int32} {result : Bool × Int32}
    (hresult : result = number.elim (false, out) fun n =>
      if n.2 % 2 ^ 32 ≤ limitOf n.1 then
        (true, Int32.ofInt (signedInt (n.1, n.2 % 2 ^ 32)))
      else (false, out)) :
    ReadOrRefused Int32.toInt (number.map signedInt) out result ↔
      ∀ n, number = some n → n.2 < 2 ^ 32 ∨ limitOf n.1 < n.2 % 2 ^ 32 := by
  have hinj : Function.Injective Int32.toInt := fun v w h => Int32.toInt_inj.mp h
  rw [readOrRefused_iff hinj signedInt (fun n : Bool × ℕ => n.2 % 2 ^ 32 ≤ limitOf n.1)
    (fun n => Int32.ofInt (signedInt (n.1, n.2 % 2 ^ 32))) hresult]
  refine forall_congr' fun n => imp_congr_right fun _ => ?_
  by_cases hkept : n.2 % 2 ^ 32 ≤ limitOf n.1
  · have hrange : -2147483648 ≤ signedInt (n.1, n.2 % 2 ^ 32) ∧
        signedInt (n.1, n.2 % 2 ^ 32) ≤ 2147483647 := signedInt_le hkept
    have hread : (Int32.ofInt (signedInt (n.1, n.2 % 2 ^ 32))).toInt =
        signedInt (n.1, n.2 % 2 ^ 32) := Int32.toInt_ofInt_of_le hrange.1 (by omega)
    have hsame : signedInt (n.1, n.2 % 2 ^ 32) = signedInt n ↔ n.2 < 2 ^ 32 := by
      obtain ⟨negative, m⟩ := n
      cases negative with
      | true =>
        simp only [signedInt, if_true]
        omega
      | false =>
        simp only [signedInt, Bool.false_eq_true, if_false]
        omega
    rw [if_pos hkept, hread, hsame]
    exact ⟨Or.inl, fun h => h.resolve_right (not_lt.mpr hkept)⟩
  · have hpast := not_le.mp hkept
    rw [if_neg hkept]
    refine iff_of_true (signedInt_ne ?_) (Or.inr hpast)
    exact hpast.trans_le (Nat.mod_le _ _)

/-- Each function reads its numeral exactly or refuses it, unless the numeral is past 32 bits; then
the two unsigned functions read what 32 bits have left of it, and the signed one does so where
that is within its limits. -/
theorem cliNumbers_exact_iff (out : UInt32) (outSigned : Int32) :
    (ReadOrRefused (fun v : UInt32 => (v.toNat : ℤ))
        ((cli.nextToken.1.bind unsignedNumeral).map Int.ofNat) out (cli.nextU32 out).1 ↔
      ∀ n, cli.nextToken.1.bind unsignedNumeral = some n → n < 2 ^ 32) ∧
    (ReadOrRefused (fun v : UInt32 => (v.toNat : ℤ))
        ((cli.nextToken.1.bind hexNumeral).map Int.ofNat) out (cli.nextHex32 out).1 ↔
      ∀ n, cli.nextToken.1.bind hexNumeral = some n → n < 2 ^ 32) ∧
    (ReadOrRefused Int32.toInt ((cli.nextToken.1.bind signedNumeral).map signedInt) outSigned
        (cli.nextI32 outSigned).1 ↔
      ∀ n, cli.nextToken.1.bind signedNumeral = some n →
        n.2 < 2 ^ 32 ∨ limitOf n.1 < n.2 % 2 ^ 32) :=
  ⟨readOrRefused_u32 (nextU32_eq cli out), readOrRefused_u32 (nextHex32_eq cli out),
    readOrRefused_i32 (nextI32_eq cli outSigned)⟩

/-- A handler's view of the line `u32 4294967296`, with its name cut off. -/
def overlongLine : Cli :=
  { commands := [], line := ascii "u32" ++ [0] ++ ascii "4294967296" ++ [0], lineLen := 14
    parsePos := 4, editCursor := 14, overflow := false, lastWasCr := false, escapeState := .none
    lineIsRaw := false, rawLinePrefix := 0, prompt := none, echo := false, enableHelp := true
    lineFilter := false, historyBuffer := [], historyEntrySize := 0, historyDepth := 0
    historyHead := 0, historyCount := 0, historyCursor := 0 }

/-- 2^32 is read as zero. -/
theorem cliNumbers_wrapped :
    ¬ReadOrRefused (fun v : UInt32 => (v.toNat : ℤ))
      ((overlongLine.nextToken.1.bind unsignedNumeral).map Int.ofNat) 7
      (overlongLine.nextU32 7).1 := by
  have hresult : (overlongLine.nextU32 7).1 = (true, 0) := by decide
  have hnumber : overlongLine.nextToken.1.bind unsignedNumeral = some 4294967296 := by
    decide
  intro law
  have hzero := (law.accepted 0).mp hresult
  rw [hnumber] at hzero
  simp at hzero

end calls

end Pico
