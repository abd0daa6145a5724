import PicoFramework.Spec.Cli

/-! What a handler reads of its line, in `cli.c`. The functions that read an integer return whether
they have read one and what `out` points to then; each leaves the interpreter. -/

namespace Pico

def hexValue (c : UInt8) : Option UInt32 :=
  if 0x30 ≤ c ∧ c ≤ 0x39 then some (c - 0x30).toUInt32
  else if 0x41 ≤ toUpper c ∧ toUpper c ≤ 0x46 then some (toUpper c - 0x41 + 10).toUInt32
  else none

/-- The loop of `parse_u32`. -/
def parseDigits (base : UInt32) : UInt32 → Bytes → Option UInt32
  | value, [] => some value
  | value, c :: rest =>
      match hexValue c with
      | none => none
      | some digit => if digit ≥ base then none else parseDigits base (value * base + digit) rest

def parseU32 (token : Bytes) (base : UInt32) : Option UInt32 :=
  if token = [] then none else parseDigits base 0 token

/-- `strip_hex_prefix`: the digits, and whether there was a prefix. -/
def stripHexPrefix (token : Bytes) : Bytes × Bool :=
  match token with
  | a :: b :: digits => if a = 0x30 ∧ toUpper b = 0x58 then (digits, true) else (token, false)
  | _ => (token, false)

namespace Cli

/-- `cli_rest`: what is left of the line, as a string. -/
def rest (cli : Cli) : Option Bytes × Cli :=
  let cli := cli.skipSeparators
  if cli.parsePos ≥ cli.lineLen then (none, cli)
  else (some (stringAt cli.line cli.parsePos), { cli with parsePos := cli.lineLen })

def nextU32 (cli : Cli) (out : UInt32) : (Bool × UInt32) × Cli :=
  match cli.nextToken with
  | (none, cli) => ((false, out), cli)
  | (some token, cli) =>
      let (digits, hex) := stripHexPrefix token
      match parseU32 digits (if hex then 16 else 10) with
      | none => ((false, out), cli)
      | some value => ((true, value), cli)

def nextHex32 (cli : Cli) (out : UInt32) : (Bool × UInt32) × Cli :=
  match cli.nextToken with
  | (none, cli) => ((false, out), cli)
  | (some token, cli) =>
      let (digits, _) := stripHexPrefix token
      match parseU32 digits 16 with
      | none => ((false, out), cli)
      | some value => ((true, value), cli)

def nextI32 (cli : Cli) (out : Int32) : (Bool × Int32) × Cli :=
  match cli.nextToken with
  | (none, cli) => ((false, out), cli)
  | (some token, cli) =>
      let negative := token.head? = some 0x2D
      let token := if negative ∨ token.head? = some 0x2B then token.drop 1 else token
      let (digits, hex) := stripHexPrefix token
      match parseU32 digits (if hex then 16 else 10) with
      | none => ((false, out), cli)
      | some magnitude =>
          if negative then
            if magnitude > 2147483648 then ((false, out), cli)
            else ((true, Int32.ofInt (-magnitude.toNat)), cli)
          else if magnitude > 2147483647 then ((false, out), cli)
          else ((true, Int32.ofInt magnitude.toNat), cli)

end Cli

end Pico
