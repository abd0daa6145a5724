import PicoFramework.Spec.Basic

/-! `mcp2515_timing.c`: the three registers that set the length of a bit. -/

namespace Pico

def MIN_TQ_PER_BIT : ℕ := 8
def MAX_TQ_PER_BIT : ℕ := 25
def MAX_BRP : ℕ := 63
def PREFERRED_TQ_PER_BIT : ℕ := 16
def MAX_PROP_PHSEG1_SUM : ℕ := 16
def MIN_PHSEG2 : ℕ := 2
def MAX_PHSEG2 : ℕ := 8

structure Mcp2515BitTiming where
  cnf1 : UInt8
  cnf2 : UInt8
  cnf3 : UInt8
deriving DecidableEq

/-- The quanta of a bit and the prescaler, as the search has found them. -/
structure NtqAndBrp where
  ntq : ℕ
  brp : ℕ
  distance : ℕ
deriving DecidableEq

/-- The loop's body: `best` is what was found so far. -/
def tryNtq (target : ℕ) (best : Option NtqAndBrp) (ntq : ℕ) : Option NtqAndBrp :=
  if target % ntq ≠ 0 then best
  else
    let brpPlusOne := target / ntq
    if brpPlusOne = 0 ∨ brpPlusOne > MAX_BRP + 1 then best
    else
      let distance :=
        if ntq > PREFERRED_TQ_PER_BIT then ntq - PREFERRED_TQ_PER_BIT else PREFERRED_TQ_PER_BIT - ntq
      let found : NtqAndBrp := ⟨ntq, brpPlusOne - 1, distance⟩
      match best with
      | none => some found
      | some known => if distance < known.distance then some found else some known

def findNtqAndBrp (oscillatorHz bitrate : UInt32) : Option NtqAndBrp :=
  let denominator := 2 * bitrate.toNat
  if denominator = 0 ∨ oscillatorHz.toNat % denominator ≠ 0 then none
  else
    let target := oscillatorHz.toNat / denominator
    (List.range' MIN_TQ_PER_BIT (MAX_TQ_PER_BIT + 1 - MIN_TQ_PER_BIT)).foldl (tryNtq target) none

/-- `PRSEG`, `PHSEG1` and `PHSEG2`. -/
structure Mcp2515Segments where
  prseg : ℕ
  phseg1 : ℕ
  phseg2 : ℕ
deriving DecidableEq

def splitSegments (ntq : ℕ) : Mcp2515Segments :=
  let remaining := ntq - 1
  let phseg2 := remaining / 4
  let phseg2 := if phseg2 < MIN_PHSEG2 then MIN_PHSEG2 else phseg2
  let phseg2 := if phseg2 > MAX_PHSEG2 then MAX_PHSEG2 else phseg2
  let psSum := remaining - phseg2
  let (psSum, phseg2) :=
    if psSum > MAX_PROP_PHSEG1_SUM then (MAX_PROP_PHSEG1_SUM, remaining - MAX_PROP_PHSEG1_SUM)
    else (psSum, phseg2)
  let prseg := psSum / 2
  let prseg := if prseg < 1 then 1 else prseg
  let phseg1 := psSum - prseg
  let (phseg1, prseg) := if phseg1 < 1 then (1, psSum - 1) else (phseg1, prseg)
  ⟨prseg, phseg1, phseg2⟩

def mcp2515ComputeBitTiming (oscillatorHz bitrate : UInt32) : Option Mcp2515BitTiming :=
  if oscillatorHz = 0 ∨ bitrate = 0 then none
  else
    match findNtqAndBrp oscillatorHz bitrate with
    | none => none
    | some found =>
        let split := splitSegments found.ntq
        let sjw := 1
        some {
          cnf1 := UInt8.ofNat (((sjw - 1) <<< 6) ||| found.brp)
          cnf2 := UInt8.ofNat (0x80 ||| ((split.phseg1 - 1) <<< 3) ||| (split.prseg - 1))
          cnf3 := UInt8.ofNat (split.phseg2 - 1) }

end Pico
