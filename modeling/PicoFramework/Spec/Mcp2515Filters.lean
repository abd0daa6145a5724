import PicoFramework.Spec.CanFrame

/-! `mcp2515_filters.c`: a caller's filters on the two receive buffers. An array of filters is a
list, whose length is the `count` that goes with it; NULL with a `count` above 0, which the source
refuses, is none. -/

namespace Pico

def MCP2515_FILTER_SLOTS : ℕ := 6
def MCP2515_BANK0_SLOTS : ℕ := 2

structure Mcp2515FilterPlan where
  acceptAll : Bool
  filterId : Fin 6 → UInt32
  mask : Fin 2 → UInt32
  maskExtended : Fin 2 → Bool

def bankLeader (filterIndex : ℕ) : ℕ :=
  if filterIndex < MCP2515_BANK0_SLOTS then 0 else MCP2515_BANK0_SLOTS

/-- `filters[i]`. -/
def filterAt (filters : List CanFilter) (i : ℕ) : CanFilter := filters.getD i ⟨0, 0⟩

def mcp2515FiltersAreValid (filters : List CanFilter) : Bool :=
  let count := filters.length
  if count = 0 then true
  else if count > MCP2515_FILTER_SLOTS then false
  else
    (filters.all fun filter =>
      !(filter.mask &&& CAN_FLAG_EXTENDED = 0 || filter.mask &&& CAN_FLAG_RTR ≠ 0)) &&
    -- the second loop starts at 1; a filter agrees with itself
    (List.range count).all fun i =>
      let leader := bankLeader i
      !((filterAt filters i).mask ≠ (filterAt filters leader).mask ||
        canIdIsExtended (filterAt filters i).id ≠ canIdIsExtended (filterAt filters leader).id)

def mcp2515FilterPlan (filters : List CanFilter) : Option Mcp2515FilterPlan :=
  let count := filters.length
  if !mcp2515FiltersAreValid filters then none
  else if count = 0 then
    some
      { acceptAll := true, filterId := fun _ => 0, mask := fun _ => 0, maskExtended := fun _ => false }
  else
    let bank0Count := if count < MCP2515_BANK0_SLOTS then count else MCP2515_BANK0_SLOTS
    let bank1First := MCP2515_BANK0_SLOTS
    let bank1Count := if count > bank1First then count - bank1First else bank0Count
    let bank1Source := if count > bank1First then bank1First else 0
    some
      { acceptAll := false
        filterId := fun slot =>
          if slot.val < MCP2515_BANK0_SLOTS then (filterAt filters (slot.val % bank0Count)).id
          else
            (filterAt filters
              (bank1Source + (slot.val - MCP2515_BANK0_SLOTS) % bank1Count)).id
        mask := ![(filterAt filters 0).mask, (filterAt filters bank1Source).mask]
        maskExtended :=
          ![canIdIsExtended (filterAt filters 0).id, canIdIsExtended (filterAt filters bank1Source).id] }

end Pico
