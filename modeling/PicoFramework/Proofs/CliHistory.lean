import PicoFramework.Lib.Circular
import PicoFramework.Proofs.CliLine

/-! The history buffer is a circular store of the lines recorded, each cut to its slot. -/

namespace Pico

open Lib.Circular Lib.LineEditor Lib.Splice

namespace Cli

/-- The string in a slot, as far as the slot goes. -/
def slotText (cli : Cli) (i : ℕ) : Bytes :=
  (span cli.historyBuffer (cli.historySlot i) cli.historyEntrySize).takeWhile (· ≠ 0)

def slots (cli : Cli) : List Bytes := (List.range cli.historyDepth).map cli.slotText

theorem slotText_eq (cli : Cli) (i : ℕ) : cli.slotText i =
    (stringAt cli.historyBuffer (cli.historySlot i)).take cli.historyEntrySize :=
  List.take_takeWhile.symm

/-- A string that ends within its slot is the string that `strlen` sees. -/
theorem stringAt_slot (cli : Cli) (i : ℕ) (h : (cli.slotText i).length < cli.historyEntrySize) :
    stringAt cli.historyBuffer (cli.historySlot i) = cli.slotText i := by
  rw [slotText_eq, List.length_take] at h
  rw [slotText_eq, List.take_of_length_le (by omega)]

@[simp] theorem length_slots (cli : Cli) : cli.slots.length = cli.historyDepth := by
  rw [slots, List.length_map, List.length_range]

theorem slots_getElem? (cli : Cli) {i : ℕ} (hi : i < cli.historyDepth) :
    cli.slots[i]? = some (cli.slotText i) := by
  rw [slots, List.getElem?_map, List.getElem?_range hi]
  rfl

end Cli

/-- The slots hold the last of the lines recorded. -/
structure Remembers (cli : Cli) (recorded : List Bytes) : Prop where
  room : cli.historyDepth * cli.historyEntrySize ≤ cli.historyBuffer.length
  two_le : cli.historyDepth ≠ 0 → 2 ≤ cli.historyEntrySize
  head_eq : cli.historyDepth ≠ 0 → cli.historyHead = recorded.length % cli.historyDepth
  count_eq : cli.historyCount = min cli.historyDepth recorded.length
  stores : Stores cli.slots (recorded.map (·.take (cli.historyEntrySize - 1)))
    (recorded.length - cli.historyCount)

section remembers

variable {cli : Cli} {recorded : List Bytes}

theorem Remembers.of_eq {cli' : Cli} (h : Remembers cli recorded)
    (hbuffer : cli'.historyBuffer = cli.historyBuffer)
    (hentry : cli'.historyEntrySize = cli.historyEntrySize)
    (hdepth : cli'.historyDepth = cli.historyDepth) (hhead : cli'.historyHead = cli.historyHead)
    (hcount : cli'.historyCount = cli.historyCount) : Remembers cli' recorded := by
  have hslots : cli'.slots = cli.slots := by
    unfold Cli.slots
    rw [hdepth]
    refine List.map_congr_left fun i _ => ?_
    rw [Cli.slotText, Cli.slotText, Cli.historySlot, Cli.historySlot, hbuffer, hentry]
  obtain ⟨hroom, htwo, hheadeq, hcounteq, hstores⟩ := h
  constructor
  · rwa [hdepth, hentry, hbuffer]
  · rwa [hdepth, hentry]
  · rwa [hdepth, hhead]
  · rwa [hdepth, hcount]
  · rwa [hslots, hentry, hcount]

theorem Remembers.head_lt (h : Remembers cli recorded) (hdepth : cli.historyDepth ≠ 0) :
    cli.historyHead < cli.historyDepth := by
  rw [h.head_eq hdepth]
  exact Nat.mod_lt _ (Nat.pos_of_ne_zero hdepth)

theorem Remembers.slot_le (h : Remembers cli recorded) {i : ℕ} (hi : i < cli.historyDepth) :
    cli.historySlot i + cli.historyEntrySize ≤ cli.historyBuffer.length := by
  have hroom := h.room
  have hle : (i + 1) * cli.historyEntrySize ≤ cli.historyDepth * cli.historyEntrySize :=
    Nat.mul_le_mul_right _ hi
  rw [Nat.add_mul, Nat.one_mul] at hle
  rw [Cli.historySlot]
  omega

/-- The slot of a line recorded `k` lines ago. -/
theorem slotIndex_eq {n d k : ℕ} (hkn : k ≤ n) (hkd : k ≤ d) : (n % d + d - k) % d = (n - k) % d := by
  have hsum : n % d + d - k = n % d + (d - k) := by omega
  have hlater : n + (d - k) = n - k + d := by omega
  rw [hsum, Nat.mod_add_mod, hlater, Nat.add_mod_right]

theorem Remembers.recall (h : Remembers cli recorded) {k : ℕ} (hpos : 0 < k)
    (hk : k ≤ cli.historyCount) :
    (cli.historyHead + cli.historyDepth - k) % cli.historyDepth < cli.historyDepth ∧
    stringAt cli.historyBuffer (cli.historySlot
        ((cli.historyHead + cli.historyDepth - k) % cli.historyDepth)) =
      (Entry.recent recorded k).take (cli.historyEntrySize - 1) := by
  have hcount := h.count_eq
  have hdepth : cli.historyDepth ≠ 0 := by omega
  have htwo := h.two_le hdepth
  have hindex : (cli.historyHead + cli.historyDepth - k) % cli.historyDepth =
      (recorded.length - k) % cli.historyDepth := by
    rw [h.head_eq hdepth]
    exact slotIndex_eq (by omega) (by omega)
  have hlt := Nat.mod_lt (recorded.length - k) (Nat.pos_of_ne_zero hdepth)
  have hrecent : Entry.recent recorded k = recorded.getD (recorded.length - k) [] :=
    if_neg (Nat.pos_iff_ne_zero.mp hpos)
  have hslot : cli.slotText ((recorded.length - k) % cli.historyDepth) =
      (Entry.recent recorded k).take (cli.historyEntrySize - 1) := by
    have hstored := h.stores (recorded.length - k) (by omega) (by rw [List.length_map]; omega)
    rw [Cli.length_slots, Cli.slots_getElem? cli hlt, List.getElem?_map,
      List.getElem?_eq_getElem (by omega), Option.map_some] at hstored
    rw [Option.some.inj hstored, hrecent, List.getD_eq_getElem?_getD,
      List.getElem?_eq_getElem (by omega)]
    rfl
  rw [hindex]
  refine ⟨hlt, ?_⟩
  rw [Cli.stringAt_slot, hslot]
  rw [hslot, List.length_take]
  omega

theorem historyPush_buffer (h : Remembers cli recorded) (hdepth : cli.historyDepth ≠ 0)
    (text : Bytes) : (cli.historyPush text).2.historyBuffer =
      overwrite cli.historyBuffer (cli.historySlot cli.historyHead)
        (text.take (cli.historyEntrySize - 1) ++ [0]) := by
  have htwo := h.two_le hdepth
  have hplace := h.slot_le (h.head_lt hdepth)
  have hcut : text.take (if text.length ≥ cli.historyEntrySize then cli.historyEntrySize - 1
      else text.length) = text.take (cli.historyEntrySize - 1) := by
    split
    · rfl
    · rw [List.take_length, List.take_of_length_le (by omega)]
  have hlen : (if text.length ≥ cli.historyEntrySize then cli.historyEntrySize - 1
      else text.length) = (text.take (cli.historyEntrySize - 1)).length := by
    rw [List.length_take]
    split
    · omega
    · omega
  have hlt : (text.take (cli.historyEntrySize - 1)).length < cli.historyEntrySize := by
    rw [List.length_take]
    omega
  unfold Cli.historyPush
  rw [if_neg hdepth]
  dsimp only
  rw [hcut, hlen, set_eq_overwrite, overwrite_overwrite _ _ _ _ (by omega)]
  rw [length_overwrite _ _ _ (by omega)]
  omega

theorem historyPush_slots (h : Remembers cli recorded) (hdepth : cli.historyDepth ≠ 0)
    {text : Bytes} (hnul : 0 ∉ text) : (cli.historyPush text).2.slots =
      cli.slots.set cli.historyHead (text.take (cli.historyEntrySize - 1)) := by
  have hbuffer := historyPush_buffer h hdepth text
  have htwo := h.two_le hdepth
  have hhead := h.head_lt hdepth
  have hplace := h.slot_le hhead
  have hsame : (cli.historyPush text).2.historyEntrySize = cli.historyEntrySize ∧
      (cli.historyPush text).2.historyDepth = cli.historyDepth := by
    unfold Cli.historyPush
    rw [if_neg hdepth]
    exact ⟨rfl, rfl⟩
  have hlen : (text.take (cli.historyEntrySize - 1)).length + 1 ≤ cli.historyEntrySize := by
    rw [List.length_take]
    omega
  apply List.ext_getElem?
  intro i
  rcases Nat.lt_or_ge i cli.historyDepth with hi | hi
  swap
  · rw [List.getElem?_eq_none (by rw [Cli.length_slots, hsame.2]; exact hi),
      List.getElem?_eq_none (by rw [List.length_set, Cli.length_slots]; exact hi)]
  rw [Cli.slots_getElem? _ (by rw [hsame.2]; exact hi), Cli.slotText, Cli.historySlot, hsame.1, hbuffer]
  rcases eq_or_ne i cli.historyHead with rfl | hne
  · have hfree : 0 ∉ text.take (cli.historyEntrySize - 1) := fun hmem => hnul (List.mem_of_mem_take hmem)
    rw [List.getElem?_set_self (by rw [Cli.length_slots]; exact hi)]
    rw [span, Cli.historySlot, drop_overwrite_start _ _ _ (by rw [Cli.historySlot] at hplace; omega),
      ← List.take_takeWhile, List.append_assoc, List.singleton_append, takeWhile_string hfree,
      List.take_of_length_le (by omega)]
  · rw [List.getElem?_set_ne hne.symm, Cli.slots_getElem? _ hi, Cli.slotText]
    rw [Cli.historySlot] at hplace ⊢
    rw [span_overwrite_of_disjoint]
    · rfl
    · rw [List.length_append, List.length_singleton]
      omega
    · rw [List.length_append, List.length_singleton]
      rcases Nat.lt_or_gt_of_ne hne with hbelow | habove
      · have hle := Nat.mul_le_mul_right cli.historyEntrySize (Nat.succ_le_of_lt hbelow)
        rw [Nat.succ_mul] at hle
        exact .inl hle
      · have hle := Nat.mul_le_mul_right cli.historyEntrySize (Nat.succ_le_of_lt habove)
        rw [Nat.succ_mul] at hle
        exact .inr (by omega)

theorem historyPush_eq (cli : Cli) (text : Bytes) :
    ∃ buffer head count, (cli.historyPush text).2 =
      { cli with historyBuffer := buffer, historyHead := head, historyCount := count } ∧
    (cli.historyPush text).1 = if cli.historyDepth = 0 then [] else [.slot cli.historyHead] := by
  unfold Cli.historyPush
  split
  · exact ⟨_, _, _, rfl, rfl⟩
  · exact ⟨_, _, _, rfl, rfl⟩

theorem historyPush_remembers (h : Remembers cli recorded) {text : Bytes} (hnul : 0 ∉ text) :
    Remembers (cli.historyPush text).2 (recorded ++ [text]) := by
  have hcount := h.count_eq
  rcases eq_or_ne cli.historyDepth 0 with hzero | hdepth
  · have hidle : (cli.historyPush text).2 = cli := by
      unfold Cli.historyPush
      rw [if_pos hzero]
    rw [hidle]
    rw [hzero, Nat.zero_min] at hcount
    refine ⟨h.room, h.two_le, fun hne => absurd hzero hne, ?_, ?_⟩
    · rw [hcount, hzero, Nat.zero_min]
    · intro i hi hlt
      rw [List.length_map] at hlt
      omega
  have hslots := historyPush_slots h hdepth hnul
  have hbuffer := congrArg List.length (historyPush_buffer h hdepth text)
  have hplace := h.slot_le (h.head_lt hdepth)
  have htwo := h.two_le hdepth
  rw [length_overwrite _ _ _ (by
    rw [List.length_append, List.length_take, List.length_singleton]; omega)] at hbuffer
  have hfields : (cli.historyPush text).2.historyDepth = cli.historyDepth ∧
      (cli.historyPush text).2.historyEntrySize = cli.historyEntrySize ∧
      (cli.historyPush text).2.historyHead = (cli.historyHead + 1) % cli.historyDepth ∧
      (cli.historyPush text).2.historyCount =
        if cli.historyCount < cli.historyDepth then cli.historyCount + 1 else cli.historyCount := by
    unfold Cli.historyPush
    rw [if_neg hdepth]
    exact ⟨rfl, rfl, rfl, rfl⟩
  obtain ⟨hdeptheq, hentry, hheadeq, hcounteq⟩ := hfields
  have hnewcount : (cli.historyPush text).2.historyCount =
      min cli.historyDepth (recorded.length + 1) := by
    rw [hcounteq]
    split
    · omega
    · omega
  refine ⟨?_, ?_, ?_, ?_, ?_⟩
  · rw [hdeptheq, hentry, hbuffer]
    exact h.room
  · rw [hdeptheq, hentry]
    exact h.two_le
  · intro _
    rw [hdeptheq, hheadeq, h.head_eq hdepth, List.length_append, List.length_singleton, Nat.mod_add_mod]
  · rw [hdeptheq, hnewcount, List.length_append, List.length_singleton]
  · have hlater : recorded.length - cli.historyCount ≤
        recorded.length + 1 - (cli.historyPush text).2.historyCount := by omega
    have hlast := h.stores.later hlater
    have hset := hlast.set (text.take (cli.historyEntrySize - 1)) (by
      rw [List.length_map, Cli.length_slots]
      omega)
    rw [List.length_map, Cli.length_slots, ← h.head_eq hdepth, ← hslots] at hset
    rw [hentry, List.map_append, List.length_append, List.length_singleton]
    exact hset

end remembers

end Pico
