import PicoFramework.Proofs.FlashStorage

/-! The division of the chip, and what an operation on one of its regions can reach. Every bound
check of the component is written against this division. -/

namespace Pico

open Lib.Nor Lib.Power

section division

/-- In the order they lie in. -/
def FlashLayout.regions (layout : FlashLayout) : List FlashRegion :=
  [layout.application, layout.staging, layout.manifest, layout.data]

def FlashRegion.Holds (region : FlashRegion) (a : ℕ) : Prop :=
  region.offset ≤ a ∧ a < region.offset + region.size

/-- The chip divided: whole sectors, one region behind the other, and nothing left over. -/
structure FlashLayout.Divides (layout : FlashLayout) (flashSize dataSectors : ℕ) : Prop where
  aligned : ∀ region ∈ layout.regions,
    FLASH_LAYOUT_SECTOR_SIZE ∣ region.offset ∧ FLASH_LAYOUT_SECTOR_SIZE ∣ region.size
  ordered : layout.regions.Pairwise fun region next => region.offset + region.size ≤ next.offset
  covers : ∀ a, (∃ region ∈ layout.regions, region.Holds a) ↔ a < flashSize
  same_size : layout.application.size = layout.staging.size
  image : FLASH_LAYOUT_SECTOR_SIZE ≤ layout.application.size
  data_pos : 0 < layout.data.size
  reserved : dataSectors * FLASH_LAYOUT_SECTOR_SIZE ≤ layout.manifest.size + layout.data.size ∧
    layout.manifest.size + layout.data.size ≤ (dataSectors + 1) * FLASH_LAYOUT_SECTOR_SIZE

/-- What dividing a chip of that size comes to. -/
structure DivisionLaw (flashSize dataSectors : ℕ) : Prop where
  divides : ∀ layout, flashLayoutCompute flashSize dataSectors = .ok layout →
    layout.Divides flashSize dataSectors
  divided : FLASH_LAYOUT_SECTOR_SIZE ∣ flashSize → FLASH_LAYOUT_MANIFEST_SECTORS + 1 ≤ dataSectors →
    (∃ layout : FlashLayout, layout.Divides flashSize dataSectors) →
    ∃ layout, flashLayoutCompute flashSize dataSectors = .ok layout

variable {flashSize dataSectors : ℕ} {layout : FlashLayout}

theorem FlashLayout.Divides.end_le (h : layout.Divides flashSize dataSectors) {region : FlashRegion}
    (hregion : region ∈ layout.regions) : region.offset + region.size ≤ flashSize := by
  have hdata := h.data_pos
  have hlast := (h.covers (layout.data.offset + layout.data.size - 1)).mp
    ⟨layout.data, by simp [FlashLayout.regions], by omega, by omega⟩
  have hordered := h.ordered
  simp only [FlashLayout.regions, List.pairwise_cons, List.mem_cons, List.not_mem_nil, or_false,
    forall_eq_or_imp, forall_eq, List.Pairwise.nil, and_true] at hordered hregion
  rcases hregion with rfl | rfl | rfl | rfl
  all_goals omega

theorem FlashLayout.Divides.total_le (h : layout.Divides flashSize dataSectors) :
    layout.application.size + layout.staging.size + layout.manifest.size + layout.data.size ≤
      flashSize := by
  have hlast : layout.data.offset + layout.data.size ≤ flashSize :=
    h.end_le (by simp [FlashLayout.regions])
  have hordered := h.ordered
  simp only [FlashLayout.regions, List.pairwise_cons, List.mem_cons, List.not_mem_nil, or_false,
    forall_eq_or_imp, forall_eq, List.Pairwise.nil, and_true] at hordered
  omega

theorem flashLayoutCompute_eq_ok_iff : flashLayoutCompute flashSize dataSectors = .ok layout ↔
    4096 ∣ flashSize ∧ 2 ≤ dataSectors ∧ wrap32 (dataSectors + 2) ≤ flashSize / 4096 ∧
      layout =
        let imageSize := wrap32 (sub32 (flashSize / 4096) dataSectors / 2 * 4096)
        let manifestOffset := wrap32 (2 * imageSize)
        let dataOffset := wrap32 (manifestOffset + 4096)
        ⟨⟨0, imageSize⟩, ⟨imageSize, imageSize⟩, ⟨manifestOffset, 4096⟩,
          ⟨dataOffset, sub32 flashSize dataOffset⟩⟩ := by
  unfold flashLayoutCompute
  simp only [flashOffsetIsSectorAligned, FLASH_LAYOUT_SECTOR_SIZE, FLASH_LAYOUT_MANIFEST_SECTORS]
  by_cases haligned : flashSize % 4096 = 0
  · by_cases hsmall : dataSectors < 2 ∨ flashSize / 4096 < wrap32 (dataSectors + 2)
    · simp only [haligned, hsmall, decide_true, Bool.not_true, Bool.false_eq_true, if_false, if_true]
      refine iff_of_false nofun ?_
      rintro ⟨-, htwo, hroom, -⟩
      omega
    · simp only [haligned, hsmall, decide_true, Bool.not_true, Bool.false_eq_true, if_false]
      rw [Except.ok.injEq, eq_comm]
      refine ⟨fun h => ⟨by omega, by omega, by omega, h⟩, fun h => h.2.2.2⟩
  · simp only [haligned, decide_false, Bool.not_false, if_true]
    refine iff_of_false nofun ?_
    rintro ⟨hdvd, -⟩
    omega

/-- As long as the sectors that are asked for can be counted up to, nothing wraps. -/
theorem layout_eq (hflash : flashSize < 2 ^ 32) (hsectors : dataSectors + 2 < 2 ^ 32)
    (h : flashLayoutCompute flashSize dataSectors = .ok layout) :
    ∃ n, 0 < n ∧ dataSectors + 2 * n ≤ flashSize / 4096 ∧
      flashSize / 4096 ≤ dataSectors + 2 * n + 1 ∧ 4096 ∣ flashSize ∧ 2 ≤ dataSectors ∧
      layout = ⟨⟨0, 4096 * n⟩, ⟨4096 * n, 4096 * n⟩, ⟨4096 * (2 * n), 4096⟩,
        ⟨4096 * (2 * n + 1), flashSize - 4096 * (2 * n + 1)⟩⟩ := by
  obtain ⟨haligned, htwo, hroom, rfl⟩ := flashLayoutCompute_eq_ok_iff.mp h
  simp only [wrap32, sub32] at hroom ⊢
  refine ⟨(flashSize / 4096 - dataSectors) / 2, by omega, by omega, by omega, haligned, htwo, ?_⟩
  have himage : (flashSize / 4096 + 2 ^ 32 - dataSectors) % 2 ^ 32 / 2 * 4096 % 2 ^ 32 =
      4096 * ((flashSize / 4096 - dataSectors) / 2) := by omega
  generalize (flashSize / 4096 - dataSectors) / 2 = n at himage
  have hmanifest : 2 * (4096 * n) % 2 ^ 32 = 4096 * (2 * n) := by omega
  have hdata : (4096 * (2 * n) + 4096) % 2 ^ 32 = 4096 * (2 * n + 1) := by omega
  have hrest : (flashSize + 2 ^ 32 - 4096 * (2 * n + 1)) % 2 ^ 32 =
      flashSize - 4096 * (2 * n + 1) := by omega
  rw [himage, hmanifest, hdata, hrest]

theorem divides_of_ok (hflash : flashSize < 2 ^ 32) (hsectors : dataSectors + 2 < 2 ^ 32)
    (h : flashLayoutCompute flashSize dataSectors = .ok layout) :
    layout.Divides flashSize dataSectors := by
  obtain ⟨n, hpos, hroom, hleft, haligned, htwo, rfl⟩ := layout_eq hflash hsectors h
  refine ⟨?_, ?_, ?_, rfl, ?_, ?_, ?_⟩
  · simp only [FlashLayout.regions, FLASH_LAYOUT_SECTOR_SIZE, List.mem_cons, List.not_mem_nil,
      or_false, forall_eq_or_imp, forall_eq]
    refine ⟨⟨?_, ?_⟩, ⟨?_, ?_⟩, ⟨?_, ?_⟩, ?_, ?_⟩
    all_goals omega
  · simp only [FlashLayout.regions, List.pairwise_cons, List.mem_cons, List.not_mem_nil, or_false,
      forall_eq_or_imp, forall_eq, List.Pairwise.nil, false_imp_iff, implies_true, and_true]
    omega
  · intro a
    simp only [FlashLayout.regions, FlashRegion.Holds, List.mem_cons, List.not_mem_nil, or_false,
      exists_eq_or_imp, exists_eq_left]
    omega
  · change 4096 ≤ 4096 * n
    omega
  · change 0 < flashSize - 4096 * (2 * n + 1)
    omega
  · simp only [FLASH_LAYOUT_SECTOR_SIZE]
    omega

theorem not_divides_of_wrapped (hsectors : dataSectors < 2 ^ 32) (hwrapped : 2 ^ 32 ≤ dataSectors + 2)
    (hflash : flashSize < 2 ^ 32) : ¬layout.Divides flashSize dataSectors := by
  intro hdivides
  have htotal := hdivides.total_le
  have hreserved := hdivides.reserved.1
  rw [FLASH_LAYOUT_SECTOR_SIZE] at hreserved
  omega

/-- The layout is a division for every chip and every reservation, except that a reservation of
which the check's sum wraps is accepted. -/
theorem flashLayout_divides_iff (hflash : flashSize < 2 ^ 32) (hsectors : dataSectors < 2 ^ 32) :
    DivisionLaw flashSize dataSectors ↔
      dataSectors + 2 < 2 ^ 32 ∨ ¬4096 ∣ flashSize ∨ (flashSize = 0 ∧ dataSectors = 2 ^ 32 - 1) := by
  constructor
  · intro h
    by_contra hno
    rw [not_or, not_or, not_not] at hno
    obtain ⟨hwrapped, haligned, hzero⟩ := hno
    have hok := flashLayoutCompute_eq_ok_iff.mpr
      ⟨haligned, show 2 ≤ dataSectors by omega, by rw [wrap32]; omega, rfl⟩
    exact not_divides_of_wrapped hsectors (not_lt.mp hwrapped) hflash (h.divides _ hok)
  · intro h
    refine ⟨fun layout hok => ?_, fun haligned htwo hdivided => ?_⟩
    · rcases h with h | h | ⟨rfl, rfl⟩
      · exact divides_of_ok hflash h hok
      · exact absurd (flashLayoutCompute_eq_ok_iff.mp hok).1 h
      · exact absurd (flashLayoutCompute_eq_ok_iff.mp hok).2.2.1 (by decide)
    · obtain ⟨layout, hdivides⟩ := hdivided
      have htotal := hdivides.total_le
      have hreserved := hdivides.reserved.1
      have himage := hdivides.image
      have hsame := hdivides.same_size
      rw [FLASH_LAYOUT_SECTOR_SIZE] at hreserved himage
      exact ⟨_, flashLayoutCompute_eq_ok_iff.mpr ⟨haligned, htwo, by rw [wrap32]; omega, rfl⟩⟩

/-- The default build, and one that asks for two sectors less than the counter holds. -/
theorem flashLayout_divides_default : DivisionLaw (2 * 1024 * 1024) 32 ∧
    ¬DivisionLaw (2 * 1024 * 1024) (2 ^ 32 - 2) :=
  ⟨(flashLayout_divides_iff (by norm_num) (by norm_num)).mpr (.inl (by norm_num)),
    fun h => absurd ((flashLayout_divides_iff (by norm_num) (by norm_num)).mp h) (by norm_num)⟩

theorem flashLayout_overfull : ¬∀ flashSize dataSectors, flashSize < 2 ^ 32 → dataSectors < 2 ^ 32 →
    DivisionLaw flashSize dataSectors := by
  intro h
  have hok : flashLayoutCompute (2 * 1024 * 1024) (2 ^ 32 - 2) =
      .ok ⟨⟨0, 257 * 4096⟩, ⟨257 * 4096, 257 * 4096⟩, ⟨514 * 4096, 4096⟩,
        ⟨515 * 4096, 2 ^ 32 - 3 * 4096⟩⟩ := by decide
  have hdivides := (h _ _ (by norm_num) (by norm_num)).divides _ hok
  exact absurd hdivides.total_le (by norm_num)

end division

section operations

variable {flashSize dataSectors offset size unit : ℕ} {layout : FlashLayout} {region : FlashRegion}
  {build : FlashBuild} {w t : FlashWorld} {op : FlashOp}

/-- A request that the region has no room for, or that is not of whole units. -/
def BadRequest (region : FlashRegion) (unit offset size : ℕ) : Prop :=
  ¬offset + size ≤ region.size ∨ ¬unit ∣ offset ∨ ¬unit ∣ size

/-- An operation on whole units inside the region, where it was asked for. -/
structure FlashOp.Within (op : FlashOp) (region : FlashRegion) (unit offset : ℕ) : Prop where
  start_eq : op.start = region.offset + offset
  inside : offset + op.size ≤ region.size
  no_wrap : op.start + op.size < 2 ^ 32
  start_aligned : unit ∣ op.start
  size_aligned : unit ∣ op.size

def FlashMark.asked : FlashMark → FlashOp
  | .carried op => op
  | .torn op => op

/-- Whatever reached the chip was within the region, and so is whatever changed. -/
def Confined (region : FlashRegion) (unit offset : ℕ) (w t : FlashWorld) : Prop :=
  (∃ marks, t.trace = w.trace ++ marks ∧ ∀ mark ∈ marks, mark.asked.Within region unit offset) ∧
    ∀ a, ¬region.Holds a → t.mem a = w.mem a

/-- What a call can have done when it returns, and when power goes while it runs. -/
def OperationLaw (region : FlashRegion) (unit offset size : ℕ) (call : Flash FlashStorageResult)
    (w : FlashWorld) : Prop :=
  wp call
    (fun r t => Confined region unit offset w t ∧
      (BadRequest region unit offset size → r ≠ .ok ∧ t.mem = w.mem ∧ t.trace = w.trace))
    (fun t => Confined region unit offset w t ∧ ¬BadRequest region unit offset size) w

theorem Untouched.confined (h : Untouched w t) : Confined region unit offset w t :=
  ⟨⟨[], by rw [h.trace, List.append_nil], nofun⟩, fun a _ => by rw [h.mem]⟩

theorem confined_of_frames (hop : op.Within region unit offset) (hframes : op.Frames w.mem t.mem)
    {mark : FlashMark} (hmark : mark.asked = op) (htrace : t.trace = w.trace ++ [mark]) :
    Confined region unit offset w t := by
  refine ⟨⟨[mark], htrace, fun other hother => ?_⟩, fun a ha => hframes a ?_⟩
  · rw [List.mem_singleton.mp hother, hmark]
    exact hop
  · have hstart := hop.start_eq
    have hinside := hop.inside
    rw [FlashRegion.Holds] at ha
    omega

theorem Ran.confined (hop : op.Within region unit offset) (h : Ran op w t) :
    Confined region unit offset w t := by
  have hframes := h.frames
  rcases h with h | ⟨h, -⟩
  · exact confined_of_frames hop hframes rfl h.trace
  · exact confined_of_frames hop hframes rfl h.trace

theorem Cut.confined (hop : op.Within region unit offset) (h : Cut op w t) :
    Confined region unit offset w t := by
  have hframes := h.frames
  rcases h with h | h | h
  · exact h.confined
  · exact confined_of_frames hop hframes rfl h.trace
  · exact confined_of_frames hop hframes rfl h.trace

theorem flashStorageRun_refused {bounds : FlashLayoutResult} (hbounds : bounds ≠ .ok) :
    ∃ r, r ≠ FlashStorageResult.ok ∧
      (flashStorageRun build region bounds size op).run.run w = (some r, w) := by
  unfold flashStorageRun
  by_cases hcheck : precheck build region = .ok
  · have htranslated : FlashStorageResult.ofLayout bounds ≠ .ok := by
      cases bounds with
      | ok => exact absurd rfl hbounds
      | errInvalidArg => exact nofun
      | errTooSmall => exact nofun
      | errUnaligned => exact nofun
      | errOutOfRange => exact nofun
    refine ⟨_, htranslated, ?_⟩
    simp only [hcheck, ne_eq, not_true_eq_false, if_false, htranslated, not_false_eq_true, if_true]
    rfl
  · refine ⟨_, hcheck, ?_⟩
    simp only [ne_eq, hcheck, not_false_eq_true, if_true]
    rfl

theorem flashStorageRun_law {bounds : FlashLayoutResult}
    (hbounds : bounds = .ok → op.Within region unit offset ∧ ¬BadRequest region unit offset size)
    (w : FlashWorld) :
    OperationLaw region unit offset size (flashStorageRun build region bounds size op) w := by
  by_cases hok : bounds = .ok
  · obtain ⟨hop, hgood⟩ := hbounds hok
    refine wp_mono (wp_flashStorageRun build region bounds size op w) ?_ ?_
    · intro r t hreturned
      refine ⟨?_, fun hbad => absurd hbad hgood⟩
      rcases hreturned with ⟨-, -, -, hran⟩ | ⟨-, huntouched⟩
      · exact hran.confined hop
      · exact huntouched.confined
    · exact fun t hcut => ⟨hcut.confined hop, hgood⟩
  · have hrefused : ∃ r, r ≠ FlashStorageResult.ok ∧
        (flashStorageRun build region bounds size op).run.run w = (some r, w) :=
      flashStorageRun_refused hok
    obtain ⟨r, hr, hrun⟩ := hrefused
    exact (wp_returned hrun).mpr ⟨(Untouched.refl w).confined, fun _ => ⟨hr, rfl, rfl⟩⟩

theorem checked_eq_ok_iff (inside base start whole : Bool) :
    (if !inside then FlashLayoutResult.errOutOfRange
      else if !base ∨ !start ∨ !whole then .errUnaligned else .ok) = .ok ↔
    inside = true ∧ base = true ∧ start = true ∧ whole = true := by
  cases inside with
  | false => exact iff_of_false nofun fun h => Bool.false_ne_true h.1
  | true => cases base <;> cases start <;> cases whole <;> decide

theorem sectorAligned_iff : flashOffsetIsSectorAligned offset = true ↔ 4096 ∣ offset :=
  decide_eq_true_iff.trans Nat.dvd_iff_mod_eq_zero.symm

theorem pageAligned_iff : flashOffsetIsPageAligned offset = true ↔ 256 ∣ offset :=
  decide_eq_true_iff.trans Nat.dvd_iff_mod_eq_zero.symm

theorem checkErase_eq_ok_iff : flashRegionCheckErase region offset size = .ok ↔
    (region.size ≠ 0 ∧ offset + size ≤ region.size) ∧
      4096 ∣ region.offset ∧ 4096 ∣ offset ∧ 4096 ∣ size := by
  refine (checked_eq_ok_iff _ _ _ _).trans ?_
  rw [flashRegionContains_iff, sectorAligned_iff, sectorAligned_iff, sectorAligned_iff]

theorem checkProgram_eq_ok_iff : flashRegionCheckProgram region offset size = .ok ↔
    (region.size ≠ 0 ∧ offset + size ≤ region.size) ∧
      256 ∣ region.offset ∧ 256 ∣ offset ∧ 256 ∣ size := by
  refine (checked_eq_ok_iff _ _ _ _).trans ?_
  rw [flashRegionContains_iff, pageAligned_iff, pageAligned_iff, pageAligned_iff]

theorem within_of_checked (hregion : region.offset + region.size < 2 ^ 32)
    (hsize : op.size = size) (hstart : op.start = flashRegionAbsolute region offset)
    (hchecked : (region.size ≠ 0 ∧ offset + size ≤ region.size) ∧
      unit ∣ region.offset ∧ unit ∣ offset ∧ unit ∣ size) :
    op.Within region unit offset ∧ ¬BadRequest region unit offset size := by
  obtain ⟨⟨-, hinside⟩, hbase, hoffset, hwhole⟩ := hchecked
  have habsolute : flashRegionAbsolute region offset = region.offset + offset :=
    Nat.mod_eq_of_lt (by omega)
  rw [habsolute] at hstart
  refine ⟨⟨hstart, hsize ▸ hinside, by omega, hstart ▸ Nat.dvd_add hbase hoffset, hsize ▸ hwhole⟩, ?_⟩
  rintro (hout | hodd | hodd)
  · exact hout hinside
  · exact hodd hoffset
  · exact hodd hwhole

/-- No operation leaves its region: for every region of a layout, wherever the code runs from and
whatever the chip does, an erase reaches whole sectors of the region and a program whole pages. -/
theorem flash_operations_stay (hflash : flashSize < 2 ^ 32)
    (hsectors : dataSectors < flashSize / FLASH_LAYOUT_SECTOR_SIZE)
    (hlayout : flashLayoutCompute flashSize dataSectors = .ok layout)
    (hregion : region ∈ layout.regions) (build : FlashBuild) (offset size : ℕ) (data : Bytes)
    (w : FlashWorld) :
    OperationLaw region FLASH_LAYOUT_SECTOR_SIZE offset size
        (flashStorageErase build region offset size) w ∧
      OperationLaw region FLASH_LAYOUT_PAGE_SIZE offset data.length
        (flashStorageProgram build region offset data) w := by
  rw [FLASH_LAYOUT_SECTOR_SIZE] at hsectors
  have hdivides := divides_of_ok hflash (by omega) hlayout
  have hend : region.offset + region.size < 2 ^ 32 := lt_of_le_of_lt (hdivides.end_le hregion) hflash
  constructor
  · refine flashStorageRun_law (fun hok => ?_) w
    exact within_of_checked hend rfl rfl (checkErase_eq_ok_iff.mp hok)
  · refine flashStorageRun_law (fun hok => ?_) w
    exact within_of_checked hend rfl rfl (checkProgram_eq_ok_iff.mp hok)

/-- Half a sector of the default build's data region: refused, and the chip left alone. -/
theorem flash_operations_stay_half : wp
    (flashStorageErase defaultBuild (flashLayoutGet defaultBuild).data 0 2048)
      (fun r t => r ≠ .ok ∧ t.mem = fun _ => 0) (fun _ => False) ⟨fun _ => 0, [], []⟩ := by
  have hlayout : flashLayoutCompute (2 * 1024 * 1024) 32 = .ok (flashLayoutGet defaultBuild) := rfl
  have hregion : (flashLayoutGet defaultBuild).data ∈ (flashLayoutGet defaultBuild).regions := by
    decide
  have hlaw := (flash_operations_stay (by norm_num) (by decide) hlayout hregion defaultBuild 0 2048
    [] ⟨fun _ => 0, [], []⟩).1
  have hbad : BadRequest (flashLayoutGet defaultBuild).data FLASH_LAYOUT_SECTOR_SIZE 0 2048 :=
    .inr (.inr (by decide))
  refine wp_mono hlaw (fun r t h => ?_) (fun t h => h.2 hbad)
  exact ⟨(h.2 hbad).1, (h.2 hbad).2.1⟩

end operations

end Pico
