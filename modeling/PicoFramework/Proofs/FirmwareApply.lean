import PicoFramework.Proofs.FirmwareService
import PicoFramework.Proofs.FlashRegions
import PicoFramework.Spec.FirmwareApply

/-! An image installed: the application's sectors become those of staging, and nothing else
changes, as long as the regions are apart. -/

namespace Pico

open Lib.Nor

section copying

variable {source destination : FlashRegion} {mem : Mem}

theorem firmwareApplySector_eq {sector : ℕ}
    (hsource : source.offset + 4096 * (sector + 1) ≤ 2 ^ 32)
    (hdestination : destination.offset + 4096 * (sector + 1) ≤ 2 ^ 32) :
    firmwareApplySector source destination mem sector =
      scribble mem (destination.offset + 4096 * sector) 4096
        fun a => mem (source.offset + (a - destination.offset)) := by
  unfold firmwareApplySector
  simp only [wrap32, FLASH_LAYOUT_SECTOR_SIZE]
  rw [Nat.mul_comm sector, Nat.mod_eq_of_lt (by omega), Nat.mod_eq_of_lt (by omega),
    Nat.mod_eq_of_lt (by omega), program_erase_read]
  refine scribble_congr fun a _ _ => congrArg mem ?_
  omega

/-- After some sectors, those are copied; the source is as it was, since it lies apart. -/
theorem foldl_firmwareApplySector {sectors : ℕ}
    (hsource : source.offset + 4096 * sectors ≤ 2 ^ 32)
    (hdestination : destination.offset + 4096 * sectors ≤ 2 ^ 32)
    (hapart : destination.offset + 4096 * sectors ≤ source.offset ∨
      source.offset + 4096 * sectors ≤ destination.offset) :
    (List.range sectors).foldl (firmwareApplySector source destination) mem =
      scribble mem destination.offset (4096 * sectors)
        fun a => mem (source.offset + (a - destination.offset)) := by
  induction sectors with
  | zero =>
    funext a
    exact (scribble_outside (by omega)).symm
  | succ n ih =>
    rw [List.range_succ, List.foldl_append, ih (by omega) (by omega) (by omega), List.foldl_cons,
      List.foldl_nil, firmwareApplySector_eq hsource hdestination]
    rw [Nat.mul_add, Nat.mul_one, ← scribble_scribble]
    exact scribble_congr fun a _ _ => scribble_outside (by omega)

end copying

section installing

variable {flashSize dataSectors size : ℕ} {layout : FlashLayout} {mem mem' : Mem}

/-- Byte `i` of a region, as the component addresses it. -/
def FlashRegion.byte (region : FlashRegion) (mem : Mem) (i : ℕ) : UInt8 :=
  mem (flashRegionAbsolute region i)

/-- An image installed, and nothing else written over. -/
structure Installed (layout : FlashLayout) (mem mem' : Mem) (size : ℕ) : Prop where
  image : ∀ i < size, layout.application.byte mem' i = layout.staging.byte mem' i
  kept : ∀ region ∈ [layout.staging, layout.manifest, layout.data], ∀ i < region.size,
    region.byte mem' i = region.byte mem i
  changed : ∀ i < layout.application.size,
    layout.application.byte mem' i ≠ layout.application.byte mem i →
    i < (size + 4095) / 4096 * 4096

theorem images_eq (hflash : flashSize < 2 ^ 32) (hsectors : dataSectors < 2 ^ 32)
    (h : flashLayoutCompute flashSize dataSectors = .ok layout) :
    ∃ n, 0 < n ∧ n ≤ 2 ^ 19 ∧ layout.application = ⟨0, 4096 * n⟩ ∧ layout.staging = ⟨4096 * n, 4096 * n⟩ ∧
      layout.manifest = ⟨wrap32 (2 * (4096 * n)), 4096⟩ ∧
      layout.data = ⟨wrap32 (wrap32 (2 * (4096 * n)) + 4096),
        sub32 flashSize (wrap32 (wrap32 (2 * (4096 * n)) + 4096))⟩ ∧
      (2 ^ 32 ≤ dataSectors + 2 → flashSize ≤ 2 * (4096 * n)) := by
  obtain ⟨haligned, htwo, hroom, rfl⟩ := flashLayoutCompute_eq_ok_iff.mp h
  rw [wrap32] at hroom
  have hle : 0 < sub32 (flashSize / 4096) dataSectors / 2 ∧
      sub32 (flashSize / 4096) dataSectors / 2 ≤ 2 ^ 19 ∧
      (2 ^ 32 ≤ dataSectors + 2 →
        flashSize ≤ 2 * (4096 * (sub32 (flashSize / 4096) dataSectors / 2))) := by
    rw [sub32, wrap32]
    omega
  have himage : wrap32 (sub32 (flashSize / 4096) dataSectors / 2 * 4096) =
      4096 * (sub32 (flashSize / 4096) dataSectors / 2) := by
    rw [wrap32, Nat.mod_eq_of_lt (by omega), Nat.mul_comm]
  simp only [himage]
  exact ⟨_, hle.1, hle.2.1, rfl, rfl, rfl, rfl, hle.2.2⟩

theorem firmwareApply_eq {n : ℕ} (hn : n ≤ 2 ^ 19) (happlication : layout.application = ⟨0, 4096 * n⟩)
    (hstaging : layout.staging = ⟨4096 * n, 4096 * n⟩) (hsize : size ≤ layout.application.size) :
    firmwareApply layout.staging layout.application size mem =
      scribble mem 0 ((size + 4095) / 4096 * 4096) fun a => mem (4096 * n + a) := by
  rw [happlication] at hsize
  have hsize : size ≤ 4096 * n := hsize
  unfold firmwareApply
  dsimp only
  rw [wrap32, FLASH_LAYOUT_SECTOR_SIZE, Nat.mod_eq_of_lt (by omega), happlication, hstaging,
    foldl_firmwareApplySector (by dsimp only; omega) (by dsimp only; omega) (by dsimp only; omega),
    Nat.mul_comm _ 4096]
  exact scribble_congr fun a _ _ => rfl

theorem installed_of_apart {n : ℕ} (hn : n ≤ 2 ^ 19)
    (happlication : layout.application = ⟨0, 4096 * n⟩)
    (hstaging : layout.staging = ⟨4096 * n, 4096 * n⟩) (hsize : size ≤ layout.application.size)
    (hapart : ∀ region ∈ [layout.manifest, layout.data], ∀ i < region.size,
      4096 * n ≤ flashRegionAbsolute region i) :
    Installed layout mem (firmwareApply layout.staging layout.application size mem) size := by
  rw [firmwareApply_eq hn happlication hstaging hsize]
  rw [happlication] at hsize
  have hsize : size ≤ 4096 * n := hsize
  have happlied : ∀ i < 4096 * n, flashRegionAbsolute layout.application i = i := by
    intro i hi
    rw [happlication, flashRegionAbsolute, wrap32]
    exact (Nat.mod_eq_of_lt (by dsimp only; omega)).trans (Nat.zero_add i)
  have hstaged : ∀ i < 4096 * n, flashRegionAbsolute layout.staging i = 4096 * n + i := by
    intro i hi
    rw [hstaging, flashRegionAbsolute, wrap32]
    exact Nat.mod_eq_of_lt (by dsimp only; omega)
  refine ⟨fun i hi => ?_, fun region hregion i hi => ?_, fun i hi hne => ?_⟩
  · rw [FlashRegion.byte, FlashRegion.byte, happlied i (by omega), hstaged i (by omega), scribble,
      if_pos (by omega), scribble_outside (by omega)]
  · have habove : 4096 * n ≤ flashRegionAbsolute region i := by
      rcases List.mem_cons.mp hregion with rfl | hregion
      · rw [hstaged i (by rw [hstaging] at hi; exact hi)]
        exact Nat.le_add_right _ _
      · exact hapart region hregion i hi
    exact scribble_outside (by omega)
  · rw [happlication] at hi
    by_contra hpast
    refine hne (scribble_outside ?_)
    rw [happlied i hi]
    omega

theorem regions_apart (hflash : flashSize < 2 ^ 32) (hsectors : dataSectors + 2 < 2 ^ 32)
    (h : flashLayoutCompute flashSize dataSectors = .ok layout) :
    ∀ region ∈ [layout.manifest, layout.data], ∀ i < region.size,
      layout.application.size + layout.staging.size ≤ flashRegionAbsolute region i := by
  intro region hregion i hi
  have hdivides := divides_of_ok hflash hsectors h
  have hend := hdivides.end_le (List.mem_cons_of_mem _ (List.mem_cons_of_mem _ hregion))
  have habsolute : flashRegionAbsolute region i = region.offset + i := Nat.mod_eq_of_lt (by omega)
  obtain ⟨n, -, -, -, -, -, rfl⟩ := layout_eq hflash hsectors h
  rw [habsolute]
  rcases List.mem_cons.mp hregion with rfl | hregion
  · dsimp only
    omega
  · rw [List.mem_singleton.mp hregion]
    dsimp only
    omega

/-- A reservation that wraps puts the manifest or the data where the application lies. -/
theorem exists_overlap (hflash : flashSize < 2 ^ 32) (hsectors : dataSectors < 2 ^ 32)
    (hwrapped : 2 ^ 32 ≤ dataSectors + 2) (hzero : flashSize ≠ 0)
    (h : flashLayoutCompute flashSize dataSectors = .ok layout) :
    ∃ region ∈ [layout.staging, layout.manifest, layout.data], ∃ i < region.size,
      flashRegionAbsolute region i = 0 := by
  obtain ⟨n, -, hn, -, -, hmanifest, hdata, hover⟩ := images_eq hflash hsectors h
  have hover := hover hwrapped
  by_cases htop : n = 2 ^ 19
  · refine ⟨layout.manifest, by simp, 0, ?_, ?_⟩
    · rw [hmanifest]
      exact Nat.zero_lt_succ _
    · rw [hmanifest, htop]
      rfl
  · have hmanifestOffset : wrap32 (2 * (4096 * n)) = 2 * (4096 * n) := Nat.mod_eq_of_lt (by omega)
    have hdataOffset : wrap32 (2 * (4096 * n) + 4096) = 2 * (4096 * n) + 4096 :=
      Nat.mod_eq_of_lt (by omega)
    rw [hmanifestOffset, hdataOffset, sub32, wrap32, Nat.mod_eq_of_lt (by omega)] at hdata
    refine ⟨layout.data, by simp, 2 ^ 32 - (2 * (4096 * n) + 4096), ?_, ?_⟩
    · rw [hdata]
      dsimp only
      omega
    · rw [hdata, flashRegionAbsolute, wrap32]
      dsimp only
      omega

theorem layout_of_nothing (hsectors : dataSectors < 2 ^ 32)
    (h : flashLayoutCompute 0 dataSectors = .ok layout) :
    layout = ⟨⟨0, 4096⟩, ⟨4096, 4096⟩, ⟨8192, 4096⟩, ⟨12288, 2 ^ 32 - 12288⟩⟩ := by
  obtain ⟨-, -, hroom, rfl⟩ := flashLayoutCompute_eq_ok_iff.mp h
  obtain rfl : dataSectors = 2 ^ 32 - 2 := by
    rw [wrap32] at hroom
    omega
  decide

/-- Installing copies exactly the staged image in every layout of a chip, but for those that a
reservation gets of which the check's sum wraps. -/
theorem firmwareApply_installs_iff (hflash : flashSize < 2 ^ 32) (hsectors : dataSectors < 2 ^ 32)
    (hlayout : flashLayoutCompute flashSize dataSectors = .ok layout) :
    (∀ (mem : Mem) (size : ℕ), 0 < size → size ≤ layout.application.size →
      Installed layout mem (firmwareApply layout.staging layout.application size mem) size) ↔
    dataSectors + 2 < 2 ^ 32 ∨ flashSize = 0 := by
  obtain ⟨n, hpos, hn, happlication, hstaging, -⟩ := images_eq hflash hsectors hlayout
  have hone : 1 ≤ layout.application.size := by
    rw [happlication]
    dsimp only
    omega
  constructor
  · intro h
    by_contra hno
    rw [not_or] at hno
    obtain ⟨hwrapped, hzero⟩ := hno
    obtain ⟨region, hregion, i, hi, habsolute⟩ :=
      exists_overlap hflash hsectors (not_lt.mp hwrapped) hzero hlayout
    -- Staging begins with a one, and the application with a zero.
    have hkept := (h (fun a => if a = 4096 * n then 1 else 0) 1 Nat.one_pos hone).kept
      region hregion i hi
    rw [firmwareApply_eq hn happlication hstaging hone, FlashRegion.byte, FlashRegion.byte,
      habsolute, scribble, if_pos (by omega), if_pos (Nat.add_zero _), if_neg (by omega)] at hkept
    cases hkept
  · intro h mem size _ hsize
    refine installed_of_apart hn happlication hstaging hsize fun region hregion i hi => ?_
    rcases h with h | rfl
    · have hapart := regions_apart hflash h hlayout region hregion i hi
      rw [happlication] at hapart
      exact le_trans (Nat.le_add_right _ _) hapart
    · obtain rfl := layout_of_nothing hsectors hlayout
      obtain rfl : n = 1 := by
        have hsame := congrArg FlashRegion.size happlication
        dsimp only at hsame
        omega
      rw [flashRegionAbsolute, wrap32]
      rcases List.mem_cons.mp hregion with rfl | hregion
      · dsimp only at hi ⊢
        omega
      · obtain rfl := List.mem_singleton.mp hregion
        dsimp only at hi ⊢
        omega

/-- An image of five bytes on the default build. -/
theorem firmwareApply_installs_default : Installed (flashLayoutGet defaultBuild) UInt8.ofNat
    (firmwareApply (flashLayoutGet defaultBuild).staging (flashLayoutGet defaultBuild).application
      5 UInt8.ofNat) 5 := by
  have hlayout : flashLayoutCompute (2 * 1024 * 1024) 32 = .ok (flashLayoutGet defaultBuild) := rfl
  exact (firmwareApply_installs_iff (by norm_num) (by norm_num) hlayout).mpr (.inl (by norm_num))
    UInt8.ofNat 5 (by norm_num) (by decide)

/-- A manifest that lies where the application does is overwritten. -/
theorem firmwareApply_overwrites : ¬∀ (flashSize dataSectors : ℕ) (layout : FlashLayout),
    flashSize < 2 ^ 32 → dataSectors < 2 ^ 32 →
    flashLayoutCompute flashSize dataSectors = .ok layout →
    ∀ (mem : Mem) (size : ℕ), 0 < size → size ≤ layout.application.size →
      Installed layout mem (firmwareApply layout.staging layout.application size mem) size := by
  intro h
  have hlayout : flashLayoutCompute (2 ^ 32 - 4096) (2 ^ 32 - 2) =
      .ok ⟨⟨0, 2 ^ 31⟩, ⟨2 ^ 31, 2 ^ 31⟩, ⟨0, 4096⟩, ⟨4096, 2 ^ 32 - 8192⟩⟩ := by decide
  have hinstalled := h _ _ _ (by norm_num) (by norm_num) hlayout
    (fun a => if a = 2 ^ 31 then 1 else 0) 1 Nat.one_pos (by norm_num)
  have hkept := hinstalled.kept ⟨0, 4096⟩ (by simp) 0 (by norm_num)
  have hcopy := @firmwareApply_eq 1 ⟨⟨0, 2 ^ 31⟩, ⟨2 ^ 31, 2 ^ 31⟩, ⟨0, 4096⟩, ⟨4096, 2 ^ 32 - 8192⟩⟩
    (fun a => if a = 2 ^ 31 then 1 else 0) (2 ^ 19) le_rfl rfl rfl (by norm_num)
  rw [hcopy] at hkept
  exact absurd hkept (by decide)

end installing

section stepping

variable {build : FlashBuild} {board : FirmwareBoard} {service : FirmwareService}
  {source destination : FlashRegion} {size : ℕ}

theorem fwapply_step (hon : board.service = some service)
    (happly : cmdApply build service = .firmwareApply source destination size) :
    FirmwareStep build board .fwapply ⟨firmwareApply source destination size board.mem, none⟩ := by
  refine .applied hon happly fun a ha => ?_
  obtain ⟨-, rfl, rfl, -, hpos, hsize⟩ := cmdApply_firmwareApply happly
  unfold flashLayoutGet at ha hsize ⊢
  cases hlayout : flashLayoutCompute build.flashSize build.dataSectors with
  | error result =>
    rw [hlayout] at hsize
    exact absurd hpos (Nat.not_lt.mpr hsize)
  | ok layout =>
    rw [hlayout] at ha hsize
    obtain ⟨n, -, hn, happlication, hstaging, -⟩ :=
      images_eq build.flashSize_lt build.dataSectors_lt hlayout
    change firmwareApply layout.staging layout.application size board.mem a = board.mem a
    rw [firmwareApply_eq hn happlication hstaging hsize]
    simp only [happlication] at ha hsize
    exact scribble_outside (by omega)

end stepping

end Pico
