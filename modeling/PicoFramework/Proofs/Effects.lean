import PicoFramework.Lib.Writes
import PicoFramework.Proofs.LedRange
import PicoFramework.Spec.Effects

/-! What is written of a strip: no effect leaves the pixels that it is given, and what is outside of
the range stays black. -/

namespace Pico

open Lib.Writes

section renderers

variable {length : UInt16}

/-- All writes are to pixels below a length. -/
def Within (n : ℕ) (pixels : PixelWrites) : Prop := ∀ pixel ∈ pixels, pixel.1 < n

theorem fillWith_within (length : UInt16) (color : UInt16 → Ws2812Color) :
    Within length.toNat (fillWith length color) := by
  intro pixel hpixel
  obtain ⟨i, hi, rfl⟩ := List.mem_map.mp hpixel
  exact List.mem_range.mp hi

theorem renderWipe_within (effects : Effects) (base : Ws2812Color) (brightness : UInt8)
    (hpos : 0 < length.toNat) : Within length.toNat (renderWipe effects base brightness length) := by
  intro pixel hpixel
  rcases List.mem_append.mp hpixel with hblack | htrail
  · exact fillWith_within length _ pixel hblack
  · obtain ⟨t, -, rfl⟩ := List.mem_map.mp htrail
    exact Nat.mod_lt _ hpos

theorem effectsRender_within (effects : Effects) (light : Light) (length : UInt16) (nowMs : UInt32) :
    Within length.toNat (effectsRender effects light length nowMs).2 := by
  unfold effectsRender
  split
  · exact fun _ hpixel => absurd hpixel List.not_mem_nil
  · rename_i hne
    have hpos : 0 < length.toNat := Nat.pos_of_ne_zero fun hzero => hne (UInt16.toNat_inj.mp hzero)
    dsimp only
    split
    · exact fillWith_within length fun _ => WS2812_COLOR_BLACK
    · cases light.effect with
      | solid =>
        dsimp only [renderSolid]
        exact fillWith_within length _
      | rainbow =>
        dsimp only [renderRainbow]
        exact fillWith_within length _
      | twinkle =>
        dsimp only [renderTwinkle]
        exact fillWith_within length _
      | wipe => exact renderWipe_within _ _ _ hpos
      | breathing =>
        dsimp only [renderBreathing]
        exact fillWith_within length _

theorem stored_append (before : Ws2812Color) (ws vs : PixelWrites) (i : ℕ) :
    stored before (ws ++ vs) i = stored (stored before ws i) vs i := by
  unfold stored
  exact List.foldl_append

theorem stored_black {i : ℕ} (hi : i < length.toNat) (before : Ws2812Color) :
    stored before (fillBlack length) i = WS2812_COLOR_BLACK := by
  have hplaces : ((fillBlack length).map Prod.fst) = List.range length.toNat := by
    unfold fillBlack fillWith
    rw [List.map_map]
    exact List.map_id _
  have hmem : (i, WS2812_COLOR_BLACK) ∈ fillBlack length :=
    List.mem_map.mpr ⟨i, List.mem_range.mpr hi, rfl⟩
  exact stored_of_mem before (hplaces ▸ List.nodup_range) hmem

end renderers

section strips

variable {range : LedRange} {limit : UInt16}

/-- A strip on which nothing is written from its end on, and which is black outside a range. -/
structure Respects (range : LedRange) (length : UInt16) (pixels : PixelWrites) : Prop where
  within : Within length.toNat pixels
  black : ∀ i < length.toNat, i < range.begin.toNat ∨ range.stop.toNat ≤ i →
    ∀ before, stored before pixels i = WS2812_COLOR_BLACK

theorem respects_black (range : LedRange) (length : UInt16) :
    Respects range length (fillBlack length) where
  within := fillWith_within length _
  black := fun _ hi _ before => stored_black hi before

theorem Respects.draw {length active : UInt16} {pixels : PixelWrites}
    (hpixels : Within active.toNat pixels)
    (hlength : range.begin.toNat + active.toNat ≤ length.toNat)
    (hstop : range.begin.toNat + active.toNat ≤ range.stop.toNat) :
    Respects range length
      (fillBlack length ++ pixels.map fun pixel => (range.begin.toNat + pixel.1, pixel.2)) := by
  have hdrawn : ∀ w ∈ pixels.map fun pixel => (range.begin.toNat + pixel.1, pixel.2),
      range.begin.toNat ≤ w.1 ∧ w.1 < range.begin.toNat + active.toNat := by
    intro w hw
    obtain ⟨pixel, hpixel, rfl⟩ := List.mem_map.mp hw
    exact ⟨Nat.le_add_right _ _, Nat.add_lt_add_left (hpixels pixel hpixel) _⟩
  constructor
  · intro w hw
    rcases List.mem_append.mp hw with hblack | hshifted
    · exact fillWith_within length _ w hblack
    · exact (hdrawn w hshifted).2.trans_le hlength
  · intro i hi houtside before
    rw [stored_append, stored_black hi]
    apply stored_of_not_mem
    rintro w hw rfl
    obtain ⟨hge, hlt⟩ := hdrawn w hw
    omega

theorem effectsRenderRange_respects (effects : Effects) (light : Light)
    (hrange : range.Selects limit) (length : UInt16) (nowMs : UInt32) :
    Respects range length (effectsRenderRange effects light range length nowMs).2 := by
  have hle : range.begin ≤ range.stop := UInt16.le_iff_toNat_le.mpr hrange.lt.le
  have hlength : range.length.toNat = range.stop.toNat - range.begin.toNat := by
    rw [LedRange.length, if_pos hle, UInt16.toNat_sub_of_le _ _ hle]
  have hlt := hrange.lt
  unfold effectsRenderRange
  split
  · rename_i hzero
    rw [hzero]
    exact ⟨fun _ hpixel => absurd hpixel List.not_mem_nil, fun _ hi => absurd hi (Nat.not_lt_zero _)⟩
  dsimp only
  split
  · exact respects_black range length
  rename_i hstarts
  have hstarts' : range.begin ≤ length := UInt16.le_of_lt (UInt16.not_le.mp hstarts)
  have hroom : (length - range.begin).toNat = length.toNat - range.begin.toNat :=
    UInt16.toNat_sub_of_le _ _ hstarts'
  rw [UInt16.le_iff_toNat_le] at hstarts'
  generalize hactive : (if range.length > length - range.begin then length - range.begin
    else range.length) = active
  have hbounds : active.toNat ≤ length.toNat - range.begin.toNat ∧
      active.toNat ≤ range.stop.toNat - range.begin.toNat := by
    rw [← hactive, ← hroom, ← hlength]
    split
    · rename_i hlong
      exact ⟨le_rfl, (UInt16.lt_iff_toNat_lt.mp hlong).le⟩
    · rename_i hshort
      exact ⟨UInt16.le_iff_toNat_le.mp (UInt16.not_lt.mp hshort), le_rfl⟩
  split
  · exact respects_black range length
  · exact Respects.draw (effectsRender_within effects light active nowMs) (by omega) (by omega)

end strips

/-- What calls make of the range, and what any frame writes of a strip that is lit in it. -/
theorem ledRange_respected {range : LedRange} (h : range.Reached) :
    (range.begin.toNat < range.stop.toNat ∧ range.stop.toNat ≤ range.limit.toNat) ∧
    (∀ value,
      (range.setFirst value).first.toNat = LedRange.nearest range.limit value ∧
      (range.setFirst value).last.toNat =
        max range.last.toNat (LedRange.nearest range.limit value)) ∧
    (∀ value,
      (range.setLast value).last.toNat = LedRange.nearest range.limit value ∧
      (range.setLast value).first.toNat =
        min range.first.toNat (LedRange.nearest range.limit value)) ∧
    (∀ first last : UInt16,
      (1 ≤ first.toNat ∧ first.toNat ≤ last.toNat ∧ last.toNat ≤ range.limit.toNat →
        (range.set first last).1 = true ∧ (range.set first last).2.first = first ∧
          (range.set first last).2.last = last) ∧
      (¬ (1 ≤ first.toNat ∧ first.toNat ≤ last.toNat ∧ last.toNat ≤ range.limit.toNat) →
        range.set first last = (false, range))) ∧
    (∀ move, range.Tells (range.step move)) ∧
    ∀ (effects : Effects) (light : Light) (length : UInt16) (nowMs : UInt32),
      Respects range length (effectsRenderRange effects light range length nowMs).2 := by
  have hselects := h.selects
  exact ⟨⟨hselects.lt, hselects.le⟩, hselects.setFirst, hselects.setLast, hselects.set,
    range.tells_step, fun effects light => effectsRenderRange_respects effects light hselects⟩

/-- Three LEDs of ten, of which the last is asked to be before the first, and a wipe over a strip that
is shorter than the range was. -/
theorem ledRange_respected_moved :
    ((ledRangeRestore 10 4 6).setLast 2).first = 2 ∧ ((ledRangeRestore 10 4 6).setLast 2).last = 2 ∧
      Respects ((ledRangeRestore 10 4 6).setLast 2) 5
        (effectsRenderRange ⟨0, 0, .wipe, true, 0, 9⟩ { lightInit with on := true, effect := .wipe }
          ((ledRangeRestore 10 4 6).setLast 2) 5 16).2 := by
  have hreached : LedRange.Reached ((ledRangeRestore 10 4 6).setLast 2) :=
    .stepped (.setLast 2) (.restored (by decide) 4 6)
  obtain ⟨-, -, -, -, -, hrendered⟩ := ledRange_respected hreached
  exact ⟨by decide, by decide, hrendered _ _ _ _⟩

end Pico
