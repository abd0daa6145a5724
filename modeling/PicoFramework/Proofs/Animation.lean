import PicoFramework.Lib.Wrapping
import PicoFramework.Proofs.LightFade
import PicoFramework.Spec.Effects

/-! Where an animation is, after any number of frames and any time. -/

namespace Pico

open Lib.Wrapping

section frames

variable (frame : UInt32) (base : Ws2812Color) (brightness : UInt8) (length : UInt16)

/-- A wipe with its head at a pixel: the trail behind it goes round the end of the strip. -/
def wipeAt (head : ℕ) : PixelWrites :=
  fillBlack length ++
    (List.range (min WIPE_TRAIL length.toNat)).map fun t =>
      let index := (head + length.toNat - t) % length.toNat
      let fade := UInt8.ofNat (255 * (WIPE_TRAIL - t) / WIPE_TRAIL)
      (index, ws2812ColorScaleDither (shade base fade) brightness
        (ws2812DitherBias (UInt16.ofNat index) 0 frame))

/-- A rainbow of a hue at each pixel. -/
def rainbowAt (hue : UInt16 → UInt16) : PixelWrites :=
  fillWith length fun i =>
    ws2812ColorScaleDither (ws2812ColorFromHue16 (hue i)) brightness (ws2812DitherBias i 0 frame)

/-- A strip of which the brightness has come to a phase of the breathing. -/
def breathingAt (phase : ℕ) : PixelWrites :=
  let half := BREATHING_PERIOD_MS.toNat / 2
  let rising := if phase < half then phase else BREATHING_PERIOD_MS.toNat - phase
  let wave := lightEase (min (rising * LIGHT_EASE_ONE / half) LIGHT_EASE_ONE)
  let scale := BREATHING_MIN + (BREATHING_MAX - BREATHING_MIN) * wave / LIGHT_EASE_ONE
  fillWith length fun i =>
    ws2812ColorScaleDither base (UInt8.ofNat (brightness.toNat * scale / 255))
      (ws2812DitherBias i 0 frame)

end frames

namespace Effects

variable (effects : Effects)

def wipeHead (length : UInt16) : ℕ := (effects.wipePosition % length).toNat

def hueAt (i : UInt16) : UInt16 :=
  (effects.rainbowHue + i * RAINBOW_STEP_PER_PIXEL) % WS2812_HUE16_RANGE

def phase (nowMs : UInt32) : ℕ := ((nowMs - effects.effectStartMs) % BREATHING_PERIOD_MS).toNat

def Runs (effect : LightEffect) : Prop := effects.started = true ∧ effects.current = effect

instance (effect : LightEffect) : Decidable (effects.Runs effect) :=
  inferInstanceAs (Decidable (_ ∧ _))

end Effects

section drawing

variable {effects : Effects} {light : Light} {length : UInt16} {nowMs : UInt32}

theorem fromHue16_mod (hue : UInt16) :
    ws2812ColorFromHue16 (hue % WS2812_HUE16_RANGE) = ws2812ColorFromHue16 hue := by
  have hmod : hue % WS2812_HUE16_RANGE % WS2812_HUE16_RANGE = hue % WS2812_HUE16_RANGE := by
    rw [← UInt16.toNat_inj, UInt16.toNat_mod, UInt16.toNat_mod, Nat.mod_mod]
  unfold ws2812ColorFromHue16
  rw [hmod]

theorem renderRainbow_eq (effects : Effects) (brightness : UInt8) (length : UInt16) :
    renderRainbow effects brightness length =
      rainbowAt effects.frame brightness length effects.hueAt := by
  unfold renderRainbow rainbowAt Effects.hueAt
  simp only [fromHue16_mod]

theorem renderBreathing_eq (effects : Effects) (base : Ws2812Color) (brightness : UInt8)
    (length : UInt16) (nowMs : UInt32) :
    renderBreathing effects base brightness length nowMs =
      breathingAt effects.frame base brightness length (effects.phase nowMs) := by
  have hcut : ∀ t : ℕ, (if t > LIGHT_EASE_ONE then LIGHT_EASE_ONE else t) = min t LIGHT_EASE_ONE := by
    intro t
    split <;> omega
  unfold renderBreathing breathingAt Effects.phase
  simp only [hcut]

theorem effectsRender_on (hon : light.on = true) (hlength : length ≠ 0) :
    effectsRender effects light length nowMs =
      ((effects.follow light.effect nowMs).advance,
        match light.effect with
        | .rainbow => renderRainbow (effects.follow .rainbow nowMs) light.currentBrightness length
        | .twinkle =>
            renderTwinkle (effects.follow .twinkle nowMs) light.currentColor
              light.currentBrightness length
        | .wipe =>
            renderWipe (effects.follow .wipe nowMs) light.currentColor light.currentBrightness length
        | .breathing =>
            renderBreathing (effects.follow .breathing nowMs) light.currentColor
              light.currentBrightness length nowMs
        | .solid =>
            renderSolid (effects.follow .solid nowMs) light.currentColor
              light.currentBrightness length) := by
  unfold effectsRender
  rw [if_neg hlength, hon]
  cases light.effect <;> rfl

theorem effectsRender_fst (hlength : length ≠ 0) :
    (effectsRender effects light length nowMs).1 =
      if light.on then (effects.follow light.effect nowMs).advance
      else effects.follow light.effect nowMs := by
  unfold effectsRender
  rw [if_neg hlength]
  cases light.on <;> rfl

theorem effectsRender_wipe (hon : light.on = true) (heffect : light.effect = .wipe)
    (hlength : length ≠ 0) :
    (effectsRender effects light length nowMs).2 =
      wipeAt (effects.follow .wipe nowMs).frame light.currentColor light.currentBrightness length
        ((effects.follow .wipe nowMs).wipeHead length) := by
  rw [effectsRender_on hon hlength, heffect]
  rfl

theorem effectsRender_rainbow (hon : light.on = true) (heffect : light.effect = .rainbow)
    (hlength : length ≠ 0) :
    (effectsRender effects light length nowMs).2 =
      rainbowAt (effects.follow .rainbow nowMs).frame light.currentBrightness length
        (effects.follow .rainbow nowMs).hueAt := by
  rw [effectsRender_on hon hlength, heffect]
  exact renderRainbow_eq _ _ _

theorem effectsRender_breathing (hon : light.on = true) (heffect : light.effect = .breathing)
    (hlength : length ≠ 0) :
    (effectsRender effects light length nowMs).2 =
      breathingAt (effects.follow .breathing nowMs).frame light.currentColor
        light.currentBrightness length ((effects.follow .breathing nowMs).phase nowMs) := by
  rw [effectsRender_on hon hlength, heffect]
  exact renderBreathing_eq _ _ _ _ _

end drawing

section runs

/-- The effects as they are when a frame is due at a time, with the time at which their effect was
selected and the number of frames that have been drawn of it. -/
inductive Plays : LightEffect → ℕ → ℕ → ℕ → Effects → Prop
  | init {since now : ℕ} : since ≤ now →
      Plays .solid since 0 now (effectsInit (counter since))
  | selected {effect : LightEffect} {effects : Effects} (now : ℕ) :
      ¬ effects.Runs effect → Plays effect now 0 now effects
  | called {effect : LightEffect} {since drawn now later : ℕ} {effects : Effects}
      (light : Light) {length : UInt16} :
      Plays effect since drawn now effects → light.effect = effect → length ≠ 0 → now ≤ later →
      Plays effect since (if light.on then drawn + 1 else drawn) later
        (effectsRender effects light length (counter now)).1

/-- What is kept of the frames and of the time. -/
structure Animates (effect : LightEffect) (since drawn : ℕ) (effects : Effects) : Prop where
  runs : effects.Runs effect
  start : effects.effectStartMs = counter since
  hue : effects.rainbowHue.toNat = 9 * drawn % WS2812_HUE16_RANGE.toNat
  position : effects.wipePosition = UInt16.ofNat drawn

variable {effect : LightEffect} {since drawn now : ℕ} {effects : Effects}

theorem follow_of_runs (h : effects.Runs effect) (nowMs : UInt32) :
    effects.follow effect nowMs = effects := by
  unfold Effects.follow
  rw [h.1, h.2]
  simp

theorem follows_selected (h : ¬ effects.Runs effect) (now : ℕ) :
    Animates effect now 0 (effects.follow effect (counter now)) := by
  have hstopped : (!effects.started || effects.current ≠ effect) = true := by
    rw [Effects.Runs, not_and_or] at h
    simpa using h
  unfold Effects.follow
  rw [if_pos hstopped]
  exact ⟨⟨rfl, rfl⟩, rfl, rfl, rfl⟩

theorem Animates.advance (h : Animates effect since drawn effects) :
    Animates effect since (drawn + 1) effects.advance where
  runs := h.runs
  start := h.start
  hue := by
    have hrange : WS2812_HUE16_RANGE.toNat = 1536 := rfl
    have hhue := h.hue
    unfold Effects.advance RAINBOW_STEP_PER_FRAME
    dsimp only
    rw [hrange] at hhue ⊢
    rw [UInt16.toNat_ofNat', hhue, Nat.mod_add_mod, Nat.mul_succ]
    exact Nat.mod_eq_of_lt ((Nat.mod_lt _ (by decide)).trans (by decide))
  position := by
    unfold Effects.advance WIPE_STEP_PER_FRAME
    dsimp only
    rw [h.position, UInt16.ofNat_add]
    rfl

theorem Plays.follows (h : Plays effect since drawn now effects) :
    since ≤ now ∧ Animates effect since drawn (effects.follow effect (counter now)) := by
  induction h with
  | init hle => exact ⟨hle, ⟨rfl, rfl⟩, rfl, rfl, rfl⟩
  | selected now hstopped => exact ⟨le_rfl, follows_selected hstopped now⟩
  | @called effect since drawn now later effects light length hplays heffect hlength hlater ih =>
    obtain ⟨hle, hfollows⟩ := ih
    refine ⟨hle.trans hlater, ?_⟩
    rw [effectsRender_fst hlength, heffect]
    split
    · rw [follow_of_runs hfollows.advance.runs]
      exact hfollows.advance
    · rw [follow_of_runs hfollows.runs]
      exact hfollows

theorem plays_drawn (effect : LightEffect) (hmoves : effect ≠ .solid) (drawn : ℕ) :
    ∃ effects, Plays effect 0 drawn (16 * drawn) effects := by
  induction drawn with
  | zero => exact ⟨effectsInit 0, .selected 0 fun hruns => hmoves hruns.2.symm⟩
  | succ drawn ih =>
    obtain ⟨effects, hplays⟩ := ih
    have hlength : (1 : UInt16) ≠ 0 := by decide
    exact ⟨_, .called { lightInit with on := true, effect := effect } hplays rfl hlength (by omega)⟩

theorem Animates.wipeHead (h : Animates effect since drawn effects) (length : UInt16) :
    effects.wipeHead length = drawn % 2 ^ 16 % length.toNat := by
  unfold Effects.wipeHead
  rw [h.position, UInt16.toNat_mod, UInt16.toNat_ofNat']

theorem Animates.hueAt (h : Animates effect since drawn effects) (i : ℕ) :
    (effects.hueAt (UInt16.ofNat i)).toNat =
      (9 * drawn % WS2812_HUE16_RANGE.toNat + 6 * i) % 2 ^ 16 % WS2812_HUE16_RANGE.toNat := by
  have hstep : RAINBOW_STEP_PER_PIXEL.toNat = 6 := rfl
  have hwrapped : ∀ start : ℕ,
      (start + i % 2 ^ 16 * 6 % 2 ^ 16) % 2 ^ 16 = (start + 6 * i) % 2 ^ 16 := by omega
  unfold Effects.hueAt
  rw [UInt16.toNat_mod, UInt16.toNat_add, UInt16.toNat_mul, UInt16.toNat_ofNat', hstep, h.hue,
    hwrapped]

theorem Animates.phase (h : Animates effect since drawn effects) (hle : since ≤ now) :
    effects.phase (counter now) = (now - since) % 2 ^ 32 % BREATHING_PERIOD_MS.toNat := by
  have helapsed : (counter now - counter since).toNat = (now - since) % 2 ^ 32 := by
    unfold counter
    rw [UInt32.toNat_sub, UInt32.toNat_ofNat', UInt32.toNat_ofNat']
    omega
  unfold Effects.phase
  rw [h.start, UInt32.toNat_mod, helapsed]

end runs

/-- Where a frame of each animation is drawn, and exactly when this is where it has come to. -/
theorem animation_steady_iff {effect : LightEffect} {since drawn now : ℕ} {effects : Effects}
    (h : Plays effect since drawn now effects) {light : Light} (hon : light.on = true)
    (heffect : light.effect = effect) {length : UInt16} (hlength : length ≠ 0) :
    let playing := effects.follow effect (counter now)
    let pixels := (effectsRender effects light length (counter now)).2
    (effect = .wipe →
      pixels = wipeAt playing.frame light.currentColor light.currentBrightness length
        (playing.wipeHead length) ∧
      (playing.wipeHead length = drawn % length.toNat ↔
        length.toNat ∣ 2 ^ 16 * (drawn / 2 ^ 16))) ∧
    (effect = .rainbow →
      pixels = rainbowAt playing.frame light.currentBrightness length playing.hueAt ∧
      ((∀ i < length.toNat, (playing.hueAt (UInt16.ofNat i)).toNat =
          (9 * drawn + 6 * i) % WS2812_HUE16_RANGE.toNat) ↔
        9 * drawn % WS2812_HUE16_RANGE.toNat + 6 * (length.toNat - 1) < 2 ^ 16)) ∧
    (effect = .breathing →
      pixels = breathingAt playing.frame light.currentColor light.currentBrightness length
        (playing.phase (counter now)) ∧
      (playing.phase (counter now) = (now - since) % BREATHING_PERIOD_MS.toNat ↔
        125 ∣ (now - since) / 2 ^ 32)) := by
  intro playing pixels
  obtain ⟨hle, hfollows⟩ := h.follows
  have hpos : 0 < length.toNat := Nat.pos_of_ne_zero fun hzero => hlength (UInt16.toNat_inj.mp hzero)
  refine ⟨?_, ?_, ?_⟩
  · rintro rfl
    refine ⟨effectsRender_wipe hon heffect hlength, ?_⟩
    rw [hfollows.wipeHead]
    exact mod_mod_eq_iff _ _ _
  · rintro rfl
    refine ⟨effectsRender_rainbow hon heffect hlength, ?_⟩
    have hrange : WS2812_HUE16_RANGE.toNat = 1536 := rfl
    have hplaces : (∀ i < length.toNat,
        (9 * drawn % 1536 + 6 * i) % 2 ^ 16 % 1536 = (9 * drawn % 1536 + 6 * i) % 1536) ↔
          9 * drawn % 1536 + 6 * (length.toNat - 1) < 2 ^ 16 :=
      places_mod_mod_iff (by omega) (by omega) (by omega) hpos
    rw [hrange, ← hplaces]
    refine forall₂_congr fun i _ => ?_
    rw [hfollows.hueAt, hrange, Nat.mod_add_mod]
  · rintro rfl
    refine ⟨effectsRender_breathing hon heffect hlength, ?_⟩
    have hperiod : BREATHING_PERIOD_MS.toNat = 8000 := rfl
    rw [hfollows.phase hle, mod_mod_eq_iff, hperiod]
    omega

/-- The frame after 70000 of a wipe over 300 pixels, which has jumped, and the one after 5 of a
rainbow over as many, which has not. -/
theorem animation_steady_iff_later :
    (∃ effects, Plays .wipe 0 70000 (16 * 70000) effects ∧
      (effects.follow .wipe (counter (16 * 70000))).wipeHead 300 ≠ 70000 % 300) ∧
    ∃ effects, Plays .rainbow 0 5 (16 * 5) effects ∧
      ∀ i < 300, ((effects.follow .rainbow (counter (16 * 5))).hueAt (UInt16.ofNat i)).toNat =
        (9 * 5 + 6 * i) % WS2812_HUE16_RANGE.toNat := by
  have hlength : (300 : UInt16) ≠ 0 := by decide
  constructor
  · obtain ⟨effects, hplays⟩ := plays_drawn .wipe (by decide) 70000
    have hon : Light.on { lightInit with on := true, effect := .wipe } = true := rfl
    have hsteady := ((animation_steady_iff hplays hon rfl hlength).1 rfl).2
    exact ⟨effects, hplays, fun hsame => absurd (hsteady.mp hsame) (by decide)⟩
  · obtain ⟨effects, hplays⟩ := plays_drawn .rainbow (by decide) 5
    have hon : Light.on { lightInit with on := true, effect := .rainbow } = true := rfl
    have hsteady := ((animation_steady_iff hplays hon rfl hlength).2.1 rfl).2
    exact ⟨effects, hplays, hsteady.mpr (by decide)⟩

/-- After 65536 frames a wipe over 300 pixels is back at the first, a rainbow over the longest strip
starts again within it, and the breathing is back at its trough when the counter of milliseconds is
back at the start. -/
theorem animation_jumps :
    (∃ effects, Plays .wipe 0 65536 (16 * 65536) effects ∧
      (effects.follow .wipe (counter (16 * 65536))).wipeHead 300 = 0 ∧ 65536 % 300 = 136) ∧
    (∃ effects, Plays .rainbow 0 0 0 effects ∧
      ((effects.follow .rainbow (counter 0)).hueAt (UInt16.ofNat 10923)).toNat = 2 ∧
      (9 * 0 + 6 * 10923) % WS2812_HUE16_RANGE.toNat = 1026) ∧
    ∃ effects, Plays .breathing 0 1 (2 ^ 32) effects ∧
      (effects.follow .breathing (counter (2 ^ 32))).phase (counter (2 ^ 32)) = 0 ∧
      2 ^ 32 % BREATHING_PERIOD_MS.toNat = 7296 := by
  refine ⟨?_, ⟨effectsInit 0, .selected 0 (by decide), by decide, by decide⟩, ?_⟩
  · obtain ⟨effects, hplays⟩ := plays_drawn .wipe (by decide) 65536
    exact ⟨effects, hplays, hplays.follows.2.wipeHead 300, by decide⟩
  · have hselected : Plays .breathing 0 0 0 (effectsInit 0) := .selected 0 (by decide)
    have hlength : (1 : UInt16) ≠ 0 := by decide
    have hplays : Plays .breathing 0 1 (2 ^ 32) _ :=
      .called { lightInit with on := true, effect := .breathing } hselected rfl hlength (Nat.zero_le _)
    exact ⟨_, hplays, hplays.follows.2.phase (Nat.zero_le _), by decide⟩

end Pico
