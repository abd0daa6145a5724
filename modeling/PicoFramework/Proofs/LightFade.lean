import PicoFramework.Lib.Easing
import PicoFramework.Proofs.LightState

/-! Fades. Time is not bounded here, and the light sees 32 bits of it; of each fade it is recorded
what was asked for last and when, and what was shown then. -/

namespace Pico

open Lib.Easing

section ramps

/-- The counter of milliseconds. -/
def counter (time : ℕ) : UInt32 := UInt32.ofNat time

/-- What was asked of a fade last, when the fade to it was started, what was shown at that time, and
when its latest tick was. -/
structure Asked where
  value : ℕ
  time : ℕ
  shown : ℕ
  latest : ℕ

def Asked.tick (asked : Asked) (time : ℕ) : Asked := { asked with latest := max asked.latest time }

/-- A time that the counter can tell from the start. -/
def Asked.Near (asked : Asked) (time : ℕ) : Prop :=
  asked.time ≤ time + 2 ^ 31 ∧ time < asked.time + 2 ^ 31

variable {since time : ℕ}

theorem elapsed_of_le (hle : since ≤ time) (hnear : time < since + 2 ^ 31) :
    (counter time - counter since).toNat = time - since := by
  unfold counter
  rw [UInt32.toNat_sub, UInt32.toNat_ofNat', UInt32.toNat_ofNat']
  omega

theorem elapsed_of_lt (hlt : time < since) (hnear : since ≤ time + 2 ^ 31) :
    2 ^ 31 ≤ (counter time - counter since).toNat := by
  unfold counter
  rw [UInt32.toNat_sub, UInt32.toNat_ofNat', UInt32.toNat_ofNat']
  omega

theorem lightEase_eq (t : ℕ) : lightEase t = smooth LIGHT_EASE_ONE (min t LIGHT_EASE_ONE) := by
  unfold lightEase
  split
  · rename_i hzero
    rw [hzero, Nat.zero_min, smooth_zero]
  split
  · rename_i hone
    rw [min_eq_right hone, smooth_self (by decide)]
  · rename_i hlt
    rw [min_eq_left (not_le.mp hlt).le]
    rfl

theorem lightEase_mono {s t : ℕ} (h : s ≤ t) : lightEase s ≤ lightEase t := by
  rw [lightEase_eq, lightEase_eq]
  exact smooth_mono (min_le_min_right _ h) (min_le_right _ _)

theorem lightEase_le (t : ℕ) : lightEase t ≤ LIGHT_EASE_ONE := by
  rw [lightEase_eq]
  exact smooth_le (by decide) (min_le_right _ _)

theorem smoothstep_natCast (t : ℕ) : smoothstep t = lightEase t := by
  unfold smoothstep
  split
  · rename_i hzero
    obtain rfl : t = 0 := by omega
    rfl
  split
  · rename_i hone
    rw [lightEase_eq, min_eq_right (by omega), smooth_self (by decide)]
  · rw [Int.toNat_natCast]

namespace LightRamp

variable {ramp : LightRamp}

/-- Where a ramp is after a time. -/
def position (ramp : LightRamp) (elapsed : ℕ) : ℤ :=
  toward ramp.source ramp.target LIGHT_EASE_ONE
    (lightEase (elapsed * LIGHT_EASE_ONE / ramp.durationMs.toNat))

theorem position_zero (ramp : LightRamp) : ramp.position 0 = ramp.source := by
  unfold position
  rw [Nat.zero_mul, Nat.zero_div]
  exact toward_zero _ _ _

theorem position_mem {e e' : ℕ} (h : e ≤ e') :
    ramp.position e' ∈ Set.uIcc (ramp.position e) ramp.target :=
  toward_mem (by decide) (lightEase_mono (Nat.div_le_div_right (Nat.mul_le_mul_right _ h)))
    (lightEase_le _)

theorem tick_idle (h : ramp.active = false) (nowMs : UInt32) : ramp.tick nowMs = ramp := by
  unfold tick
  rw [h, Bool.not_false, if_pos rfl]

variable (hactive : ramp.active = true) (hstart : ramp.startMs = counter since)
include hactive hstart

theorem tick_early (hlt : time < since) (hnear : since ≤ time + 2 ^ 31) :
    ramp.tick (counter time) = ramp := by
  unfold tick
  rw [hactive, hstart, Bool.not_true, if_neg Bool.false_ne_true]
  exact if_pos (elapsed_of_lt hlt hnear)

theorem tick_arrived (hle : since + ramp.durationMs.toNat ≤ time)
    (hnear : time < since + 2 ^ 31) : ramp.tick (counter time) = set ramp.target := by
  have helapsed := elapsed_of_le (by omega : since ≤ time) hnear
  unfold tick
  rw [hactive, hstart, Bool.not_true, if_neg Bool.false_ne_true]
  dsimp only
  rw [if_neg (by omega), if_pos (UInt32.le_iff_toNat_le.mpr (by omega))]

theorem tick_running (hle : since ≤ time) (hlt : time < since + ramp.durationMs.toNat)
    (hnear : time < since + 2 ^ 31) :
    ramp.tick (counter time) = { ramp with current := ramp.position (time - since) } := by
  have helapsed := elapsed_of_le hle hnear
  have hduration : ¬ counter time - counter since ≥ ramp.durationMs := by
    intro hge
    have hge' := UInt32.le_iff_toNat_le.mp hge
    omega
  unfold tick
  rw [hactive, hstart, Bool.not_true, if_neg Bool.false_ne_true]
  dsimp only
  rw [if_neg (by omega), if_neg hduration, helapsed]
  have hfraction : ((time - since : ℕ) : ℤ) * LIGHT_EASE_ONE / ramp.durationMs.toNat =
      ((time - since) * LIGHT_EASE_ONE / ramp.durationMs.toNat : ℕ) := by push_cast; rfl
  rw [hfraction, smoothstep_natCast]
  rfl

omit hactive hstart

end LightRamp

/-- A ramp of a duration does what was asked of it. -/
structure RampFollows (duration : UInt32) (ramp : LightRamp) (asked : Asked) : Prop where
  target_eq : ramp.target = asked.value
  idle : ramp.active = false → ramp.current = asked.value
  running : ramp.active = true →
    ramp.startMs = counter asked.time ∧ ramp.durationMs = duration ∧ ramp.source = asked.shown ∧
      asked.latest < asked.time + duration.toNat ∧
      ∃ elapsed ≤ asked.latest - asked.time, ramp.current = ramp.position elapsed

namespace RampFollows

variable {duration : UInt32} {ramp : LightRamp} {asked : Asked}

theorem set (duration : UInt32) (value time shown latest : ℕ) :
    RampFollows duration (.set value) ⟨value, time, shown, latest⟩ where
  target_eq := rfl
  idle := fun _ => rfl
  running := nofun

theorem start (hduration : duration ≠ 0) (value time shown : ℕ) (hshown : ramp.current = shown) :
    RampFollows duration (ramp.start value duration (counter time)) ⟨value, time, shown, 0⟩ := by
  have hpos : 0 < duration.toNat := Nat.pos_of_ne_zero fun h => hduration (UInt32.toNat_inj.mp h)
  unfold LightRamp.start
  split
  · exact set duration value time shown 0
  · exact {
      target_eq := rfl
      idle := nofun
      running := fun _ => by
        refine ⟨rfl, rfl, hshown, Nat.add_pos_right time hpos, 0, Nat.zero_le _, ?_⟩
        rw [LightRamp.position_zero] }

theorem arrived (h : RampFollows duration ramp asked)
    (hlate : asked.time + duration.toNat ≤ asked.latest) : ramp.current = asked.value := by
  cases hactive : ramp.active with
  | false => exact h.idle hactive
  | true =>
    obtain ⟨-, -, -, hlatest, -⟩ := h.running hactive
    exact absurd hlate (not_le.mpr hlatest)

theorem mem (h : RampFollows duration ramp asked) :
    ramp.current ∈ Set.uIcc (asked.shown : ℤ) asked.value := by
  cases hactive : ramp.active with
  | false =>
    rw [h.idle hactive]
    exact Set.right_mem_uIcc
  | true =>
    obtain ⟨-, -, hsource, -, elapsed, -, hcurrent⟩ := h.running hactive
    rw [hcurrent, ← hsource, ← h.target_eq, ← ramp.position_zero]
    exact LightRamp.position_mem (Nat.zero_le elapsed)

variable (h : RampFollows duration ramp asked) (hnear : ramp.active = true → asked.Near time)
include h hnear

theorem tick_cases :
    ((ramp.active = false ∨ time < asked.time) ∧ ramp.tick (counter time) = ramp) ∨
    (asked.time + duration.toNat ≤ time ∧ ramp.tick (counter time) = .set asked.value) ∨
    (ramp.active = true ∧ asked.time ≤ time ∧ time < asked.time + duration.toNat ∧
      ramp.tick (counter time) = { ramp with current := ramp.position (time - asked.time) }) := by
  by_cases hactive : ramp.active = true
  · obtain ⟨hstart, hduration, -⟩ := h.running hactive
    obtain ⟨hsince, hbefore⟩ := hnear hactive
    by_cases hearly : time < asked.time
    · exact Or.inl ⟨Or.inr hearly, LightRamp.tick_early hactive hstart hearly hsince⟩
    by_cases hlate : asked.time + duration.toNat ≤ time
    · have harrived := LightRamp.tick_arrived hactive hstart (hduration ▸ hlate) hbefore
      exact Or.inr (Or.inl ⟨hlate, h.target_eq ▸ harrived⟩)
    · have hrunning := LightRamp.tick_running hactive hstart (not_lt.mp hearly)
        (hduration ▸ not_le.mp hlate) hbefore
      exact Or.inr (Or.inr ⟨hactive, not_lt.mp hearly, not_le.mp hlate, hrunning⟩)
  · have hidle := Bool.eq_false_iff.mpr hactive
    exact Or.inl ⟨Or.inl hidle, LightRamp.tick_idle hidle _⟩

theorem tick_early (hlt : time < asked.time) : ramp.tick (counter time) = ramp := by
  obtain ⟨-, hsame⟩ | ⟨hlate, -⟩ | ⟨-, hlate, -⟩ := tick_cases h hnear
  · exact hsame
  · omega
  · omega

theorem tick : RampFollows duration (ramp.tick (counter time)) (asked.tick time) := by
  obtain ⟨hquiet, hsame⟩ | ⟨-, harrived⟩ | ⟨hactive, hle, hlt, hmoved⟩ := tick_cases h hnear
  · rw [hsame]
    refine { h with running := fun hactive => ?_ }
    obtain ⟨hstart, hduration, hsource, hlatest, elapsed, helapsed, hcurrent⟩ := h.running hactive
    have hearly : time < asked.time := hquiet.resolve_left fun hidle => nomatch hactive.symm.trans hidle
    have hbefore : time < asked.time + duration.toNat := by omega
    refine ⟨hstart, hduration, hsource, max_lt hlatest hbefore, elapsed, ?_, hcurrent⟩
    exact helapsed.trans (Nat.sub_le_sub_right (le_max_left _ _) _)
  · rw [harrived]
    exact set duration _ _ _ _
  · obtain ⟨hstart, hduration, hsource, hlatest, -⟩ := h.running hactive
    rw [hmoved]
    exact {
      target_eq := h.target_eq
      idle := fun hidle => nomatch hactive.symm.trans hidle
      running := fun _ => by
        refine ⟨hstart, hduration, hsource, max_lt hlatest hlt, time - asked.time, ?_, rfl⟩
        exact Nat.sub_le_sub_right (le_max_right _ _) _ }

theorem tick_mem (hlatest : asked.latest ≤ time) :
    (ramp.tick (counter time)).current ∈ Set.uIcc ramp.current (asked.value : ℤ) := by
  obtain ⟨-, hsame⟩ | ⟨-, harrived⟩ | ⟨hactive, -, -, hmoved⟩ := tick_cases h hnear
  · rw [hsame]
    exact Set.left_mem_uIcc
  · rw [harrived]
    exact Set.right_mem_uIcc
  · obtain ⟨-, -, -, -, elapsed, helapsed, hcurrent⟩ := h.running hactive
    rw [hmoved, hcurrent, ← h.target_eq]
    exact LightRamp.position_mem (helapsed.trans (Nat.sub_le_sub_right hlatest _))

end RampFollows

/-- A ramp that follows from one value to another that can be shown, and the setting it is for. -/
structure Fades (duration : UInt32) (low high : ℕ) (ramp : LightRamp) (setting : ℕ) (asked : Asked) :
    Prop extends RampFollows duration ramp asked where
  setting_eq : setting = asked.value
  value_mem : asked.value ∈ Set.Icc low high
  shown_mem : asked.shown ∈ Set.Icc low high

namespace Fades

variable {duration : UInt32} {low high setting : ℕ} {ramp : LightRamp} {asked : Asked}

theorem current_mem (h : Fades duration low high ramp setting asked) :
    (low : ℤ) ≤ ramp.current ∧ ramp.current ≤ high := by
  have hmem := Set.mem_uIcc.mp h.mem
  obtain ⟨hvalue, hvalue'⟩ := h.value_mem
  obtain ⟨hshown, hshown'⟩ := h.shown_mem
  omega

/-- The product that a tick makes stays in 32 bits. -/
theorem product_fits (h : Fades duration low high ramp setting asked) (hhigh : high ≤ 500)
    (hactive : ramp.active = true) (t : ℕ) :
    |(ramp.target - ramp.source) * (lightEase t : ℤ)| < 2 ^ 31 := by
  obtain ⟨-, -, hsource, -⟩ := h.running hactive
  obtain ⟨-, hvalue⟩ := h.value_mem
  obtain ⟨-, hshown⟩ := h.shown_mem
  have hway : |ramp.target - ramp.source| ≤ 500 := by
    rw [h.target_eq, hsource, abs_le]
    omega
  have hease : |(lightEase t : ℤ)| ≤ 1024 := by
    rw [Nat.abs_cast]
    exact_mod_cast lightEase_le t
  calc |(ramp.target - ramp.source) * (lightEase t : ℤ)|
      = |ramp.target - ramp.source| * |(lightEase t : ℤ)| := abs_mul _ _
    _ ≤ 500 * 1024 := mul_le_mul hway hease (abs_nonneg _) (by decide)
    _ < 2 ^ 31 := by decide

theorem start (hduration : duration ≠ 0) (time : ℕ) {shown : ℕ} (hshown : ramp.current = shown)
    (hvalue : setting ∈ Set.Icc low high) (hmem : shown ∈ Set.Icc low high) :
    Fades duration low high (ramp.start setting duration (counter time)) setting
      ⟨setting, time, shown, 0⟩ where
  toRampFollows := RampFollows.start hduration setting time shown hshown
  setting_eq := rfl
  value_mem := hvalue
  shown_mem := hmem

theorem tick (h : Fades duration low high ramp setting asked) {time : ℕ}
    (hnear : ramp.active = true → asked.Near time) :
    Fades duration low high (ramp.tick (counter time)) setting (asked.tick time) :=
  { h with toRampFollows := h.toRampFollows.tick hnear }

end Fades

end ramps

/-- A call, at a time of its own. -/
inductive LightCall where
  | power (on : Bool)
  | brightness (brightness : UInt8)
  | color (color : Ws2812Color)
  | mireds (mireds : UInt16)
  | effect (effect : UInt32)
  | tick
deriving DecidableEq

def LightCall.move : LightCall → UInt32 → LightMove
  | .power value, nowMs => .power value nowMs
  | .brightness value, nowMs => .brightness value nowMs
  | .color value, _ => .color value
  | .mireds value, nowMs => .mireds value nowMs
  | .effect value, _ => .effect value
  | .tick, nowMs => .tick nowMs

/-- A light, and what was asked of its fades. -/
structure Watched where
  light : Light
  brightness : Asked
  mireds : Asked

namespace Watched

def restored (settings : Option LightSettings) : Watched where
  light := lightRestore settings
  brightness := ⟨(lightRestore settings).brightness.toNat, 0, 0, 0⟩
  mireds := ⟨(lightRestore settings).mireds.toNat, 0, 153, 0⟩

/-- Another brightness is asked for, or the light is switched on, which starts from black. -/
def askedBrightness (w : Watched) (time : ℕ) : LightCall → Asked
  | .power on => if on ∧ !w.light.on then ⟨w.brightness.value, time, 0, 0⟩ else w.brightness
  | .brightness value =>
      if value.toNat = w.brightness.value then w.brightness
      else ⟨value.toNat, time, w.light.currentBrightness.toNat, 0⟩
  | .tick => w.brightness.tick time
  | _ => w.brightness

/-- Another colour temperature is asked for, or one in place of a colour. -/
def askedMireds (w : Watched) (time : ℕ) : LightCall → Asked
  | .mireds value =>
      if w.light.colorMode = .temp ∧ (clampMireds value).toNat = w.mireds.value then w.mireds
      else ⟨(clampMireds value).toNat, time, w.light.currentMireds.toNat, 0⟩
  | .tick => w.mireds.tick time
  | _ => w.mireds

def call (w : Watched) (time : ℕ) (call : LightCall) : Watched where
  light := w.light.step (call.move (counter time))
  brightness := w.askedBrightness time call
  mireds := w.askedMireds time call

/-- A time for a tick, where a fade is running. -/
def Near (w : Watched) (time : ℕ) : Prop :=
  (w.light.brightnessRamp.active = true → w.brightness.Near time) ∧
    (w.light.miredsRamp.active = true → w.mireds.Near time)

/-- What calls lead to, of which ticks are near the start of what is running. -/
inductive Reached : Watched → Prop
  | restored (settings : Option LightSettings) : Reached (restored settings)
  | call {w : Watched} (time : ℕ) (call : LightCall) :
      Reached w → (call = .tick → w.Near time) → Reached (w.call time call)

/-- Both fades, and the settings they are for. -/
structure Good (w : Watched) : Prop where
  brightness : Fades LIGHT_FADE_BRIGHTNESS_MS 0 255 w.light.brightnessRamp w.light.brightness.toNat
    w.brightness
  mireds : Fades LIGHT_FADE_MIREDS_MS 153 500 w.light.miredsRamp w.light.mireds.toNat w.mireds

theorem asked_power (w : Watched) (time : ℕ) (on : Bool) :
    w.askedBrightness time (.power on) =
      if on ∧ !w.light.on then ⟨w.brightness.value, time, 0, 0⟩ else w.brightness := rfl

theorem asked_brightness (w : Watched) (time : ℕ) (value : UInt8) :
    w.askedBrightness time (.brightness value) =
      if value.toNat = w.brightness.value then w.brightness
      else ⟨value.toNat, time, w.light.currentBrightness.toNat, 0⟩ := rfl

theorem asked_mireds (w : Watched) (time : ℕ) (value : UInt16) :
    w.askedMireds time (.mireds value) =
      if w.light.colorMode = .temp ∧ (clampMireds value).toNat = w.mireds.value then w.mireds
      else ⟨(clampMireds value).toNat, time, w.light.currentMireds.toNat, 0⟩ := rfl

theorem mem_uIcc_natCast {a b c : ℕ} : (a : ℤ) ∈ Set.uIcc (b : ℤ) c ↔ a ∈ Set.uIcc b c := by
  rw [Set.mem_uIcc, Set.mem_uIcc]
  norm_cast

section ramps

variable (light : Light) (nowMs : UInt32)

theorem setPower_brightnessRamp (on : Bool) :
    (light.setPower on nowMs).brightnessRamp =
      if on ∧ !light.on then
        (LightRamp.set 0).start light.brightness.toNat LIGHT_FADE_BRIGHTNESS_MS nowMs
      else light.brightnessRamp := by
  unfold Light.setPower
  cases on <;> cases light.on <;> rfl

theorem setPower_miredsRamp (on : Bool) :
    (light.setPower on nowMs).miredsRamp = light.miredsRamp := by
  unfold Light.setPower
  split
  · rfl
  · cases on <;> rfl

theorem setBrightness_miredsRamp (value : UInt8) :
    (light.setBrightness value nowMs).miredsRamp = light.miredsRamp := by
  unfold Light.setBrightness
  split <;> rfl

theorem setMireds_brightnessRamp (value : UInt16) :
    (light.setMireds value nowMs).brightnessRamp = light.brightnessRamp := by
  unfold Light.setMireds
  dsimp only
  split <;> rfl

theorem setColor_ramps (color : Ws2812Color) :
    (light.setColor color).brightnessRamp = light.brightnessRamp ∧
      (light.setColor color).miredsRamp = light.miredsRamp := by
  unfold Light.setColor
  split <;> exact ⟨rfl, rfl⟩

theorem setEffect_ramps (effect : UInt32) :
    (light.setEffect effect).2.brightnessRamp = light.brightnessRamp ∧
      (light.setEffect effect).2.miredsRamp = light.miredsRamp ∧
      (light.setEffect effect).2.brightness = light.brightness ∧
      (light.setEffect effect).2.mireds = light.mireds := by
  unfold Light.setEffect
  split
  · exact ⟨rfl, rfl, rfl, rfl⟩
  split <;> exact ⟨rfl, rfl, rfl, rfl⟩

theorem start_current (ramp : LightRamp) (target : ℤ) {durationMs : UInt32} (h : durationMs ≠ 0) :
    (ramp.start target durationMs nowMs).current = ramp.current := by
  unfold LightRamp.start
  split
  · rename_i hthere
    exact hthere.resolve_right h
  · rfl

theorem move_current (call : LightCall) (hcall : call ≠ .tick) :
    (light.step (call.move nowMs)).brightnessRamp.current =
        (if call = .power true ∧ light.on = false then 0 else light.brightnessRamp.current) ∧
      (light.step (call.move nowMs)).miredsRamp.current = light.miredsRamp.current := by
  cases call with
  | power on =>
    change (light.setPower on nowMs).brightnessRamp.current = _ ∧
      (light.setPower on nowMs).miredsRamp.current = _
    rw [setPower_brightnessRamp, setPower_miredsRamp]
    refine ⟨?_, rfl⟩
    cases on with
    | false => rfl
    | true =>
      cases light.on with
      | false => exact start_current nowMs _ _ (by decide)
      | true => rfl
  | brightness value =>
    change (light.setBrightness value nowMs).brightnessRamp.current = light.brightnessRamp.current ∧
      (light.setBrightness value nowMs).miredsRamp.current = _
    rw [setBrightness_miredsRamp, Light.setBrightness]
    refine ⟨?_, rfl⟩
    split
    · rfl
    · exact start_current nowMs _ _ (by decide)
  | color value =>
    obtain ⟨hbrightness, hmireds⟩ := setColor_ramps light value
    exact ⟨congrArg LightRamp.current hbrightness, congrArg LightRamp.current hmireds⟩
  | mireds value =>
    change (light.setMireds value nowMs).brightnessRamp.current = light.brightnessRamp.current ∧
      (light.setMireds value nowMs).miredsRamp.current = _
    rw [setMireds_brightnessRamp, Light.setMireds]
    refine ⟨rfl, ?_⟩
    split
    · rfl
    · exact start_current nowMs _ _ (by decide)
  | effect value =>
    obtain ⟨hbrightness, hmireds, -⟩ := setEffect_ramps light value
    exact ⟨congrArg LightRamp.current hbrightness, congrArg LightRamp.current hmireds⟩
  | tick => exact absurd rfl hcall

end ramps

namespace Good

variable {w : Watched}

theorem currentBrightness_eq (h : w.Good) :
    w.light.brightnessRamp.current = w.light.currentBrightness.toNat := by
  have hmem := h.brightness.current_mem
  unfold Light.currentBrightness
  dsimp only
  rw [if_neg (by omega), if_neg (by omega), UInt8.toNat_ofNat']
  omega

theorem currentMireds_eq (h : w.Good) :
    w.light.miredsRamp.current = w.light.currentMireds.toNat := by
  have hmem := h.mireds.current_mem
  have hmin : LIGHT_MIREDS_MIN.toNat = 153 := rfl
  have hmax : LIGHT_MIREDS_MAX.toNat = 500 := rfl
  unfold Light.currentMireds
  dsimp only
  rw [if_neg (by omega), if_neg (by omega), UInt16.toNat_ofNat']
  omega

theorem currentBrightness_mem (w : Watched) : w.light.currentBrightness.toNat ∈ Set.Icc 0 255 :=
  ⟨Nat.zero_le _, Nat.le_of_lt_succ (UInt8.toNat_lt _)⟩

theorem currentMireds_mem (h : w.Good) : w.light.currentMireds.toNat ∈ Set.Icc 153 500 := by
  have hmem := h.mireds.current_mem
  rw [h.currentMireds_eq] at hmem
  exact_mod_cast hmem

theorem restored (settings : Option LightSettings) : (restored settings).Good := by
  have hbrightness : (lightRestore settings).brightnessRamp =
      .set (lightRestore settings).brightness.toNat := by cases settings <;> rfl
  have hmireds : (lightRestore settings).miredsRamp = .set (lightRestore settings).mireds.toNat := by
    cases settings <;> rfl
  have hlt := (lightRestore settings).brightness.toNat_lt
  constructor
  · refine ⟨?_, rfl, ⟨Nat.zero_le _, Nat.le_of_lt_succ hlt⟩, ⟨le_rfl, Nat.zero_le 255⟩⟩
    unfold Watched.restored
    rw [hbrightness]
    exact RampFollows.set _ _ _ _ _
  · have hshown : (153 : ℕ) ∈ Set.Icc 153 500 := ⟨le_rfl, by decide⟩
    refine ⟨?_, rfl, Light.inRange_restore settings, hshown⟩
    unfold Watched.restored
    rw [hmireds]
    exact RampFollows.set _ _ _ _ _

theorem brightness_call (h : w.Good) (time : ℕ) (call : LightCall)
    (hnear : call = .tick → w.Near time) :
    Fades LIGHT_FADE_BRIGHTNESS_MS 0 255 (w.call time call).light.brightnessRamp
      (w.call time call).light.brightness.toNat (w.askedBrightness time call) := by
  have hshows := Light.shows_self w.light
  have hfades := h.brightness
  cases call with
  | power on =>
    dsimp only [Watched.call, LightCall.move, Light.step]
    rw [setPower_brightnessRamp, (hshows.setPower on (counter time)).brightness_eq, asked_power]
    split
    · rw [← hfades.setting_eq]
      exact Fades.start (by decide) time rfl (hfades.setting_eq ▸ hfades.value_mem) ⟨le_rfl, by decide⟩
    · exact hfades
  | brightness value =>
    dsimp only [Watched.call, LightCall.move, Light.step]
    rw [(hshows.setBrightness value (counter time)).brightness_eq, Light.setBrightness,
      asked_brightness]
    by_cases hsame : w.light.brightness = value
    · rw [if_pos hsame, if_pos (hsame ▸ hfades.setting_eq), ← hsame]
      exact hfades
    · have hvalue : value.toNat ≠ w.brightness.value := by
        rw [← hfades.setting_eq]
        exact fun heq => hsame (UInt8.toNat_inj.mp heq).symm
      rw [if_neg hsame, if_neg hvalue]
      exact Fades.start (by decide) time h.currentBrightness_eq
        ⟨Nat.zero_le _, Nat.le_of_lt_succ value.toNat_lt⟩ (currentBrightness_mem w)
  | color value =>
    dsimp only [Watched.call, LightCall.move, Light.step]
    rw [(setColor_ramps w.light value).1, (hshows.setColor value).brightness_eq]
    exact hfades
  | mireds value =>
    dsimp only [Watched.call, LightCall.move, Light.step]
    rw [setMireds_brightnessRamp, (hshows.setMireds value (counter time)).brightness_eq]
    exact hfades
  | effect value =>
    dsimp only [Watched.call, LightCall.move, Light.step]
    obtain ⟨hramp, -, hbrightness, -⟩ := setEffect_ramps w.light value
    rw [hramp, hbrightness]
    exact hfades
  | tick => exact hfades.tick (hnear rfl).1

theorem mireds_call (h : w.Good) (time : ℕ) (call : LightCall)
    (hnear : call = .tick → w.Near time) :
    Fades LIGHT_FADE_MIREDS_MS 153 500 (w.call time call).light.miredsRamp
      (w.call time call).light.mireds.toNat (w.askedMireds time call) := by
  have hshows := Light.shows_self w.light
  have hfades := h.mireds
  cases call with
  | power on =>
    dsimp only [Watched.call, LightCall.move, Light.step]
    rw [setPower_miredsRamp, (hshows.setPower on (counter time)).mireds_eq]
    exact hfades
  | brightness value =>
    dsimp only [Watched.call, LightCall.move, Light.step]
    rw [setBrightness_miredsRamp, (hshows.setBrightness value (counter time)).mireds_eq]
    exact hfades
  | color value =>
    dsimp only [Watched.call, LightCall.move, Light.step]
    rw [(setColor_ramps w.light value).2, (hshows.setColor value).mireds_eq]
    exact hfades
  | mireds value =>
    dsimp only [Watched.call, LightCall.move, Light.step]
    rw [(hshows.setMireds value (counter time)).mireds_eq, Light.setMireds, asked_mireds]
    by_cases hsame : w.light.colorMode = .temp ∧ w.light.mireds = clampMireds value
    · rw [if_pos hsame, if_pos ⟨hsame.1, hsame.2 ▸ hfades.setting_eq⟩, ← hsame.2]
      exact hfades
    · have hvalue : ¬ (w.light.colorMode = .temp ∧ (clampMireds value).toNat = w.mireds.value) := by
        rw [← hfades.setting_eq]
        exact fun heq => hsame ⟨heq.1, (UInt16.toNat_inj.mp heq.2).symm⟩
      rw [if_neg hsame, if_neg hvalue]
      exact Fades.start (by decide) time h.currentMireds_eq (Light.clampMireds_mem value)
        h.currentMireds_mem
  | effect value =>
    dsimp only [Watched.call, LightCall.move, Light.step]
    obtain ⟨-, hramp, -, hmireds⟩ := setEffect_ramps w.light value
    rw [hramp, hmireds]
    exact hfades
  | tick => exact hfades.tick (hnear rfl).2

theorem call (h : w.Good) (time : ℕ) (call : LightCall) (hnear : call = .tick → w.Near time) :
    (w.call time call).Good :=
  ⟨h.brightness_call time call hnear, h.mireds_call time call hnear⟩

end Good

theorem Reached.good {w : Watched} (h : Reached w) : w.Good := by
  induction h with
  | restored settings => exact Good.restored settings
  | call time call _ hnear ih => exact ih.call time call hnear

/-- What is shown lies on the way from what was shown to what was asked for, and is that from the
first tick at the end of the fade on. -/
structure Leads (duration : UInt32) (ramp : LightRamp) (shown : ℕ) (asked : Asked) : Prop where
  target_eq : ramp.target = asked.value
  shown_mem : shown ∈ Set.uIcc asked.shown asked.value
  arrived : asked.time + duration.toNat ≤ asked.latest → shown = asked.value

/-- A tick before the start changes nothing, and one no earlier than those since leads on. -/
structure Onward (asked : Asked) (time : ℕ) (ramp ramp' : LightRamp) (shown shown' : ℕ) : Prop where
  early : time < asked.time → ramp' = ramp
  shown_mem : asked.latest ≤ time → shown' ∈ Set.uIcc shown asked.value

section fading

variable {duration : UInt32} {low high setting time shown shown' : ℕ} {ramp : LightRamp}
  {asked : Asked}

theorem leads_of_fades (h : Fades duration low high ramp setting asked)
    (hshown : ramp.current = shown) : Leads duration ramp shown asked where
  target_eq := h.target_eq
  shown_mem := by
    rw [← mem_uIcc_natCast, ← hshown]
    exact h.mem
  arrived := fun hlate => by
    have hcurrent := h.arrived hlate
    rw [hshown] at hcurrent
    exact Int.ofNat_inj.mp hcurrent

theorem onward_of_fades (h : Fades duration low high ramp setting asked)
    (hnear : ramp.active = true → asked.Near time) (hshown : ramp.current = shown)
    (hshown' : (ramp.tick (counter time)).current = shown') :
    Onward asked time ramp (ramp.tick (counter time)) shown shown' where
  early := h.tick_early hnear
  shown_mem := fun hlatest => by
    rw [← mem_uIcc_natCast, ← hshown, ← hshown']
    exact h.tick_mem hnear hlatest

end fading

/-- Fades go where they were sent, and never back: after every call of every run. -/
theorem light_fades_follow {w : Watched} (h : Reached w) :
    Leads LIGHT_FADE_BRIGHTNESS_MS w.light.brightnessRamp w.light.currentBrightness.toNat
      w.brightness ∧
    Leads LIGHT_FADE_MIREDS_MS w.light.miredsRamp w.light.currentMireds.toNat w.mireds ∧
    (∀ time, w.Near time →
      let light' := w.light.tick (counter time)
      Onward w.brightness time w.light.brightnessRamp light'.brightnessRamp
        w.light.currentBrightness.toNat light'.currentBrightness.toNat ∧
      Onward w.mireds time w.light.miredsRamp light'.miredsRamp
        w.light.currentMireds.toNat light'.currentMireds.toNat) ∧
    ∀ time (call : LightCall), call ≠ .tick →
      let light' := w.light.step (call.move (counter time))
      light'.currentBrightness =
          (if call = .power true ∧ w.light.on = false then 0 else w.light.currentBrightness) ∧
        light'.currentMireds = w.light.currentMireds := by
  have hgood := h.good
  have hbrightness := hgood.currentBrightness_eq
  have hmireds := hgood.currentMireds_eq
  refine ⟨leads_of_fades hgood.brightness hbrightness, leads_of_fades hgood.mireds hmireds,
    fun time hnear => ?_, fun time call hcall => ?_⟩
  · have hafter := hgood.call time .tick fun _ => hnear
    exact ⟨onward_of_fades hgood.brightness hnear.1 hbrightness hafter.currentBrightness_eq,
      onward_of_fades hgood.mireds hnear.2 hmireds hafter.currentMireds_eq⟩
  · have hafter := hgood.call time call fun htick => absurd htick hcall
    obtain ⟨hsame, hsame'⟩ := move_current w.light (counter time) call hcall
    have hbrightness' := hafter.currentBrightness_eq
    have hmireds' := hafter.currentMireds_eq
    change (w.light.step (call.move (counter time))).brightnessRamp.current = _ at hbrightness'
    change (w.light.step (call.move (counter time))).miredsRamp.current = _ at hmireds'
    rw [hsame, hbrightness] at hbrightness'
    rw [hsame', hmireds] at hmireds'
    constructor
    · apply UInt8.toNat_inj.mp
      split
      · rename_i hon
        rw [if_pos hon] at hbrightness'
        exact (Int.ofNat_inj.mp hbrightness').symm
      · rename_i hoff
        rw [if_neg hoff] at hbrightness'
        exact (Int.ofNat_inj.mp hbrightness').symm
    · exact (UInt16.toNat_inj.mp (Int.ofNat_inj.mp hmireds')).symm

/-- Switched on a second before the counter wraps, and ticked half a second after. -/
def wrapping : Watched :=
  ((restored none).call (2 ^ 32 - 1000) (.power true)).call (2 ^ 32 + 500) .tick

theorem light_fades_follow_wrapping :
    wrapping.light.currentBrightness = 64 ∧
      Leads LIGHT_FADE_BRIGHTNESS_MS wrapping.light.brightnessRamp
        wrapping.light.currentBrightness.toNat ⟨128, 2 ^ 32 - 1000, 0, 2 ^ 32 + 500⟩ := by
  have hswitched : Reached ((restored none).call (2 ^ 32 - 1000) (.power true)) :=
    .call _ _ (.restored none) nofun
  have hreached : Reached wrapping :=
    .call _ _ hswitched fun _ => ⟨fun _ => ⟨by decide, by decide⟩, nofun⟩
  exact ⟨by decide, (light_fades_follow hreached).1⟩

end Watched

end Pico
