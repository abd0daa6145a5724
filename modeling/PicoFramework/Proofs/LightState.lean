import PicoFramework.Lib.Run
import PicoFramework.Spec.Light

/-! What each call makes of the light's settings, and that its generation counts the changes. -/

namespace Pico

open Lib.Run

namespace Light

/-- What a controller can see of a light. -/
structure Shows (light : Light) (on : Bool) (brightness : UInt8) (colorMode : LightColorMode)
    (effect : LightEffect) (r g b : UInt8) (mireds : UInt16) : Prop where
  on_eq : light.on = on
  brightness_eq : light.brightness = brightness
  colorMode_eq : light.colorMode = colorMode
  effect_eq : light.effect = effect
  color_eq : light.color.r = r ∧ light.color.g = g ∧ light.color.b = b
  mireds_eq : light.mireds = mireds

section setters

variable {light : Light} {on : Bool} {brightness : UInt8} {colorMode : LightColorMode}
  {effect : LightEffect} {r g b : UInt8} {mireds : UInt16}

theorem shows_self (light : Light) :
    light.Shows light.on light.brightness light.colorMode light.effect light.color.r light.color.g
      light.color.b light.mireds :=
  ⟨rfl, rfl, rfl, rfl, ⟨rfl, rfl, rfl⟩, rfl⟩

theorem Shows.setPower (h : light.Shows on brightness colorMode effect r g b mireds) (power : Bool)
    (nowMs : UInt32) :
    (light.setPower power nowMs).Shows power brightness colorMode effect r g b mireds := by
  unfold Light.setPower
  split
  · rename_i hsame
    exact { h with on_eq := hsame }
  · cases power <;> exact { h with on_eq := rfl }

theorem Shows.setBrightness (h : light.Shows on brightness colorMode effect r g b mireds)
    (value : UInt8) (nowMs : UInt32) :
    (light.setBrightness value nowMs).Shows on value colorMode effect r g b mireds := by
  unfold Light.setBrightness
  split
  · rename_i hsame
    exact { h with brightness_eq := hsame }
  · exact { h with brightness_eq := rfl }

theorem Shows.setColor (h : light.Shows on brightness colorMode effect r g b mireds)
    (color : Ws2812Color) :
    (light.setColor color).Shows on brightness .rgb effect color.r color.g color.b mireds := by
  unfold Light.setColor
  split
  · rename_i hsame
    exact { h with colorMode_eq := hsame.1, color_eq := hsame.2 }
  · exact { h with colorMode_eq := rfl, color_eq := ⟨rfl, rfl, rfl⟩ }

theorem Shows.setMireds (h : light.Shows on brightness colorMode effect r g b mireds)
    (value : UInt16) (nowMs : UInt32) :
    (light.setMireds value nowMs).Shows on brightness .temp effect r g b (clampMireds value) := by
  unfold Light.setMireds
  dsimp only
  split
  · rename_i hsame
    exact { h with colorMode_eq := hsame.1, mireds_eq := hsame.2 }
  · exact { h with colorMode_eq := rfl, mireds_eq := rfl }

theorem lightEffects_number (effect : LightEffect) :
    lightEffects[effect.number.toNat]? = some effect := by
  cases effect <;> rfl

theorem Shows.setEffect (h : light.Shows on brightness colorMode effect r g b mireds)
    (value : LightEffect) :
    (light.setEffect value.number).2.Shows on brightness colorMode value r g b mireds := by
  unfold Light.setEffect
  rw [lightEffects_number]
  dsimp only
  split
  · rename_i hsame
    exact { h with effect_eq := hsame }
  · exact { h with effect_eq := rfl }

end setters

section counting

/-- The generation has counted `changes` changes, and without one nothing is to be seen. -/
structure Counts (light light' : Light) (changes : ℕ) : Prop where
  generation_eq : light'.generation = light.generation + UInt32.ofNat changes
  still : changes = 0 → light'.capture = light.capture

variable {light light' light'' : Light} {n m : ℕ}

theorem Counts.refl (light : Light) : Counts light light 0 where
  generation_eq := by simp
  still := fun _ => rfl

theorem Counts.changed (light light' : Light) (h : light'.generation = light.generation) :
    Counts light light'.changed 1 where
  generation_eq := by
    change light'.generation + 1 = _
    rw [h]
    rfl
  still := nofun

theorem Counts.trans (h : Counts light light' n) (h' : Counts light' light'' m) :
    Counts light light'' (n + m) where
  generation_eq := by
    rw [h'.generation_eq, h.generation_eq, UInt32.add_assoc, UInt32.ofNat_add]
  still := by
    intro hzero
    rw [h'.still (by omega), h.still (by omega)]

theorem setPower_counts (light : Light) (on : Bool) (nowMs : UInt32) :
    ∃ n ≤ 1, Counts light (light.setPower on nowMs) n := by
  unfold Light.setPower
  split
  · exact ⟨0, by omega, .refl light⟩
  · refine ⟨1, le_rfl, .changed light _ ?_⟩
    cases on <;> rfl

theorem setBrightness_counts (light : Light) (brightness : UInt8) (nowMs : UInt32) :
    ∃ n ≤ 1, Counts light (light.setBrightness brightness nowMs) n := by
  unfold Light.setBrightness
  split
  · exact ⟨0, by omega, .refl light⟩
  · exact ⟨1, le_rfl, .changed light _ rfl⟩

theorem setColor_counts (light : Light) (color : Ws2812Color) :
    ∃ n ≤ 1, Counts light (light.setColor color) n := by
  unfold Light.setColor
  split
  · exact ⟨0, by omega, .refl light⟩
  · exact ⟨1, le_rfl, .changed light _ rfl⟩

theorem setMireds_counts (light : Light) (mireds : UInt16) (nowMs : UInt32) :
    ∃ n ≤ 1, Counts light (light.setMireds mireds nowMs) n := by
  unfold Light.setMireds
  dsimp only
  split
  · exact ⟨0, by omega, .refl light⟩
  · exact ⟨1, le_rfl, .changed light _ rfl⟩

theorem setEffect_counts (light : Light) (effect : UInt32) :
    ∃ n ≤ 1, Counts light (light.setEffect effect).2 n := by
  unfold Light.setEffect
  split
  · exact ⟨0, by omega, .refl light⟩
  split
  · exact ⟨0, by omega, .refl light⟩
  · exact ⟨1, le_rfl, .changed light _ rfl⟩

theorem tick_counts (light : Light) (nowMs : UInt32) : Counts light (light.tick nowMs) 0 where
  generation_eq := by simp [Light.tick]
  still := fun _ => rfl

theorem step_counts (light : Light) (move : LightMove) :
    ∃ n ≤ 1, Counts light (light.step move) n := by
  cases move with
  | power on nowMs => exact setPower_counts light on nowMs
  | brightness brightness nowMs => exact setBrightness_counts light brightness nowMs
  | color color => exact setColor_counts light color
  | mireds mireds nowMs => exact setMireds_counts light mireds nowMs
  | effect effect => exact setEffect_counts light effect
  | tick nowMs => exact ⟨0, by omega, tick_counts light nowMs⟩

end counting

section reachable

theorem clampMireds_mem (mireds : UInt16) :
    153 ≤ (clampMireds mireds).toNat ∧ (clampMireds mireds).toNat ≤ 500 := by
  unfold clampMireds
  split
  · exact ⟨by decide, by decide⟩
  split
  · exact ⟨by decide, by decide⟩
  · rename_i hlow hhigh
    exact ⟨Nat.not_lt.mp hlow, Nat.not_lt.mp hhigh⟩

theorem clampMireds_of_mem {mireds : UInt16} (hlow : 153 ≤ mireds.toNat)
    (hhigh : mireds.toNat ≤ 500) : clampMireds mireds = mireds := by
  have hmin : ¬ mireds < LIGHT_MIREDS_MIN := Nat.not_lt.mpr hlow
  have hmax : ¬ mireds > LIGHT_MIREDS_MAX := Nat.not_lt.mpr hhigh
  unfold clampMireds
  rw [if_neg hmin, if_neg hmax]

/-- The colour temperature is one that the light has. -/
def InRange (light : Light) : Prop := 153 ≤ light.mireds.toNat ∧ light.mireds.toNat ≤ 500

theorem inRange_restore (settings : Option LightSettings) : (lightRestore settings).InRange := by
  cases settings with
  | none => exact ⟨by decide, by decide⟩
  | some settings =>
    unfold InRange lightRestore
    dsimp only
    split
    · rename_i hmem
      exact hmem
    · exact ⟨by decide, by decide⟩

theorem InRange.step {light : Light} (h : light.InRange) (move : LightMove) :
    (light.step move).InRange := by
  unfold InRange at h ⊢
  cases move with
  | power on nowMs =>
    rw [Light.step, ((shows_self light).setPower on nowMs).mireds_eq]
    exact h
  | brightness brightness nowMs =>
    rw [Light.step, ((shows_self light).setBrightness brightness nowMs).mireds_eq]
    exact h
  | color color =>
    rw [Light.step, ((shows_self light).setColor color).mireds_eq]
    exact h
  | mireds mireds nowMs =>
    rw [Light.step, ((shows_self light).setMireds mireds nowMs).mireds_eq]
    exact clampMireds_mem mireds
  | effect effect =>
    have hmireds : (light.setEffect effect).2.mireds = light.mireds := by
      unfold Light.setEffect
      split
      · rfl
      split <;> rfl
    rw [Light.step, hmireds]
    exact h
  | tick nowMs => exact h

theorem inRange_run (settings : Option LightSettings) (moves : List LightMove) :
    (moves.foldl Light.step (lightRestore settings)).InRange :=
  foldl_invariant (fun _ move h => h.step move) moves (inRange_restore settings)

end reachable

end Light

end Pico
