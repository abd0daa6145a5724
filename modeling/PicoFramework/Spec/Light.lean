import PicoFramework.Spec.Basic

/-! `light.c`: what the light has been asked to be, and the fades towards it. An effect and a colour
mode come in from outside as the number of the enumeration, and are kept as one of its members. -/

namespace Pico

def LIGHT_FADE_BRIGHTNESS_MS : UInt32 := 3000
def LIGHT_FADE_MIREDS_MS : UInt32 := 4000
def LIGHT_MIREDS_MIN : UInt16 := 153
def LIGHT_MIREDS_MAX : UInt16 := 500
def LIGHT_DEFAULT_BRIGHTNESS : UInt8 := 128
def LIGHT_DEFAULT_MIREDS : UInt16 := 333
def LIGHT_EASE_ONE : ℕ := 1024

structure Ws2812Color where
  r : UInt8
  g : UInt8
  b : UInt8
  w : UInt8
deriving DecidableEq

def ws2812Rgb (r g b : UInt8) : Ws2812Color := ⟨r, g, b, 0⟩

inductive LightEffect where
  | solid
  | rainbow
  | twinkle
  | wipe
  | breathing
deriving DecidableEq

/-- The effects, each at its number. -/
def lightEffects : List LightEffect := [.solid, .rainbow, .twinkle, .wipe, .breathing]

def LIGHT_EFFECT_COUNT : ℕ := 5

def LightEffect.number : LightEffect → UInt32
  | .solid => 0
  | .rainbow => 1
  | .twinkle => 2
  | .wipe => 3
  | .breathing => 4

def effectNames : List CString :=
  [cstr "Solid", cstr "Rainbow", cstr "Twinkle", cstr "Wipe", cstr "Breathing"]

def lightEffectName (effect : UInt32) : Option CString := effectNames[effect.toNat]?

def lightEffectFromName (name : Option CString) : Option UInt32 :=
  match name with
  | none => none
  | some name => (effectNames.findIdx? (· = name)).map fun i => UInt32.ofNat i

inductive LightColorMode where
  | rgb
  | temp
deriving DecidableEq

def LightColorMode.number : LightColorMode → UInt32
  | .rgb => 0
  | .temp => 1

def lightColorModeName (mode : LightColorMode) : CString :=
  if mode = .temp then cstr "color_temp" else cstr "rgb"

structure LightRamp where
  active : Bool
  startMs : UInt32
  durationMs : UInt32
  source : ℤ
  target : ℤ
  current : ℤ
deriving DecidableEq

def lightEase (t : ℕ) : ℕ :=
  if t = 0 then 0
  else if t ≥ LIGHT_EASE_ONE then LIGHT_EASE_ONE
  else (3 * (t * t) * LIGHT_EASE_ONE - 2 * (t * t) * t) / (LIGHT_EASE_ONE * LIGHT_EASE_ONE)

def smoothstep (t : ℤ) : ℤ :=
  if t ≤ 0 then 0
  else if t ≥ LIGHT_EASE_ONE then LIGHT_EASE_ONE
  else lightEase t.toNat

namespace LightRamp

def set (value : ℤ) : LightRamp := ⟨false, 0, 0, value, value, value⟩

def start (ramp : LightRamp) (target : ℤ) (durationMs nowMs : UInt32) : LightRamp :=
  if target = ramp.current ∨ durationMs = 0 then set target
  else
    { ramp with
      active := true
      startMs := nowMs
      durationMs := durationMs
      source := ramp.current
      target := target }

/-- `ramp_tick`; a time before the start shows as half of all times or more after it. -/
def tick (ramp : LightRamp) (nowMs : UInt32) : LightRamp :=
  if !ramp.active then ramp
  else
    let elapsed := nowMs - ramp.startMs
    if elapsed.toNat ≥ 2 ^ 31 then ramp
    else if elapsed ≥ ramp.durationMs then set ramp.target
    else
      let t : ℤ := elapsed.toNat * LIGHT_EASE_ONE / ramp.durationMs.toNat
      let eased := smoothstep t
      { ramp with
        current := ramp.source + ((ramp.target - ramp.source) * eased).tdiv LIGHT_EASE_ONE }

end LightRamp

structure Light where
  on : Bool
  brightness : UInt8
  color : Ws2812Color
  mireds : UInt16
  colorMode : LightColorMode
  effect : LightEffect
  brightnessRamp : LightRamp
  miredsRamp : LightRamp
  generation : UInt32
deriving DecidableEq

structure LightSettings where
  on : Bool
  brightness : UInt8
  color : Ws2812Color
  mireds : UInt16
  colorMode : UInt32
  effect : UInt32
deriving DecidableEq

def lightInit : Light where
  on := false
  brightness := LIGHT_DEFAULT_BRIGHTNESS
  color := ws2812Rgb 255 255 255
  mireds := LIGHT_DEFAULT_MIREDS
  colorMode := .temp
  effect := .solid
  brightnessRamp := .set LIGHT_DEFAULT_BRIGHTNESS.toNat
  miredsRamp := .set LIGHT_DEFAULT_MIREDS.toNat
  generation := 1

/-- A value of the colour temperature, clamped to what the light has. -/
def clampMireds (mireds : UInt16) : UInt16 :=
  if mireds < LIGHT_MIREDS_MIN then LIGHT_MIREDS_MIN
  else if mireds > LIGHT_MIREDS_MAX then LIGHT_MIREDS_MAX
  else mireds

namespace Light

def changed (light : Light) : Light := { light with generation := light.generation + 1 }

def setPower (light : Light) (on : Bool) (nowMs : UInt32) : Light :=
  if light.on = on then light
  else
    let light := { light with on := on }
    let light :=
      if on then
        { light with
          brightnessRamp :=
            (LightRamp.set 0).start light.brightness.toNat LIGHT_FADE_BRIGHTNESS_MS nowMs }
      else light
    light.changed

def setBrightness (light : Light) (brightness : UInt8) (nowMs : UInt32) : Light :=
  if light.brightness = brightness then light
  else
    changed
      { light with
        brightness := brightness
        brightnessRamp :=
          light.brightnessRamp.start brightness.toNat LIGHT_FADE_BRIGHTNESS_MS nowMs }

def setColor (light : Light) (color : Ws2812Color) : Light :=
  if light.colorMode = .rgb ∧ light.color.r = color.r ∧ light.color.g = color.g ∧
      light.color.b = color.b then light
  else changed { light with color := ws2812Rgb color.r color.g color.b, colorMode := .rgb }

def setMireds (light : Light) (mireds : UInt16) (nowMs : UInt32) : Light :=
  let mireds := clampMireds mireds
  if light.colorMode = .temp ∧ light.mireds = mireds then light
  else
    changed
      { light with
        mireds := mireds
        colorMode := .temp
        miredsRamp := light.miredsRamp.start mireds.toNat LIGHT_FADE_MIREDS_MS nowMs }

/-- `light_set_effect`; the number of no effect leaves the one that runs. -/
def setEffect (light : Light) (effect : UInt32) : Bool × Light :=
  match lightEffects[effect.toNat]? with
  | none => (false, light)
  | some effect =>
      if light.effect = effect then (true, light)
      else (true, changed { light with effect := effect })

def capture (light : Light) : LightSettings where
  on := light.on
  brightness := light.brightness
  color := light.color
  mireds := light.mireds
  colorMode := light.colorMode.number
  effect := light.effect.number

def tick (light : Light) (nowMs : UInt32) : Light :=
  { light with
    brightnessRamp := light.brightnessRamp.tick nowMs
    miredsRamp := light.miredsRamp.tick nowMs }

def currentBrightness (light : Light) : UInt8 :=
  let value := light.brightnessRamp.current
  if value < 0 then 0 else if value > 255 then 255 else UInt8.ofNat value.toNat

def currentMireds (light : Light) : UInt16 :=
  let value := light.miredsRamp.current
  if value < LIGHT_MIREDS_MIN.toNat then LIGHT_MIREDS_MIN
  else if value > LIGHT_MIREDS_MAX.toNat then LIGHT_MIREDS_MAX
  else UInt16.ofNat value.toNat

end Light

/-- A call that changes the light, or its clock. -/
inductive LightMove where
  | power (on : Bool) (nowMs : UInt32)
  | brightness (brightness : UInt8) (nowMs : UInt32)
  | color (color : Ws2812Color)
  | mireds (mireds : UInt16) (nowMs : UInt32)
  | effect (effect : UInt32)
  | tick (nowMs : UInt32)

def Light.step (light : Light) : LightMove → Light
  | .power on nowMs => light.setPower on nowMs
  | .brightness brightness nowMs => light.setBrightness brightness nowMs
  | .color color => light.setColor color
  | .mireds mireds nowMs => light.setMireds mireds nowMs
  | .effect effect => (light.setEffect effect).2
  | .tick nowMs => light.tick nowMs

/-- `light_restore`; settings that are out of range fall back to a default each. -/
def lightRestore (settings : Option LightSettings) : Light :=
  match settings with
  | none => lightInit
  | some settings =>
      let mireds :=
        if settings.mireds ≥ LIGHT_MIREDS_MIN ∧ settings.mireds ≤ LIGHT_MIREDS_MAX then
          settings.mireds
        else LIGHT_DEFAULT_MIREDS
      { on := settings.on
        brightness := settings.brightness
        color := ws2812Rgb settings.color.r settings.color.g settings.color.b
        mireds := mireds
        colorMode := if settings.colorMode = LightColorMode.rgb.number then .rgb else .temp
        effect := lightEffects.getD settings.effect.toNat .solid
        brightnessRamp := .set settings.brightness.toNat
        miredsRamp := .set mireds.toNat
        generation := 1 }

end Pico
