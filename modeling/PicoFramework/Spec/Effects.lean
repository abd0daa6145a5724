import PicoFramework.Spec.LedRange
import PicoFramework.Spec.Ws2812

/-! `effects.c`. A frame is the pixels that are written, in order, each as its place and its colour;
the places are counted from the pointer that is passed. -/

namespace Pico

def RAINBOW_STEP_PER_FRAME : ℕ := 9
def RAINBOW_STEP_PER_PIXEL : UInt16 := 6
def WIPE_STEP_PER_FRAME : UInt16 := 1
def WIPE_TRAIL : ℕ := 6
def TWINKLE_CHANCE : UInt32 := 24
def TWINKLE_BACKGROUND_SHIFT : UInt8 := 3
def BREATHING_PERIOD_MS : UInt32 := 8000
def BREATHING_MIN : ℕ := 180
def BREATHING_MAX : ℕ := 255

structure Effects where
  frame : UInt32
  effectStartMs : UInt32
  current : LightEffect
  started : Bool
  rainbowHue : UInt16
  wipePosition : UInt16
deriving DecidableEq

abbrev PixelWrites := List (ℕ × Ws2812Color)

section renderers

def hash32 (x : UInt32) : UInt32 :=
  let x := x ^^^ (x >>> 17)
  let x := x * 0xED5AD4BB
  let x := x ^^^ (x >>> 11)
  let x := x * 0xAC4C1B51
  let x := x ^^^ (x >>> 15)
  let x := x * 0x31848BAB
  x ^^^ (x >>> 14)

def shade (color : Ws2812Color) (numerator : UInt8) : Ws2812Color := ws2812ColorScale color numerator

/-- The loop over all pixels, each with a colour of its own. -/
def fillWith (length : UInt16) (color : UInt16 → Ws2812Color) : PixelWrites :=
  (List.range length.toNat).map fun i => (i, color (UInt16.ofNat i))

def fillBlack (length : UInt16) : PixelWrites := fillWith length fun _ => WS2812_COLOR_BLACK

variable (effects : Effects) (base : Ws2812Color) (brightness : UInt8) (length : UInt16)

def renderSolid : PixelWrites :=
  fillWith length fun i =>
    ws2812ColorScaleDither base brightness (ws2812DitherBias i 0 effects.frame)

def renderRainbow : PixelWrites :=
  fillWith length fun i =>
    let hue := effects.rainbowHue + i * RAINBOW_STEP_PER_PIXEL
    ws2812ColorScaleDither (ws2812ColorFromHue16 hue) brightness
      (ws2812DitherBias i 0 effects.frame)

def renderTwinkle : PixelWrites :=
  let background := ws2812Rgb (base.r >>> TWINKLE_BACKGROUND_SHIFT)
    (base.g >>> TWINKLE_BACKGROUND_SHIFT) (base.b >>> TWINKLE_BACKGROUND_SHIFT)
  fillWith length fun i =>
    let noise := hash32 ((i.toUInt32 * 2654435761) ^^^ effects.frame)
    let bias := ws2812DitherBias i 0 effects.frame
    if noise &&& 0xFF < TWINKLE_CHANCE then
      let strength := UInt32.toUInt8 ((192 : UInt32) + ((noise >>> 8) &&& 0x3F))
      ws2812ColorScaleDither (shade base strength) brightness bias
    else ws2812ColorScaleDither background brightness bias

/-- `render_wipe`, of at least one pixel: the trail is written over the black, from the head back. -/
def renderWipe : PixelWrites :=
  let head := (effects.wipePosition % length).toNat
  fillBlack length ++
    (List.range (min WIPE_TRAIL length.toNat)).map fun t =>
      let index := (head + length.toNat - t) % length.toNat
      let fade := UInt8.ofNat (255 * (WIPE_TRAIL - t) / WIPE_TRAIL)
      let bias := ws2812DitherBias (UInt16.ofNat index) 0 effects.frame
      (index, ws2812ColorScaleDither (shade base fade) brightness bias)

def renderBreathing (nowMs : UInt32) : PixelWrites :=
  let elapsed := ((nowMs - effects.effectStartMs) % BREATHING_PERIOD_MS).toNat
  let half := BREATHING_PERIOD_MS.toNat / 2
  let rising := if elapsed < half then elapsed else BREATHING_PERIOD_MS.toNat - elapsed
  let t := rising * LIGHT_EASE_ONE / half
  let wave := lightEase (if t > LIGHT_EASE_ONE then LIGHT_EASE_ONE else t)
  let span := BREATHING_MAX - BREATHING_MIN
  let scale := BREATHING_MIN + span * wave / LIGHT_EASE_ONE
  let effective := UInt8.ofNat (brightness.toNat * scale / 255)
  fillWith length fun i =>
    ws2812ColorScaleDither base effective (ws2812DitherBias i 0 effects.frame)

end renderers

section rendering

def effectsInit (nowMs : UInt32) : Effects where
  frame := 0
  effectStartMs := nowMs
  current := .solid
  started := true
  rainbowHue := 0
  wipePosition := 0

/-- An effect that was not running starts from its beginning. -/
def Effects.follow (effects : Effects) (effect : LightEffect) (nowMs : UInt32) : Effects :=
  if !effects.started || effects.current ≠ effect then
    { effects with
      current := effect
      effectStartMs := nowMs
      rainbowHue := 0
      wipePosition := 0
      started := true }
  else effects

def Effects.advance (effects : Effects) : Effects :=
  { effects with
    frame := effects.frame + 1
    rainbowHue := UInt16.ofNat
      ((effects.rainbowHue.toNat + RAINBOW_STEP_PER_FRAME) % WS2812_HUE16_RANGE.toNat)
    wipePosition := effects.wipePosition + WIPE_STEP_PER_FRAME }

def effectsRender (effects : Effects) (light : Light) (length : UInt16) (nowMs : UInt32) :
    Effects × PixelWrites :=
  if length = 0 then (effects, [])
  else
    let effects := effects.follow light.effect nowMs
    if !light.on then (effects, fillBlack length)
    else
      let brightness := light.currentBrightness
      let base := light.currentColor
      let pixels :=
        match light.effect with
        | .rainbow => renderRainbow effects brightness length
        | .twinkle => renderTwinkle effects base brightness length
        | .wipe => renderWipe effects base brightness length
        | .breathing => renderBreathing effects base brightness length nowMs
        | .solid => renderSolid effects base brightness length
      (effects.advance, pixels)

def effectsRenderRange (effects : Effects) (light : Light) (range : LedRange) (length : UInt16)
    (nowMs : UInt32) : Effects × PixelWrites :=
  if length = 0 then (effects, [])
  else
    let black := fillBlack length
    let start := range.begin
    let active := range.length
    if start ≥ length then (effects, black)
    else
      let active := if active > length - start then length - start else active
      if active = 0 then (effects, black)
      else
        let (effects, pixels) := effectsRender effects light active nowMs
        (effects, black ++ pixels.map fun pixel => (start.toNat + pixel.1, pixel.2))

end rendering

end Pico
