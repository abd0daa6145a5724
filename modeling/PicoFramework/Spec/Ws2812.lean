import PicoFramework.Lib.Amid
import PicoFramework.Spec.Light

/-! `ws2812_color.c`, and the colours of a temperature in `light.c`. A quotient is stored in as many
bits as its channel has. -/

namespace Pico

def WS2812_COLOR_BLACK : Ws2812Color := ⟨0, 0, 0, 0⟩
def WS2812_HUE16_RANGE : UInt16 := 1536
def WS2812_DITHER_LEVELS : UInt8 := 4

section channels

def scaleChannel (value numerator : UInt8) : UInt8 :=
  UInt8.ofNat ((value.toNat * numerator.toNat + 127) / 255)

def ws2812ColorScale (c : Ws2812Color) (brightness : UInt8) : Ws2812Color where
  r := scaleChannel c.r brightness
  g := scaleChannel c.g brightness
  b := scaleChannel c.b brightness
  w := scaleChannel c.w brightness

def scaleChannelBiased (value numerator : UInt8) (offset : ℕ) : UInt8 :=
  UInt8.ofNat ((value.toNat * numerator.toNat + offset) / 255)

def ws2812ColorScaleDither (c : Ws2812Color) (brightness bias : UInt8) : Ws2812Color :=
  let offset := 32 + 64 * (bias % WS2812_DITHER_LEVELS).toNat
  { r := scaleChannelBiased c.r brightness offset
    g := scaleChannelBiased c.g brightness offset
    b := scaleChannelBiased c.b brightness offset
    w := scaleChannelBiased c.w brightness offset }

/-- The Bayer matrix, at `y` and `x`. -/
def ditherMatrix (x y : UInt16) : UInt8 :=
  if y &&& 1 = 0 then if x &&& 1 = 0 then 0 else 2
  else if x &&& 1 = 0 then 3 else 1

def ws2812DitherBias (x y : UInt16) (frame : UInt32) : UInt8 :=
  let bias := ditherMatrix x y
  if frame &&& 1 ≠ 0 then WS2812_DITHER_LEVELS - 1 - bias else bias

def ws2812ColorFromHue16 (hue : UInt16) : Ws2812Color :=
  let wrapped := hue % WS2812_HUE16_RANGE
  let segment := (wrapped >>> 8).toUInt8
  let position := (wrapped &&& 0xFF).toUInt8
  let inverse := 255 - position
  if segment = 0 then ws2812Rgb 255 position 0
  else if segment = 1 then ws2812Rgb inverse 255 0
  else if segment = 2 then ws2812Rgb 0 255 position
  else if segment = 3 then ws2812Rgb 0 inverse 255
  else if segment = 4 then ws2812Rgb position 0 255
  else ws2812Rgb 255 0 inverse

end channels

section temperatures

def MIREDS_TABLE_BASE : ℕ := 150
def MIREDS_TABLE_STEP : ℕ := 25
def MIREDS_TABLE_COUNT : ℕ := 15

def miredsTable : List Ws2812Color :=
  [ws2812Rgb 255 250 255, ws2812Rgb 255 241 229, ws2812Rgb 255 228 206, ws2812Rgb 255 216 185,
    ws2812Rgb 255 206 166, ws2812Rgb 255 196 148, ws2812Rgb 255 188 131, ws2812Rgb 255 180 115,
    ws2812Rgb 255 172 100, ws2812Rgb 255 165 85, ws2812Rgb 255 159 70, ws2812Rgb 255 153 56,
    ws2812Rgb 255 147 42, ws2812Rgb 255 142 28, ws2812Rgb 255 137 14]

def interpolate (low high : UInt8) (position span : ℕ) : UInt8 :=
  let delta : ℤ := high.toNat - low.toNat
  UInt8.ofNat ((low.toNat + (delta * position).tdiv span) % 256).toNat

def lightColorFromMireds (mireds : UInt16) : Ws2812Color :=
  let offset := (clampMireds mireds).toNat - MIREDS_TABLE_BASE
  let index := offset / MIREDS_TABLE_STEP
  let position := offset % MIREDS_TABLE_STEP
  if index ≥ MIREDS_TABLE_COUNT - 1 then
    miredsTable.getD (MIREDS_TABLE_COUNT - 1) WS2812_COLOR_BLACK
  else
    let low := miredsTable.getD index WS2812_COLOR_BLACK
    let high := miredsTable.getD (index + 1) WS2812_COLOR_BLACK
    ws2812Rgb (interpolate low.r high.r position MIREDS_TABLE_STEP)
      (interpolate low.g high.g position MIREDS_TABLE_STEP)
      (interpolate low.b high.b position MIREDS_TABLE_STEP)

def Light.currentColor (light : Light) : Ws2812Color :=
  if light.colorMode = .temp then lightColorFromMireds light.currentMireds else light.color

end temperatures

end Pico

/-! `ws2812.c`: the strip, the frame as it goes over the wire, and the transfer by DMA or by hand.
Time is in microseconds and does not wrap around. -/

namespace Pico

open Lib.Power Lib.Amid

def WS2812_RESET_US : ℕ := 300

section encoding

inductive Ws2812Order where
  | grb
  | rgb
  | brg
  | rbg
  | gbr
  | bgr
deriving DecidableEq

/-- `order_names`, each with its order. -/
def orderNames : List (Ws2812Order × CString) :=
  [(.grb, cstr "GRB"), (.rgb, cstr "RGB"), (.brg, cstr "BRG"), (.rbg, cstr "RBG"),
    (.gbr, cstr "GBR"), (.bgr, cstr "BGR")]

def Ws2812Order.upper (c : UInt8) : UInt8 := if 0x61 ≤ c ∧ c ≤ 0x7A then c - 32 else c

def ws2812OrderName (order : Ws2812Order) : Option CString := orderNames.lookup order

/-- The names are compared without regard to case. -/
def ws2812OrderFromName (name : CString) : Option Ws2812Order :=
  (orderNames.find? fun x => name.bytes.map Ws2812Order.upper = x.2.bytes).map Prod.fst

/-- The three colours of a pixel, in the order in which they are sent. -/
def Ws2812Order.channels (order : Ws2812Order) (c : Ws2812Color) : UInt8 × UInt8 × UInt8 :=
  match order with
  | .grb => (c.g, c.r, c.b)
  | .rgb => (c.r, c.g, c.b)
  | .brg => (c.b, c.r, c.g)
  | .rbg => (c.r, c.b, c.g)
  | .gbr => (c.g, c.b, c.r)
  | .bgr => (c.b, c.g, c.r)

def ws2812ColorToWire (c : Ws2812Color) (isRgbw : Bool) (order : Ws2812Order) : UInt32 :=
  let (first, second, third) := order.channels c
  let word := (first.toUInt32 <<< 24) ||| (second.toUInt32 <<< 16) ||| (third.toUInt32 <<< 8)
  if isRgbw then word ||| c.w.toUInt32 else word

/-- What `encode_pixel` reads of the strip. -/
structure Ws2812Look where
  pixels : List Ws2812Color
  isRgbw : Bool
  order : Ws2812Order
  brightness : UInt8
  gammaTable : Option (UInt8 → UInt8)

def encodePixel (strip : Ws2812Look) (index : ℕ) : UInt32 :=
  let color := strip.pixels.getD index WS2812_COLOR_BLACK
  let color := if strip.brightness ≠ 255 then ws2812ColorScale color strip.brightness else color
  let color := match strip.gammaTable with
    | some table => ⟨table color.r, table color.g, table color.b, table color.w⟩
    | none => color
  ws2812ColorToWire color strip.isRgbw strip.order

/-- The frame that the strip is to show. -/
def Ws2812Look.picture (strip : Ws2812Look) : List UInt32 :=
  (List.range strip.pixels.length).map (encodePixel strip)

end encoding

section board

/-- `ws2812_strip_t`. The channel is `none` where the source has -1, and then there is no wire
buffer. -/
structure Ws2812Strip extends Ws2812Look where
  wireBuffer : List UInt32
  dmaChannel : Option ℕ
  latchReadyUs : ℕ
  initialised : Bool

/-- A frame that the driver has begun to send: its words, when that was, and how many words had
gone into the FIFO before. -/
structure Ws2812Frame where
  words : List UInt32
  begun : ℕ
  before : ℕ

/-- What has happened so far: the frames begun, the words and times at which they went into the
FIFO and out of it, and the words of the last frame that are still to go in. -/
structure Ws2812Trace where
  frames : List Ws2812Frame
  queued : List (ℕ × UInt32)
  sent : List (ℕ × UInt32)
  owed : List UInt32

/-- The strip, its state machine and its DMA channel. `stalled` is the bit of `fdebug`; the channel
has `dmaLeft` words to move, from `dmaAt` of the wire buffer on. -/
structure Ws2812Board where
  strip : Ws2812Strip
  now : ℕ
  stalled : Bool
  fifo : List UInt32
  dmaAt : ℕ
  dmaLeft : ℕ
  trace : Ws2812Trace

/-- The FIFO of a state machine, with the entries of the other direction joined to it. -/
def WS2812_FIFO_WORDS : ℕ := 8

/-- A word goes into the FIFO. -/
def Ws2812Board.put (b : Ws2812Board) (word : UInt32) : Ws2812Board :=
  { b with
    fifo := b.fifo ++ [word]
    trace := { b.trace with
      queued := b.trace.queued ++ [(b.now, word)]
      owed := b.trace.owed.tail } }

/-- What the hardware does by itself. The state machine raises the flag when it finds the FIFO
empty, and goes on doing so for as long as it is. -/
inductive Ws2812Event where
  | elapse (us : ℕ)
  | transfer
  | pull
  | stall

def Ws2812Board.react (b : Ws2812Board) : Ws2812Event → Ws2812Board
  | .elapse us => { b with now := b.now + us }
  | .transfer =>
      if 0 < b.dmaLeft ∧ b.fifo.length < WS2812_FIFO_WORDS then
        { b.put (b.strip.wireBuffer.getD b.dmaAt 0) with
          dmaAt := b.dmaAt + 1
          dmaLeft := b.dmaLeft - 1 }
      else b
  | .pull =>
      { b with
        fifo := b.fifo.tail
        trace := { b.trace with
          sent := b.trace.sent ++ (b.fifo.take 1).map fun word => (b.now, word) } }
  | .stall => if b.fifo.isEmpty then { b with stalled := true } else b

/-- The frame is begun. -/
def Ws2812Board.begin (b : Ws2812Board) : Ws2812Board :=
  { b with
    trace := { b.trace with
      frames := b.trace.frames ++ [⟨b.strip.picture, b.now, b.trace.queued.length⟩]
      owed := b.strip.picture } }

/-- `dma_channel_transfer_from_buffer_now`, of the wire buffer. -/
def Ws2812Board.transferNow (b : Ws2812Board) (length : ℕ) : Ws2812Board :=
  { b.begin with dmaAt := 0, dmaLeft := length }

/-- The bit of `fdebug` is cleared. -/
def Ws2812Board.clearStall (b : Ws2812Board) : Ws2812Board := { b with stalled := false }

end board

section driver

inductive Ws2812Result where
  | ok
  | errInvalidArg
  | errNoStateMachine
  | errNoProgramSpace
  | errNoDmaChannel
  | errNoWireBuffer
  | errBusy
deriving DecidableEq

abbrev Ws2812Driver := Powered (Course Ws2812Board Ws2812Event)

def ws2812Look {α : Type} (f : Ws2812Board → α) : Ws2812Driver α := look Ws2812Board.react f

def ws2812Change (f : Ws2812Board → Ws2812Board) : Ws2812Driver Unit :=
  change Ws2812Board.react f

def ws2812Store (f : Ws2812Strip → Ws2812Strip) : Ws2812Driver Unit :=
  ws2812Change fun b => { b with strip := f b.strip }

/-- The strip as its fields say; only the driver changes them. -/
def ws2812Strip : Ws2812Driver Ws2812Strip := ws2812Look (·.strip)

def ws2812SetPixel (index : UInt16) (color : Ws2812Color) : Ws2812Driver Unit := do
  let strip ← ws2812Strip
  if !strip.initialised || index.toNat ≥ strip.pixels.length then
    return
  ws2812Store fun strip => { strip with pixels := strip.pixels.set index.toNat color }

def ws2812Fill (color : Ws2812Color) : Ws2812Driver Unit := do
  let strip ← ws2812Strip
  if !strip.initialised then
    return
  countFrom (fun i => ws2812Store fun strip => { strip with pixels := strip.pixels.set i color }) 0
    strip.pixels.length

def ws2812Clear : Ws2812Driver Unit := ws2812Fill WS2812_COLOR_BLACK

def ws2812SetBrightness (brightness : UInt8) : Ws2812Driver Unit := do
  let strip ← ws2812Strip
  if !strip.initialised then
    return
  ws2812Store fun strip => { strip with brightness := brightness }

def ws2812SetGamma (table : Option (UInt8 → UInt8)) : Ws2812Driver Unit := do
  let strip ← ws2812Strip
  if !strip.initialised then
    return
  ws2812Store fun strip => { strip with gammaTable := table }

def ws2812SetOrder (order : Ws2812Order) : Ws2812Driver Unit := do
  let strip ← ws2812Strip
  if !strip.initialised then
    return
  ws2812Store fun strip => { strip with order := order }

def fillWireBuffer (length : ℕ) : Ws2812Driver Unit :=
  countFrom (fun i => ws2812Store fun strip =>
    { strip with wireBuffer := strip.wireBuffer.set i (encodePixel strip.toWs2812Look i) }) 0 length

/-- The channel, if there is one, is still feeding the FIFO. -/
def dmaChannelIsBusy (strip : Ws2812Strip) : Ws2812Driver Bool :=
  if strip.dmaChannel.isSome then ws2812Look fun b => decide (0 < b.dmaLeft) else return false

/-- The deadline is recorded the first time that the machine is seen to be quiet. -/
def recordLatch : Ws2812Driver Unit := do
  let latch ← ws2812Look (·.strip.latchReadyUs)
  if latch = 0 then
    ws2812Change fun b =>
      { b with strip := { b.strip with latchReadyUs := b.now + WS2812_RESET_US } }

def ws2812IsBusy : Ws2812Driver Bool := do
  let strip ← ws2812Strip
  if !strip.initialised then
    return false
  let feeding ← dmaChannelIsBusy strip
  if feeding then
    return true
  let stalled ← ws2812Look (·.stalled)
  if !stalled then
    return true
  recordLatch
  ws2812Look fun b => decide (b.now < b.strip.latchReadyUs)

def ws2812Wait : Ws2812Driver Unit :=
  untilDone do
    let busy ← ws2812IsBusy
    return !busy

def ws2812ShowAsync : Ws2812Driver Ws2812Result := do
  let strip ← ws2812Strip
  if !strip.initialised then
    return .errInvalidArg
  if strip.dmaChannel.isNone then
    return .errNoWireBuffer
  let busy ← ws2812IsBusy
  if busy then
    return .errBusy
  fillWireBuffer strip.pixels.length
  ws2812Change (·.clearStall)
  ws2812Store fun strip => { strip with latchReadyUs := 0 }
  ws2812Change (·.transferNow strip.pixels.length)
  return .ok

def pioSmPutBlocking (word : UInt32) : Ws2812Driver Unit := do
  untilDone (ws2812Look fun b => decide (b.fifo.length < WS2812_FIFO_WORDS))
  ws2812Change (·.put word)

def sleepUs (us : ℕ) : Ws2812Driver Unit := do
  let start ← ws2812Look (·.now)
  untilDone (ws2812Look fun b => decide (start + us ≤ b.now))

/-- The path that is shared with the call that does not wait. -/
def showFrame : Ws2812Driver Unit := do
  let result ← ws2812ShowAsync
  if result = .errBusy then
    ws2812Wait
    let _ ← ws2812ShowAsync

/-- The words of the frame, pushed into the FIFO one by one. -/
def pushFrame (length : ℕ) : Ws2812Driver Unit :=
  countFrom (fun i => do
    let strip ← ws2812Strip
    pioSmPutBlocking (encodePixel strip.toWs2812Look i)) 0 length

def ws2812Show : Ws2812Driver Unit := do
  let strip ← ws2812Strip
  if !strip.initialised then
    return
  if strip.dmaChannel.isSome then
    showFrame
    ws2812Wait
  else
    ws2812Change (·.begin)
    pushFrame strip.pixels.length
    ws2812Change (·.clearStall)
    untilDone (ws2812Look (·.stalled))
    sleepUs WS2812_RESET_US

end driver

section calls

/-- The calls that an application makes of a strip. -/
inductive Ws2812Call where
  | setPixel (index : UInt16) (color : Ws2812Color)
  | fill (color : Ws2812Color)
  | clear
  | setBrightness (brightness : UInt8)
  | setGamma (table : Option (UInt8 → UInt8))
  | setOrder (order : Ws2812Order)
  | isBusy
  | wait
  | showAsync
  | show

/-- A call, and the result of it where it has one. -/
def ws2812Call : Ws2812Call → Ws2812Driver Ws2812Result
  | .setPixel index color => do
      ws2812SetPixel index color
      return .ok
  | .fill color => do
      ws2812Fill color
      return .ok
  | .clear => do
      ws2812Clear
      return .ok
  | .setBrightness brightness => do
      ws2812SetBrightness brightness
      return .ok
  | .setGamma table => do
      ws2812SetGamma table
      return .ok
  | .setOrder order => do
      ws2812SetOrder order
      return .ok
  | .isBusy => do
      let _ ← ws2812IsBusy
      return .ok
  | .wait => do
      ws2812Wait
      return .ok
  | .showAsync => ws2812ShowAsync
  | .show => do
      ws2812Show
      return .ok

def ws2812Calls : List Ws2812Call → Ws2812Driver (List Ws2812Result)
  | [] => return []
  | call :: calls => do
      let result ← ws2812Call call
      let results ← ws2812Calls calls
      return result :: results

/-- `ws2812_config_t`, apart from the pins. The caller owns both buffers, and promises a wire buffer
of as many words as there are pixels at least. -/
structure Ws2812Config where
  pixels : List Ws2812Color
  isRgbw : Bool
  order : Ws2812Order
  wireBuffer : Option (List UInt32)
  sized : ∀ buffer ∈ wireBuffer, pixels.length ≤ buffer.length

/-- The strip that `ws2812_init` leaves, before it clears it. -/
def Ws2812Config.strip (config : Ws2812Config) (dmaChannel : ℕ) : Ws2812Strip where
  pixels := config.pixels
  isRgbw := config.isRgbw
  order := config.order
  brightness := 255
  gammaTable := none
  wireBuffer := config.wireBuffer.getD []
  dmaChannel := config.wireBuffer.map fun _ => dmaChannel
  latchReadyUs := 0
  initialised := true

/-- The board at that moment: nothing has been sent. -/
def Ws2812Strip.board (strip : Ws2812Strip) (now : ℕ) (stalled : Bool) : Ws2812Board where
  strip := strip
  now := now
  stalled := stalled
  fifo := []
  dmaAt := 0
  dmaLeft := 0
  trace := ⟨[], [], [], []⟩

end calls

end Pico
