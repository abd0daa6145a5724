import PicoFramework.Proofs.HaState
import PicoFramework.Proofs.JsonWriter

/-! What is saved of a light and what is published of it: each setter changes both or neither, and
counts it. -/

namespace Pico

section reports

theorem LightColorMode.number_injective {a b : LightColorMode} (h : a.number = b.number) : a = b := by
  cases a <;> cases b <;> first | rfl | exact absurd h (by decide)

theorem LightEffect.number_injective {a b : LightEffect} (h : a.number = b.number) : a = b := by
  have hsame := Light.lightEffects_number a
  rw [h, Light.lightEffects_number b] at hsame
  exact (Option.some.inj hsame).symm

/-- The calls that write a report. -/
def stateCalls (light : Light) : List WriterCall :=
  [.containerOpen .object none,
    .string (cstr "state") (if light.on then cstr "ON" else cstr "OFF"),
    .int (cstr "brightness") (Int32.ofNat light.brightness.toNat),
    .string (cstr "color_mode") (lightColorModeName light.colorMode)] ++
  (if light.colorMode = .temp then
    [.int (cstr "color_temp") (Int32.ofNat light.mireds.toNat)]
  else
    [.containerOpen .object (cstr "color"), .int (cstr "r") (Int32.ofNat light.color.r.toNat),
      .int (cstr "g") (Int32.ofNat light.color.g.toNat),
      .int (cstr "b") (Int32.ofNat light.color.b.toNat), .containerClose .object]) ++
  [.string (cstr "effect") light.effect.name, .containerClose .object]

theorem haBuildState_calls (light : Light) {size : ℕ} (hsize : size ≠ 0) :
    haBuildState light size =
      finished ((stateCalls light).foldl jsonWriterCall (jsonWriterInit (some size))) := by
  unfold haBuildState stateCalls
  rw [if_neg hsize, lightEffectName_number]
  cases light.colorMode <;> rfl

theorem drafts_foldl {writer : JsonWriter} {draft : Draft} (h : writer.Drafts draft)
    (calls : List WriterCall) :
    (calls.foldl jsonWriterCall writer).size = writer.size ∧
      (calls.foldl jsonWriterCall writer).Drafts (calls.foldl Draft.call draft) := by
  induction calls generalizing writer draft with
  | nil => exact ⟨rfl, h⟩
  | cons call calls ih =>
    obtain ⟨hsize, hdrafts⟩ := ih (h.call call)
    exact ⟨hsize.trans (jsonWriterCall_size writer call), hdrafts⟩

theorem finished_draft {calls : List WriterCall} {size : ℕ} {text : Bytes}
    (h : finished (calls.foldl jsonWriterCall (jsonWriterInit (some size))) = some text) :
    text = (draftOf calls).text := by
  obtain ⟨hsize, hdrafts⟩ := drafts_foldl (jsonWriterInit_drafts size) calls
  generalize calls.foldl jsonWriterCall (jsonWriterInit (some size)) = writer at h hsize hdrafts
  unfold finished at h
  split at h
  · rename_i hfinish
    have hflags : (!writer.overflowed && !writer.malformed && writer.depth = 0) = true := hfinish.1
    have hover : writer.overflowed ≠ true := by
      intro hover
      rw [hover] at hflags
      exact absurd hflags (by simp)
    have hfits := not_le.mp (mt hdrafts.overflowed.mpr hover)
    rw [← Option.some.inj h, hdrafts.text]
    exact List.take_of_length_le (Nat.le_sub_one_of_lt hfits)
  · exact absurd h nofun

theorem haBuildState_some {light : Light} {size : ℕ} {text : Bytes}
    (h : haBuildState light size = some text) :
    text = (JsonTree.object (stateMembers light)).text := by
  have hsize : size ≠ 0 := by
    rintro rfl
    exact absurd h nofun
  have hwhole := haBuildState_text light
  rw [haBuildState_calls light hsize] at h
  rw [haBuildState_calls light (by decide)] at hwhole
  exact (finished_draft h).trans (finished_draft hwhole).symm

/-- It tells what `light_capture` returns, and no more. -/
theorem haBuildState_congr {light light' : Light} {size : ℕ} (h : light'.capture = light.capture) :
    haBuildState light' size = haBuildState light size := by
  obtain ⟨hon, hbrightness, hcolor, hmireds, hmode, heffect⟩ := LightSettings.mk.inj h
  unfold haBuildState
  rw [hon, hbrightness, hcolor, hmireds, LightColorMode.number_injective hmode, heffect]

theorem reportedCommand_congr {light light' : Light} (h : light'.capture = light.capture) :
    reportedCommand light' = reportedCommand light := by
  obtain ⟨hon, hbrightness, hcolor, hmireds, hmode, heffect⟩ := LightSettings.mk.inj h
  unfold reportedCommand
  rw [hon, hbrightness, hcolor, hmireds, LightColorMode.number_injective hmode,
    LightEffect.number_injective heffect]

theorem reportedCommand_of_text {light light' : Light} (hrange : light.InRange)
    (hrange' : light'.InRange) (h : (JsonTree.object (stateMembers light')).text =
      (JsonTree.object (stateMembers light)).text) :
    reportedCommand light' = reportedCommand light := by
  have hparse' := haParseCommand_state light' hrange'
  rw [h, haParseCommand_state light hrange] at hparse'
  exact (Option.some.inj hparse').symm

end reports

namespace Light

section setters

/-- A call that changes nothing, or counts a change of what is reported. -/
def Told (light light' : Light) : Prop :=
  (light'.generation = light.generation ∧ light'.capture = light.capture) ∨
    (light'.generation = light.generation + 1 ∧ reportedCommand light' ≠ reportedCommand light)

theorem Told.of_eq {light light' : Light} (h : light' = light) : light.Told light' :=
  Or.inl ⟨congrArg Light.generation h, congrArg capture h⟩

variable (light : Light)

theorem told_setPower (on : Bool) (nowMs : UInt32) : light.Told (light.setPower on nowMs) := by
  have hshows := (shows_self light).setPower on nowMs
  by_cases hsame : light.on = on
  · exact .of_eq (if_pos hsame)
  refine Or.inr ⟨?_, fun hreported => hsame ?_⟩
  · rw [Light.setPower, if_neg hsame]
    cases on <;> rfl
  · have hon : some (light.setPower on nowMs).on = some light.on :=
      congrArg HaCommand.power hreported
    rw [hshows.on_eq] at hon
    exact (Option.some.inj hon).symm

theorem told_setBrightness (brightness : UInt8) (nowMs : UInt32) :
    light.Told (light.setBrightness brightness nowMs) := by
  have hshows := (shows_self light).setBrightness brightness nowMs
  by_cases hsame : light.brightness = brightness
  · exact .of_eq (if_pos hsame)
  refine Or.inr ⟨?_, fun hreported => hsame ?_⟩
  · rw [Light.setBrightness, if_neg hsame]
    rfl
  · have hbrightness : some (light.setBrightness brightness nowMs).brightness =
        some light.brightness := congrArg HaCommand.brightness hreported
    rw [hshows.brightness_eq] at hbrightness
    exact (Option.some.inj hbrightness).symm

theorem told_setColor (color : Ws2812Color) : light.Told (light.setColor color) := by
  by_cases hsame : light.colorMode = .rgb ∧ light.color.r = color.r ∧ light.color.g = color.g ∧
      light.color.b = color.b
  · exact .of_eq (if_pos hsame)
  refine Or.inr ⟨?_, fun hreported => hsame ?_⟩
  · rw [Light.setColor, if_neg hsame]
    rfl
  · have hcolor := congrArg HaCommand.color hreported
    unfold reportedCommand Light.setColor at hcolor
    rw [if_neg hsame] at hcolor
    cases hmode : light.colorMode with
    | temp =>
      rw [hmode] at hcolor
      exact absurd hcolor nofun
    | rgb =>
      rw [hmode] at hcolor
      obtain ⟨hr, hg, hb, -⟩ := Ws2812Color.mk.inj (Option.some.inj hcolor)
      exact ⟨rfl, hr.symm, hg.symm, hb.symm⟩

theorem told_setMireds (mireds : UInt16) (nowMs : UInt32) :
    light.Told (light.setMireds mireds nowMs) := by
  by_cases hsame : light.colorMode = .temp ∧ light.mireds = clampMireds mireds
  · exact .of_eq (if_pos hsame)
  refine Or.inr ⟨?_, fun hreported => hsame ?_⟩
  · rw [Light.setMireds, if_neg hsame]
    rfl
  · have hmireds := congrArg HaCommand.mireds hreported
    unfold reportedCommand Light.setMireds at hmireds
    dsimp only at hmireds
    rw [if_neg hsame] at hmireds
    cases hmode : light.colorMode with
    | temp =>
      rw [hmode] at hmireds
      exact ⟨rfl, (Option.some.inj hmireds).symm⟩
    | rgb =>
      rw [hmode] at hmireds
      exact absurd hmireds nofun

theorem told_setEffect (effect : UInt32) : light.Told (light.setEffect effect).2 := by
  unfold Light.setEffect
  split
  · exact .of_eq rfl
  · rename_i known _
    by_cases hsame : light.effect = known
    · rw [if_pos hsame]
      exact .of_eq rfl
    · rw [if_neg hsame]
      refine Or.inr ⟨rfl, fun hreported => hsame ?_⟩
      have heffect : some known.number = some light.effect.number :=
        congrArg HaCommand.effect hreported
      exact (LightEffect.number_injective (Option.some.inj heffect)).symm

theorem told_step (move : LightMove) : light.Told (light.step move) := by
  cases move with
  | power on nowMs => exact light.told_setPower on nowMs
  | brightness brightness nowMs => exact light.told_setBrightness brightness nowMs
  | color color => exact light.told_setColor color
  | mireds mireds nowMs => exact light.told_setMireds mireds nowMs
  | effect effect => exact light.told_setEffect effect
  | tick nowMs => exact Or.inl ⟨rfl, rfl⟩

end setters

/-- The generation tells whether there is something to save, and to publish, in a buffer that can
hold a report. -/
structure Announces (light light' : Light) : Prop where
  saves : light'.generation ≠ light.generation ↔ light'.capture ≠ light.capture
  publishes : ∀ size, haBuildState light size ≠ none ∨ haBuildState light' size ≠ none →
    (light'.generation ≠ light.generation ↔ haBuildState light' size ≠ haBuildState light size)

theorem Told.announces {light light' : Light} (h : light.Told light') (hrange : light.InRange)
    (hrange' : light'.InRange) : light.Announces light' := by
  obtain ⟨hgeneration, hcapture⟩ | ⟨hgeneration, hreported⟩ := h
  · have hsame : ¬ light'.generation ≠ light.generation := not_not.mpr hgeneration
    exact ⟨iff_of_false hsame (not_not.mpr hcapture),
      fun _ _ => iff_of_false hsame (not_not.mpr (haBuildState_congr hcapture))⟩
  have hcounted : light'.generation ≠ light.generation := by
    rw [hgeneration]
    exact fun hsame => absurd (UInt32.add_eq_left.mp hsame) (by decide)
  constructor
  · exact iff_of_true hcounted (mt reportedCommand_congr hreported)
  · refine fun size hfits => iff_of_true hcounted fun hsame => hreported ?_
    have hsome : ∃ text, haBuildState light size = some text := by
      rw [hsame, or_self] at hfits
      exact Option.ne_none_iff_exists'.mp hfits
    obtain ⟨text, htext⟩ := hsome
    rw [htext] at hsame
    exact reportedCommand_of_text hrange hrange'
      ((haBuildState_some hsame).symm.trans (haBuildState_some htext))

end Light

/-- A command as the calls that it makes. -/
def HaCommand.moves (command : HaCommand) (nowMs : UInt32) : List LightMove :=
  (command.brightness.map (LightMove.brightness · nowMs)).toList ++
    (command.color.map LightMove.color).toList ++
    (command.mireds.map (LightMove.mireds · nowMs)).toList ++
    (command.effect.map LightMove.effect).toList ++
    (command.power.map (LightMove.power · nowMs)).toList

theorem haApplyCommand_moves (command : HaCommand) (light : Light) (nowMs : UInt32) :
    haApplyCommand command light nowMs = (command.moves nowMs).foldl Light.step light := by
  obtain ⟨power, brightness, color, mireds, effect, unknownEffect⟩ := command
  cases power <;> cases brightness <;> cases color <;> cases mireds <;> cases effect <;> rfl

theorem moves_ne_tick {command : HaCommand} {nowMs : UInt32} {move : LightMove}
    (h : move ∈ command.moves nowMs) (time : UInt32) : move ≠ .tick time := by
  rintro rfl
  simp [HaCommand.moves] at h

/-- Whatever the light came to be, each call of a setter, those of a command among them, changes the
generation just where it changes what is saved, and just where it changes what is published; and no
tick does. -/
theorem light_generation_tells (settings : Option LightSettings) (moves : List LightMove) :
    let light := moves.foldl Light.step (lightRestore settings)
    haBuildState light HA_STATE_BUFFER_SIZE ≠ none ∧
    (∀ move, light.Announces (light.step move)) ∧
    (∀ nowMs, (light.tick nowMs).generation = light.generation) ∧
    ∀ (command : HaCommand) nowMs, ∃ calls : List LightMove,
      (∀ call ∈ calls, ∀ time, call ≠ .tick time) ∧
      haApplyCommand command light nowMs = calls.foldl Light.step light ∧
      ∀ before call after, calls = before ++ call :: after →
        (before.foldl Light.step light).Announces ((before.foldl Light.step light).step call) := by
  have hstep : ∀ moves move, ((moves : List LightMove).foldl Light.step (lightRestore settings)).Announces
      ((moves.foldl Light.step (lightRestore settings)).step move) := by
    intro moves move
    have hrange := Light.inRange_run settings moves
    exact (Light.told_step _ move).announces hrange (hrange.step move)
  intro light
  refine ⟨?_, hstep moves, fun _ => rfl, fun command nowMs => ?_⟩
  · rw [haBuildState_text]
    exact Option.some_ne_none _
  · refine ⟨command.moves nowMs, fun _ => moves_ne_tick, haApplyCommand_moves command light nowMs, ?_⟩
    intro before call after _
    have hbefore := hstep (moves ++ before) call
    rwa [List.foldl_append] at hbefore

end Pico
