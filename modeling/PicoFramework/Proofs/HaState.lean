import PicoFramework.Lib.Bits
import PicoFramework.Proofs.JsonRoundTrip
import PicoFramework.Proofs.LightState
import PicoFramework.Spec.HomeAssistant

/-! What the light reports, the light takes for a command to look as it does. -/

namespace Pico

open Lib.Json JsonTree

/-- The name of an effect. -/
def LightEffect.name (effect : LightEffect) : CString :=
  (lightEffectName effect.number).getD (cstr "")

theorem lightEffectName_number (effect : LightEffect) :
    lightEffectName effect.number = some effect.name := by
  cases effect <;> rfl

/-- The members of the report that tell the colour. -/
def colorMembers (light : Light) : CString × JsonTree :=
  if light.colorMode = .temp then (cstr "color_temp", .int (Int32.ofNat light.mireds.toNat))
  else
    (cstr "color", .object
      [(cstr "r", .int (Int32.ofNat light.color.r.toNat)),
        (cstr "g", .int (Int32.ofNat light.color.g.toNat)),
        (cstr "b", .int (Int32.ofNat light.color.b.toNat))])

/-- The report as a tree. -/
def stateMembers (light : Light) : List (CString × JsonTree) :=
  [(cstr "state", .string (if light.on then cstr "ON" else cstr "OFF")),
    (cstr "brightness", .int (Int32.ofNat light.brightness.toNat)),
    (cstr "color_mode", .string (lightColorModeName light.colorMode)),
    colorMembers light,
    (cstr "effect", .string light.effect.name)]

theorem haBuildState_eq (light : Light) {size : ℕ} (hsize : size ≠ 0) :
    haBuildState light size =
      finished ((JsonTree.object (stateMembers light)).emit none (jsonWriterInit (some size))) := by
  unfold haBuildState stateMembers colorMembers
  rw [if_neg hsize, lightEffectName_number]
  cases light.on <;> cases light.colorMode <;> rfl

theorem intText_length (value : Int32) : (intText value).length ≤ 13 := by
  have hloop : ∀ room magnitude, (digitLoop room magnitude).length ≤ room := by
    intro room
    induction room with
    | zero => exact fun _ => le_rfl
    | succ room ih =>
      intro magnitude
      rw [digitLoop, List.length_cons]
      split
      · exact Nat.succ_le_succ (Nat.zero_le _)
      · exact Nat.succ_le_succ (ih _)
  rw [intText, List.length_append, List.length_reverse]
  have hdigits := hloop 12 value.toInt.natAbs
  split
  · rw [List.length_singleton]
    omega
  · rw [List.length_nil]
    omega

theorem memberItem_length (member : CString × JsonTree) :
    (memberOf member.1 member.2.text).item.text.length =
      (quoted member.1).length + (member.2.text.length + 1) := by
  simp only [memberOf, Member.item, Naming.text, Item.text, List.length_append, List.length_cons,
    List.length_nil]
  omega

theorem object_length (member : CString × JsonTree) (members : List (CString × JsonTree)) :
    (JsonTree.object (member :: members)).text.length =
      1 + ((member :: members).map fun member =>
        (quoted member.1).length + (member.2.text.length + 2)).sum := by
  have hjoined : (joined (memberItems (member :: members))).length + 1 =
      ((member :: members).map fun member =>
        (quoted member.1).length + (member.2.text.length + 2)).sum := by
    induction members generalizing member with
    | nil =>
      have hitem := memberItem_length member
      rw [memberItems, memberItems, joined, hitem, List.map_singleton, List.sum_singleton]
      omega
    | cons next members ih =>
      have hitem := memberItem_length member
      have hnext := ih next
      rw [memberItems] at hnext
      rw [memberItems, memberItems, joined, List.map_cons, List.sum_cons, ← hnext,
        List.length_append, List.length_cons, hitem]
      omega
  rw [text, Bracket.text, List.length_cons, List.length_append, List.length_singleton, ← hjoined]
  omega

theorem colorMembers_length (light : Light) :
    (quoted (colorMembers light).1).length + ((colorMembers light).2.text.length + 2) ≤ 90 := by
  unfold colorMembers
  split
  · have hvalue := intText_length (Int32.ofNat light.mireds.toNat)
    change 12 + (_ + 2) ≤ 90
    rw [text]
    omega
  · have hr := intText_length (Int32.ofNat light.color.r.toNat)
    have hg := intText_length (Int32.ofNat light.color.g.toNat)
    have hb := intText_length (Int32.ofNat light.color.b.toNat)
    rw [object_length]
    change 7 + (1 + (3 + (_ + 2) + (3 + (_ + 2) + (3 + (_ + 2) + 0))) + 2) ≤ 90
    simp only [text]
    omega

theorem stateMembers_length (light : Light) :
    (JsonTree.object (stateMembers light)).text.length < HA_STATE_BUFFER_SIZE := by
  have hstate : (quoted (if light.on then cstr "ON" else cstr "OFF")).length ≤ 5 := by
    cases light.on <;> decide
  have hmode : (quoted (lightColorModeName light.colorMode)).length ≤ 12 := by
    cases light.colorMode <;> decide
  have heffect : (quoted light.effect.name).length ≤ 11 := by
    cases light.effect <;> decide
  have hbrightness := intText_length (Int32.ofNat light.brightness.toNat)
  have hcolor := colorMembers_length light
  rw [stateMembers, object_length]
  change 1 + (7 + (_ + 2) + (12 + (_ + 2) + (12 + (_ + 2) + (_ + (8 + (_ + 2) + 0))))) < 256
  simp only [text] at hcolor ⊢
  omega

theorem stateMembers_depth (light : Light) :
    (JsonTree.object (stateMembers light)).depth ≤ JSON_MAX_DEPTH := by
  have hcolor : (colorMembers light).2.depth ≤ 1 := by
    unfold colorMembers
    split <;> simp [depth, membersDepth]
  simp only [stateMembers, depth, membersDepth, JSON_MAX_DEPTH]
  omega

theorem finished_emit {members : List (CString × JsonTree)} {size : ℕ}
    (hdepth : (JsonTree.object members).depth ≤ JSON_MAX_DEPTH)
    (hsize : (JsonTree.object members).text.length < size) :
    finished ((JsonTree.object members).emit none (jsonWriterInit (some size))) =
      some (JsonTree.object members).text := by
  obtain ⟨hfinish, htext⟩ := jsonWriterFinish_emit hdepth hsize
  have hlength : JsonWriter.length ((JsonTree.object members).emit none
      (jsonWriterInit (some size))) ≠ 0 := by
    rw [JsonWriter.length, htext]
    simp [text, Bracket.text]
  rw [finished, hfinish, if_pos ⟨rfl, hlength⟩, htext]

theorem haBuildState_text (light : Light) :
    haBuildState light HA_STATE_BUFFER_SIZE = some (JsonTree.object (stateMembers light)).text := by
  rw [haBuildState_eq light (by decide)]
  exact finished_emit (stateMembers_depth light) (stateMembers_length light)

section parsing

variable (light : Light)

theorem finds_state (key : CString) :
    Finds (jsonFindN (JsonTree.object (stateMembers light)).text key)
      ((JsonTree.object (stateMembers light)).child (.key key)) := by
  have hdepth := stateMembers_depth light
  rw [depth] at hdepth
  exact finds_members hdepth key

theorem finds_of_child (key : CString) {tree : JsonTree}
    (h : (JsonTree.object (stateMembers light)).child (.key key) = some tree) :
    ∃ value, jsonFindN (JsonTree.object (stateMembers light)).text key = some value ∧
      Stands value tree := by
  have hfinds := finds_state light key
  rw [h] at hfinds
  exact hfinds

theorem absent_of_child {key : CString}
    (h : (JsonTree.object (stateMembers light)).child (.key key) = none) :
    jsonFindN (JsonTree.object (stateMembers light)).text key = none := by
  have hfinds := finds_state light key
  rw [h] at hfinds
  exact hfinds

theorem clampByte_ofNat (n : UInt8) : clampByte (Int32.ofNat n.toNat) = n := by
  revert n
  exact Lib.Bits.forall_byte (by decide)

theorem parsePower_state :
    parsePower (JsonTree.object (stateMembers light)).text = some light.on := by
  obtain ⟨value, hvalue, hstands⟩ := finds_of_child light (cstr "state") rfl
  have hequals := hstands.reads.2
  unfold parsePower
  rw [hvalue, Option.bind_eq_bind, Option.bind_some]
  cases hon : light.on with
  | true =>
    rw [hon] at hequals
    have hyes : jsonStringEquals value (cstr "ON") = true := (hequals _).mpr rfl
    rw [if_pos hyes]
  | false =>
    rw [hon] at hequals
    have hyes : ¬ jsonStringEquals value (cstr "ON") = true :=
      fun h => absurd ((hequals _).mp h) (by decide)
    have hno : jsonStringEquals value (cstr "OFF") = true := (hequals _).mpr rfl
    rw [if_neg hyes, if_pos hno]

theorem parseBrightness_state :
    parseBrightness (JsonTree.object (stateMembers light)).text = some light.brightness := by
  obtain ⟨value, hvalue, hstands⟩ := finds_of_child light (cstr "brightness") rfl
  have hnumber : jsonGetInt value = _ := hstands.reads
  unfold parseBrightness
  simp only [hvalue, hnumber, Option.bind_eq_bind, Option.bind_some, Option.pure_def,
    clampByte_ofNat]

theorem parseEffect_state :
    parseEffect (JsonTree.object (stateMembers light)).text = (some light.effect.number, false) := by
  have hchild : (JsonTree.object (stateMembers light)).child (.key (cstr "effect")) =
      some (.string light.effect.name) := by
    unfold stateMembers colorMembers
    cases light.colorMode <;> rfl
  obtain ⟨value, hvalue, hstands⟩ := finds_of_child light _ hchild
  have hlength : light.effect.name.length < 40 := by
    cases light.effect <;> decide
  have hname := hstands.reads.1 40 hlength
  have hfrom : lightEffectFromName (some (bufferString light.effect.name.bytes)) =
      some light.effect.number := by
    cases light.effect <;> decide
  unfold parseEffect
  simp only [hvalue, hname, hfrom]

theorem parseColor_state : parseColor (JsonTree.object (stateMembers light)).text =
    if light.colorMode = .temp then none
    else some (ws2812Rgb light.color.r light.color.g light.color.b) := by
  split
  · rename_i htemp
    have hchild : (JsonTree.object (stateMembers light)).child (.key (cstr "color")) = none := by
      unfold stateMembers colorMembers
      rw [if_pos htemp]
      rfl
    rw [parseColor, absent_of_child light hchild]
    rfl
  · rename_i hrgb
    have hchild : (JsonTree.object (stateMembers light)).child (.key (cstr "color")) =
        some (.object
          [(cstr "r", .int (Int32.ofNat light.color.r.toNat)),
            (cstr "g", .int (Int32.ofNat light.color.g.toNat)),
            (cstr "b", .int (Int32.ofNat light.color.b.toNat))]) := by
      unfold stateMembers colorMembers
      rw [if_neg hrgb]
      rfl
    obtain ⟨value, hvalue, hstands⟩ := finds_of_child light _ hchild
    obtain ⟨r, hr, hrstands⟩ := readStep_child hstands (.key (cstr "r"))
    obtain ⟨g, hg, hgstands⟩ := readStep_child hstands (.key (cstr "g"))
    obtain ⟨b, hb, hbstands⟩ := readStep_child hstands (.key (cstr "b"))
    have hrnumber : jsonGetInt r = _ := hrstands.reads
    have hgnumber : jsonGetInt g = _ := hgstands.reads
    have hbnumber : jsonGetInt b = _ := hbstands.reads
    rw [readStep] at hr hg hb
    simp only [parseColor, readChannel, hvalue, hr, hg, hb, hrnumber, hgnumber, hbnumber,
      Option.bind_eq_bind, Option.bind_some, Option.pure_def, clampByte_ofNat]

theorem mireds_ofNat {mireds : UInt16} (hlow : 153 ≤ mireds.toNat) (hhigh : mireds.toNat ≤ 500) :
    Int32.ofNat mireds.toNat > 0 ∧ ¬ Int32.ofNat mireds.toNat > 65535 ∧
      UInt16.ofNat (Int32.ofNat mireds.toNat).toNatClampNeg = mireds := by
  have hint : (Int32.ofNat mireds.toNat).toInt = mireds.toNat :=
    Int32.toInt_ofNat_of_lt (by omega)
  refine ⟨?_, ?_, ?_⟩
  · rw [gt_iff_lt, Int32.lt_iff_toInt_lt, hint]
    change (0 : ℤ) < _
    omega
  · rw [gt_iff_lt, Int32.lt_iff_toInt_lt, hint]
    change ¬ (65535 : ℤ) < _
    omega
  · rw [Int32.toNatClampNeg_ofNat_of_lt (by omega), UInt16.ofNat_toNat]

theorem parseMireds_state (h : light.InRange) :
    parseMireds (JsonTree.object (stateMembers light)).text =
      if light.colorMode = .temp then some light.mireds else none := by
  obtain ⟨hpositive, hsmall, hsame⟩ := mireds_ofNat h.1 h.2
  split
  · rename_i htemp
    have hchild : (JsonTree.object (stateMembers light)).child (.key (cstr "color_temp")) =
        some (.int (Int32.ofNat light.mireds.toNat)) := by
      unfold stateMembers colorMembers
      rw [if_pos htemp]
      rfl
    obtain ⟨value, hvalue, hstands⟩ := finds_of_child light _ hchild
    have hnumber : jsonGetInt value = _ := hstands.reads
    unfold parseMireds
    simp only [hvalue, hnumber, Option.bind_eq_bind, Option.bind_some]
    rw [if_pos hpositive, if_neg hsmall, hsame]
  · rename_i hrgb
    have hchild : (JsonTree.object (stateMembers light)).child (.key (cstr "color_temp")) = none := by
      unfold stateMembers colorMembers
      rw [if_neg hrgb]
      rfl
    rw [parseMireds, absent_of_child light hchild]
    rfl

/-- The command that a report is taken for. -/
def reportedCommand (light : Light) : HaCommand where
  power := some light.on
  brightness := some light.brightness
  color :=
    if light.colorMode = .temp then none
    else some (ws2812Rgb light.color.r light.color.g light.color.b)
  mireds := if light.colorMode = .temp then some light.mireds else none
  effect := some light.effect.number
  unknownEffect := false

theorem haParseCommand_state (h : light.InRange) :
    haParseCommand (JsonTree.object (stateMembers light)).text = some (reportedCommand light) := by
  have hne : (JsonTree.object (stateMembers light)).text ≠ [] := List.cons_ne_nil _ _
  have hobject : startsAnObject (JsonTree.object (stateMembers light)).text = true := rfl
  have hvalid := jsonValidN_tree (stateMembers_depth light)
  unfold haParseCommand
  rw [if_neg hne, hobject, hvalid, parsePower_state, parseBrightness_state, parseColor_state,
    parseMireds_state light h, parseEffect_state]
  rfl

end parsing

/-- The lights are alike in all that a controller is shown. -/
structure SameLook (light model : Light) : Prop where
  on_eq : model.on = light.on
  brightness_eq : model.brightness = light.brightness
  colorMode_eq : model.colorMode = light.colorMode
  effect_eq : model.effect = light.effect
  color_eq : light.colorMode = .rgb →
    model.color.r = light.color.r ∧ model.color.g = light.color.g ∧ model.color.b = light.color.b
  mireds_eq : light.colorMode = .temp → model.mireds = light.mireds

theorem haApplyCommand_reported (light model : Light) (h : light.InRange) (nowMs : UInt32) :
    SameLook light (haApplyCommand (reportedCommand light) model nowMs) := by
  have hbrightness := (Light.shows_self model).setBrightness light.brightness nowMs
  unfold haApplyCommand reportedCommand
  dsimp only [Option.elim_some]
  cases hmode : light.colorMode with
  | temp =>
    have hshows := ((hbrightness.setMireds light.mireds nowMs).setEffect light.effect).setPower
      light.on nowMs
    rw [Light.clampMireds_of_mem h.1 h.2] at hshows
    exact ⟨hshows.on_eq, hshows.brightness_eq, hshows.colorMode_eq.trans hmode.symm,
      hshows.effect_eq, fun hrgb => absurd (hmode.symm.trans hrgb) (by decide),
      fun _ => hshows.mireds_eq⟩
  | rgb =>
    have hshows := ((hbrightness.setColor
      (ws2812Rgb light.color.r light.color.g light.color.b)).setEffect light.effect).setPower
        light.on nowMs
    exact ⟨hshows.on_eq, hshows.brightness_eq, hshows.colorMode_eq.trans hmode.symm,
      hshows.effect_eq, fun _ => hshows.color_eq,
      fun htemp => absurd (hmode.symm.trans htemp) (by decide)⟩

/-- Whatever the light came to be by the calls that there are, its report is a command, and the
command makes any light look as this one does. -/
theorem haState_roundTrip (settings : Option LightSettings) (moves : List LightMove) (model : Light)
    (nowMs : UInt32) :
    let light := moves.foldl Light.step (lightRestore settings)
    ∃ text command, haBuildState light HA_STATE_BUFFER_SIZE = some text ∧
      haParseCommand text = some command ∧
      SameLook light (haApplyCommand command model nowMs) := by
  intro light
  have hrange : light.InRange := Light.inRange_run settings moves
  exact ⟨_, _, haBuildState_text light, haParseCommand_state light hrange,
    haApplyCommand_reported light model hrange nowMs⟩

end Pico
