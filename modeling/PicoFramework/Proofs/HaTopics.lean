import PicoFramework.Spec.HomeAssistant

/-! The topics of a device: ten different ones. -/

namespace Pico

theorem cstring_append_bytes (a b : CString) : (a ++ b).bytes = a.bytes ++ b.bytes := rfl

theorem cstring_append_left {a b c : CString} (h : a ++ b = a ++ c) : b = c := by
  apply cstring_eq.mpr
  exact List.append_cancel_left (congrArg CString.bytes h)

theorem cstring_append_right {a b c : CString} (h : a ++ c = b ++ c) : a = b := by
  apply cstring_eq.mpr
  exact List.append_cancel_right (congrArg CString.bytes h)

/-- What `compose` writes for a light. -/
def lightTopic (discoveryPrefix id suffix : CString) : CString :=
  discoveryPrefix ++ cstr "/" ++ cstr "light" ++ cstr "/" ++ id ++ cstr "/" ++ suffix

/-- What `compose_range_config` writes. -/
def rangeTopic (discoveryPrefix id endpoint : CString) : CString :=
  discoveryPrefix ++ cstr "/number/" ++ id ++ cstr "_range_" ++ endpoint ++ cstr "/config"

/-- All ten topics: eight of the light, and two of its ranges. -/
def Ha.topics (ha : Ha) : List CString :=
  [ha.topicConfig, ha.topicCommand, ha.topicState, ha.topicAvailability,
    ha.topicRangeFirstCommand, ha.topicRangeFirstState, ha.topicRangeLastCommand,
    ha.topicRangeLastState, ha.topicRangeFirstConfig, ha.topicRangeLastConfig]

theorem whole_eq_some_iff {size : ℕ} {text topic : CString} :
    whole size text = some topic ↔ (0 < text.length ∧ text.length < size) ∧ text = topic := by
  unfold whole
  split_ifs with hfits
  · rw [Option.some.injEq, and_iff_right hfits]
  · exact iff_of_false id fun h => hfits h.1

/-- The texts of the ten topics. -/
def topicTexts (discoveryPrefix id : CString) : List CString :=
  [lightTopic discoveryPrefix id (cstr "config"), lightTopic discoveryPrefix id (cstr "set"),
    lightTopic discoveryPrefix id (cstr "state"), lightTopic discoveryPrefix id (cstr "status"),
    lightTopic discoveryPrefix id (cstr "range/first/set"),
    lightTopic discoveryPrefix id (cstr "range/first/state"),
    lightTopic discoveryPrefix id (cstr "range/last/set"),
    lightTopic discoveryPrefix id (cstr "range/last/state"),
    rangeTopic discoveryPrefix id (cstr "first"), rangeTopic discoveryPrefix id (cstr "last")]

theorem haTopics_whole {discoveryPrefix id : CString} {ha : Ha}
    (h : haTopics discoveryPrefix id = some ha) :
    ha.deviceId = id ∧
      List.Forall₂ (fun text topic => whole (HA_TOPIC_MAX_LENGTH + 1) text = some topic)
        (topicTexts discoveryPrefix id) ha.topics := by
  simp only [haTopics, compose, composeRangeConfig, Option.bind_eq_bind, Option.bind_eq_some_iff,
    Option.pure_def, Option.some.injEq] at h
  obtain ⟨config, hconfig, command, hcommand, state, hstate, availability, havailability,
    firstConfig, hfirstConfig, firstCommand, hfirstCommand, firstState, hfirstState, lastConfig,
    hlastConfig, lastCommand, hlastCommand, lastState, hlastState, rfl⟩ := h
  exact ⟨rfl, .cons hconfig <| .cons hcommand <| .cons hstate <| .cons havailability <|
    .cons hfirstCommand <| .cons hfirstState <| .cons hlastCommand <| .cons hlastState <|
    .cons hfirstConfig <| .cons hlastConfig .nil⟩

theorem haTopics_eq {discoveryPrefix id : CString} {ha : Ha}
    (h : haTopics discoveryPrefix id = some ha) :
    ha.topics = topicTexts discoveryPrefix id ∧
      ∀ topic ∈ ha.topics, 0 < topic.length ∧ topic.length ≤ HA_TOPIC_MAX_LENGTH := by
  obtain ⟨-, hwhole⟩ := haTopics_whole h
  simp only [whole_eq_some_iff, List.forall₂_and_left, List.forall₂_eq_eq_eq] at hwhole
  obtain ⟨hfits, heq⟩ := hwhole
  rw [heq] at hfits
  exact ⟨heq.symm, fun topic hmem => ⟨(hfits topic hmem).1, Nat.le_of_lt_succ (hfits topic hmem).2⟩⟩

section distinct

variable (discoveryPrefix id : CString)

theorem lightTopic_injective {a b : CString}
    (h : lightTopic discoveryPrefix id a = lightTopic discoveryPrefix id b) : a = b :=
  cstring_append_left h

theorem rangeTopic_injective {a b : CString}
    (h : rangeTopic discoveryPrefix id a = rangeTopic discoveryPrefix id b) : a = b :=
  cstring_append_left (cstring_append_right h)

theorem lightTopic_ne_rangeTopic (a b : CString) :
    lightTopic discoveryPrefix id a ≠ rangeTopic discoveryPrefix id b := by
  intro h
  have hbytes := congrArg (fun topic : CString => topic.bytes.drop discoveryPrefix.bytes.length) h
  simp only [lightTopic, rangeTopic, cstring_append_bytes, List.append_assoc, List.drop_left] at hbytes
  have hletter := congrArg (fun bytes : Bytes => bytes[1]?) hbytes
  exact absurd (Option.some.inj hletter) (by decide)

theorem topics_nodup (lights ranges : List CString) (hlights : lights.Nodup)
    (hranges : ranges.Nodup) :
    (lights.map (lightTopic discoveryPrefix id) ++
      ranges.map (rangeTopic discoveryPrefix id)).Nodup := by
  rw [List.nodup_append]
  refine ⟨hlights.map fun _ _ => lightTopic_injective discoveryPrefix id,
    hranges.map fun _ _ => rangeTopic_injective discoveryPrefix id, ?_⟩
  rintro topic hlight other hrange rfl
  obtain ⟨a, -, rfl⟩ := List.mem_map.mp hlight
  obtain ⟨b, -, hsame⟩ := List.mem_map.mp hrange
  exact lightTopic_ne_rangeTopic discoveryPrefix id a b hsame.symm

end distinct

theorem haTopics_nodup {discoveryPrefix id : CString} {ha : Ha}
    (h : haTopics discoveryPrefix id = some ha) : ha.topics.Nodup := by
  have hnodup := topics_nodup discoveryPrefix id
    [cstr "config", cstr "set", cstr "state", cstr "status", cstr "range/first/set",
      cstr "range/first/state", cstr "range/last/set", cstr "range/last/state"]
    [cstr "first", cstr "last"] (by decide) (by decide)
  rw [(haTopics_eq h).1]
  exact hnodup

theorem topic_ne {ha : Ha} (h : ha.topics.Nodup) {i j : ℕ} (hij : i ≠ j) {a b : CString}
    (ha' : ha.topics[i]? = some a) (hb : ha.topics[j]? = some b) : a ≠ b := by
  rintro rfl
  have hlength : i < ha.topics.length := (List.getElem?_eq_some_iff.mp ha').1
  exact hij ((List.getElem?_inj hlength h).mp (ha'.trans hb.symm))

/-- What `ha_init` leaves: nothing, or ten different topics. -/
theorem haInit_topics (deviceId discoveryPrefix : Option CString) :
    (haInit deviceId discoveryPrefix haCleared).2 = haCleared ∨
      (haInit deviceId discoveryPrefix haCleared).2.topics.Nodup := by
  unfold haInit
  split
  · exact .inl rfl
  split
  · exact .inl rfl
  split
  · exact .inl rfl
  dsimp only
  split
  · exact .inl rfl
  · rename_i hsome
    exact .inr (haTopics_nodup hsome)

end Pico
