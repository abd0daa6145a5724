import PicoFramework.Proofs.HaDiscovery
import PicoFramework.Proofs.HaTopics
import PicoFramework.Proofs.JsonWriter
import PicoFramework.Spec.MqttPolicy

/-! What can be announced of an identity that `ha_init` has accepted: its topics are distinct, the
broker takes them unless there is a wildcard in them, and its documents fit unless too much of them
is escaped. -/

namespace Pico

open Lib.Json JsonTree

/-- Every message of the announcement can be published. -/
structure Announceable (ha : Ha) : Prop where
  distinct : ha.topics.Nodup
  topics : ∀ topic ∈ ha.topics, mqttCheckPublishTopic (some topic) = .ok
  light : (haBuildDiscovery ha HA_DISCOVERY_BUFFER_SIZE).isSome
  ranges : ∀ (endpoint : HaRangeEndpoint) (ledCount : UInt16), ledCount ≠ 0 →
    (haBuildRangeDiscovery ha endpoint ledCount HA_DISCOVERY_BUFFER_SIZE).isSome

section accepted

/-- The prefix that `ha_init` uses. -/
def usedPrefix (discoveryPrefix : Option CString) : CString :=
  match discoveryPrefix with
  | none => DEFAULT_DISCOVERY_PREFIX
  | some given => if given.length = 0 then DEFAULT_DISCOVERY_PREFIX else given

/-- An id of the right length, with the ten topics of it. -/
structure Identity (used : CString) (ha : Ha) : Prop where
  id_pos : 0 < ha.deviceId.length
  id_le : ha.deviceId.length ≤ HA_DEVICE_ID_MAX_LENGTH
  topics : haTopics used ha.deviceId = some ha

theorem identity_of_haInit {deviceId discoveryPrefix : Option CString} {old ha : Ha}
    (h : haInit deviceId discoveryPrefix old = (true, ha)) :
    deviceId = some ha.deviceId ∧ Identity (usedPrefix discoveryPrefix) ha := by
  unfold haInit at h
  split at h
  · cases h
  rename_i id
  split_ifs at h with hempty hlong
  · cases h
  · cases h
  · dsimp only at h
    split at h
    · cases h
    · rename_i hsome
      obtain ⟨-, rfl⟩ := Prod.mk.inj h
      obtain ⟨rfl, -⟩ := haTopics_whole hsome
      exact ⟨rfl, Nat.pos_of_ne_zero hempty, not_lt.mp hlong, hsome⟩

end accepted

section wildcards

def CString.hasWildcard (s : CString) : Bool := s.bytes.any fun c => c = 0x2B || c = 0x23

@[simp] theorem hasWildcard_append (a b : CString) :
    (a ++ b).hasWildcard = (a.hasWildcard || b.hasWildcard) := List.any_append

theorem mqttCheckPublishTopic_ok_iff {topic : CString} (hpos : 0 < topic.length)
    (hle : topic.length ≤ MQTT_TOPIC_MAX_LENGTH) :
    mqttCheckPublishTopic (some topic) = .ok ↔ topic.hasWildcard = false := by
  unfold mqttCheckPublishTopic
  dsimp only
  rw [if_neg hpos.ne', if_neg (not_lt.mpr hle)]
  change (if topic.hasWildcard = true then _ else _) = _ ↔ _
  cases topic.hasWildcard <;> simp

theorem topicTexts_hasWildcard {used id text : CString} (h : text ∈ topicTexts used id) :
    text.hasWildcard = (used.hasWildcard || id.hasWildcard) := by
  have hslash : (cstr "/").hasWildcard = false := by decide
  have hlight : (cstr "light").hasWildcard = false := by decide
  have hnumber : (cstr "/number/").hasWildcard = false := by decide
  have hrange : (cstr "_range_").hasWildcard = false := by decide
  have hconfig : (cstr "/config").hasWildcard = false := by decide
  have hlights : ∀ suffix : CString, suffix.hasWildcard = false →
      (lightTopic used id suffix).hasWildcard = (used.hasWildcard || id.hasWildcard) := by
    intro suffix hsuffix
    simp [lightTopic, hslash, hlight, hsuffix]
  have hranges : ∀ endpoint : CString, endpoint.hasWildcard = false →
      (rangeTopic used id endpoint).hasWildcard = (used.hasWildcard || id.hasWildcard) := by
    intro endpoint hendpoint
    simp [rangeTopic, hnumber, hrange, hconfig, hendpoint]
  simp only [topicTexts, List.mem_cons, List.not_mem_nil, or_false] at h
  rcases h with rfl | rfl | rfl | rfl | rfl | rfl | rfl | rfl | rfl | rfl
  all_goals first
    | exact hlights _ (by decide)
    | exact hranges _ (by decide)

theorem Identity.topics_ok_iff {used : CString} {ha : Ha} (h : Identity used ha) :
    (∀ topic ∈ ha.topics, mqttCheckPublishTopic (some topic) = .ok) ↔
      used.hasWildcard = false ∧ ha.deviceId.hasWildcard = false := by
  obtain ⟨heq, hfits⟩ := haTopics_eq h.topics
  have hmax : HA_TOPIC_MAX_LENGTH ≤ MQTT_TOPIC_MAX_LENGTH := by decide
  have hone : ∀ topic ∈ ha.topics, mqttCheckPublishTopic (some topic) = .ok ↔
      used.hasWildcard = false ∧ ha.deviceId.hasWildcard = false := by
    intro topic hmem
    obtain ⟨hpos, hle⟩ := hfits topic hmem
    rw [mqttCheckPublishTopic_ok_iff hpos (hle.trans hmax),
      topicTexts_hasWildcard (heq ▸ hmem), Bool.or_eq_false_iff]
  constructor
  · intro hok
    have hmem : ha.topicConfig ∈ ha.topics := List.mem_cons_self
    exact (hone _ hmem).mp (hok _ hmem)
  · exact fun hnone topic hmem => (hone topic hmem).mpr hnone

end wildcards

section documents

/-- How much of a document a text takes. -/
def escapedLength (s : CString) : ℕ := (s.bytes.flatMap escapeText).length

theorem escapedLength_append (a b : CString) :
    escapedLength (a ++ b) = escapedLength a + escapedLength b := by
  rw [escapedLength, cstring_append_bytes, List.flatMap_append, List.length_append]
  rfl

theorem quoted_length (s : CString) : (quoted s).length = escapedLength s + 2 := by
  rw [quoted, List.length_cons, List.length_append, List.length_singleton]
  rfl

theorem escapedLength_of_plain {s : CString} (h : ∀ c ∈ s.bytes, escapeText c = [c]) :
    escapedLength s = s.length := by
  have hself : s.bytes.flatMap escapeText = s.bytes := by
    rw [List.flatMap_congr h, List.flatMap_singleton']
  rw [escapedLength, hself]
  rfl

theorem finished_emit_eq {members : List (CString × JsonTree)}
    (hdepth : (JsonTree.object members).depth ≤ JSON_MAX_DEPTH) (size : ℕ) :
    finished ((JsonTree.object members).emit none (jsonWriterInit (some size))) =
      if (JsonTree.object members).text.length < size then some (JsonTree.object members).text
      else none := by
  split_ifs with hsize
  · exact finished_emit hdepth hsize
  · obtain ⟨-, htext⟩ := jsonWriterFinish_emit hdepth (Nat.lt_succ_self _)
    have hover := emit_overflowed (JsonTree.object members) none htext (not_lt.mp hsize)
    rw [finished, jsonWriterFinish, hover]
    rfl

theorem deviceMember_length (ha : Ha) :
    (deviceMember ha).2.text.length = 98 + (quoted ha.deviceId).length := by
  have hids : (JsonTree.array [.string ha.deviceId]).text.length =
      (quoted ha.deviceId).length + 2 := by
    simp [text, Bracket.text, elementItems, joined, Item.text]
  rw [deviceMember, object_length]
  change 1 + (13 + (_ + 2) + (6 + (21 + 2) + (14 + (16 + 2) + (7 + (10 + 2) + 0)))) = _
  rw [hids]
  omega

theorem lightDocument_length (ha : Ha) :
    (JsonTree.object (discoveryMembers ha)).text.length = 456 +
      ((quoted ((ha.deviceId ++ cstr "_light").cut (HA_DEVICE_ID_MAX_LENGTH + 8))).length +
        (quoted ha.topicCommand).length + (quoted ha.topicState).length +
        (quoted ha.topicAvailability).length + (quoted ha.deviceId).length) := by
  rw [discoveryMembers, object_length]
  change 1 + (6 + (11 + 2) + (11 + (_ + 2) + (8 + (6 + 2) + (15 + (_ + 2) + (13 + (_ + 2) +
    (20 + (_ + 2) + (19 + (8 + 2) + (23 + (9 + 2) + (12 + (4 + 2) + (23 + (20 + 2) +
    (12 + (3 + 2) + (12 + (3 + 2) + (8 + (4 + 2) + (13 + (48 + 2) + (5 + (1 + 2) +
    (8 + (_ + 2) + 0)))))))))))))))) = _
  rw [deviceMember_length]
  simp only [text]
  omega

theorem rangeDocument_length (ha : Ha) (first : Bool) (ledCount : UInt16) :
    (JsonTree.object (rangeDiscoveryMembers ha first ledCount)).text.length = 295 +
      ((quoted (if first then cstr "Range start" else cstr "Range end")).length +
        (quoted ((ha.deviceId ++ cstr "_range_" ++ if first then cstr "first" else cstr "last").cut
          (HA_DEVICE_ID_MAX_LENGTH + 20))).length +
        (quoted (if first then ha.topicRangeFirstCommand else ha.topicRangeLastCommand)).length +
        (quoted (if first then ha.topicRangeFirstState else ha.topicRangeLastState)).length +
        (quoted ha.topicAvailability).length + (intText (Int32.ofNat ledCount.toNat)).length +
        (quoted ha.deviceId).length) := by
  rw [rangeDiscoveryMembers, object_length]
  change 1 + (6 + (_ + 2) + (11 + (_ + 2) + (15 + (_ + 2) + (13 + (_ + 2) + (20 + (_ + 2) +
    (19 + (8 + 2) + (23 + (9 + 2) + (5 + (1 + 2) + (5 + (_ + 2) + (6 + (1 + 2) +
    (6 + (8 + 2) + (5 + (1 + 2) + (8 + (_ + 2) + 0))))))))))))) = _
  rw [deviceMember_length]
  simp only [text]
  omega

end documents

section identity

variable {used : CString} {ha : Ha}

theorem lightTopic_escaped (used id suffix : CString) :
    escapedLength (lightTopic used id suffix) =
      escapedLength used + escapedLength id + escapedLength suffix + 8 := by
  have hslash : escapedLength (cstr "/") = 1 := by decide
  have hlight : escapedLength (cstr "light") = 5 := by decide
  simp only [lightTopic, escapedLength_append, hslash, hlight]
  omega

theorem quoted_lightTopic_le (used id : CString) {suffix : CString} {n : ℕ}
    (hsuffix : escapedLength suffix ≤ n) :
    (quoted (lightTopic used id suffix)).length ≤ escapedLength used + escapedLength id + (n + 10) := by
  rw [quoted_length, lightTopic_escaped]
  omega

theorem cut_of_length_lt {s : CString} {size : ℕ} (h : s.length < size) : s.cut size = s := by
  apply cstring_eq.mpr
  exact List.take_of_length_le (Nat.le_sub_one_of_lt h)

theorem Identity.unique_id (h : Identity used ha) (suffix : CString) (size : ℕ)
    (hsize : HA_DEVICE_ID_MAX_LENGTH + suffix.length < size) :
    (quoted ((ha.deviceId ++ suffix).cut size)).length =
      escapedLength ha.deviceId + escapedLength suffix + 2 := by
  have hle := h.id_le
  rw [cut_of_length_lt, quoted_length, escapedLength_append]
  change (ha.deviceId.bytes ++ suffix.bytes).length < size
  rw [List.length_append]
  exact (Nat.add_le_add_right hle _).trans_lt hsize

theorem Identity.light_length (h : Identity used ha) :
    (JsonTree.object (discoveryMembers ha)).text.length =
      510 + (5 * escapedLength ha.deviceId + 3 * escapedLength used) := by
  have hlight : escapedLength (cstr "_light") = 6 := by decide
  have hset : escapedLength (cstr "set") = 3 := by decide
  have hstate : escapedLength (cstr "state") = 5 := by decide
  have hstatus : escapedLength (cstr "status") = 6 := by decide
  have hid := h.unique_id (cstr "_light") (HA_DEVICE_ID_MAX_LENGTH + 8) (by decide)
  have htopics := (haTopics_eq h.topics).1
  simp only [Ha.topics, topicTexts, List.cons.injEq, and_true] at htopics
  obtain ⟨-, hcommand, hreport, havailability, -⟩ := htopics
  rw [lightDocument_length, hid, hcommand, hreport, havailability]
  simp only [quoted_length, lightTopic_escaped, hlight, hset, hstate, hstatus]
  omega

theorem Identity.range_length_le (h : Identity used ha) (first : Bool) (ledCount : UInt16) :
    (JsonTree.object (rangeDiscoveryMembers ha first ledCount)).text.length ≤
      510 + (5 * escapedLength ha.deviceId + 3 * escapedLength used) := by
  have hcount := intText_length (Int32.ofNat ledCount.toNat)
  have hname : (quoted (if first then cstr "Range start" else cstr "Range end")).length ≤ 13 := by
    cases first <;> decide
  have hid : (quoted ((ha.deviceId ++ cstr "_range_" ++
      if first then cstr "first" else cstr "last").cut (HA_DEVICE_ID_MAX_LENGTH + 20))).length ≤
        escapedLength ha.deviceId + 14 := by
    have hassoc : ha.deviceId ++ cstr "_range_" ++ (if first then cstr "first" else cstr "last") =
        ha.deviceId ++ (cstr "_range_" ++ if first then cstr "first" else cstr "last") :=
      cstring_eq.mpr (List.append_assoc _ _ _)
    have hfits : HA_DEVICE_ID_MAX_LENGTH +
        (cstr "_range_" ++ if first then cstr "first" else cstr "last").length <
          HA_DEVICE_ID_MAX_LENGTH + 20 := by
      cases first <;> decide
    have hsuffix : escapedLength
        (cstr "_range_" ++ if first then cstr "first" else cstr "last") ≤ 12 := by
      cases first <;> decide
    rw [hassoc, h.unique_id _ _ hfits]
    omega
  have htopics := (haTopics_eq h.topics).1
  simp only [Ha.topics, topicTexts, List.cons.injEq, and_true] at htopics
  obtain ⟨-, -, -, havailability, hfirstCommand, hfirstState, hlastCommand, hlastState, -⟩ := htopics
  have hcommand : (quoted (if first then ha.topicRangeFirstCommand
      else ha.topicRangeLastCommand)).length ≤
        escapedLength used + escapedLength ha.deviceId + (15 + 10) := by
    rw [hfirstCommand, hlastCommand]
    split
    · exact quoted_lightTopic_le _ _ (by decide)
    · exact quoted_lightTopic_le _ _ (by decide)
  have hstate : (quoted (if first then ha.topicRangeFirstState
      else ha.topicRangeLastState)).length ≤
        escapedLength used + escapedLength ha.deviceId + (17 + 10) := by
    rw [hfirstState, hlastState]
    split
    · exact quoted_lightTopic_le _ _ (by decide)
    · exact quoted_lightTopic_le _ _ (by decide)
  have hstatus : (quoted ha.topicAvailability).length ≤
      escapedLength used + escapedLength ha.deviceId + (6 + 10) := by
    rw [havailability]
    exact quoted_lightTopic_le _ _ (by decide)
  rw [rangeDocument_length, quoted_length ha.deviceId]
  omega

theorem Identity.light_isSome_iff (h : Identity used ha) :
    (haBuildDiscovery ha HA_DISCOVERY_BUFFER_SIZE).isSome ↔
      5 * escapedLength ha.deviceId + 3 * escapedLength used ≤ 513 := by
  have hlength := h.light_length
  have hsize : HA_DISCOVERY_BUFFER_SIZE = 1024 := rfl
  have hdepth : (JsonTree.object (discoveryMembers ha)).depth ≤ JSON_MAX_DEPTH :=
    discoveryTree_depth 0 .light
  rw [haBuildDiscovery_eq h.id_pos.ne' (by decide), finished_emit_eq hdepth]
  split_ifs with hfits
  · exact iff_of_true rfl (by omega)
  · exact iff_of_false Bool.false_ne_true (by omega)

theorem Identity.range_isSome (h : Identity used ha)
    (hfits : 5 * escapedLength ha.deviceId + 3 * escapedLength used ≤ 513)
    (endpoint : HaRangeEndpoint) {ledCount : UInt16} (hcount : ledCount ≠ 0) :
    (haBuildRangeDiscovery ha endpoint ledCount HA_DISCOVERY_BUFFER_SIZE).isSome := by
  have hlength := h.range_length_le (endpoint = .first) ledCount
  have hsize : HA_DISCOVERY_BUFFER_SIZE = 1024 := rfl
  have hdepth : (JsonTree.object
      (rangeDiscoveryMembers ha (endpoint = .first) ledCount)).depth ≤ JSON_MAX_DEPTH := by
    cases endpoint with
    | first => exact discoveryTree_depth ledCount .rangeFirst
    | last => exact discoveryTree_depth ledCount .rangeLast
  rw [haBuildRangeDiscovery_eq h.id_pos.ne' hcount endpoint (by decide), finished_emit_eq hdepth,
    if_pos (by omega)]
  rfl

theorem Identity.plain_fits (h : Identity used ha)
    (hplain : ∀ c ∈ ha.deviceId.bytes ++ used.bytes, escapeText c = [c]) :
    5 * escapedLength ha.deviceId + 3 * escapedLength used ≤ 513 := by
  obtain ⟨htopics, hfits⟩ := haTopics_eq h.topics
  have hid : escapedLength ha.deviceId = ha.deviceId.length :=
    escapedLength_of_plain fun c hc => hplain c (List.mem_append_left _ hc)
  have hused : escapedLength used = used.length :=
    escapedLength_of_plain fun c hc => hplain c (List.mem_append_right _ hc)
  have htopic : used.length ≤ HA_TOPIC_MAX_LENGTH := by
    have hmem : lightTopic used ha.deviceId (cstr "config") ∈ ha.topics :=
      htopics ▸ List.mem_cons_self
    refine le_trans ?_ (hfits _ hmem).2
    simp [lightTopic, cstring_append_bytes, CString.length]
  have hle : ha.deviceId.length ≤ 32 := h.id_le
  rw [HA_TOPIC_MAX_LENGTH] at htopic
  omega

end identity

/-- Ten different topics, whatever the identity; the rest of the announcement goes out exactly where
no wildcard is in it and not too much of it is escaped, and where nothing is, that is not too much. -/
theorem announceable_iff {deviceId discoveryPrefix : Option CString} {old ha : Ha}
    (h : haInit deviceId discoveryPrefix old = (true, ha)) :
    let used := usedPrefix discoveryPrefix
    deviceId = some ha.deviceId ∧ ha.topics.Nodup ∧
      (Announceable ha ↔ (used.hasWildcard = false ∧ ha.deviceId.hasWildcard = false) ∧
        5 * escapedLength ha.deviceId + 3 * escapedLength used ≤ 513) ∧
      ((∀ c ∈ ha.deviceId.bytes ++ used.bytes, escapeText c = [c]) →
        5 * escapedLength ha.deviceId + 3 * escapedLength used ≤ 513) := by
  intro used
  obtain ⟨hgiven, hidentity⟩ := identity_of_haInit h
  have hnodup := haTopics_nodup hidentity.topics
  refine ⟨hgiven, hnodup, ?_, hidentity.plain_fits⟩
  constructor
  · intro hannounceable
    exact ⟨hidentity.topics_ok_iff.mp hannounceable.topics,
      hidentity.light_isSome_iff.mp hannounceable.light⟩
  · rintro ⟨hwildcards, hfits⟩
    exact ⟨hnodup, hidentity.topics_ok_iff.mpr hwildcards, hidentity.light_isSome_iff.mpr hfits,
      fun endpoint _ hcount => hidentity.range_isSome hfits endpoint hcount⟩

/-- A strip under the usual prefix. -/
theorem announceable_iff_usual :
    ∃ ha, haInit (some (cstr "pico1")) none haCleared = (true, ha) ∧
      (Announceable ha ↔
        (DEFAULT_DISCOVERY_PREFIX.hasWildcard = false ∧ ha.deviceId.hasWildcard = false) ∧
          5 * escapedLength ha.deviceId + 3 * escapedLength DEFAULT_DISCOVERY_PREFIX ≤ 513) := by
  have h : haInit (some (cstr "pico1")) none haCleared =
      (true, (haInit (some (cstr "pico1")) none haCleared).2) := by decide
  exact ⟨_, h, (announceable_iff h).2.2.1⟩

/-- An id with a wildcard is accepted, and an id of 32 control characters; the topics of the one are
refused, and the document of the other does not fit. -/
theorem announceable_not_always :
    (∃ ha, haInit (some (cstr "pico#1")) none haCleared = (true, ha) ∧
      mqttCheckPublishTopic (some ha.topicConfig) = .wildcardNotAllowed ∧ ¬ Announceable ha) ∧
    ∃ ha, haInit (some ⟨List.replicate 32 0x01, by decide⟩) none haCleared = (true, ha) ∧
      haBuildDiscovery ha HA_DISCOVERY_BUFFER_SIZE = none ∧ ¬ Announceable ha := by
  refine ⟨⟨_, show haInit (some (cstr "pico#1")) none haCleared =
      (true, (haInit (some (cstr "pico#1")) none haCleared).2) by decide, by decide, ?_⟩, ?_⟩
  · intro hannounceable
    have hmem := hannounceable.topics
      (haInit (some (cstr "pico#1")) none haCleared).2.topicConfig List.mem_cons_self
    exact absurd hmem (by decide)
  · have h : haInit (some ⟨List.replicate 32 0x01, by decide⟩) none haCleared =
        (true, (haInit (some ⟨List.replicate 32 0x01, by decide⟩) none haCleared).2) := by decide
    have hidentity := (identity_of_haInit h).2
    have hlarge : ¬ 5 * escapedLength
        (haInit (some ⟨List.replicate 32 0x01, by decide⟩) none haCleared).2.deviceId +
          3 * escapedLength (usedPrefix none) ≤ 513 := by decide +kernel
    have hlight := mt hidentity.light_isSome_iff.mp hlarge
    exact ⟨_, h, Option.not_isSome_iff_eq_none.mp hlight,
      fun hannounceable => hlight hannounceable.light⟩

end Pico
