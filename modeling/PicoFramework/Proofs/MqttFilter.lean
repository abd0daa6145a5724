import PicoFramework.Lib.Fields
import PicoFramework.Spec.MqttPolicy

/-! Which subscription filters are accepted. The walk keeps the level that it is in; the rule of
MQTT speaks of all levels at once. -/

namespace Pico

open Lib.Fields

/-- `+` stands alone in its level, `#` alone in the last one. -/
def LevelRule (level : Bytes) (last : Prop) : Prop :=
  (0x2B ∈ level → level = [0x2B]) ∧ (0x23 ∈ level → level = [0x23] ∧ last)

theorem checkLevel_eq_ok_iff (level : Bytes) (atEnd : Bool) :
    checkLevel level atEnd = .ok ↔ LevelRule level (atEnd = true) := by
  have hany : ∀ c : UInt8, level.any (· = c) = true ↔ c ∈ level := by simp
  unfold checkLevel LevelRule
  rw [Bool.eq_iff_iff.mpr ((hany 0x2B).trans decide_eq_true_iff.symm),
    Bool.eq_iff_iff.mpr ((hany 0x23).trans decide_eq_true_iff.symm)]
  by_cases hlength : level.length = 1
  · obtain ⟨c, rfl⟩ := List.length_eq_one_iff.mp hlength
    cases atEnd <;> by_cases hhash : 0x23 = c <;> simp [hhash, eq_comm]
  · have hne : ∀ c : UInt8, level ≠ [c] := fun c hlevel => hlength (by rw [hlevel]; rfl)
    by_cases hplus : 0x2B ∈ level <;> by_cases hhash : 0x23 ∈ level <;>
      simp [hplus, hhash, hlength, hne]

theorem checkLevels_eq_ok_iff (level rest : Bytes) (hlevel : 0x2F ∉ level) :
    checkLevels level rest = .ok ↔ Meet LevelRule ((level ++ rest).splitOn 0x2F) := by
  induction rest generalizing level with
  | nil => rw [checkLevels, checkLevel_eq_ok_iff, List.append_nil, meet_splitOn _ hlevel, eq_self]
  | cons c rest ih =>
    rw [checkLevels]
    by_cases hslash : c = 0x2F
    · subst hslash
      have hrest := ih [] List.not_mem_nil
      rw [List.nil_append] at hrest
      rw [if_pos rfl, meet_splitOn_append _ hlevel, ← hrest]
      have hjudged := checkLevel_eq_ok_iff level false
      simp only [Bool.false_eq_true] at hjudged
      rw [← hjudged]
      cases checkLevel level false <;> simp
    · rw [if_neg hslash, ih (level ++ [c]) (by simp [hlevel, Ne.symm hslash]), List.append_assoc,
        List.singleton_append]

/-- Subscription filters are accepted exactly by the rule of MQTT. -/
theorem mqttCheckSubscribeFilter_eq_ok_iff (topic : CString) :
    mqttCheckSubscribeFilter (some topic) = .ok ↔
      (1 ≤ topic.length ∧ topic.length ≤ MQTT_TOPIC_MAX_LENGTH) ∧
        let levels := topic.bytes.splitOn 0x2F
        ∀ i (h : i < levels.length),
          (0x2B ∈ levels[i] → levels[i] = [0x2B]) ∧
            (0x23 ∈ levels[i] → levels[i] = [0x23] ∧ i + 1 = levels.length) := by
  have hwalk := checkLevels_eq_ok_iff [] topic.bytes List.not_mem_nil
  rw [List.nil_append] at hwalk
  unfold mqttCheckSubscribeFilter
  dsimp only
  by_cases hempty : topic.length = 0
  · simp [hempty]
  by_cases hlong : topic.length > MQTT_TOPIC_MAX_LENGTH
  · simp [hempty, hlong]
  rw [if_neg hempty, if_neg hlong, hwalk]
  exact (and_iff_right ⟨Nat.pos_of_ne_zero hempty, Nat.le_of_not_lt hlong⟩).symm

end Pico
