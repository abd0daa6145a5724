import PicoFramework.Proofs.HaState
import PicoFramework.Spec.HomeLed

/-! The discovery documents as trees. -/

namespace Pico

open Lib.Json JsonTree

/-- `write_device`. -/
def deviceMember (ha : Ha) : CString × JsonTree :=
  (cstr "device", .object
    [(cstr "identifiers", .array [.string ha.deviceId]),
      (cstr "name", .string (cstr "Pico LED controller")),
      (cstr "manufacturer", .string (cstr "pico-framework")),
      (cstr "model", .string (cstr "home_led"))])

def discoveryMembers (ha : Ha) : List (CString × JsonTree) :=
  [(cstr "name", .string (cstr "LED strip")),
    (cstr "unique_id", .string ((ha.deviceId ++ cstr "_light").cut (HA_DEVICE_ID_MAX_LENGTH + 8))),
    (cstr "schema", .string (cstr "json")),
    (cstr "command_topic", .string ha.topicCommand),
    (cstr "state_topic", .string ha.topicState),
    (cstr "availability_topic", .string ha.topicAvailability),
    (cstr "payload_available", .string HA_AVAILABLE),
    (cstr "payload_not_available", .string HA_UNAVAILABLE),
    (cstr "brightness", .bool true),
    (cstr "supported_color_modes", .array [.string (cstr "rgb"), .string (cstr "color_temp")]),
    (cstr "min_mireds", .int (Int32.ofNat LIGHT_MIREDS_MIN.toNat)),
    (cstr "max_mireds", .int (Int32.ofNat LIGHT_MIREDS_MAX.toNat)),
    (cstr "effect", .bool true),
    (cstr "effect_list", .array
      [.string (cstr "Solid"), .string (cstr "Rainbow"), .string (cstr "Twinkle"),
        .string (cstr "Wipe"), .string (cstr "Breathing")]),
    (cstr "qos", .int 1),
    deviceMember ha]

def rangeDiscoveryMembers (ha : Ha) (first : Bool) (ledCount : UInt16) :
    List (CString × JsonTree) :=
  [(cstr "name", .string (if first then cstr "Range start" else cstr "Range end")),
    (cstr "unique_id", .string
      ((ha.deviceId ++ cstr "_range_" ++ if first then cstr "first" else cstr "last").cut
        (HA_DEVICE_ID_MAX_LENGTH + 20))),
    (cstr "command_topic", .string
      (if first then ha.topicRangeFirstCommand else ha.topicRangeLastCommand)),
    (cstr "state_topic", .string
      (if first then ha.topicRangeFirstState else ha.topicRangeLastState)),
    (cstr "availability_topic", .string ha.topicAvailability),
    (cstr "payload_available", .string HA_AVAILABLE),
    (cstr "payload_not_available", .string HA_UNAVAILABLE),
    (cstr "min", .int 1),
    (cstr "max", .int (Int32.ofNat ledCount.toNat)),
    (cstr "step", .int 1),
    (cstr "mode", .string (cstr "slider")),
    (cstr "qos", .int 1),
    deviceMember ha]

section documents

variable {ha : Ha}

theorem effectNames_written (writer : JsonWriter) :
    (List.range LIGHT_EFFECT_COUNT).foldl
        (fun writer i => jsonWriterString writer none (lightEffectName (UInt32.ofNat i))) writer =
      emitElements [.string (cstr "Solid"), .string (cstr "Rainbow"), .string (cstr "Twinkle"),
        .string (cstr "Wipe"), .string (cstr "Breathing")] writer := by
  have hrange : List.range LIGHT_EFFECT_COUNT = [0, 1, 2, 3, 4] := rfl
  have hsolid : lightEffectName (UInt32.ofNat 0) = some (cstr "Solid") := rfl
  have hrainbow : lightEffectName (UInt32.ofNat 1) = some (cstr "Rainbow") := rfl
  have htwinkle : lightEffectName (UInt32.ofNat 2) = some (cstr "Twinkle") := rfl
  have hwipe : lightEffectName (UInt32.ofNat 3) = some (cstr "Wipe") := rfl
  have hbreathing : lightEffectName (UInt32.ofNat 4) = some (cstr "Breathing") := rfl
  simp only [hrange, List.foldl_cons, List.foldl_nil, hsolid, hrainbow, htwinkle, hwipe, hbreathing,
    emitElements, emit]

theorem haBuildDiscovery_eq (hid : ha.deviceId.length ≠ 0) {size : ℕ} (hsize : size ≠ 0) :
    haBuildDiscovery ha size =
      finished ((JsonTree.object (discoveryMembers ha)).emit none (jsonWriterInit (some size))) := by
  unfold haBuildDiscovery
  rw [if_neg (not_or.mpr ⟨hsize, hid⟩)]
  simp only [effectNames_written]
  rfl

theorem haBuildRangeDiscovery_eq (hid : ha.deviceId.length ≠ 0) {ledCount : UInt16}
    (hcount : ledCount ≠ 0) (endpoint : HaRangeEndpoint) {size : ℕ} (hsize : size ≠ 0) :
    haBuildRangeDiscovery ha endpoint ledCount size =
      finished ((JsonTree.object
        (rangeDiscoveryMembers ha (endpoint = .first) ledCount)).emit none
          (jsonWriterInit (some size))) := by
  unfold haBuildRangeDiscovery
  rw [if_neg (not_or.mpr ⟨hsize, not_or.mpr ⟨hcount, hid⟩⟩)]
  cases endpoint <;> rfl

/-- The document of an entity as a tree. -/
def discoveryTree (ha : Ha) (ledCount : UInt16) : DiscoveryEntity → List (CString × JsonTree)
  | .light => discoveryMembers ha
  | .rangeFirst => rangeDiscoveryMembers ha true ledCount
  | .rangeLast => rangeDiscoveryMembers ha false ledCount

theorem discoveryTree_depth (ledCount : UInt16) (entity : DiscoveryEntity) :
    (JsonTree.object (discoveryTree ha ledCount entity)).depth ≤ JSON_MAX_DEPTH := by
  cases entity <;>
    simp [discoveryTree, discoveryMembers, rangeDiscoveryMembers, deviceMember, depth, membersDepth,
      elementsDepth, JSON_MAX_DEPTH]

theorem discoveryDocument_text (hid : ha.deviceId.length ≠ 0) {ledCount : UInt16}
    (hcount : ledCount ≠ 0) {entity : DiscoveryEntity}
    (hfits : (JsonTree.object (discoveryTree ha ledCount entity)).text.length <
      HA_DISCOVERY_BUFFER_SIZE) :
    discoveryDocument ha ledCount entity =
      some (JsonTree.object (discoveryTree ha ledCount entity)).text := by
  have hsize : HA_DISCOVERY_BUFFER_SIZE ≠ 0 := by decide
  have hfinished := finished_emit (discoveryTree_depth ledCount entity) hfits
  cases entity with
  | light => exact (haBuildDiscovery_eq hid hsize).trans hfinished
  | rangeFirst => exact (haBuildRangeDiscovery_eq hid hcount .first hsize).trans hfinished
  | rangeLast => exact (haBuildRangeDiscovery_eq hid hcount .last hsize).trans hfinished

end documents

end Pico
