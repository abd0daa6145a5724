import PicoFramework.Lib.Wire
import PicoFramework.Proofs.ServoProtocol
import PicoFramework.Spec.ServoPacketBuffer

/-! A sync-write: what a receiver reads from it, and where its bytes go while it is built. -/

namespace Pico

open Lib.Splice Lib.Store

section values

variable (value : UInt32) {width : UInt8} (endianness : ServoEndianness)

theorem decodeValue_encodeValue (hwidth : servoProtocolWidthOk width = true) :
    servoProtocolDecodeValue (servoProtocolEncodeValue value width endianness) width endianness =
      UInt32.ofNat (value.toNat % 256 ^ width.toNat) := by
  have hbytes : ∀ i ∈ List.range width.toNat,
      (servoProtocolEncodeValue value width endianness).getD
        (if endianness = .little then i else width.toNat - 1 - i) 0 =
      UInt8.ofNat (value.toNat / 2 ^ (8 * i)) := by
    intro i hi
    rw [List.mem_range] at hi
    cases endianness with
    | little => simp [servoProtocolEncodeValue, hwidth, hi]
    | big =>
      have hlast : width.toNat - 1 - i < width.toNat := by omega
      have hback : width.toNat - 1 - (width.toNat - 1 - i) = i := by omega
      simp [servoProtocolEncodeValue, hwidth, hlast, hback]
  apply UInt32.toNat_inj.mp
  have hlt := Nat.mod_lt_of_lt (b := 256 ^ width.toNat) value.toNat_lt
  rw [UInt32.toNat_ofNat', Nat.mod_eq_of_lt hlt,
    ← Lib.Wire.join_bytes value.toNat (width_le_four hwidth), servoProtocolDecodeValue, if_pos hwidth]
  congr 1
  apply List.foldl_ext
  intro word i hi
  have hbyte := hbytes i hi
  cases endianness with
  | little =>
    rw [if_pos rfl] at hbyte
    rw [hbyte]
  | big =>
    rw [if_neg (by decide)] at hbyte
    rw [hbyte]

end values

section buffers

/-- The bytes of one target. -/
def syncGroup (width : UInt8) (endianness : ServoEndianness) (target : ServoSyncTarget) : Bytes :=
  target.id :: servoProtocolEncodeValue target.value width endianness

variable {out params : Bytes} {width : UInt8}

theorem length_syncGroups (hwidth : servoProtocolWidthOk width = true)
    (endianness : ServoEndianness) (targets : List ServoSyncTarget) :
    (targets.flatMap (syncGroup width endianness)).length = (width.toNat + 1) * targets.length := by
  induction targets with
  | nil => rfl
  | cons target targets ih =>
    rw [List.flatMap_cons, List.length_append, ih, syncGroup, List.length_cons,
      length_encodeValue _ _ hwidth, List.length_cons]
    ring

theorem encodeValueInto_eq (out : Bytes) (hwidth : servoProtocolWidthOk width = true) {pos : ℕ}
    (hroom : pos + width.toNat ≤ out.length) (value : UInt32) (endianness : ServoEndianness) :
    servoProtocolEncodeValueInto out pos value width endianness =
      some (overwrite out pos (servoProtocolEncodeValue value width endianness)) := by
  rw [servoProtocolEncodeValueInto, if_pos hwidth, servoProtocolEncodeValue, if_pos hwidth]
  cases endianness with
  | little => exact foldlM_up out pos width.toNat _ hroom
  | big => exact foldlM_down out pos width.toNat _ hroom

theorem syncWriteParamsInto_eq (hwidth : servoProtocolWidthOk width = true)
    (endianness : ServoEndianness) (targets : List ServoSyncTarget) {pos : ℕ}
    (hroom : pos + (width.toNat + 1) * targets.length ≤ params.length) :
    syncWriteParamsInto width endianness targets params pos =
      some (overwrite params pos (targets.flatMap (syncGroup width endianness)),
        pos + (width.toNat + 1) * targets.length) := by
  induction targets generalizing params pos with
  | nil => simp [syncWriteParamsInto]
  | cons target targets ih =>
    have hscale : (width.toNat + 1) * (target :: targets).length =
        width.toNat + 1 + (width.toNat + 1) * targets.length := by
      rw [List.length_cons]
      ring
    rw [hscale] at hroom ⊢
    have hgroup : (syncGroup width endianness target).length = width.toNat + 1 := by
      rw [syncGroup, List.length_cons, length_encodeValue _ _ hwidth]
    have hfirst : (overwrite params pos [target.id]).length = params.length :=
      length_overwrite _ _ _ (by rw [List.length_singleton]; omega)
    have hafter : pos + 1 + width.toNat ≤ (overwrite params pos [target.id]).length := by omega
    have hvalue := encodeValueInto_eq _ hwidth hafter target.value endianness
    have hjoin : overwrite (overwrite params pos [target.id]) (pos + 1)
        (servoProtocolEncodeValue target.value width endianness) =
        overwrite params pos (syncGroup width endianness target) :=
      overwrite_overwrite params pos [target.id] _ (by omega)
    have hlength : (overwrite params pos (syncGroup width endianness target)).length =
        params.length := length_overwrite _ _ _ (by omega)
    have hroom' : pos + (width.toNat + 1) + (width.toNat + 1) * targets.length ≤
        (overwrite params pos (syncGroup width endianness target)).length := by omega
    have hrest := ih hroom'
    have hnext : pos + 1 + width.toNat = pos + (width.toNat + 1) := by omega
    have hend := overwrite_overwrite params pos (syncGroup width endianness target)
      (targets.flatMap (syncGroup width endianness)) (by omega)
    rw [hgroup] at hend
    simp only [syncWriteParamsInto, store_eq (show pos < params.length by omega), Option.bind_eq_bind,
      Option.bind_some, hvalue, hjoin, hnext, hrest, hend, Nat.add_assoc, List.flatMap_cons]

/-- What a packet that is built leaves in `out`, or a refusal. -/
def builtInto (out : Bytes) : Except ServoProtocolResult Bytes → ServoProtocolResult × ℕ × Bytes
  | .ok packet => (.ok, packet.length, overwrite out 0 packet)
  | .error result => (result, 0, out)

theorem servoProtocolBuildInto_eq (out : Bytes) (id instruction : UInt8) (params : Bytes)
    (paramCount : UInt8) (hcount : paramCount.toNat ≤ params.length) :
    servoProtocolBuildInto out id instruction params paramCount =
      some (builtInto out
        (servoProtocolBuild out.length id instruction (params.take paramCount.toNat))) := by
  have hlength : (params.take paramCount.toNat).length = paramCount.toNat := by
    rw [List.length_take, Nat.min_eq_left hcount]
  unfold servoProtocolBuildInto servoProtocolBuild servoProtocolPacketSize
  rw [hlength]
  by_cases hmany : paramCount.toNat > SERVO_PROTOCOL_MAX_PARAMS
  · rw [if_pos hmany, if_pos hmany]
    rfl
  by_cases hshort : out.length < paramCount.toNat + SERVO_PROTOCOL_OVERHEAD
  · rw [if_neg hmany, if_neg hmany, if_pos hshort, if_pos hshort]
    rfl
  rw [if_neg hmany, if_neg hmany, if_neg hshort, if_neg hshort]
  rw [SERVO_PROTOCOL_OVERHEAD] at hshort
  have hlengthByte : UInt8.ofNat (params.take paramCount.toNat).length = paramCount := by
    rw [hlength, UInt8.ofNat_toNat]
  generalize hps : params.take paramCount.toNat = ps at hlength hlengthByte ⊢
  -- all but the checksum, in the order of the writes
  have hheader : (ServoProtocol.HEADER_BYTE :: ServoProtocol.HEADER_BYTE ::
      servoProtocolBody id instruction ps).length = paramCount.toNat + 5 := by
    simp [servoProtocolBody, hlength]
  have hwrites := storeAll_eq out 0 (ServoProtocol.HEADER_BYTE ::
    ServoProtocol.HEADER_BYTE :: servoProtocolBody id instruction ps) (by omega)
  have hcovered : ((overwrite out 0 (ServoProtocol.HEADER_BYTE :: ServoProtocol.HEADER_BYTE ::
      servoProtocolBody id instruction ps)).drop 2).take (paramCount.toNat + 3) =
      servoProtocolBody id instruction ps := by
    refine List.take_left' ?_
    simp [servoProtocolBody, hlength]
  have hlast := store_next out (ServoProtocol.HEADER_BYTE ::
    ServoProtocol.HEADER_BYTE :: servoProtocolBody id instruction ps) (by omega)
    (servoProtocolChecksum (servoProtocolBody id instruction ps))
  rw [hheader] at hlast
  trans (storeAll out 0 (ServoProtocol.HEADER_BYTE :: ServoProtocol.HEADER_BYTE ::
    servoProtocolBody id instruction ps)).bind fun out =>
      (store out (paramCount.toNat + 5) (servoProtocolChecksum
        ((out.drop 2).take (paramCount.toNat + 3)))).bind fun out =>
          some (.ok, paramCount.toNat + 6, out)
  · simp only [servoProtocolBody, hlengthByte, storeAll, Option.bind_eq_bind, Option.bind_assoc]
    rfl
  · rw [hwrites, Option.bind_some, hcovered, hlast, Option.bind_some]
    simp [builtInto, servoProtocolBody, hlength]

/-- The parameters of a sync-write. -/
def syncParams (reg width : UInt8) (endianness : ServoEndianness) (targets : List ServoSyncTarget) :
    Bytes :=
  reg :: width :: targets.flatMap (syncGroup width endianness)

theorem length_syncParams (hwidth : servoProtocolWidthOk width = true) (reg : UInt8)
    (endianness : ServoEndianness) {targets : List ServoSyncTarget} {count : UInt8}
    (hcount : targets.length = count.toNat) :
    (syncParams reg width endianness targets).length = servoProtocolSyncWriteParams width count := by
  rw [syncParams, List.length_cons, List.length_cons, length_syncGroups hwidth, hcount,
    servoProtocolSyncWriteParams]
  omega

theorem buildSyncWriteInto_eq (out : Bytes) (hparams : params.length = SERVO_PROTOCOL_MAX_PARAMS)
    (reg width : UInt8) {targets : List ServoSyncTarget} {count : UInt8}
    (hcount : targets.length = count.toNat) (endianness : ServoEndianness) :
    servoProtocolBuildSyncWriteInto out params reg width targets count endianness =
      some (builtInto out
        (servoProtocolBuildSyncWrite out.length reg width (some targets) count endianness)) := by
  unfold servoProtocolBuildSyncWriteInto servoProtocolBuildSyncWrite
  dsimp only
  by_cases hnone : count = 0
  · rw [if_pos hnone, if_pos hnone]
    rfl
  by_cases hwidth : servoProtocolWidthOk width = true
  swap
  · rw [Bool.not_eq_true] at hwidth
    rw [if_neg hnone, if_neg hnone, if_pos (by rw [hwidth]; rfl), if_pos (by rw [hwidth]; rfl)]
    rfl
  by_cases hmany : servoProtocolSyncWriteParams width count > SERVO_PROTOCOL_MAX_PARAMS
  · simp only [if_neg hnone, hwidth, Bool.not_true, Bool.false_eq_true, if_false, if_pos hmany]
    rfl
  simp only [if_neg hnone, hwidth, Bool.not_true, Bool.false_eq_true, if_false, if_neg hmany]
  rw [← hcount, List.take_length]
  have hlength := length_syncParams hwidth reg endianness hcount
  have hroom : 2 + (width.toNat + 1) * targets.length = servoProtocolSyncWriteParams width count := by
    rw [hcount, servoProtocolSyncWriteParams]
  rw [← hroom] at hmany hlength
  rw [SERVO_PROTOCOL_MAX_PARAMS] at hmany hparams
  have hreg : store params 0 reg = some (overwrite params 0 [reg]) := store_eq (by omega) reg
  have hwidthByte := store_next params [reg] (by rw [List.length_singleton]; omega)
    width
  have hstart : (overwrite params 0 [reg, width]).length = params.length :=
    length_overwrite _ _ _ (by simp only [List.length_cons, List.length_nil]; omega)
  have hbehind : 2 + (width.toNat + 1) * targets.length ≤
      (overwrite params 0 [reg, width]).length := by omega
  have hgroups := syncWriteParamsInto_eq hwidth endianness targets hbehind
  have hjoin : overwrite (overwrite params 0 [reg, width]) 2
      (targets.flatMap (syncGroup width endianness)) =
      overwrite params 0 (syncParams reg width endianness targets) :=
    overwrite_overwrite params 0 [reg, width] _ (by omega)
  have hpos : (UInt8.ofNat (2 + (width.toNat + 1) * targets.length)).toNat =
      2 + (width.toNat + 1) * targets.length := by
    rw [UInt8.toNat_ofNat', Nat.mod_eq_of_lt (by omega)]
  have htaken : (overwrite params 0 (syncParams reg width endianness targets)).take
      (2 + (width.toNat + 1) * targets.length) = syncParams reg width endianness targets := by
    rw [← hlength]
    exact List.take_left' rfl
  have hfilled : (overwrite params 0 (syncParams reg width endianness targets)).length =
      params.length := length_overwrite _ _ _ (by omega)
  have hbuilt := servoProtocolBuildInto_eq out SERVO_PROTOCOL_BROADCAST_ID SERVO_INST_SYNC_WRITE
    (overwrite params 0 (syncParams reg width endianness targets))
    (UInt8.ofNat (2 + (width.toNat + 1) * targets.length)) (by omega)
  rw [hpos, htaken] at hbuilt
  rw [List.length_singleton] at hwidthByte
  simp only [hreg, hwidthByte, hgroups, hjoin, hbuilt, Option.bind_eq_bind, Option.bind_some,
    List.singleton_append]
  rfl

end buffers

section receiving

/-- The targets in the parameters behind register and width: groups of an id and a value. -/
def readTargets (width : UInt8) (endianness : ServoEndianness) :
    (fuel : ℕ) → Bytes → Option (List ServoSyncTarget)
  | _, [] => some []
  | 0, _ :: _ => none
  | fuel + 1, id :: rest =>
      if rest.length < width.toNat then none
      else do
        let value := servoProtocolDecodeValue (rest.take width.toNat) width endianness
        let targets ← readTargets width endianness fuel (rest.drop width.toNat)
        return ⟨id, value⟩ :: targets

/-- A receiver: it checks the packet, which has the instruction where a reply has the error byte. -/
def receiveSyncWrite (endianness : ServoEndianness) (packet : Bytes) :
    Option (UInt8 × UInt8 × List ServoSyncTarget) :=
  match servoProtocolParseStatus packet with
  | .error _ => none
  | .ok received =>
      if received.id ≠ SERVO_PROTOCOL_BROADCAST_ID ∨ received.error ≠ SERVO_INST_SYNC_WRITE ∨
          received.packetSize ≠ packet.length then none
      else
        match received.params with
        | reg :: width :: groups =>
            (readTargets width endianness groups.length groups).map fun targets =>
              (reg, width, targets)
        | _ => none

/-- A target as a register of that width takes it. -/
def ServoSyncTarget.reduced (width : UInt8) (target : ServoSyncTarget) : ServoSyncTarget :=
  { target with value := UInt32.ofNat (target.value.toNat % 256 ^ width.toNat) }

variable {width : UInt8}

theorem readTargets_groups (hwidth : servoProtocolWidthOk width = true)
    (endianness : ServoEndianness) (targets : List ServoSyncTarget) {fuel : ℕ}
    (hfuel : targets.length ≤ fuel) :
    readTargets width endianness fuel (targets.flatMap (syncGroup width endianness)) =
      some (targets.map (ServoSyncTarget.reduced width)) := by
  induction targets generalizing fuel with
  | nil => cases fuel <;> rfl
  | cons target targets ih =>
    cases fuel with
    | zero => simp at hfuel
    | succ fuel =>
      have hlength := length_encodeValue target.value endianness hwidth
      have htake : (servoProtocolEncodeValue target.value width endianness ++
          targets.flatMap (syncGroup width endianness)).take width.toNat =
          servoProtocolEncodeValue target.value width endianness := List.take_left' hlength
      have hdrop : (servoProtocolEncodeValue target.value width endianness ++
          targets.flatMap (syncGroup width endianness)).drop width.toNat =
          targets.flatMap (syncGroup width endianness) := List.drop_left' hlength
      have hroom : ¬ (servoProtocolEncodeValue target.value width endianness ++
          targets.flatMap (syncGroup width endianness)).length < width.toNat := by
        rw [List.length_append]
        omega
      rw [List.flatMap_cons, syncGroup, List.cons_append, readTargets, if_neg hroom, htake, hdrop,
        ih (Nat.le_of_succ_le_succ hfuel), decodeValue_encodeValue _ _ hwidth]
      rfl

theorem receiveSyncWrite_packet (hwidth : servoProtocolWidthOk width = true) (reg : UInt8)
    (endianness : ServoEndianness) {targets : List ServoSyncTarget}
    (hroom : (syncParams reg width endianness targets).length ≤ SERVO_PROTOCOL_MAX_PARAMS) :
    receiveSyncWrite endianness (servoPacket SERVO_PROTOCOL_BROADCAST_ID SERVO_INST_SYNC_WRITE
        (syncParams reg width endianness targets)) =
      some (reg, width, targets.map (ServoSyncTarget.reduced width)) := by
  have hfuel : targets.length ≤ (targets.flatMap (syncGroup width endianness)).length := by
    rw [length_syncGroups hwidth]
    exact Nat.le_mul_of_pos_left _ (Nat.succ_pos _)
  have hgroups := readTargets_groups hwidth endianness targets hfuel
  unfold receiveSyncWrite
  rw [servoProtocolParseStatus_packet hroom]
  simp only [servoPacket_length, ne_eq, not_true_eq_false, or_self, if_false, syncParams, hgroups,
    Option.map_some]

end receiving

/-- A sync-write tells each servo its own value. Whatever is in its buffers, the call writes inside
them; it refuses just the lists that do not fit a packet; and of a packet that it builds a receiver
recovers the register, the width and the targets in order, each value cut to the width. -/
theorem servo_sync_write_tells (out params : Bytes) (reg width : UInt8)
    (endianness : ServoEndianness) (targets : List ServoSyncTarget) (count : UInt8)
    (hparams : params.length = SERVO_PROTOCOL_MAX_PARAMS)
    (hwidth : width = 1 ∨ width = 2 ∨ width = 4) (hne : targets ≠ [])
    (hcount : targets.length = count.toNat) :
    ∃ result written out',
      servoProtocolBuildSyncWriteInto out params reg width targets count endianness =
        some (result, written, out') ∧
      out'.length = out.length ∧
      (result = .errTooManyParams ↔
        2 + (width.toNat + 1) * targets.length > SERVO_PROTOCOL_MAX_PARAMS) ∧
      (result = .ok → written ≤ out.length ∧
        receiveSyncWrite endianness (out'.take written) =
          some (reg, width, targets.map fun target =>
            ⟨target.id, UInt32.ofNat (target.value.toNat % 256 ^ width.toNat)⟩)) := by
  have hok : servoProtocolWidthOk width = true := decide_eq_true hwidth
  have hsome : ¬ count = 0 := by
    intro hzero
    rw [hzero] at hcount
    exact hne (List.length_eq_zero_iff.mp hcount)
  have hlength := length_syncParams hok reg endianness hcount
  have hscale : servoProtocolSyncWriteParams width count =
      2 + (width.toNat + 1) * targets.length := by
    rw [servoProtocolSyncWriteParams, hcount]
  have hinto := buildSyncWriteInto_eq out hparams reg width hcount endianness
  have hbuild : servoProtocolBuildSyncWrite out.length reg width (some targets) count endianness =
      if servoProtocolSyncWriteParams width count > SERVO_PROTOCOL_MAX_PARAMS then
        .error .errTooManyParams
      else servoProtocolBuild out.length SERVO_PROTOCOL_BROADCAST_ID SERVO_INST_SYNC_WRITE
        (syncParams reg width endianness targets) := by
    rw [servoProtocolBuildSyncWrite, if_neg hsome, if_neg (by rw [hok]; decide), ← hcount,
      List.take_length]
    rfl
  rw [hinto, hbuild]
  by_cases hmany : servoProtocolSyncWriteParams width count > SERVO_PROTOCOL_MAX_PARAMS
  · rw [if_pos hmany]
    exact ⟨_, _, _, rfl, rfl, iff_of_true rfl (hscale ▸ hmany), fun hok => by cases hok⟩
  rw [if_neg hmany, servoProtocolBuild, if_neg (by rwa [hlength])]
  by_cases hshort : out.length <
      (syncParams reg width endianness targets).length + SERVO_PROTOCOL_OVERHEAD
  · rw [if_pos hshort]
    exact ⟨_, _, _, rfl, rfl, iff_of_false (by decide) (hscale ▸ hmany), fun hok => by cases hok⟩
  rw [if_neg hshort, SERVO_PROTOCOL_OVERHEAD] at *
  have hpacket : (servoPacket SERVO_PROTOCOL_BROADCAST_ID SERVO_INST_SYNC_WRITE
      (syncParams reg width endianness targets)).length =
      (syncParams reg width endianness targets).length + 6 := servoPacket_length
  have hroom : (syncParams reg width endianness targets).length ≤ SERVO_PROTOCOL_MAX_PARAMS := by
    rw [hlength]
    exact not_lt.mp hmany
  have hinside : (servoPacket SERVO_PROTOCOL_BROADCAST_ID SERVO_INST_SYNC_WRITE
      (syncParams reg width endianness targets)).length ≤ out.length := by omega
  refine ⟨_, _, _, rfl, length_overwrite _ _ _ ?_, iff_of_false (by decide) (hscale ▸ hmany),
    fun _ => ⟨hinside, ?_⟩⟩
  · rw [Nat.zero_add]
    exact hinside
  have htaken : (overwrite out 0 (servoPacket SERVO_PROTOCOL_BROADCAST_ID SERVO_INST_SYNC_WRITE
      (syncParams reg width endianness targets))).take (servoPacket SERVO_PROTOCOL_BROADCAST_ID
        SERVO_INST_SYNC_WRITE (syncParams reg width endianness targets)).length =
      servoPacket SERVO_PROTOCOL_BROADCAST_ID SERVO_INST_SYNC_WRITE
        (syncParams reg width endianness targets) := List.take_left' rfl
  have hreceived := receiveSyncWrite_packet hok reg endianness hroom
  rw [← htaken] at hreceived
  exact hreceived

/-- Two servos are told two positions. -/
theorem servo_sync_write_tells_two :
    ∃ result written out',
      servoProtocolBuildSyncWriteInto (List.replicate 20 0) (List.replicate 128 0) 0x1E 2
          [⟨1, 512⟩, ⟨2, 70000⟩] 2 .big = some (result, written, out') ∧
        receiveSyncWrite .big (out'.take written) = some (0x1E, 2, [⟨1, 512⟩, ⟨2, 4464⟩]) := by
  obtain ⟨result, written, out', hbuilt, -, -, htells⟩ :=
    servo_sync_write_tells (List.replicate 20 0) (List.replicate 128 0) 0x1E 2 .big
      [⟨1, 512⟩, ⟨2, 70000⟩] 2 List.length_replicate (by decide) (by decide) (by decide)
  refine ⟨result, written, out', hbuilt, (htells ?_).2⟩
  have hok : (servoProtocolBuildSyncWriteInto (List.replicate 20 0) (List.replicate 128 0) 0x1E 2
      [⟨1, 512⟩, ⟨2, 70000⟩] 2 .big).map Prod.fst = some .ok := by decide +kernel
  rw [hbuilt] at hok
  exact Option.some.inj hok

end Pico
