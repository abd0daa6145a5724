import PicoFramework.Proofs.CanFilters

/-! The header of a frame there and back, through the fields of its identifier. -/

namespace Pico

open Lib.Bits

section identifiers

/-- The identifier that fields hold. -/
def IdFields.id (fields : IdFields) : UInt32 :=
  if fields.exide then (fields.sid <<< 18) ||| fields.eid else fields.sid

variable (header : Bytes)

theorem sid_lt : (fieldsOf header).sid.toNat < 2 ^ 11 := by
  rw [fieldsOf, toNat_sid]
  have h0 := (header.getD (0 : UInt8).toNat 0).toNat_lt
  have h1 := (header.getD (0 + 1 : UInt8).toNat 0).toNat_lt
  omega

theorem eid_lt : (fieldsOf header).eid.toNat < 2 ^ 18 := by
  rw [fieldsOf, toNat_eid]
  have h2 := (header.getD (0 + 2 : UInt8).toNat 0).toNat_lt
  have h3 := (header.getD (0 + 3 : UInt8).toNat 0).toNat_lt
  omega

theorem toNat_joined {sid eid : UInt32} (hsid : sid.toNat < 2 ^ 11) (heid : eid.toNat < 2 ^ 18) :
    ((sid <<< 18) ||| eid).toNat = sid.toNat * 2 ^ 18 + eid.toNat :=
  toNat_join 18 rfl (by omega) heid

theorem fieldsOf_id_valid :
    canIdIsValid (fieldsOf header).id (fieldsOf header).exide = true := by
  have hsid := sid_lt header
  have heid := eid_lt header
  unfold canIdIsValid IdFields.id
  rw [decide_eq_true_eq]
  cases (fieldsOf header).exide with
  | true =>
    rw [if_pos rfl, if_pos rfl, UInt32.le_iff_toNat_le, toNat_joined hsid heid]
    change _ ≤ 0x1FFFFFFF
    omega
  | false =>
    rw [if_neg Bool.false_ne_true, if_neg Bool.false_ne_true, UInt32.le_iff_toNat_le]
    exact Nat.le_of_lt_succ hsid

theorem fieldsOf_packId_id {packed : UInt32} :
    (fieldsOf (mcp2515FramePackId packed)).exide = canIdIsExtended packed ∧
    (fieldsOf (mcp2515FramePackId packed)).id = canIdValue packed := by
  unfold canIdValue
  cases h : canIdIsExtended packed with
  | false =>
    rw [fieldsOf_standard h]
    exact ⟨rfl, rfl⟩
  | true =>
    rw [fieldsOf_extended h]
    refine ⟨rfl, ?_⟩
    apply UInt32.toNat_inj.mp
    have hsid : ((packed >>> 18) &&& 0x7FF).toNat = packed.toNat / 2 ^ 18 % 2 ^ 11 := by
      rw [toNat_and_low _ 11 rfl, toNat_shiftRight packed 18 rfl]
    have heid : (packed &&& 0x3FFFF).toNat = packed.toNat % 2 ^ 18 := toNat_and_low packed 18 rfl
    change (((packed >>> 18) &&& 0x7FF) <<< 18 ||| (packed &&& 0x3FFFF)).toNat =
      (packed &&& CAN_EXTENDED_ID_MAX).toNat
    rw [toNat_joined (by omega) (by omega), hsid, heid, toNat_and_low packed 29 rfl]
    omega

theorem canIdPack_parts {id : UInt32} {extended : Bool} (h : canIdIsValid id extended = true)
    (remote : Bool) :
    canIdIsExtended (canIdPack id extended remote) = extended ∧
    canIdValue (canIdPack id extended remote) = id := by
  obtain ⟨hid, -, hflag⟩ := packed_parts id extended remote
  have hextended := (and_flag_iff (canIdPack id extended remote) extended).mp hflag.symm
  refine ⟨hextended, ?_⟩
  have hvalue : canIdValue (canIdPack id extended remote) = id &&& idBits extended := by
    unfold canIdValue
    rw [hextended, ← hid]
    cases extended <;> rfl
  have hle := UInt32.le_iff_toNat_le.mp (of_decide_eq_true h)
  rw [hvalue]
  cases extended with
  | true => exact and_low_of_lt 29 rfl (Nat.lt_succ_of_le hle)
  | false => exact and_low_of_lt 11 rfl (Nat.lt_succ_of_le hle)

end identifiers

section headers

variable (header : Bytes)

theorem unpackHeader_fields :
    (mcp2515FrameUnpackHeader header).extended = (fieldsOf header).exide ∧
    (mcp2515FrameUnpackHeader header).id = (fieldsOf header).id := by
  have hlow : ((header.getD 1 0).toUInt32 >>> 5) &&& (0x7 : UInt32) =
      (header.getD 1 0).toUInt32 >>> 5 := by
    have h1 := (header.getD 1 0).toNat_lt
    refine and_low_of_lt 3 rfl ?_
    rw [toNat_shiftRight _ 5 rfl, UInt8.toNat_toUInt32]
    omega
  have hflag : ∀ c : UInt8, decide (c.toUInt32 &&& SIDL_EXIDE ≠ 0) = decide (c &&& 0x08 ≠ 0) :=
    forall_byte (by decide)
  have hextended : (mcp2515FrameUnpackHeader header).extended = (fieldsOf header).exide :=
    hflag (header.getD 1 0)
  refine ⟨hextended, ?_⟩
  rw [IdFields.id, ← hextended]
  unfold mcp2515FrameUnpackHeader
  dsimp only
  rw [hlow]
  rfl

theorem canDlcToLength_le (dlc : ℕ) : (canDlcToLength dlc).toNat ≤ CAN_MAX_DATA_LENGTH := by
  unfold canDlcToLength
  split
  · exact le_rfl
  · rename_i h
    rw [UInt8.toNat_ofNat']
    exact (Nat.mod_le _ _).trans (not_lt.mp h)

theorem unpackHeader_valid : canMessageIsValid (mcp2515FrameUnpackHeader header) = true := by
  obtain ⟨hextended, hid⟩ := unpackHeader_fields header
  rw [canMessageIsValid, Bool.and_eq_true, decide_eq_true_eq, hextended, hid]
  exact ⟨canDlcToLength_le _, fieldsOf_id_valid header⟩

/-- The last byte of a header. -/
def dlcByte (length : UInt8) (remote : Bool) : UInt8 :=
  if remote then (length &&& DLC_MASK) ||| DLC_RTR else length &&& DLC_MASK

theorem dlcByte_read : ∀ length : UInt8, length.toNat ≤ CAN_MAX_DATA_LENGTH → ∀ remote : Bool,
    canDlcToLength (dlcByte length remote &&& DLC_MASK).toNat = length ∧
    decide (dlcByte length remote &&& DLC_RTR ≠ 0) = remote :=
  forall_byte (by decide)

variable (message : CanMessage)

theorem packHeader_eq :
    mcp2515FramePackHeader message =
      mcp2515FramePackId message.packed ++ [dlcByte message.length message.remote] := rfl

theorem packHeader_length :
    (mcp2515FramePackHeader message).length = MCP2515_FRAME_HEADER_SIZE := by
  rw [packHeader_eq, List.length_append, packId_length]
  rfl

theorem packHeader_last :
    (mcp2515FramePackHeader message).getD 4 0 = dlcByte message.length message.remote := by
  have hlength := packId_length message.packed
  rw [packHeader_eq, List.getD_append_right _ _ _ _ hlength.le, hlength]
  rfl

theorem fieldsOf_append {bytes : Bytes} (h : bytes.length = 4) (rest : Bytes) :
    fieldsOf (bytes ++ rest) = fieldsOf bytes := by
  match bytes, h with
  | [_, _, _, _], _ => rfl

theorem fieldsOf_packHeader :
    fieldsOf (mcp2515FramePackHeader message) = fieldsOf (mcp2515FramePackId message.packed) :=
  fieldsOf_append (packId_length message.packed) _

theorem unpackHeader_packHeader {message : CanMessage} (hvalid : canMessageIsValid message = true) :
    mcp2515FrameUnpackHeader (mcp2515FramePackHeader message) =
      { message with
        data := List.replicate CAN_MAX_DATA_LENGTH 0
        data_length := List.length_replicate } := by
  rw [canMessageIsValid, Bool.and_eq_true, decide_eq_true_eq] at hvalid
  obtain ⟨hextended, hid⟩ := unpackHeader_fields (mcp2515FramePackHeader message)
  obtain ⟨hexide, hfields⟩ := @fieldsOf_packId_id message.packed
  obtain ⟨hkind, hvalue⟩ := canIdPack_parts hvalid.2 message.remote
  obtain ⟨hlength, hremote⟩ := dlcByte_read message.length hvalid.1 message.remote
  have hlast := packHeader_last message
  apply CanMessage.ext
  · rw [hid, fieldsOf_packHeader, hfields]
    exact hvalue
  · unfold mcp2515FrameUnpackHeader
    dsimp only
    rw [hlast, hlength]
  · rw [hextended, fieldsOf_packHeader, hexide]
    exact hkind
  · unfold mcp2515FrameUnpackHeader
    dsimp only
    rw [hlast, hremote]
  · rfl

/-- A valid message comes back without its data, and whatever five bytes are unpacked give a valid
message. -/
theorem mcp2515_header_roundtrip :
    (∀ message : CanMessage, canMessageIsValid message = true →
      (mcp2515FramePackHeader message).length = MCP2515_FRAME_HEADER_SIZE ∧
      mcp2515FrameUnpackHeader (mcp2515FramePackHeader message) =
        { message with
          data := List.replicate CAN_MAX_DATA_LENGTH 0
          data_length := List.length_replicate }) ∧
    ∀ header : Bytes, header.length = MCP2515_FRAME_HEADER_SIZE →
      canMessageIsValid (mcp2515FrameUnpackHeader header) = true :=
  ⟨fun message hvalid => ⟨packHeader_length message, unpackHeader_packHeader hvalid⟩,
    fun header _ => unpackHeader_valid header⟩

/-- A remote frame with an extended identifier. -/
theorem mcp2515_header_roundtrip_remote :
    mcp2515FrameUnpackHeader (mcp2515FramePackHeader
      ⟨0x15A5C3F1, 3, true, true, List.replicate 8 0x77, rfl⟩) =
        ⟨0x15A5C3F1, 3, true, true, List.replicate 8 0, rfl⟩ ∧
    canMessageIsValid (mcp2515FrameUnpackHeader [0xFF, 0xFF, 0xFF, 0xFF, 0xFF]) = true :=
  ⟨(mcp2515_header_roundtrip.1 ⟨0x15A5C3F1, 3, true, true, List.replicate 8 0x77, rfl⟩
      (by decide)).2,
    mcp2515_header_roundtrip.2 [0xFF, 0xFF, 0xFF, 0xFF, 0xFF] rfl⟩

end headers

end Pico
