import PicoFramework.Spec.ServoProtocol

/-! Packets read back as they were built. -/

namespace Pico

section reading

variable {id instruction : UInt8} {params : Bytes}

/-- The packet that `servo_protocol_build` writes. -/
def servoPacket (id instruction : UInt8) (params : Bytes) : Bytes :=
  let body := servoProtocolBody id instruction params
  ServoProtocol.HEADER_BYTE :: ServoProtocol.HEADER_BYTE :: body ++ [servoProtocolChecksum body]

theorem servoPacket_ne_nil (instruction : UInt8) (params : Bytes) :
    servoPacket id instruction params ≠ [] := nofun

theorem servoPacket_length : (servoPacket id instruction params).length = params.length + 6 := by
  simp [servoPacket, servoProtocolBody]

theorem servoProtocolBuild_eq (hparams : params.length ≤ SERVO_PROTOCOL_MAX_PARAMS) :
    servoProtocolBuild SERVO_PROTOCOL_MAX_PACKET_SIZE id instruction params =
      .ok (servoPacket id instruction params) := by
  have hcapacity : ¬ SERVO_PROTOCOL_MAX_PACKET_SIZE < params.length + SERVO_PROTOCOL_OVERHEAD := by
    simp only [SERVO_PROTOCOL_MAX_PACKET_SIZE, SERVO_PROTOCOL_OVERHEAD,
      SERVO_PROTOCOL_MAX_PARAMS] at hparams ⊢
    omega
  rw [servoProtocolBuild, if_neg (not_lt.mpr hparams), if_neg hcapacity]
  rfl

theorem lengthByte_sub (n : ℕ) :
    UInt8.ofNat n + ServoProtocol.LENGTH_MINIMUM - ServoProtocol.LENGTH_MINIMUM = UInt8.ofNat n :=
  UInt8.add_sub_cancel _ _

theorem lengthByte_ge {n : ℕ} (h : n ≤ SERVO_PROTOCOL_MAX_PARAMS) :
    ¬ UInt8.ofNat n + ServoProtocol.LENGTH_MINIMUM < ServoProtocol.LENGTH_MINIMUM := by
  rw [SERVO_PROTOCOL_MAX_PARAMS] at h
  rw [UInt8.lt_iff_toNat_lt, UInt8.toNat_add, UInt8.toNat_ofNat']
  simp only [ServoProtocol.LENGTH_MINIMUM, UInt8.reduceToNat]
  omega

theorem servoProtocolParseStatus_packet (hparams : params.length ≤ SERVO_PROTOCOL_MAX_PARAMS) :
    servoProtocolParseStatus (servoPacket id instruction params) =
      .ok ⟨id, instruction, params, UInt8.ofNat params.length, params.length + 6⟩ := by
  have hsmall : params.length < 256 := by
    rw [SERVO_PROTOCOL_MAX_PARAMS] at hparams
    omega
  have hcount : (UInt8.ofNat params.length).toNat = params.length := by
    rw [UInt8.toNat_ofNat', Nat.mod_eq_of_lt hsmall]
  have hlength : (servoPacket id instruction params).length = params.length + 6 :=
    servoPacket_length
  have hbody : ((servoPacket id instruction params).drop 2).take (params.length + 6 - 1 - 2) =
      servoProtocolBody id instruction params := by
    have htake : params.length + 6 - 1 - 2 =
        (servoProtocolBody id instruction params).length := by
      simp [servoProtocolBody]
    rw [htake]
    exact List.take_left' rfl
  have hchecksum : (servoPacket id instruction params).getD (params.length + 6 - 1) 0 =
      servoProtocolChecksum (servoProtocolBody id instruction params) := by
    have hlast : params.length + 6 - 1 =
        (ServoProtocol.HEADER_BYTE :: ServoProtocol.HEADER_BYTE ::
          servoProtocolBody id instruction params).length := by
      simp [servoProtocolBody]
    rw [hlast, List.getD_eq_getElem?_getD]
    exact congrArg (Option.getD · 0) List.getElem?_concat_length
  have hread : ((servoPacket id instruction params).drop ServoProtocol.OFFSET_PARAMS).take
      params.length = params := List.take_left' rfl
  have hlengthByte : (servoPacket id instruction params).getD ServoProtocol.OFFSET_LENGTH 0 =
      UInt8.ofNat params.length + ServoProtocol.LENGTH_MINIMUM := rfl
  have hheader : ¬ ((servoPacket id instruction params).getD 0 0 ≠ ServoProtocol.HEADER_BYTE ∨
      (servoPacket id instruction params).getD 1 0 ≠ ServoProtocol.HEADER_BYTE) :=
    not_or.mpr ⟨not_not.mpr rfl, not_not.mpr rfl⟩
  unfold servoProtocolParseStatus servoProtocolPacketSize
  dsimp only
  rw [hlengthByte, lengthByte_sub, hcount, hlength, if_neg (by omega),
    if_neg hheader, if_neg (by simp only [ServoProtocol.OFFSET_LENGTH]; omega), if_neg (lengthByte_ge hparams),
    if_neg (not_lt.mpr hparams), hread]
  simp only [SERVO_PROTOCOL_OVERHEAD, ServoProtocol.OFFSET_ID, hbody, hchecksum, ne_eq, lt_irrefl,
    not_true_eq_false, if_false]
  rfl

end reading

section values

variable (value : UInt32) {width : UInt8} (endianness : ServoEndianness)

theorem width_le_four (hwidth : servoProtocolWidthOk width = true) : width.toNat ≤ 4 := by
  simp only [servoProtocolWidthOk, decide_eq_true_eq] at hwidth
  rcases hwidth with rfl | rfl | rfl <;> decide

theorem length_encodeValue (hwidth : servoProtocolWidthOk width = true) :
    (servoProtocolEncodeValue value width endianness).length = width.toNat := by
  rw [servoProtocolEncodeValue, if_pos hwidth]
  cases endianness <;> simp

theorem servoProtocolEncodeValue_byte (value : UInt8) (endianness : ServoEndianness) :
    servoProtocolEncodeValue value.toUInt32 1 endianness = [value] := by
  cases endianness with
  | little => simp [servoProtocolEncodeValue, servoProtocolWidthOk]
  | big => simp [servoProtocolEncodeValue, servoProtocolWidthOk]

end values

end Pico
