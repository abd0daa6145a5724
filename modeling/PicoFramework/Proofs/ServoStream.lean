import Mathlib.Data.List.GetD
import PicoFramework.Proofs.ServoProtocol

/-! Status packets read as they come in: a verdict does not change with more bytes, and as long as
there is none the bytes are the beginning of a packet. -/

namespace Pico

section verdict

variable {data : Bytes} {id length : UInt8}

theorem parseStatus_header (id length : UInt8) (rest : Bytes) :
    servoProtocolParseStatus (0xFF :: 0xFF :: id :: length :: rest) =
      let count := (length - 2).toNat
      if length < 2 then .error .errBadHeader
      else if count > SERVO_PROTOCOL_MAX_PARAMS then .error .errTooManyParams
      else if rest.length < count + 2 then .error .errIncomplete
      else if servoProtocolChecksum (id :: length :: rest.take (count + 1)) ≠ rest.getD (count + 1) 0
        then .error .errBadChecksum
      else .ok ⟨id, rest.getD 0 0, (rest.drop 1).take count, length - 2, count + 6⟩ := by
  have hshort : rest.length + 4 < (length - 2).toNat + 6 ↔ rest.length < (length - 2).toNat + 2 := by
    omega
  unfold servoProtocolParseStatus
  simp [ServoProtocol.HEADER_BYTE, ServoProtocol.OFFSET_ID, ServoProtocol.OFFSET_LENGTH,
    ServoProtocol.OFFSET_INSTRUCTION, ServoProtocol.OFFSET_PARAMS, ServoProtocol.LENGTH_MINIMUM,
    servoProtocolPacketSize, SERVO_PROTOCOL_OVERHEAD, hshort]

theorem parseStatus_unheaded {a b : UInt8} (h : ¬ (a = 0xFF ∧ b = 0xFF)) (rest : Bytes) :
    servoProtocolParseStatus (a :: b :: rest) = .error .errBadHeader := by
  have hbad : (a :: b :: rest).getD 0 0 ≠ ServoProtocol.HEADER_BYTE ∨
      (a :: b :: rest).getD 1 0 ≠ ServoProtocol.HEADER_BYTE := by
    by_contra hgood
    rw [not_or, not_not, not_not] at hgood
    exact h hgood
  unfold servoProtocolParseStatus
  rw [if_neg (by simp), if_pos hbad]

theorem parseStatus_short (h : data.length < 2) :
    servoProtocolParseStatus data = .error .errIncomplete := by
  rw [servoProtocolParseStatus, if_pos h]

theorem header_cases (data : Bytes) :
    data.length < 2 ∨ (∃ a b rest, ¬ (a = 0xFF ∧ b = 0xFF) ∧ data = a :: b :: rest) ∨
      data = [0xFF, 0xFF] ∨ (∃ id, data = [0xFF, 0xFF, id]) ∨
      ∃ id length rest, data = 0xFF :: 0xFF :: id :: length :: rest := by
  match data with
  | [] | [_] => simp
  | a :: b :: data =>
    by_cases hheader : a = 0xFF ∧ b = 0xFF
    · obtain ⟨rfl, rfl⟩ := hheader
      match data with
      | [] | [_] | _ :: _ :: _ => simp
    · exact .inr (.inl ⟨a, b, data, hheader, rfl⟩)

theorem parseStatus_append (h : servoProtocolParseStatus data ≠ .error .errIncomplete)
    (more : Bytes) : servoProtocolParseStatus (data ++ more) = servoProtocolParseStatus data := by
  rcases header_cases data with hshort | ⟨a, b, rest, hheader, rfl⟩ | rfl | ⟨id, rfl⟩ |
    ⟨id, length, rest, rfl⟩
  · exact absurd (parseStatus_short hshort) h
  · simp only [List.cons_append, parseStatus_unheaded hheader]
  · exact absurd rfl h
  · exact absurd rfl h
  · simp only [List.cons_append, parseStatus_header] at h ⊢
    by_cases hlength : length < 2
    · rw [if_pos hlength, if_pos hlength]
    by_cases hcount : (length - 2).toNat > SERVO_PROTOCOL_MAX_PARAMS
    · rw [if_neg hlength, if_neg hlength, if_pos hcount, if_pos hcount]
    rw [if_neg hlength, if_neg hcount] at h ⊢
    by_cases hshort : rest.length < (length - 2).toNat + 2
    · exact absurd (if_pos hshort) h
    have hlong : ¬ (rest ++ more).length < (length - 2).toNat + 2 := by
      rw [List.length_append]
      omega
    have hsummed : (rest ++ more).take ((length - 2).toNat + 1) =
        rest.take ((length - 2).toNat + 1) := List.take_append_of_le_length (by omega)
    have hparams : ((rest ++ more).drop 1).take (length - 2).toNat =
        (rest.drop 1).take (length - 2).toNat := by
      rw [List.drop_append_of_le_length (by omega),
        List.take_append_of_le_length (by rw [List.length_drop]; omega)]
    rw [if_neg hlength, if_neg hcount, if_neg hshort, if_neg hlong, hsummed, hparams,
      List.getD_append _ _ _ _ (by omega), List.getD_append _ _ _ _ (by omega)]

theorem lengthByte_eq {n : ℕ} (hn : n = (length - 2).toNat) :
    UInt8.ofNat n + ServoProtocol.LENGTH_MINIMUM = length := by
  rw [hn, UInt8.ofNat_toNat]
  exact UInt8.sub_add_cancel length 2

theorem servoPacket_eq (id e : UInt8) {length : UInt8} {params : Bytes}
    (hparams : params.length = (length - 2).toNat) :
    servoPacket id e params = 0xFF :: 0xFF :: id :: length ::
      (e :: params ++ [servoProtocolChecksum (id :: length :: e :: params)]) := by
  rw [servoPacket, servoProtocolBody, lengthByte_eq hparams]
  rfl

/-- What is taken for a packet is one, with whatever comes behind it. -/
theorem parseStatus_ok {status : ServoStatusPacket}
    (h : servoProtocolParseStatus data = .ok status) :
    status.params.length ≤ SERVO_PROTOCOL_MAX_PARAMS ∧
      status.paramCount = UInt8.ofNat status.params.length ∧
      status.packetSize = status.params.length + 6 ∧
      servoPacket status.id status.error status.params <+: data := by
  rcases header_cases data with hshort | ⟨a, b, rest, hheader, rfl⟩ | rfl | ⟨id, rfl⟩ |
    ⟨id, length, rest, rfl⟩
  · exact absurd ((parseStatus_short hshort).symm.trans h) nofun
  · exact absurd ((parseStatus_unheaded hheader rest).symm.trans h) nofun
  · exact absurd h nofun
  · exact absurd h nofun
  · rw [parseStatus_header] at h
    dsimp only at h
    split_ifs at h with hlength hcount hshort hsum
    obtain ⟨e, tail, rfl⟩ := List.exists_cons_of_ne_nil (show rest ≠ [] by
      rintro rfl
      exact hshort (Nat.succ_pos _))
    rw [List.length_cons] at hshort
    have hparams : (tail.take (length - 2).toNat).length = (length - 2).toNat := by
      rw [List.length_take]
      omega
    have htail : tail = tail.take (length - 2).toNat ++ (tail.getD (length - 2).toNat 0 ::
        tail.drop ((length - 2).toNat + 1)) := by
      rw [List.getD_eq_getElem _ _ (by omega), List.getElem_cons_drop, List.take_append_drop]
    rw [not_not, List.take_succ_cons, List.getD_cons_succ] at hsum
    obtain rfl := Except.ok.inj h
    refine ⟨hparams.le.trans (not_lt.mp hcount), ?_, by simp only [List.drop_one, List.tail_cons, hparams], ?_⟩
    · simp only [List.drop_one, List.tail_cons, hparams, UInt8.ofNat_toNat]
    · refine ⟨tail.drop ((length - 2).toNat + 1), ?_⟩
      simp only [List.drop_one, List.tail_cons, List.getD_cons_zero]
      rw [servoPacket_eq _ _ hparams, hsum]
      conv_rhs => rw [htail]
      simp

end verdict

section streaming

/-- A packet, with nothing behind it. -/
def IsStatusPacket (packet : Bytes) : Prop :=
  ∃ status, servoProtocolParseStatus packet = .ok status ∧ status.packetSize = packet.length

theorem isStatusPacket {id error : UInt8} {params : Bytes}
    (hparams : params.length ≤ SERVO_PROTOCOL_MAX_PARAMS) :
    IsStatusPacket (servoPacket id error params) :=
  ⟨_, servoProtocolParseStatus_packet hparams, servoPacket_length.symm⟩

theorem incomplete_of_prefix {data packet : Bytes} (hpacket : IsStatusPacket packet)
    (hpart : data <+: packet) (hne : data ≠ packet) :
    servoProtocolParseStatus data = .error .errIncomplete := by
  obtain ⟨status, hok, hsize⟩ := hpacket
  obtain ⟨more, rfl⟩ := hpart
  by_contra hverdict
  rw [parseStatus_append hverdict] at hok
  obtain ⟨-, -, hlength, hbegins⟩ := parseStatus_ok hok
  have hle := hbegins.length_le
  rw [servoPacket_length, ← hlength, hsize, List.length_append] at hle
  obtain rfl : more = [] := List.length_eq_zero_iff.mp (by omega)
  exact hne (List.append_nil data).symm

/-- Bytes that are waited on can go on to be a packet, but for a single one, which is not looked
at. -/
theorem prefix_of_incomplete {data : Bytes}
    (h : servoProtocolParseStatus data = .error .errIncomplete) (hone : data.length ≠ 1) :
    ∃ packet, IsStatusPacket packet ∧ data <+: packet ∧ data ≠ packet := by
  rcases header_cases data with hshort | ⟨a, b, rest, hheader, rfl⟩ | rfl | ⟨id, rfl⟩ |
    ⟨id, length, rest, rfl⟩
  · obtain rfl : data = [] := List.length_eq_zero_iff.mp (by omega)
    exact ⟨servoPacket 0 0 [], isStatusPacket (Nat.zero_le _), List.nil_prefix, nofun⟩
  · exact absurd ((parseStatus_unheaded hheader rest).symm.trans h) nofun
  · exact ⟨servoPacket 0 0 [], isStatusPacket (Nat.zero_le _), ⟨_, rfl⟩, nofun⟩
  · exact ⟨servoPacket id 0 [], isStatusPacket (Nat.zero_le _), ⟨_, rfl⟩, nofun⟩
  · rw [parseStatus_header] at h
    dsimp only at h
    have hwaits : (length - 2).toNat ≤ SERVO_PROTOCOL_MAX_PARAMS ∧
        rest.length < (length - 2).toNat + 2 := by
      split_ifs at h with hlength hcount hshort hsum
      · exact absurd (Except.error.inj h) nofun
      · exact absurd (Except.error.inj h) nofun
      · exact ⟨not_lt.mp hcount, hshort⟩
      · exact absurd (Except.error.inj h) nofun
    obtain ⟨hcount, hshort⟩ := hwaits
    -- zeros for what is still to come, and a checksum to fit
    have hfilled : (rest ++ List.replicate ((length - 2).toNat + 1 - rest.length) 0).length =
        (length - 2).toNat + 1 := by
      rw [List.length_append, List.length_replicate]
      omega
    obtain ⟨e, params, hcons⟩ := List.exists_cons_of_length_eq_add_one hfilled
    rw [hcons, List.length_cons, Nat.add_right_cancel_iff] at hfilled
    have hpacket := servoPacket_eq id e hfilled
    rw [← hcons] at hpacket
    refine ⟨servoPacket id e params, isStatusPacket (hfilled.le.trans hcount), ?_, ?_⟩
    · rw [hpacket]
      refine ⟨List.replicate ((length - 2).toNat + 1 - rest.length) 0 ++
        [servoProtocolChecksum (id :: length ::
          (rest ++ List.replicate ((length - 2).toNat + 1 - rest.length) 0))], ?_⟩
      simp
    · intro hsame
      have hlength := congrArg List.length hsame
      rw [servoPacket_length, hfilled] at hlength
      simp only [List.length_cons] at hlength
      omega

end streaming

/-- Servo packets parse back and stream: a packet that is built is parsed with its fields, a verdict
is the same for every longer prefix, and what is waited on, from two bytes on, is just what can go
on to be a packet. -/
theorem servo_packets_stream :
    (∀ (capacity : ℕ) (id instruction : UInt8) (params : Bytes),
      params.length ≤ SERVO_PROTOCOL_MAX_PARAMS →
      params.length + SERVO_PROTOCOL_OVERHEAD ≤ capacity →
      ∃ packet, servoProtocolBuild capacity id instruction params = .ok packet ∧
        servoProtocolParseStatus packet =
          .ok ⟨id, instruction, params, UInt8.ofNat params.length, packet.length⟩) ∧
    (∀ (data more : Bytes) (status : ServoStatusPacket),
      servoProtocolParseStatus data = .ok status →
        servoProtocolParseStatus (data ++ more) = .ok status) ∧
    (∀ data : Bytes, servoProtocolParseStatus data = .error .errIncomplete ↔
      data.length = 1 ∨ ∃ packet, IsStatusPacket packet ∧ data <+: packet ∧ data ≠ packet) ∧
    ∀ (data more : Bytes) (result : ServoProtocolResult), result ≠ .errIncomplete →
      servoProtocolParseStatus data = .error result →
        servoProtocolParseStatus (data ++ more) = .error result := by
  refine ⟨fun capacity id instruction params hparams hcapacity => ?_, fun data more status hok => ?_,
    fun data => ⟨fun hwaits => ?_, ?_⟩, fun data more result hne herror => ?_⟩
  · refine ⟨servoPacket id instruction params, ?_, ?_⟩
    · rw [servoProtocolBuild, if_neg (not_lt.mpr hparams), if_neg (not_lt.mpr hcapacity)]
      rfl
    · rw [servoProtocolParseStatus_packet hparams, servoPacket_length]
  · rw [parseStatus_append (by simp [hok]), hok]
  · by_cases hone : data.length = 1
    · exact .inl hone
    · exact .inr (prefix_of_incomplete hwaits hone)
  · rintro (hone | ⟨packet, hpacket, hpart, hne⟩)
    · obtain ⟨c, rfl⟩ := List.length_eq_one_iff.mp hone
      rfl
    · exact incomplete_of_prefix hpacket hpart hne
  · have hverdict : servoProtocolParseStatus data ≠ .error .errIncomplete := by
      rw [herror]
      exact fun heq => hne (Except.error.inj heq)
    rw [parseStatus_append hverdict, herror]

/-- A single byte is waited on, even one that no packet begins with. -/
theorem servo_single_byte_waits :
    ¬ ∀ data : Bytes, servoProtocolParseStatus data = .error .errIncomplete ↔
      ∃ packet, IsStatusPacket packet ∧ data <+: packet ∧ data ≠ packet := by
  intro h
  obtain ⟨packet, ⟨status, hok, -⟩, ⟨more, rfl⟩, hne⟩ := (h [0]).mp rfl
  cases more with
  | nil => exact hne rfl
  | cons b more =>
    have hbad := parseStatus_unheaded (a := 0) (b := b) (by simp) more
    exact absurd (hok.symm.trans hbad) nofun

end Pico
