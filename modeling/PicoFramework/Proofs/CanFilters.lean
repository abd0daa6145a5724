import PicoFramework.Lib.Bits
import PicoFramework.Proofs.Mcp2515Instructions

/-! Filtering in the controller against filtering in software. -/

namespace Pico

open Lib.Bits Lib.Interleave

section fields

variable (regs : Registers) (sidh : UInt8)

theorem toNat_sid :
    (regs.idFields sidh).sid.toNat = (regs sidh).toNat * 8 + (regs (sidh + 1)).toNat / 32 := by
  have h0 := (regs sidh).toNat_lt
  have h1 := (regs (sidh + 1)).toNat_lt
  simp only [Registers.idFields, UInt32.toNat_or, UInt32.toNat_shiftLeft, UInt32.toNat_shiftRight,
    UInt8.toNat_toUInt32, UInt32.reduceToNat, Nat.shiftLeft_eq, Nat.shiftRight_eq_div_pow,
    Nat.reduceMod, Nat.reducePow]
  rw [Nat.mod_eq_of_lt (by omega), or_eq_add 3 (by omega) (by omega)]

theorem toNat_eid :
    (regs.idFields sidh).eid.toNat = (regs (sidh + 1)).toNat % 4 * 65536 +
      (regs (sidh + 2)).toNat * 256 + (regs (sidh + 3)).toNat := by
  have h2 := (regs (sidh + 2)).toNat_lt
  have h3 := (regs (sidh + 3)).toNat_lt
  have hlow : (regs (sidh + 1)).toNat &&& 3 = (regs (sidh + 1)).toNat % 4 :=
    Nat.and_two_pow_sub_one_eq_mod _ 2
  have hhigh : (regs (sidh + 1)).toNat % 4 * 65536 ||| (regs (sidh + 2)).toNat * 256 =
      (regs (sidh + 1)).toNat % 4 * 65536 + (regs (sidh + 2)).toNat * 256 :=
    or_eq_add 16 (by omega) (by omega)
  simp only [Registers.idFields, UInt32.toNat_or, UInt32.toNat_shiftLeft, UInt32.toNat_and,
    UInt8.toNat_toUInt32, UInt32.reduceToNat, Nat.shiftLeft_eq, Nat.reduceMod, Nat.reducePow, hlow]
  rw [Nat.mod_eq_of_lt (by omega), Nat.mod_eq_of_lt (b := 4294967296) (by omega), hhigh,
    or_eq_add 8 (by omega) (by omega)]

theorem exide_iff :
    (regs.idFields sidh).exide = true ↔ (regs (sidh + 1)).toNat / 8 % 2 = 1 := by
  have hbit : ∀ sidl : UInt8, sidl &&& 0x08 ≠ 0 ↔ sidl.toNat / 8 % 2 = 1 := forall_byte (by decide)
  exact decide_eq_true_iff.trans (hbit _)

/-- Four bytes as the fields that they hold. -/
def fieldsOf (bytes : Bytes) : IdFields := Registers.idFields (fun i => bytes.getD i.toNat 0) 0

theorem fieldsOf_eq {b0 b1 b2 b3 : UInt8} {fields : IdFields}
    (hsid : fields.sid.toNat = b0.toNat * 8 + b1.toNat / 32)
    (hexide : fields.exide = true ↔ b1.toNat / 8 % 2 = 1)
    (heid : fields.eid.toNat = b1.toNat % 4 * 65536 + b2.toNat * 256 + b3.toNat) :
    fieldsOf [b0, b1, b2, b3] = fields := by
  have hfields : ∀ other : IdFields, other.sid = fields.sid → other.exide = fields.exide →
      other.eid = fields.eid → other = fields := by
    rintro ⟨sid, exide, eid⟩ rfl rfl rfl
    rfl
  apply hfields
  · exact UInt32.toNat_inj.mp ((toNat_sid _ _).trans hsid.symm)
  · exact Bool.eq_iff_iff.mpr ((exide_iff _ _).trans hexide.symm)
  · exact UInt32.toNat_inj.mp ((toNat_eid _ _).trans heid.symm)

theorem fieldsOf_standard {packed : UInt32} (h : canIdIsExtended packed = false) :
    fieldsOf (mcp2515FramePackId packed) = ⟨packed &&& 0x7FF, false, 0⟩ := by
  have hlow (n : ℕ) : n &&& 7 = n % 8 := Nat.and_two_pow_sub_one_eq_mod n 3
  have hnot : ¬ canIdIsExtended packed = true := by
    rw [h]
    exact Bool.false_ne_true
  unfold mcp2515FramePackId canIdValue
  rw [if_neg hnot, if_neg hnot]
  have hid : (packed &&& CAN_STANDARD_ID_MAX).toNat = packed.toNat % 2 ^ 11 :=
    toNat_and_low packed 11 rfl
  have h0 : ((packed &&& CAN_STANDARD_ID_MAX) >>> 3).toUInt8.toNat = packed.toNat % 2048 / 8 := by
    rw [UInt32.toNat_toUInt8, toNat_shiftRight _ 3 rfl, hid]
    omega
  have h1 : (((packed &&& CAN_STANDARD_ID_MAX) &&& 0x7) <<< 5).toUInt8.toNat =
      packed.toNat % 8 * 32 := by
    simp only [UInt32.toNat_toUInt8, UInt32.toNat_shiftLeft, UInt32.toNat_and _ 0x7,
      UInt32.reduceToNat, Nat.shiftLeft_eq, Nat.reduceMod, Nat.reducePow, hlow, hid]
    omega
  apply fieldsOf_eq
  · rw [h0, h1, toNat_and_low packed 11 rfl]
    omega
  · rw [h1]
    constructor
    · exact fun hfalse => absurd hfalse Bool.false_ne_true
    · omega
  · rw [h1]
    change 0 = packed.toNat % 8 * 32 % 4 * 65536 + 0 * 256 + 0
    omega

theorem fieldsOf_extended {packed : UInt32} (h : canIdIsExtended packed = true) :
    fieldsOf (mcp2515FramePackId packed) =
      ⟨(packed >>> 18) &&& 0x7FF, true, packed &&& 0x3FFFF⟩ := by
  have hlow2 (n : ℕ) : n &&& 3 = n % 4 := Nat.and_two_pow_sub_one_eq_mod n 2
  have hlow3 (n : ℕ) : n &&& 7 = n % 8 := Nat.and_two_pow_sub_one_eq_mod n 3
  unfold mcp2515FramePackId canIdValue
  rw [if_pos h, if_pos h]
  have hid : (packed &&& CAN_EXTENDED_ID_MAX).toNat = packed.toNat % 2 ^ 29 :=
    toNat_and_low packed 29 rfl
  generalize hsid : ((packed &&& CAN_EXTENDED_ID_MAX) >>> 18) &&& 0x7FF = sid
  generalize heid : (packed &&& CAN_EXTENDED_ID_MAX) &&& 0x3FFFF = eid
  have hsidValue : sid.toNat = packed.toNat / 2 ^ 18 % 2 ^ 11 := by
    rw [← hsid, toNat_and_low _ 11 rfl, toNat_shiftRight _ 18 rfl, hid]
    omega
  have heidValue : eid.toNat = packed.toNat % 2 ^ 18 := by
    rw [← heid, toNat_and_low _ 18 rfl, hid]
    omega
  have h0 : (sid >>> 3).toUInt8.toNat = sid.toNat / 8 := by
    rw [UInt32.toNat_toUInt8, toNat_shiftRight _ 3 rfl]
    omega
  have h1 : (((sid &&& 0x7) <<< 5) ||| SIDL_EXIDE ||| ((eid >>> 16) &&& 0x3)).toUInt8.toNat =
      sid.toNat % 8 * 32 + 8 + eid.toNat / 65536 := by
    have hhigh : sid.toNat % 8 * 32 ||| 8 = sid.toNat % 8 * 32 + 8 :=
      or_eq_add 5 (by omega) (by decide)
    simp only [UInt32.toNat_toUInt8, UInt32.toNat_or, UInt32.toNat_shiftLeft, UInt32.toNat_and,
      UInt32.toNat_shiftRight, SIDL_EXIDE, UInt32.reduceToNat, Nat.shiftLeft_eq,
      Nat.shiftRight_eq_div_pow, Nat.reduceMod, Nat.reducePow, hlow2, hlow3]
    rw [Nat.mod_eq_of_lt (a := sid.toNat % 8 * 32) (by omega), hhigh,
      or_eq_add 2 (by omega) (by omega)]
    omega
  have h2 : (eid >>> 8).toUInt8.toNat = eid.toNat / 256 % 256 := by
    rw [UInt32.toNat_toUInt8, toNat_shiftRight _ 8 rfl]
    rfl
  have h3 : eid.toUInt8.toNat = eid.toNat % 256 := UInt32.toNat_toUInt8 eid
  apply fieldsOf_eq
  · rw [h0, h1, toNat_and_low _ 11 rfl, toNat_shiftRight _ 18 rfl]
    omega
  · rw [h1]
    refine ⟨fun _ => ?_, fun _ => rfl⟩
    omega
  · rw [h1, h2, h3, toNat_and_low _ 18 rfl]
    omega

end fields

section matching

/-- The bits of an identifier. -/
def idBits (extended : Bool) : UInt32 :=
  if extended then CAN_EXTENDED_ID_MAX else CAN_STANDARD_ID_MAX

/-- The bits of an identifier word that are beyond its identifier and no flags. -/
def strayBits (extended : Bool) : UInt32 := if extended then 0x20000000 else 0x3FFFF800

namespace CanFilter

/-- The filter is of the type of the frame, and its mask leaves none of the identifier's bits that
differs. -/
structure Fits (filter : CanFilter) (frame : CanMessage) : Prop where
  type_eq : canIdIsExtended filter.id = frame.extended
  bits : ((frame.id ^^^ filter.id) &&& filter.mask) &&& idBits frame.extended = 0

/-- The filter asks for a bit that no identifier of its type has. -/
def Strays (filter : CanFilter) : Prop :=
  (filter.id &&& filter.mask) &&& strayBits (canIdIsExtended filter.id) ≠ 0

end CanFilter

variable {filter : CanFilter} {frame : CanMessage}

theorem extended_or_flag (mask : UInt32) : canIdIsExtended (mask ||| CAN_FLAG_EXTENDED) = true := by
  unfold canIdIsExtended
  rw [or_and, decide_eq_true_eq, ne_eq, UInt32.or_eq_zero_iff, not_and]
  exact fun _ => by decide

theorem standard_and_not_flag (mask : UInt32) :
    canIdIsExtended (mask &&& ~~~CAN_FLAG_EXTENDED) = false := by
  unfold canIdIsExtended
  rw [UInt32.and_assoc, UInt32.not_and_self, UInt32.and_zero]
  decide

theorem fieldsOf_mask (mask : UInt32) (extended : Bool) :
    fieldsOf (mcp2515FramePackMask mask extended) =
      if extended then ⟨(mask >>> 18) &&& 0x7FF, true, mask &&& 0x3FFFF⟩
      else ⟨mask &&& 0x7FF, false, 0⟩ := by
  unfold mcp2515FramePackMask
  cases extended with
  | true =>
    rw [if_pos rfl, if_pos rfl, fieldsOf_extended (extended_or_flag mask), UInt32.shiftRight_or,
      or_and, or_and]
    have hhigh : (CAN_FLAG_EXTENDED >>> 18) &&& 0x7FF = 0 := by decide
    have hlow : CAN_FLAG_EXTENDED &&& 0x3FFFF = 0 := by decide
    rw [hhigh, hlow, UInt32.or_zero, UInt32.or_zero]
  | false =>
    rw [if_neg Bool.false_ne_true, if_neg Bool.false_ne_true,
      fieldsOf_standard (standard_and_not_flag mask), UInt32.and_assoc]
    rfl

theorem extended_bits_iff (x : UInt32) :
    x &&& CAN_EXTENDED_ID_MAX = 0 ↔ (x >>> 18) &&& 0x7FF = 0 ∧ x &&& 0x3FFFF = 0 := by
  rw [← UInt32.toNat_inj, ← UInt32.toNat_inj, ← UInt32.toNat_inj, toNat_and_low x 29 rfl,
    toNat_and_low _ 11 rfl, toNat_and_low x 18 rfl, toNat_shiftRight x 18 rfl]
  change _ = 0 ↔ _ = 0 ∧ _ = 0
  omega

theorem hits_iff (filter : CanFilter) (frame : CanMessage) :
    (fieldsOf (mcp2515FramePackId filter.id)).hits
      (fieldsOf (mcp2515FramePackMask filter.mask (canIdIsExtended filter.id))) frame = true ↔
      filter.Fits frame := by
  have hfits : ∀ {extended : Bool}, canIdIsExtended filter.id = extended →
      frame.extended = extended → (filter.Fits frame ↔
        ((frame.id ^^^ filter.id) &&& filter.mask) &&& idBits extended = 0) :=
    fun hfilter hframe => ⟨fun h => hframe ▸ h.bits, fun h => ⟨hfilter.trans hframe.symm, hframe ▸ h⟩⟩
  have hother : ∀ {a b : Bool}, canIdIsExtended filter.id = a → frame.extended = b → a ≠ b →
      ¬ filter.Fits frame := fun ha hb hne h => hne (ha.symm.trans (h.type_eq.trans hb))
  rw [fieldsOf_mask, IdFields.hits, Bool.and_eq_true, decide_eq_true_eq]
  cases hfilter : canIdIsExtended filter.id <;> cases hframe : frame.extended
  · rw [fieldsOf_standard hfilter, hfits hfilter hframe, if_neg Bool.false_ne_true,
      if_neg Bool.false_ne_true]
    simp only [Bool.and_eq_true, decide_eq_true_eq, xor_masked, UInt32.and_zero, UInt32.zero_and,
      and_true, true_and]
    rfl
  · rw [fieldsOf_standard hfilter]
    exact iff_of_false (fun h => Bool.false_ne_true h.1)
      (hother hfilter hframe Bool.false_ne_true)
  · rw [fieldsOf_extended hfilter]
    exact iff_of_false (fun h => Bool.false_ne_true h.1.symm)
      (hother hfilter hframe Bool.false_ne_true.symm)
  · rw [fieldsOf_extended hfilter, hfits hfilter hframe, if_pos rfl, if_pos rfl]
    simp only [Bool.and_eq_true, decide_eq_true_eq, true_and]
    rw [xor_masked, ← UInt32.shiftRight_xor, ← UInt32.shiftRight_and, ← xor_and, and_masked]
    exact (extended_bits_iff _).symm

def idFlags (extended remote : Bool) : UInt32 :=
  (if extended then CAN_FLAG_EXTENDED else 0) ||| (if remote then CAN_FLAG_RTR else 0)

theorem canIdPack_eq (id : UInt32) (extended remote : Bool) :
    canIdPack id extended remote = (id &&& idBits extended) ||| idFlags extended remote := by
  cases extended <;> cases remote
  · exact UInt32.or_zero.symm
  · change _ = _ ||| (0 ||| CAN_FLAG_RTR)
    rw [UInt32.zero_or]
    rfl
  · change _ = _ ||| (CAN_FLAG_EXTENDED ||| 0)
    rw [UInt32.or_zero]
    rfl
  · exact UInt32.or_assoc _ _ _

theorem packed_parts (id : UInt32) (extended remote : Bool) :
    canIdPack id extended remote &&& idBits extended = id &&& idBits extended ∧
    canIdPack id extended remote &&& strayBits extended = 0 ∧
    canIdPack id extended remote &&& CAN_FLAG_EXTENDED =
      if extended then CAN_FLAG_EXTENDED else 0 := by
  have hbits : ∀ extended remote : Bool,
      idFlags extended remote &&& idBits extended = 0 ∧
      idBits extended &&& strayBits extended = 0 ∧
      idFlags extended remote &&& strayBits extended = 0 ∧
      idBits extended &&& CAN_FLAG_EXTENDED = 0 ∧
      idFlags extended remote &&& CAN_FLAG_EXTENDED =
        if extended then CAN_FLAG_EXTENDED else 0 := by decide
  obtain ⟨hflags, hstray, hflagsStray, hflag, hflags'⟩ := hbits extended remote
  rw [canIdPack_eq]
  refine ⟨?_, ?_, ?_⟩
  · rw [or_and, UInt32.and_assoc, UInt32.and_self, hflags, UInt32.or_zero]
  · rw [or_and, UInt32.and_assoc, hstray, hflagsStray, UInt32.and_zero, UInt32.or_zero]
  · rw [or_and, UInt32.and_assoc, hflag, hflags', UInt32.and_zero, UInt32.zero_or]

/-- A mask that the controller can express. -/
def CanFilter.Expressible (filter : CanFilter) : Prop :=
  filter.mask &&& CAN_FLAG_EXTENDED ≠ 0 ∧ filter.mask &&& CAN_FLAG_RTR = 0

theorem and_flag_iff (word : UInt32) (extended : Bool) :
    (if extended then CAN_FLAG_EXTENDED else 0) = word &&& CAN_FLAG_EXTENDED ↔
      canIdIsExtended word = extended := by
  have hne : CAN_FLAG_EXTENDED ≠ 0 := by decide
  unfold canIdIsExtended
  rcases and_bit word 31 (b := CAN_FLAG_EXTENDED) rfl with hzero | hone
  · rw [hzero]
    cases extended <;> simp [hne]
  · rw [hone]
    cases extended <;> simp [hne, hne.symm]

theorem canFilterMatches_iff (h : filter.Expressible) (frame : CanMessage) :
    canFilterMatches filter frame.packed = true ↔ filter.Fits frame ∧ ¬ filter.Strays := by
  obtain ⟨hextended, hremote⟩ := h
  obtain ⟨hid, hstray, hflag⟩ := packed_parts frame.id frame.extended frame.remote
  have hall : ∀ extended : Bool, idBits extended |||
      (strayBits extended ||| (CAN_FLAG_RTR ||| CAN_FLAG_EXTENDED)) = -1 := by decide
  have hbits : ((frame.packed ^^^ filter.id) &&& filter.mask) &&& idBits frame.extended =
      ((frame.id ^^^ filter.id) &&& filter.mask) &&& idBits frame.extended := masked_congr hid
  have hbeyond : ((frame.packed ^^^ filter.id) &&& filter.mask) &&& strayBits frame.extended =
      ((0 ^^^ filter.id) &&& filter.mask) &&& strayBits frame.extended :=
    masked_congr (hstray.trans UInt32.zero_and.symm)
  have hrtr : ((frame.packed ^^^ filter.id) &&& filter.mask) &&& CAN_FLAG_RTR = 0 := by
    rw [UInt32.and_assoc, hremote, UInt32.and_zero]
  have htype : ((frame.packed ^^^ filter.id) &&& filter.mask) &&& CAN_FLAG_EXTENDED = 0 ↔
      canIdIsExtended filter.id = frame.extended := by
    rw [UInt32.and_assoc, (and_bit filter.mask 31 rfl).resolve_left hextended, ← masked_eq_iff,
      ← and_flag_iff, ← hflag]
    rfl
  unfold canFilterMatches
  rw [decide_eq_true_eq, masked_eq_iff, eq_zero_iff_parts (hall frame.extended), and_or, and_or,
    UInt32.or_eq_zero_iff, UInt32.or_eq_zero_iff, hbits, hbeyond, hrtr, htype, UInt32.zero_xor]
  constructor
  · rintro ⟨hfits, hstrays, -, hsame⟩
    refine ⟨⟨hsame, hfits⟩, fun hstray => hstray ?_⟩
    rw [hsame]
    exact hstrays
  · rintro ⟨⟨hsame, hfits⟩, hstrays⟩
    refine ⟨hfits, ?_, rfl, hsame⟩
    rw [CanFilter.Strays, hsame, not_not] at hstrays
    exact hstrays

end matching

section programming

variable {regs : Registers} {reg other : UInt8} {bytes : Bytes}

/-- Four registers, and four others. -/
def Apart (reg other : UInt8) : Prop :=
  ∀ i < 4, ∀ j < 4, other + UInt8.ofNat i ≠ reg + UInt8.ofNat j

instance (reg other : UInt8) : Decidable (Apart reg other) :=
  inferInstanceAs (Decidable (∀ i < 4, ∀ j < 4, other + UInt8.ofNat i ≠ reg + UInt8.ofNat j))

theorem idFields_congr {regs' : Registers} {reg' : UInt8}
    (h : ∀ i < 4, regs' (reg' + UInt8.ofNat i) = regs (reg + UInt8.ofNat i)) :
    regs'.idFields reg' = regs.idFields reg := by
  have h0 : regs' reg' = regs reg := by simpa using h 0 (by decide)
  have h1 : regs' (reg' + 1) = regs (reg + 1) := h 1 (by decide)
  have h2 : regs' (reg' + 2) = regs (reg + 2) := h 2 (by decide)
  have h3 : regs' (reg' + 3) = regs (reg + 3) := h 3 (by decide)
  unfold Registers.idFields
  rw [h0, h1, h2, h3]

theorem idFields_write_other (hlength : bytes.length = 4) (hapart : Apart reg other) :
    (regs.write reg bytes).idFields other = regs.idFields other :=
  idFields_congr fun i hi => write_other fun j hj => hapart i hi j (hlength ▸ hj)

theorem idFields_write (hlength : bytes.length = 4) :
    (regs.write reg bytes).idFields reg = fieldsOf bytes := by
  apply idFields_congr
  intro i hi
  rw [write_get (hlength ▸ hi) (by omega)]
  interval_cases i <;> rfl

theorem idFields_update {value : UInt8} (h : ∀ i < 4, other + UInt8.ofNat i ≠ reg) :
    Registers.idFields (Function.update regs reg value) other = regs.idFields other :=
  idFields_congr fun i hi => Function.update_of_ne (h i hi) ..

/-- What the driver has programmed. -/
structure Programmed (plan : Mcp2515FilterPlan) (regs : Registers) : Prop where
  filters : ∀ slot, regs.idFields (filterReg slot) = fieldsOf (mcp2515FramePackId (plan.filterId slot))
  mask0 : regs.idFields REG_RXM0SIDH =
    fieldsOf (mcp2515FramePackMask (plan.mask 0) (plan.maskExtended 0))
  mask1 : regs.idFields REG_RXM1SIDH =
    fieldsOf (mcp2515FramePackMask (plan.mask 1) (plan.maskExtended 1))
  ctrl : ∀ buffer : RxBuffer, regs buffer.ctrl &&& RXM ≠ RXM

variable {plan : Mcp2515FilterPlan}

theorem configureFilters_programmed (hfilters : plan.acceptAll = false) (m : Mcp2515) :
    Programmed plan ((configureFilters plan).run m).2.chip.regs := by
  have hslots : List.finRange 6 = [0, 1, 2, 3, 4, 5] := by decide
  have hregs : ((configureFilters plan).run m).2.chip.regs =
      Function.update (Function.update ((((((((m.chip.regs.write
        REG_RXF0SIDH (mcp2515FramePackId (plan.filterId 0))).write
        REG_RXF1SIDH (mcp2515FramePackId (plan.filterId 1))).write
        REG_RXF2SIDH (mcp2515FramePackId (plan.filterId 2))).write
        REG_RXF3SIDH (mcp2515FramePackId (plan.filterId 3))).write
        REG_RXF4SIDH (mcp2515FramePackId (plan.filterId 4))).write
        REG_RXF5SIDH (mcp2515FramePackId (plan.filterId 5))).write
        REG_RXM0SIDH (mcp2515FramePackMask (plan.mask 0) (plan.maskExtended 0))).write
        REG_RXM1SIDH (mcp2515FramePackMask (plan.mask 1) (plan.maskExtended 1)))
        REG_RXB0CTRL 0x04) REG_RXB1CTRL 0x00 := by
    unfold configureFilters
    rw [hfilters, if_neg Bool.false_ne_true, hslots]
    rfl
  have hmask (mask : UInt32) (extended : Bool) :
      (mcp2515FramePackMask mask extended).length = 4 := packId_length _
  rw [hregs]
  constructor
  · intro slot
    fin_cases slot <;> simp (disch := first | decide | exact packId_length _ | exact hmask _ _) only
      [filterReg, idFields_update, idFields_write_other] <;> exact idFields_write (packId_length _)
  · simp (disch := first | decide | exact hmask _ _) only [idFields_update, idFields_write_other,
      idFields_write]
  · simp (disch := first | decide | exact hmask _ _) only [idFields_update, idFields_write]
  · intro buffer
    cases buffer
    · change (0x04 : UInt8) &&& RXM ≠ RXM
      decide
    · change (0x00 : UInt8) &&& RXM ≠ RXM
      decide

end programming

section planning

variable {filters : List CanFilter} {plan : Mcp2515FilterPlan} {frame : CanMessage}

/-- What the driver takes a set of filters for. -/
structure ValidFilters (filters : List CanFilter) : Prop where
  count : filters.length ≤ 6
  expressible : ∀ filter ∈ filters, filter.Expressible
  leader : ∀ i < filters.length,
    (filterAt filters i).mask = (filterAt filters (bankLeader i)).mask ∧
    canIdIsExtended (filterAt filters i).id = canIdIsExtended (filterAt filters (bankLeader i)).id

theorem filtersAreValid_spec (h : mcp2515FiltersAreValid filters = true) : ValidFilters filters := by
  unfold mcp2515FiltersAreValid at h
  dsimp only at h
  split at h
  · rename_i hnone
    obtain rfl := List.eq_nil_of_length_eq_zero hnone
    exact ⟨Nat.zero_le _, nofun, nofun⟩
  split at h
  · exact absurd h Bool.false_ne_true
  · rename_i hcount
    simp only [Bool.and_eq_true, List.all_eq_true, List.mem_range, Bool.not_eq_true',
      Bool.or_eq_false_iff, decide_eq_false_iff_not, not_not] at h
    exact ⟨Nat.not_lt.mp hcount, h.1, h.2⟩

/-- The receive buffer that a slot belongs to. -/
def bankOf (slot : Fin 6) : Fin 2 := if slot.val < 2 then 0 else 1

/-- A slot of the plan, with what it is compared under, is a filter of the set. -/
structure SlotOf (plan : Mcp2515FilterPlan) (slot : Fin 6) (filter : CanFilter) : Prop where
  id_eq : plan.filterId slot = filter.id
  mask_eq : plan.mask (bankOf slot) = filter.mask
  extended_eq : plan.maskExtended (bankOf slot) = canIdIsExtended filter.id

theorem filterAt_mem {i : ℕ} (h : i < filters.length) : filterAt filters i ∈ filters := by
  unfold filterAt
  rw [List.getD_eq_getElem _ _ h]
  exact List.getElem_mem h

/-- The filter that is written to a slot. -/
def slotIndex (count slot : ℕ) : ℕ :=
  if slot < 2 then slot % min count 2
  else if count > 2 then 2 + (slot - 2) % (count - 2)
  else (slot - 2) % min count 2

theorem slotIndex_lt {count : ℕ} (hcount : 0 < count) (slot : ℕ) : slotIndex count slot < count := by
  have hmin : 0 < min count 2 := by omega
  unfold slotIndex
  split
  · exact (Nat.mod_lt _ hmin).trans_le (min_le_left _ _)
  split
  · have hmod := Nat.mod_lt (slot - 2) (y := count - 2) (by omega)
    omega
  · exact (Nat.mod_lt _ hmin).trans_le (min_le_left _ _)

theorem slotIndex_self {count slot : ℕ} (h : slot < count) : slotIndex count slot = slot := by
  unfold slotIndex
  split
  · exact Nat.mod_eq_of_lt (by omega)
  · rw [if_pos (by omega), Nat.mod_eq_of_lt (by omega)]
    omega

theorem bankLeader_slotIndex {count : ℕ} (hcount : 0 < count) (slot : ℕ) :
    bankLeader (slotIndex count slot) = if slot < 2 ∨ count ≤ 2 then 0 else 2 := by
  have hmin : slot % min count 2 < 2 ∧ (slot - 2) % min count 2 < 2 :=
    ⟨(Nat.mod_lt _ (by omega)).trans_le (min_le_right _ _),
      (Nat.mod_lt _ (by omega)).trans_le (min_le_right _ _)⟩
  unfold bankLeader slotIndex MCP2515_BANK0_SLOTS
  by_cases hslot : slot < 2
  · rw [if_pos hslot, if_pos hmin.1, if_pos (.inl hslot)]
  by_cases hmany : count > 2
  · rw [if_neg hslot, if_pos hmany, if_neg (by omega), if_neg (by omega)]
  · rw [if_neg hslot, if_neg hmany, if_pos hmin.2, if_pos (.inr (by omega))]

theorem filterPlan_eq (h : mcp2515FiltersAreValid filters = true) (hsome : filters.length ≠ 0) :
    ∃ plan, mcp2515FilterPlan filters = some plan ∧ plan.acceptAll = false ∧
      (∀ slot, plan.filterId slot = (filterAt filters (slotIndex filters.length slot)).id) ∧
      ∀ slot : Fin 6, plan.mask (bankOf slot) =
          (filterAt filters (bankLeader (slotIndex filters.length slot))).mask ∧
        plan.maskExtended (bankOf slot) =
          canIdIsExtended (filterAt filters (bankLeader (slotIndex filters.length slot))).id := by
  have hcount : 0 < filters.length := Nat.pos_of_ne_zero hsome
  have hbank0 : (if filters.length < 2 then filters.length else 2) = min filters.length 2 := by
    split <;> omega
  unfold mcp2515FilterPlan
  simp only [h, Bool.not_true, Bool.false_eq_true, if_false, if_neg hsome]
  refine ⟨_, rfl, rfl, fun slot => ?_, fun slot => ?_⟩
  · change (if slot.val < 2 then
        (filterAt filters (slot.val % if filters.length < 2 then filters.length else 2)).id
      else
        (filterAt filters ((if filters.length > 2 then 2 else 0) + (slot.val - 2) %
          if filters.length > 2 then filters.length - 2
          else if filters.length < 2 then filters.length else 2)).id) = _
    rw [hbank0]
    unfold slotIndex
    split
    · rfl
    split
    · rfl
    · rw [Nat.zero_add]
  · rw [bankLeader_slotIndex hcount]
    change ![(filterAt filters 0).mask,
        (filterAt filters (if filters.length > 2 then 2 else 0)).mask] (bankOf slot) = _ ∧
      ![canIdIsExtended (filterAt filters 0).id,
        canIdIsExtended (filterAt filters (if filters.length > 2 then 2 else 0)).id]
        (bankOf slot) = _
    unfold bankOf
    by_cases hslot : slot.val < 2
    · rw [if_pos hslot, if_pos (show slot.val < 2 ∨ filters.length ≤ 2 from .inl hslot)]
      exact ⟨rfl, rfl⟩
    by_cases hmany : filters.length > 2
    · rw [if_neg hslot, if_pos hmany, if_neg (by omega)]
      exact ⟨rfl, rfl⟩
    · rw [if_neg hslot, if_neg hmany, if_pos (.inr (Nat.not_lt.mp hmany))]
      exact ⟨rfl, rfl⟩

theorem plan_slots (h : mcp2515FiltersAreValid filters = true) (hsome : filters.length ≠ 0) :
    ∃ plan, mcp2515FilterPlan filters = some plan ∧ plan.acceptAll = false ∧
      ∀ slot, SlotOf plan slot (filterAt filters (slotIndex filters.length slot)) := by
  obtain ⟨plan, hplan, hall, hid, hmask⟩ := filterPlan_eq h hsome
  refine ⟨plan, hplan, hall, fun slot => ?_⟩
  obtain ⟨hleaderMask, hleaderType⟩ := (filtersAreValid_spec h).leader
    (slotIndex filters.length slot) (slotIndex_lt (Nat.pos_of_ne_zero hsome) slot)
  exact ⟨hid slot, (hmask slot).1.trans hleaderMask.symm, (hmask slot).2.trans hleaderType.symm⟩

theorem accepts_iff (h : mcp2515FiltersAreValid filters = true) (hsome : filters.length ≠ 0) :
    ∃ plan, mcp2515FilterPlan filters = some plan ∧ ∀ (m : Mcp2515) (frame : CanMessage),
      let regs := ((configureFilters plan).run m).2.chip.regs
      (regs.accepts .rxb0 frame = true ∨ regs.accepts .rxb1 frame = true) ↔
        ∃ filter ∈ filters, filter.Fits frame := by
  obtain ⟨plan, hplan, hall, hslots⟩ := plan_slots h hsome
  refine ⟨plan, hplan, fun m frame => ?_⟩
  have hprogrammed := configureFilters_programmed hall m
  generalize ((configureFilters plan).run m).2.chip.regs = regs at hprogrammed
  have hhits : ∀ slot : Fin 6,
      (regs.idFields (filterReg slot)).hits
        (regs.idFields (if slot.val < 2 then REG_RXM0SIDH else REG_RXM1SIDH)) frame = true ↔
      (filterAt filters (slotIndex filters.length slot)).Fits frame := by
    intro slot
    have hslot := hslots slot
    have hmask : regs.idFields (if slot.val < 2 then REG_RXM0SIDH else REG_RXM1SIDH) =
        fieldsOf (mcp2515FramePackMask (plan.mask (bankOf slot))
          (plan.maskExtended (bankOf slot))) := by
      unfold bankOf
      split
      · exact hprogrammed.mask0
      · exact hprogrammed.mask1
    rw [hprogrammed.filters, hmask, hslot.id_eq, hslot.mask_eq, hslot.extended_eq]
    exact hits_iff _ frame
  have hbuffer : ∀ buffer : RxBuffer, regs.accepts buffer frame = true ↔
      ∃ filter ∈ buffer.filters,
        (regs.idFields filter).hits (regs.idFields buffer.mask) frame = true := by
    intro buffer
    rw [Registers.accepts, Bool.or_eq_true, List.any_eq_true, decide_eq_true_eq]
    exact or_iff_right (hprogrammed.ctrl buffer)
  have hslot : (regs.accepts .rxb0 frame = true ∨ regs.accepts .rxb1 frame = true) ↔
      ∃ slot : Fin 6, (filterAt filters (slotIndex filters.length slot)).Fits frame := by
    simp only [hbuffer, ← hhits]
    constructor
    · rintro (⟨filter, hmem, hhit⟩ | ⟨filter, hmem, hhit⟩)
      · simp only [RxBuffer.filters, List.mem_cons, List.not_mem_nil, or_false] at hmem
        rcases hmem with rfl | rfl
        · exact ⟨0, hhit⟩
        · exact ⟨1, hhit⟩
      · simp only [RxBuffer.filters, List.mem_cons, List.not_mem_nil, or_false] at hmem
        rcases hmem with rfl | rfl | rfl | rfl
        · exact ⟨2, hhit⟩
        · exact ⟨3, hhit⟩
        · exact ⟨4, hhit⟩
        · exact ⟨5, hhit⟩
    · rintro ⟨slot, hhit⟩
      fin_cases slot
      · exact .inl ⟨REG_RXF0SIDH, by decide, hhit⟩
      · exact .inl ⟨REG_RXF1SIDH, by decide, hhit⟩
      · exact .inr ⟨REG_RXF2SIDH, by decide, hhit⟩
      · exact .inr ⟨REG_RXF3SIDH, by decide, hhit⟩
      · exact .inr ⟨REG_RXF4SIDH, by decide, hhit⟩
      · exact .inr ⟨REG_RXF5SIDH, by decide, hhit⟩
  refine hslot.trans ⟨?_, ?_⟩
  · rintro ⟨slot, hfits⟩
    exact ⟨_, filterAt_mem (slotIndex_lt (Nat.pos_of_ne_zero hsome) slot), hfits⟩
  · rintro ⟨filter, hmem, hfits⟩
    obtain ⟨i, hi, rfl⟩ := List.getElem_of_mem hmem
    have hcount := (filtersAreValid_spec h).count
    refine ⟨⟨i, by omega⟩, ?_⟩
    rw [slotIndex_self hi, filterAt, List.getD_eq_getElem _ _ hi]
    exact hfits

end planning

theorem accepts_all (m : Mcp2515) (frame : CanMessage) :
    ∃ plan, mcp2515FilterPlan [] = some plan ∧
      ((configureFilters plan).run m).2.chip.regs.accepts .rxb0 frame = true := by
  refine ⟨_, rfl, ?_⟩
  rw [Registers.accepts, Bool.or_eq_true, decide_eq_true_eq]
  left
  change (0x64 : UInt8) &&& RXM = RXM
  decide

/-- For every valid set of filters, and whatever the controller had before: it accepts the frames
that the software accepts, but for those that fit only filters that ask for a bit beyond the
identifier. -/
theorem mcp2515_filters_agree_iff (filters : List CanFilter) (frame : CanMessage)
    (hvalid : mcp2515FiltersAreValid filters = true) :
    ∃ plan, mcp2515FilterPlan filters = some plan ∧ ∀ m : Mcp2515,
      let regs := ((configureFilters plan).run m).2.chip.regs
      ((regs.accepts .rxb0 frame = true ∨ regs.accepts .rxb1 frame = true ↔
          canFiltersAccept filters frame.packed = true) ↔
        ((∃ filter ∈ filters, filter.Fits frame ∧ filter.Strays) →
          ∃ filter ∈ filters, filter.Fits frame ∧ ¬ filter.Strays)) := by
  by_cases hsome : filters.length = 0
  · obtain rfl := List.eq_nil_of_length_eq_zero hsome
    refine ⟨_, rfl, fun m => iff_of_true (iff_of_true (.inl ?_) rfl) nofun⟩
    obtain ⟨plan, hplan, haccepts⟩ := accepts_all m frame
    obtain rfl := Option.some.inj hplan
    exact haccepts
  · obtain ⟨plan, hplan, haccepts⟩ := accepts_iff hvalid hsome
    refine ⟨plan, hplan, fun m => ?_⟩
    have hhardware := haccepts m frame
    have hsoftware : canFiltersAccept filters frame.packed = true ↔
        ∃ filter ∈ filters, filter.Fits frame ∧ ¬ filter.Strays := by
      rw [canFiltersAccept, Bool.or_eq_true, decide_eq_true_eq, or_iff_right hsome,
        List.any_eq_true]
      have hexpressible := (filtersAreValid_spec hvalid).expressible
      exact exists_congr fun filter => and_congr_right fun hmem =>
        canFilterMatches_iff (hexpressible filter hmem) frame
    rw [hsoftware]
    constructor
    · rintro hagree ⟨filter, hmem, hfits, -⟩
      exact hagree.mp (hhardware.mpr ⟨filter, hmem, hfits⟩)
    · intro hcovered
      refine ⟨fun h => ?_, fun ⟨filter, hmem, hfits, _⟩ => hhardware.mpr ⟨filter, hmem, hfits⟩⟩
      obtain ⟨filter, hmem, hfits⟩ := hhardware.mp h
      by_cases hstrays : filter.Strays
      · exact hcovered ⟨filter, hmem, hfits, hstrays⟩
      · exact ⟨filter, hmem, hfits, hstrays⟩

/-- A data frame with a standard identifier. -/
def standardFrame (id : UInt32) : CanMessage where
  id := id
  length := 0
  extended := false
  remote := false
  data := List.replicate 8 0
  data_length := rfl

/-- Two exact identifiers in one bank, and a range and two more in the other. -/
def fiveFilters : List CanFilter :=
  [⟨0x123, 0x800007FF⟩, ⟨0x124, 0x800007FF⟩, ⟨0x200, 0x80000700⟩, ⟨0x300, 0x80000700⟩,
    ⟨0x500, 0x80000700⟩]

theorem mcp2515_filters_agree_five :
    ∃ plan, mcp2515FilterPlan fiveFilters = some plan ∧ ∀ m : Mcp2515,
      let regs := ((configureFilters plan).run m).2.chip.regs
      regs.accepts .rxb0 (standardFrame 0x5AB) = true ∨
          regs.accepts .rxb1 (standardFrame 0x5AB) = true ↔
        canFiltersAccept fiveFilters (standardFrame 0x5AB).packed = true := by
  obtain ⟨plan, hplan, hiff⟩ := mcp2515_filters_agree_iff fiveFilters (standardFrame 0x5AB) (by decide)
  have hnone : ∀ filter ∈ fiveFilters, ¬ filter.Strays := by
    unfold CanFilter.Strays
    decide
  refine ⟨plan, hplan, fun m => (hiff m).mpr fun hstray => ?_⟩
  obtain ⟨filter, hmem, -, hstrays⟩ := hstray
  exact absurd hstrays (hnone filter hmem)

/-- An exact extended identifier whose flag was forgotten: the controller takes the standard frames
that end alike, and the software takes none. -/
theorem mcp2515_filters_disagree :
    mcp2515FiltersAreValid [⟨0x12345678, 0x9FFFFFFF⟩] = true ∧
    (∃ plan, mcp2515FilterPlan [⟨0x12345678, 0x9FFFFFFF⟩] = some plan ∧
      (mcp2515Started plan .normal).chip.regs.accepts .rxb0 (standardFrame 0x678) = true) ∧
    canIdIsValid (standardFrame 0x678).id (standardFrame 0x678).extended = true ∧
    canFiltersAccept [⟨0x12345678, 0x9FFFFFFF⟩] (standardFrame 0x678).packed = false := by
  refine ⟨by decide, ⟨_, rfl, ?_⟩, by decide, by decide⟩
  decide

end Pico
