import PicoFramework.Lib.Bits
import PicoFramework.Lib.Hex
import PicoFramework.Lib.Numeral
import PicoFramework.Spec.HexParser

/-! The lines that are taken for records are those of the format, and a line that is refused. -/

namespace Pico

open Lib.Hex Lib.Numeral

section format

/-- A record of the format. -/
structure IntelHex where
  offset : ℕ
  type : UInt8
  data : Bytes
  offset_lt : offset < 2 ^ 16
  data_le : data.length ≤ HEX_MAX_RECORD_DATA

namespace IntelHex

/-- The bytes that the checksum is taken over. -/
def counted (r : IntelHex) : Bytes :=
  UInt8.ofNat r.data.length :: UInt8.ofNat (r.offset / 256) :: UInt8.ofNat (r.offset % 256) ::
    r.type :: r.data

def frame (r : IntelHex) : Bytes := r.counted ++ [-r.counted.sum]

/-- The line is that record, with whitespace around it at most. -/
def WrittenAs (r : IntelHex) (line : Bytes) : Prop :=
  ∃ lead text trail, (∀ c ∈ lead, isSpace c = true) ∧ (∀ c ∈ trail, isSpace c = true) ∧
    Spells text r.frame ∧ line = lead ++ 0x3A :: (text ++ trail)

/-- A type that there is, with the data that belong to it. -/
def Proper (r : IntelHex) : Prop :=
  r.type = HEX_RECORD_DATA ∨ (r.type = HEX_RECORD_EOF ∧ r.data = []) ∨
    ((r.type = HEX_RECORD_EXTENDED_SEGMENT ∨ r.type = HEX_RECORD_EXTENDED_LINEAR) ∧
      r.data.length = 2) ∨
    ((r.type = HEX_RECORD_START_SEGMENT ∨ r.type = HEX_RECORD_START_LINEAR) ∧ r.data.length = 4)

/-- The data as a number. -/
def number (r : IntelHex) : ℕ := value 256 0 (r.data.map UInt8.toNat)

/-- What a record does to the reading of those after it. -/
def advance (r : IntelHex) (parser : HexParser) : HexParser :=
  if r.type = HEX_RECORD_EOF then { parser with seenEof := true }
  else if r.type = HEX_RECORD_EXTENDED_SEGMENT then { parser with addressBase := r.number * 2 ^ 4 }
  else if r.type = HEX_RECORD_EXTENDED_LINEAR then { parser with addressBase := r.number * 2 ^ 16 }
  else if r.type = HEX_RECORD_START_SEGMENT ∨ r.type = HEX_RECORD_START_LINEAR then
    { parser with startAddress := r.number, haveStartAddress := true }
  else parser

/-- The record as it is handed out: only data have an address. -/
def recorded (r : IntelHex) (base : ℕ) : HexRecord :=
  ⟨r.type, if r.type = HEX_RECORD_DATA then wrap32 (base + r.offset) else 0, r.data⟩

end IntelHex

variable {r : IntelHex} {line frame : Bytes}

theorem length_counted (r : IntelHex) : r.counted.length = r.data.length + PREFIX_BYTES := rfl

theorem length_frame (r : IntelHex) : r.frame.length = r.data.length + FRAME_BYTES := by
  rw [IntelHex.frame, List.length_append, length_counted]
  rfl

theorem sum_frame (r : IntelHex) : r.frame.sum = 0 := by
  rw [IntelHex.frame, List.sum_append, List.sum_singleton]
  exact UInt8.add_right_neg _

theorem toNat_count (r : IntelHex) : (UInt8.ofNat r.data.length).toNat = r.data.length :=
  Nat.mod_eq_of_lt (Nat.lt_succ_of_le r.data_le)

/-- A frame is what it says it is: as long as it counts, and of sum zero. -/
theorem exists_frame_iff : (∃ r : IntelHex, r.frame = frame) ↔
    frame.length = (frame.getD 0 0).toNat + FRAME_BYTES ∧ frame.sum = 0 := by
  constructor
  · rintro ⟨r, rfl⟩
    refine ⟨?_, sum_frame r⟩
    change _ = (UInt8.ofNat r.data.length).toNat + FRAME_BYTES
    rw [length_frame, toNat_count]
  · rintro ⟨hlength, hsum⟩
    have hfive : 5 ≤ frame.length := by
      rw [hlength]
      exact Nat.le_add_left _ _
    rcases frame with _ | ⟨count, _ | ⟨high, _ | ⟨low, _ | ⟨type, rest⟩⟩⟩⟩
    · exact absurd hfive (by simp)
    · exact absurd hfive (by simp)
    · exact absurd hfive (by simp)
    · exact absurd hfive (by simp)
    · have hrest : rest ≠ [] := by
        rintro rfl
        exact absurd hfive (by simp)
      obtain ⟨data, checksum, rfl⟩ : ∃ data checksum, rest = data ++ [checksum] :=
        ⟨_, _, (List.dropLast_concat_getLast hrest).symm⟩
      have hdata : data.length = count.toNat := by simpa [FRAME_BYTES, PREFIX_BYTES] using hlength
      have hcount := count.toNat_lt
      have hhigh := high.toNat_lt
      have hlow := low.toNat_lt
      have hle : data.length ≤ HEX_MAX_RECORD_DATA := by
        rw [HEX_MAX_RECORD_DATA]
        omega
      refine ⟨⟨256 * high.toNat + low.toNat, type, data, by omega, hle⟩, ?_⟩
      have hcounted : IntelHex.counted ⟨256 * high.toNat + low.toNat, type, data, by omega, hle⟩ =
          count :: high :: low :: type :: data := by
        rw [IntelHex.counted, hdata]
        dsimp only
        rw [show (256 * high.toNat + low.toNat) / 256 = high.toNat by omega,
          show (256 * high.toNat + low.toNat) % 256 = low.toNat by omega, UInt8.ofNat_toNat,
          UInt8.ofNat_toNat, UInt8.ofNat_toNat]
      have hchecksum : -(count :: high :: low :: type :: data).sum = checksum := by
        simp only [List.sum_cons, List.sum_append] at hsum ⊢
        grind
      rw [IntelHex.frame, hcounted, hchecksum]
      rfl

end format

section text

variable {line frame text bytes : Bytes}

theorem decodeNibble_digit {c d : UInt8} (h : decodeNibble c = some d) : Digit c d.toNat := by
  have hall : (decodeNibble c).all (fun d => Digit c d.toNat) = true :=
    Lib.Bits.forall_byte (P := fun c => (decodeNibble c).all (fun d => Digit c d.toNat) = true)
      (by decide) c
  rw [h, Option.all_some, decide_eq_true_eq] at hall
  exact hall

theorem decodeNibble_of_digit {c : UInt8} {n : ℕ} (h : Digit c n) :
    decodeNibble c = some (UInt8.ofNat n) := by
  exact h.spelled (P := fun c n => decodeNibble c = some (UInt8.ofNat n)) (by decide)

theorem decodeByte_eq {high low : UInt8} {a b : ℕ} (hhigh : Digit high a) (hlow : Digit low b) :
    decodeByte high low = some (UInt8.ofNat (16 * a + b)) := by
  have hpair : ∀ a < 16, ∀ b < 16,
      (UInt8.ofNat a <<< 4) ||| UInt8.ofNat b = UInt8.ofNat (16 * a + b) := by decide
  rw [decodeByte, decodeNibble_of_digit hhigh, decodeNibble_of_digit hlow]
  exact congrArg some (hpair a hhigh.lt b hlow.lt)

theorem decodeBytes_spells (h : Spells text bytes) : decodeBytes text = some bytes := by
  induction h with
  | nil => rfl
  | cons hhigh hlow _ ih =>
    rw [decodeBytes, decodeByte_eq hhigh hlow, ih]
    rfl

theorem spells_of_decodeBytes (heven : text.length % 2 = 0) (h : decodeBytes text = some bytes) :
    Spells text bytes := by
  induction text using decodeBytes.induct generalizing bytes with
  | case1 high low rest ih =>
    rw [decodeBytes] at h
    simp only [Option.bind_eq_bind, Option.pure_def, Option.bind_eq_some_iff] at h
    obtain ⟨byte, hbyte, rest', hrest, heq⟩ := h
    obtain ⟨a, b, hhigh, hlow⟩ : ∃ a b, Digit high a ∧ Digit low b := by
      rw [decodeByte] at hbyte
      simp only [Option.bind_eq_bind, Option.bind_eq_some_iff] at hbyte
      obtain ⟨a, ha, b, hb, -⟩ := hbyte
      exact ⟨_, _, decodeNibble_digit ha, decodeNibble_digit hb⟩
    rw [decodeByte_eq hhigh hlow] at hbyte
    obtain rfl := Option.some.inj hbyte
    obtain rfl := Option.some.inj heq
    refine .cons hhigh hlow (ih ?_ hrest)
    rw [List.length_cons, List.length_cons] at heven
    omega
  | case2 digits hshort =>
    match digits, hshort with
    | [], _ =>
      obtain rfl : [] = bytes := Option.some.inj h
      exact .nil
    | [_], _ => exact absurd heven (by simp)
    | a :: b :: rest, hshort => exact absurd rfl (hshort a b rest)

theorem digit_not_space {c : UInt8} {n : ℕ} (h : Digit c n) : isSpace c = false := by
  exact h.spelled (P := fun c _ => isSpace c = false) (by decide)

theorem dropWhile_lead {lead rest : Bytes} (hlead : ∀ c ∈ lead, isSpace c = true) :
    (lead ++ 0x3A :: rest).dropWhile isSpace = 0x3A :: rest := by
  rw [List.dropWhile_append_of_pos hlead]
  exact List.dropWhile_cons_of_neg (by decide)

theorem trimmed_trail {trail : Bytes} (h : Spells text bytes)
    (htrail : ∀ c ∈ trail, isSpace c = true) : trimmed (text ++ trail) = text := by
  have hkept : text.rdropWhile isSpace = text := by
    rw [List.rdropWhile_eq_self_iff]
    intro hne
    obtain ⟨n, hdigit⟩ := h.digit _ (List.getLast_mem hne)
    simp [digit_not_space hdigit]
  rw [trimmed, List.rdropWhile, List.reverse_append, List.dropWhile_append_of_pos]
  · exact hkept
  · exact fun c hc => htrail c (List.mem_reverse.mp hc)

theorem hexFrame_ok_iff : hexFrame line = .ok frame ↔
    ∃ r : IntelHex, r.frame = frame ∧ r.WrittenAs line := by
  constructor
  · intro h
    unfold hexFrame at h
    split at h
    · rename_i body hstart
      dsimp only at h
      split_ifs at h with hlength hlong
      split at h
      · cases h
      rename_i bytes hdecode
      split_ifs at h with hcount hsum
      obtain rfl := Except.ok.inj h
      obtain ⟨-, heven⟩ := not_or.mp hlength
      have hspells := spells_of_decodeBytes (not_not.mp heven) hdecode
      have hbytes := hspells.length
      obtain ⟨r, rfl⟩ := exists_frame_iff.mpr
        ⟨by rw [← not_not.mp hcount, hbytes]; omega, not_not.mp hsum⟩
      refine ⟨r, rfl, line.takeWhile isSpace, trimmed body, body.rtakeWhile isSpace,
        fun c hc => List.mem_takeWhile_imp hc, fun c hc => List.mem_rtakeWhile_imp hc, hspells, ?_⟩
      rw [trimmed, List.rdropWhile_append_rtakeWhile, ← hstart, List.takeWhile_append_dropWhile]
    · cases h
  · rintro ⟨r, rfl, lead, text, trail, hlead, htrail, hspells, rfl⟩
    have hlength := hspells.length
    have hframe := length_frame r
    have hdata := r.data_le
    obtain ⟨hcount, hsum⟩ := exists_frame_iff.mp ⟨r, rfl⟩
    have hhalf : text.length / 2 = r.frame.length := by omega
    unfold hexFrame
    rw [dropWhile_lead hlead]
    split
    · rename_i body hstart
      obtain rfl := (List.cons.inj hstart).2
      rw [trimmed_trail hspells htrail, if_neg (by omega), hhalf, if_neg (by omega),
        decodeBytes_spells hspells]
      dsimp only
      rw [if_neg (not_not.mpr hcount), if_neg (not_not.mpr hsum)]
    · rename_i hother
      exact absurd rfl (hother _)

end text

section feeding

variable {parser : HexParser} {record : HexRecord} {line : CString} {r : IntelHex}

theorem word16_eq (high low : UInt8) : word16 high low = value 256 0 [high.toNat, low.toNat] := by
  have hlow := low.toNat_lt
  rw [word16, Nat.shiftLeft_eq, Lib.Bits.or_eq_add 8 (Nat.dvd_mul_left ..) hlow]
  simp

theorem word16_lt (high low : UInt8) : word16 high low < 2 ^ 16 := by
  unfold word16
  apply Nat.or_lt_two_pow
  · rw [Nat.shiftLeft_eq]
    have := high.toNat_lt
    omega
  · have := low.toNat_lt
    omega

theorem word16_offset (r : IntelHex) :
    word16 (UInt8.ofNat (r.offset / 256)) (UInt8.ofNat (r.offset % 256)) = r.offset := by
  have hlt := r.offset_lt
  rw [word16_eq]
  simp only [UInt8.toNat_ofNat', value_cons, value_nil]
  omega

theorem start_eq (a b c d : UInt8) :
    (a.toNat <<< 24) ||| (b.toNat <<< 16) ||| (c.toNat <<< 8) ||| d.toNat =
      value 256 0 [a.toNat, b.toNat, c.toNat, d.toNat] := by
  have hb := b.toNat_lt
  have hc := c.toNat_lt
  have hd := d.toNat_lt
  simp only [Nat.shiftLeft_eq, value_cons, value_nil]
  rw [Lib.Bits.or_eq_add (b := b.toNat * 2 ^ 16) 24 (Nat.dvd_mul_left ..) (by omega),
    Lib.Bits.or_eq_add (b := c.toNat * 2 ^ 8) 16 (by omega) (by omega),
    Lib.Bits.or_eq_add 8 (by omega) hd]
  omega

theorem applyExtension_eq (htype : r.type = HEX_RECORD_EXTENDED_SEGMENT ∨
      r.type = HEX_RECORD_EXTENDED_LINEAR) (hlength : r.data.length = 2) (address : ℕ) :
    applyExtension parser ⟨r.type, address, r.data⟩ = (.ok, r.advance parser) := by
  obtain ⟨high, low, hdata⟩ := List.length_eq_two.mp hlength
  have hnumber : r.number = word16 high low := by
    rw [word16_eq, IntelHex.number, hdata]
    rfl
  have hword := word16_lt high low
  unfold applyExtension IntelHex.advance wrap32
  rw [hnumber, hdata]
  rcases htype with htype | htype
  · rw [htype]
    simp [HEX_RECORD_EOF, HEX_RECORD_EXTENDED_SEGMENT, HEX_RECORD_EXTENDED_LINEAR]
    omega
  · rw [htype]
    simp [HEX_RECORD_EOF, HEX_RECORD_EXTENDED_SEGMENT, HEX_RECORD_EXTENDED_LINEAR]
    omega

theorem applyStartAddress_eq (htype : r.type = HEX_RECORD_START_SEGMENT ∨
      r.type = HEX_RECORD_START_LINEAR) (hlength : r.data.length = 4) (address : ℕ) :
    applyStartAddress parser ⟨r.type, address, r.data⟩ = (.ok, r.advance parser) := by
  match hdata : r.data, hlength with
  | [a, b, c, d], _ =>
    have hnumber : r.number = value 256 0 [a.toNat, b.toNat, c.toNat, d.toNat] := by
      rw [IntelHex.number, hdata]
      rfl
    unfold applyStartAddress IntelHex.advance
    rw [hnumber, ← start_eq]
    rcases htype with htype | htype
    · rw [htype]
      rfl
    · rw [htype]
      rfl

theorem frame_fields (r : IntelHex) : r.frame.getD 3 0 = r.type ∧
    word16 (r.frame.getD 1 0) (r.frame.getD 2 0) = r.offset ∧
    (r.frame.drop PREFIX_BYTES).take (r.frame.getD 0 0).toNat = r.data := by
  refine ⟨rfl, word16_offset r, ?_⟩
  change (r.data ++ [-r.counted.sum]).take (UInt8.ofNat r.data.length).toNat = r.data
  rw [toNat_count, List.take_left]

theorem frame_injective {r r' : IntelHex} (h : r.frame = r'.frame) : r = r' := by
  obtain ⟨htype, hoffset, hdata⟩ := frame_fields r
  obtain ⟨htype', hoffset', hdata'⟩ := frame_fields r'
  rw [h] at htype hoffset hdata
  cases r
  cases r'
  exact IntelHex.mk.injEq .. ▸ ⟨hoffset.symm.trans hoffset', htype.symm.trans htype',
    hdata.symm.trans hdata'⟩

theorem hexParserApply_proper (h : r.Proper) :
    hexParserApply parser r.frame = ⟨.ok, r.advance parser, r.recorded parser.addressBase⟩ := by
  obtain ⟨htype, hoffset, hdata⟩ := frame_fields r
  unfold hexParserApply IntelHex.recorded
  dsimp only
  rw [htype, hoffset, hdata]
  rcases h with h | ⟨h, hnone⟩ | ⟨h, hlength⟩ | ⟨h, hlength⟩
  · rw [if_pos h, if_pos h, IntelHex.advance, h]
    rfl
  · rw [if_neg (by rw [h]; decide), if_pos h, if_neg (not_not.mpr hnone),
      if_neg (by rw [h]; decide), IntelHex.advance, if_pos h]
  · have hne : r.type ≠ HEX_RECORD_DATA ∧ r.type ≠ HEX_RECORD_EOF := by
      rcases h with h | h <;> rw [h] <;> decide
    rw [if_neg hne.1, if_neg hne.2, if_pos h, if_neg hne.1, applyExtension_eq h hlength]
  · have hne : r.type ≠ HEX_RECORD_DATA ∧ r.type ≠ HEX_RECORD_EOF ∧
        ¬(r.type = HEX_RECORD_EXTENDED_SEGMENT ∨ r.type = HEX_RECORD_EXTENDED_LINEAR) := by
      rcases h with h | h <;> rw [h] <;> decide
    rw [if_neg hne.1, if_neg hne.2.1, if_neg hne.2.2, if_pos h, if_neg hne.1,
      applyStartAddress_eq h hlength]

theorem hexParserApply_improper (h : ¬r.Proper) : (hexParserApply parser r.frame).result ≠ .ok ∧
    (hexParserApply parser r.frame).parser = parser ∧
    (hexParserApply parser r.frame).record = ⟨r.type, 0, r.data⟩ := by
  obtain ⟨htype, hoffset, hdata⟩ := frame_fields r
  simp only [IntelHex.Proper, not_or, not_and] at h
  obtain ⟨hne, heof, hextension, hstart⟩ := h
  unfold hexParserApply
  dsimp only
  rw [htype, hoffset, hdata, if_neg hne]
  split_ifs with h1 h2 h3 h4
  · exact ⟨nofun, rfl, rfl⟩
  · exact absurd (not_not.mp h2) (heof h1)
  · have hrefused : applyExtension parser ⟨r.type, 0, r.data⟩ = (.errMalformedRecord, parser) := by
      unfold applyExtension
      split
      · rename_i hpair
        exact absurd (congrArg List.length hpair) (hextension (by simpa using h3))
      · rfl
    rw [hrefused]
    exact ⟨nofun, rfl, rfl⟩
  · have hrefused : applyStartAddress parser ⟨r.type, 0, r.data⟩ =
        (.errMalformedRecord, parser) := by
      unfold applyStartAddress
      split
      · rename_i hfour
        exact absurd (congrArg List.length hfour) (hstart (by simpa using h4))
      · rfl
    rw [hrefused]
    exact ⟨nofun, rfl, rfl⟩
  · exact ⟨nofun, rfl, rfl⟩

theorem hexParserFeed_written (hwritten : r.WrittenAs line.bytes) (heof : parser.seenEof = false) :
    hexParserFeed parser (some line) record = hexParserApply parser r.frame := by
  unfold hexParserFeed
  simp only [hexFrame_ok_iff.mpr ⟨r, rfl, hwritten⟩, heof, Bool.false_eq_true, if_false]

theorem hexFrame_error {text : Bytes} {result : HexResult} (h : hexFrame text = .error result) :
    result ≠ .ok := by
  rintro rfl
  unfold hexFrame at h
  split at h
  · simp only at h
    split_ifs at h
    · cases h
    · cases h
    · split at h
      · cases h
      · split_ifs at h
        · cases h
        · cases h
  · cases h

theorem hexParserFeed_ok
    (h : (hexParserFeed parser (some line) record).result = .ok) :
    ∃ frame, hexFrame line.bytes = .ok frame ∧
      hexParserFeed parser (some line) record = hexParserApply parser frame := by
  unfold hexParserFeed at h ⊢
  cases hframe : hexFrame line.bytes with
  | error result =>
    simp only [hframe] at h
    exact absurd h (hexFrame_error hframe)
  | ok frame =>
    simp only [hframe] at h ⊢
    split_ifs at h ⊢ with heof
    exact ⟨frame, rfl, rfl⟩

/-- A line of the format as it is written. -/
def IntelHex.asLine (r : IntelHex) : CString :=
  ⟨0x3A :: spell r.frame, by
    rw [List.mem_cons, not_or]
    refine ⟨by decide, fun hmem => ?_⟩
    obtain ⟨n, hdigit⟩ := (spells_spell r.frame).digit 0 hmem
    exact absurd rfl (hdigit.spelled (P := fun c _ => c ≠ 0) (by decide))⟩

theorem line_written (r : IntelHex) : r.WrittenAs r.asLine.bytes :=
  ⟨[], spell r.frame, [], nofun, nofun, spells_spell r.frame, by rw [List.append_nil]; rfl⟩

/-- The records that are taken are those of the format, and each is handed out as it was written;
only data have an address. -/
theorem hexParserFeed_accepts (parser : HexParser) (line : CString) (record : HexRecord) :
    ((hexParserFeed parser (some line) record).result = .ok ↔
      ∃ r : IntelHex, r.WrittenAs line.bytes ∧ r.Proper ∧ parser.seenEof = false) ∧
    (∀ r : IntelHex, r.WrittenAs line.bytes → r.Proper → parser.seenEof = false →
      hexParserFeed parser (some line) record =
        ⟨.ok, r.advance parser, r.recorded parser.addressBase⟩) ∧
    ∀ r : IntelHex, r.Proper → parser.seenEof = false →
      hexParserFeed parser (some r.asLine) record =
        ⟨.ok, r.advance parser, r.recorded parser.addressBase⟩ := by
  have htaken : ∀ (line : CString) (r : IntelHex), r.WrittenAs line.bytes → r.Proper →
      parser.seenEof = false → hexParserFeed parser (some line) record =
        ⟨.ok, r.advance parser, r.recorded parser.addressBase⟩ := by
    intro line r hwritten hproper heof
    rw [hexParserFeed_written hwritten heof, hexParserApply_proper hproper]
  refine ⟨⟨fun h => ?_, ?_⟩, htaken line, fun r => htaken r.asLine r (line_written r)⟩
  · obtain ⟨frame, hframe, hfed⟩ := hexParserFeed_ok h
    obtain ⟨r, rfl, hwritten⟩ := hexFrame_ok_iff.mp hframe
    have heof : parser.seenEof = false := by
      by_contra heof
      rw [Bool.not_eq_false] at heof
      unfold hexParserFeed at h
      simp [hframe, heof] at h
    refine ⟨r, hwritten, ?_, heof⟩
    by_contra hproper
    rw [hfed] at h
    exact (hexParserApply_improper hproper).1 h
  · rintro ⟨r, hwritten, hproper, heof⟩
    rw [htaken line r hwritten hproper heof]

/-- `:00000001FF` -/
def endRecord : IntelHex := ⟨0, HEX_RECORD_EOF, [], by decide, by decide⟩

/-- The end of the file, behind a record that moved the base: its address is zero. -/
theorem hexParserFeed_address_zero : ¬∀ (parser : HexParser) (line : CString) (record : HexRecord)
    (r : IntelHex), r.WrittenAs line.bytes → (hexParserFeed parser (some line) record).result = .ok →
      (hexParserFeed parser (some line) record).record.address =
        wrap32 (parser.addressBase + r.offset) := by
  intro h
  exact absurd (h ⟨0x10000000, 0, false, false⟩ endRecord.asLine ⟨0, 0, []⟩ endRecord
    (line_written endRecord) (by decide)) (by decide)

end feeding

section refusing

variable {parser : HexParser} {memory : HexRecordMemory} {line : Option CString} {r : IntelHex}

theorem hexParserFeedInto_eq (parser : HexParser) (line : Option CString) (record : HexRecord) :
    hexParserFeedInto parser line record.inMemory =
      ((hexParserFeed parser line record).result, (hexParserFeed parser line record).parser,
        (hexParserFeed parser line record).record.inMemory) := by
  unfold hexParserFeedInto hexParserFeed
  cases line with
  | none => rfl
  | some line =>
    dsimp only
    cases hexFrame line.bytes with
    | error result => rfl
    | ok frame =>
      dsimp only
      split_ifs with heof
      · rfl
      · rfl

/-- A record that the checks let through before its type and its length are found wrong. -/
def HexParser.Overlooks (parser : HexParser) (line : Option CString) (r : IntelHex) : Prop :=
  (∃ text, line = some text ∧ r.WrittenAs text.bytes) ∧ parser.seenEof = false ∧ ¬r.Proper

/-- A line that is refused leaves the parser as it is. It leaves `*record` as it is exactly when it
is not a record of an unknown type or with the wrong data for its type, or when `*record` was
already what is written into it. -/
theorem hexParserFeed_refused_iff (parser : HexParser) (line : Option CString)
    (memory : HexRecordMemory) :
    ((hexParserFeedInto parser line memory).1 ≠ .ok →
      (hexParserFeedInto parser line memory).2 = (parser, memory)) ↔
    ∀ r, parser.Overlooks line r → memory = (HexRecord.mk r.type 0 r.data).inMemory := by
  unfold hexParserFeedInto HexParser.Overlooks
  cases line with
  | none =>
    refine iff_of_true (fun _ => rfl) ?_
    rintro r ⟨⟨text, hline, -⟩, -⟩
    cases hline
  | some text =>
    dsimp only
    cases hframe : hexFrame text.bytes with
    | error result =>
      refine iff_of_true (fun _ => rfl) ?_
      rintro r ⟨⟨_, hline, hwritten⟩, -⟩
      obtain rfl := Option.some.inj hline
      rw [hexFrame_ok_iff.mpr ⟨r, rfl, hwritten⟩] at hframe
      cases hframe
    | ok frame =>
      obtain ⟨r, rfl, hwritten⟩ := hexFrame_ok_iff.mp hframe
      have honly : ∀ r' : IntelHex, r'.WrittenAs text.bytes → r' = r := by
        intro r' hwritten'
        rw [hexFrame_ok_iff.mpr ⟨r', rfl, hwritten'⟩] at hframe
        exact frame_injective (Except.ok.inj hframe)
      dsimp only
      cases heof : parser.seenEof with
      | true =>
        refine iff_of_true (fun _ => rfl) ?_
        rintro r' ⟨-, heof', -⟩
        cases heof'
      | false =>
        rw [if_neg Bool.false_ne_true]
        by_cases hproper : r.Proper
        · refine iff_of_true (fun hrefused => ?_) ?_
          · rw [hexParserApply_proper hproper] at hrefused
            exact absurd rfl hrefused
          · rintro r' ⟨⟨_, hline, hwritten'⟩, -, himproper⟩
            obtain rfl := Option.some.inj hline
            exact absurd (honly r' hwritten' ▸ hproper) himproper
        · obtain ⟨hresult, hparser, hrecord⟩ := @hexParserApply_improper parser _ hproper
          rw [hparser, hrecord]
          constructor
          · rintro hkept r' ⟨⟨_, hline, hwritten'⟩, -, -⟩
            obtain rfl := Option.some.inj hline
            rw [honly r' hwritten']
            exact (congrArg Prod.snd (hkept hresult)).symm
          · intro hsame _
            rw [← hsame r ⟨⟨text, rfl, hwritten⟩, rfl, hproper⟩]

/-- A record of type 6, refused and yet written over what `*record` held. -/
theorem hexParserFeed_refused_written : ¬∀ (parser : HexParser) (line : Option CString)
    (memory : HexRecordMemory), (hexParserFeedInto parser line memory).1 ≠ .ok →
      (hexParserFeedInto parser line memory).2 = (parser, memory) := by
  intro h
  have hkept := h hexParserReset (some (IntelHex.asLine ⟨0, 6, [], by decide, by decide⟩))
    (HexRecord.mk HEX_RECORD_DATA 0x10000000 [0x12]).inMemory (by decide)
  exact absurd (congrArg (fun kept => kept.2.length) hkept) (by decide)

end refusing

end Pico
