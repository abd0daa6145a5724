import PicoFramework.Proofs.FirmwareReceive
import PicoFramework.Proofs.HexRecords
import PicoFramework.Spec.SerialUpdate

/-! The host and the device over one HEX file. Both keep the address base and what each
record writes; they part only over a data record without data, which moves the end of the
host's image and not that of the device's. -/

namespace Pico

open Lib.Nor Lib.Power Lib.Writes

section text

theorem isAsciiSpace_of_decodeByte {high low byte : UInt8} (h : decodeByte high low = some byte) :
    isAsciiSpace high = false := by
  unfold decodeByte at h
  cases hnibble : decodeNibble high with
  | none => simp [hnibble] at h
  | some nibble =>
    unfold decodeNibble at hnibble
    unfold isAsciiSpace
    split_ifs at hnibble <;> grind

theorem fromHex_of_decodeBytes {digits bytes : Bytes} (heven : digits.length % 2 = 0)
    (h : decodeBytes digits = some bytes) : fromHex digits = some bytes := by
  induction digits using decodeBytes.induct generalizing bytes with
  | case1 high low rest ih =>
    unfold decodeBytes at h
    simp only [Option.bind_eq_bind, Option.pure_def, Option.bind_eq_some_iff] at h
    obtain ⟨byte, hbyte, rest', hrest, heq⟩ := h
    unfold fromHex
    rw [if_neg (by simp [isAsciiSpace_of_decodeByte hbyte]), hbyte]
    have htail : rest.length % 2 = 0 := by
      simp only [List.length_cons] at heven
      omega
    simp only [Option.bind_eq_bind, Option.pure_def, Option.bind_some, ih htail hrest]
    exact heq
  | case2 digits hshort =>
    cases digits with
    | nil => simpa [decodeBytes, fromHex] using h
    | cons a rest =>
      cases rest with
      | nil => simp at heven
      | cons b rest => exact absurd rfl (hshort a b rest)

theorem length_decodeBytes {digits bytes : Bytes} (h : decodeBytes digits = some bytes) :
    bytes.length = digits.length / 2 := by
  induction digits using decodeBytes.induct generalizing bytes with
  | case1 high low rest ih =>
    unfold decodeBytes at h
    simp only [Option.bind_eq_bind, Option.pure_def, Option.bind_eq_some_iff] at h
    obtain ⟨byte, -, rest', hrest, heq⟩ := h
    rw [← Option.some.inj heq, List.length_cons, ih hrest]
    simp only [List.length_cons]
    omega
  | case2 digits hshort =>
    cases digits with
    | nil =>
      obtain rfl : [] = bytes := Option.some.inj h
      rfl
    | cons a rest =>
      cases rest with
      | nil =>
        obtain rfl : [] = bytes := Option.some.inj h
        simp
      | cons b rest => exact absurd rfl (hshort a b rest)

theorem isPythonSpace_of_isSpace {c : UInt8} (h : isSpace c = true) : isPythonSpace c = true := by
  unfold isSpace at h
  unfold isPythonSpace
  simp only [Bool.or_eq_true, decide_eq_true_eq] at h
  rcases h with ((rfl | rfl) | rfl) | rfl <;> decide

theorem trimmed_of_strip {raw body : Bytes} (h : strip raw = 0x3A :: body) : trimmed body = body := by
  unfold trimmed
  rw [List.rdropWhile_eq_self_iff]
  intro hne hspace
  have hnonempty : strip raw ≠ [] := by simp [h]
  have hlast := List.rdropWhile_last_not isPythonSpace (raw.dropWhile isPythonSpace) hnonempty
  have heq : (strip raw).getLast hnonempty = body.getLast hne := by
    simp only [h, List.getLast_cons hne]
  unfold strip at heq
  rw [heq] at hlast
  exact hlast (isPythonSpace_of_isSpace hspace)

theorem fromHex_of_hexFrame {raw body frame : Bytes} (hline : strip raw = 0x3A :: body)
    (hframe : hexFrame (0x3A :: body) = .ok frame) :
    fromHex body = some frame ∧ frame.length = (frame.getD 0 0).toNat + 5 := by
  unfold hexFrame at hframe
  rw [List.dropWhile_cons_of_neg (by decide)] at hframe
  simp only [trimmed_of_strip hline] at hframe
  split_ifs at hframe with hlength hlong
  cases hdecode : decodeBytes body with
  | none => simp [hdecode] at hframe
  | some bytes =>
    rw [hdecode] at hframe
    simp only at hframe
    split_ifs at hframe with hcount hsum
    obtain rfl := Except.ok.inj hframe
    have heven : body.length % 2 = 0 := by omega
    refine ⟨fromHex_of_decodeBytes heven hdecode, ?_⟩
    rw [length_decodeBytes hdecode]
    simp only [FRAME_BYTES, PREFIX_BYTES] at hcount
    omega

end text

/-- The data record on a line, as the device reads it. -/
def lineRecords (parser : HexParser) (line : CString) : List HexRecord :=
  let fed := hexParserFeed parser (some line) ⟨0, 0, []⟩
  if fed.result = .ok ∧ fed.record.type = HEX_RECORD_DATA then [fed.record] else []

/-- The data records of a transfer, each under the address base of its place. -/
def dataRecords : HexParser → List CString → List HexRecord
  | _, [] => []
  | parser, line :: lines =>
      lineRecords parser line ++ dataRecords (parserAfter parser (some line)) lines

/-- Where a data record ends in the image. -/
def recordEnd (record : HexRecord) : ℕ := record.address - IMAGE_BASE + record.data.length

def recordsWrites (records : List HexRecord) : List (ℕ × UInt8) :=
  records.flatMap fun record => dataWrites IMAGE_BASE record.address record.data

/-- The highest end of a record, with or without data. -/
def recordsEnd (records : List HexRecord) : ℕ :=
  records.foldl (fun n record => max n (recordEnd record)) 0

section writes

theorem InRegion.end_le {capacity address length : ℕ} (h : InRegion IMAGE_BASE capacity address length)
    (hlt : address < 2 ^ 32) : address + length ≤ 2 ^ 32 := by
  by_contra hlong
  obtain ⟨hbase, -⟩ := h (2 ^ 32 - address) (by omega)
  rw [show address + (2 ^ 32 - address) = 2 ^ 32 by omega, wrap32, Nat.mod_self] at hbase
  simp [IMAGE_BASE] at hbase

theorem placeChunks_stored {chunks ws : List (ℕ × UInt8)} (values : Bytes) {address : ℕ}
    (hbase : IMAGE_BASE ≤ address) (hend : address + values.length ≤ 2 ^ 32)
    (hkeys : (chunks.map Prod.fst).Nodup)
    (hstored : ∀ a, stored erased chunks a = stored erased ws a) :
    ((placeChunks chunks (address - IMAGE_BASE) values).map Prod.fst).Nodup ∧
      ∀ a, stored erased (placeChunks chunks (address - IMAGE_BASE) values) a =
        stored erased (ws ++ dataWrites IMAGE_BASE address values) a := by
  induction values generalizing chunks ws address with
  | nil =>
    rw [dataWrites, List.append_nil]
    exact ⟨hkeys, hstored⟩
  | cons value values ih =>
    rw [List.length_cons] at hend
    have hstored' (a : ℕ) : stored erased (assign chunks (address - IMAGE_BASE) value) a =
        stored erased (ws ++ [(address - IMAGE_BASE, value)]) a := by
      rw [stored_assign _ hkeys, stored_snoc, hstored]
    have hbase' : IMAGE_BASE ≤ address + 1 := by omega
    have hend' : address + 1 + values.length ≤ 2 ^ 32 := by omega
    have hnext := ih hbase' hend' (nodup_assign hkeys _ _) hstored'
    have hwrap : wrap32 address = address := Nat.mod_eq_of_lt (by omega)
    rw [List.append_assoc, List.singleton_append,
      show address + 1 - IMAGE_BASE = address - IMAGE_BASE + 1 by omega] at hnext
    rw [dataWrites, hwrap]
    exact hnext

theorem extent_dataWrites (values : Bytes) {address : ℕ} (hbase : IMAGE_BASE ≤ address)
    (hend : address + values.length ≤ 2 ^ 32) (hne : values ≠ []) :
    extent (dataWrites IMAGE_BASE address values) = address - IMAGE_BASE + values.length := by
  induction values generalizing address with
  | nil => exact absurd rfl hne
  | cons value values ih =>
    rw [List.length_cons] at hend ⊢
    have hwrap : wrap32 address = address := Nat.mod_eq_of_lt (by omega)
    rw [dataWrites, hwrap, ← List.singleton_append, extent_append]
    have hone : extent [(address - IMAGE_BASE, value)] = address - IMAGE_BASE + 1 := by
      simp [extent]
    rw [hone]
    by_cases hrest : values = []
    · subst hrest
      simp [dataWrites]
    · rw [ih (by omega) (by omega) hrest]
      omega

theorem recordsWrites_append (records more : List HexRecord) :
    recordsWrites (records ++ more) = recordsWrites records ++ recordsWrites more := by
  simp [recordsWrites]

theorem recordsEnd_snoc (records : List HexRecord) (record : HexRecord) :
    recordsEnd (records ++ [record]) = max (recordsEnd records) (recordEnd record) := by
  simp [recordsEnd]

theorem recordsEnd_le_iff (records : List HexRecord) (n : ℕ) :
    recordsEnd records ≤ n ↔ ∀ record ∈ records, recordEnd record ≤ n := by
  induction records using List.reverseRecOn with
  | nil => simp [recordsEnd]
  | append_singleton records record ih =>
    rw [recordsEnd_snoc, max_le_iff, ih]
    constructor
    · rintro ⟨hrecords, hrecord⟩ x hx
      rcases List.mem_append.mp hx with hx | hx
      · exact hrecords x hx
      · rw [List.mem_singleton.mp hx]
        exact hrecord
    · intro h
      exact ⟨fun x hx => h x (by simp [hx]), h record (by simp)⟩

end writes

/-- What the host knows after a line is what the device has been given. -/
structure Agree (file : HexFile) (parser : HexParser) (records : List HexRecord) : Prop where
  base_eq : parser.addressBase = file.base
  base_le : file.base ≤ 0xFFFF0000
  keys : (file.chunks.map Prod.fst).Nodup
  stored_eq : ∀ a, stored erased file.chunks a = imageAt (recordsWrites records) a
  highest_eq : file.highest + 1 = recordsEnd records
  ends : ∀ record ∈ records, IMAGE_BASE ≤ record.address ∧
    record.address + record.data.length ≤ 2 ^ 32

section agree

variable {file file' : HexFile} {parser : HexParser} {records : List HexRecord} {capacity : ℕ}

theorem agree_start : Agree hexFileStart hexParserReset [] :=
  ⟨rfl, by simp [hexFileStart], by simp [hexFileStart], fun _ => rfl, by simp [hexFileStart, recordsEnd],
    by simp⟩

theorem Agree.data (h : Agree file parser records) {record : HexRecord} {location number : ℕ}
    (hlocation : location < 2 ^ 16)
    (haddress : record.address = wrap32 (parser.addressBase + location))
    (hregion : InRegion IMAGE_BASE capacity record.address record.data.length)
    (hhost : parseRecord file number 0x00 location record.data = .ok file') :
    Agree file' parser (records ++ [record]) := by
  have hbase := h.base_le
  have hsum : record.address = file.base + location := by
    rw [haddress, h.base_eq]
    exact Nat.mod_eq_of_lt (by omega)
  unfold parseRecord at hhost
  rw [if_pos rfl, ← hsum] at hhost
  simp only at hhost
  split_ifs at hhost with hbelow
  obtain rfl := Except.ok.inj hhost
  have hend := hregion.end_le (by omega)
  obtain ⟨hkeys, hstored⟩ := placeChunks_stored record.data (by omega) hend h.keys h.stored_eq
  refine ⟨h.base_eq, h.base_le, hkeys, fun a => ?_, ?_, ?_⟩
  · rw [hstored, recordsWrites_append, imageAt]
    simp [recordsWrites]
  · rw [recordsEnd_snoc]
    have hhighest := h.highest_eq
    simp only [recordEnd]
    push_cast
    omega
  · intro x hx
    rcases List.mem_append.mp hx with hx | hx
    · exact h.ends x hx
    · rw [List.mem_singleton.mp hx]
      exact ⟨by omega, hend⟩

theorem Agree.other (h : Agree file parser records) {frame data : Bytes} {number location : ℕ}
    (hdata : (frame.drop PREFIX_BYTES).take (frame.getD 0 0).toNat = data)
    (htype : frame.getD 3 0 ≠ HEX_RECORD_DATA)
    (hresult : (hexParserApply parser frame).result = .ok)
    (hhost : parseRecord file number (frame.getD 3 0) location data = .ok file') :
    Agree file' (hexParserApply parser frame).parser records := by
  have hhigh (high low : UInt8) : word16 high low <<< 16 ≤ 0xFFFF0000 ∧
      word16 high low <<< 4 ≤ 0xFFFF0000 := by
    have := word16_lt high low
    rw [Nat.shiftLeft_eq, Nat.shiftLeft_eq]
    omega
  have hwrap {n : ℕ} (hle : n ≤ 0xFFFF0000) : wrap32 n = n := Nat.mod_eq_of_lt (by omega)
  have hmoved (base' : ℕ) (hle : base' ≤ 0xFFFF0000) :
      Agree { file with base := base' } { parser with addressBase := wrap32 base' } records :=
    ⟨hwrap hle, hle, h.keys, h.stored_eq, h.highest_eq, h.ends⟩
  have hsame {parser' : HexParser} (heq : parser'.addressBase = parser.addressBase) :
      Agree file parser' records :=
    ⟨heq.trans h.base_eq, h.base_le, h.keys, h.stored_eq, h.highest_eq, h.ends⟩
  unfold hexParserApply at hresult ⊢
  unfold parseRecord at hhost
  simp only [hdata] at hresult ⊢
  generalize frame.getD 3 0 = type at htype hresult hhost ⊢
  simp only [HEX_RECORD_DATA, HEX_RECORD_EOF, HEX_RECORD_EXTENDED_SEGMENT,
    HEX_RECORD_EXTENDED_LINEAR, HEX_RECORD_START_SEGMENT, HEX_RECORD_START_LINEAR]
    at htype hresult ⊢
  simp only [htype, if_false] at hresult hhost ⊢
  by_cases heof : type = 0x01
  · simp only [heof, if_true] at hresult hhost ⊢
    split_ifs at hresult ⊢ with hempty
    obtain rfl := Except.ok.inj hhost
    exact ⟨h.base_eq, h.base_le, h.keys, h.stored_eq, h.highest_eq, h.ends⟩
  simp only [heof, if_false] at hresult hhost ⊢
  by_cases hextension : type = 0x02 ∨ type = 0x04
  · simp only [hextension, if_true] at hresult ⊢
    unfold applyExtension at hresult ⊢
    simp only [HEX_RECORD_EXTENDED_SEGMENT, HEX_RECORD_EXTENDED_LINEAR] at hresult ⊢
    rcases data with _ | ⟨high, _ | ⟨low, _ | ⟨more, rest⟩⟩⟩
    · simp at hresult
    · simp at hresult
    · rcases hextension with rfl | rfl
      · have hne : ¬ (0x02 : UInt8) = 0x04 := by decide
        simp only [hne, if_true, if_false] at hhost ⊢
        obtain rfl := Except.ok.inj hhost
        exact hmoved _ (hhigh high low).2
      · simp only [if_true] at hhost ⊢
        obtain rfl := Except.ok.inj hhost
        exact hmoved _ (hhigh high low).1
    · simp at hresult
  simp only [hextension, if_false] at hresult ⊢
  rw [not_or] at hextension
  simp only [hextension, if_false] at hhost
  by_cases hstart : type = 0x03 ∨ type = 0x05
  · simp only [hstart, if_true] at hhost ⊢
    obtain rfl := Except.ok.inj hhost
    unfold applyStartAddress
    split
    · exact hsame rfl
    · exact hsame rfl
  · simp [hstart] at hresult

theorem Agree.line (h : Agree file parser records) {raw : Bytes} {line : CString} {number : ℕ}
    (hline : strip raw = line.bytes) (hne : line.bytes ≠ [])
    (hhost : parseLine file number raw = .ok file')
    (hfits : LineFits IMAGE_BASE capacity parser (some line)) :
    Agree file' (parserAfter parser (some line)) (records ++ lineRecords parser line) := by
  obtain ⟨hresult, hregion⟩ := hfits
  obtain ⟨frame, hframe, hfed⟩ := hexParserFeed_ok hresult
  unfold parserAfter lineRecords
  rw [hfed] at hresult hregion ⊢
  unfold parseLine at hhost
  rw [hline] at hhost
  cases hbytes : line.bytes with
  | nil => exact absurd hbytes hne
  | cons first digits =>
    rw [hbytes] at hhost hframe hline
    simp only at hhost
    split_ifs at hhost with hfirst heof
    rw [not_not] at hfirst
    subst hfirst
    obtain ⟨hbody, hlength⟩ := fromHex_of_hexFrame hline hframe
    rw [hbody] at hhost
    simp only at hhost
    split_ifs at hhost with hshort hsum hcount
    have hdata : (frame.drop PREFIX_BYTES).take (frame.getD 0 0).toNat =
        (frame.drop 4).dropLast := by
      rw [List.dropLast_eq_take, List.length_drop, PREFIX_BYTES]
      congr 1
      omega
    by_cases htype : frame.getD 3 0 = HEX_RECORD_DATA
    · have hrecord : hexParserApply parser frame = ⟨.ok, parser, ⟨HEX_RECORD_DATA,
          wrap32 (parser.addressBase + word16 (frame.getD 1 0) (frame.getD 2 0)),
          (frame.drop 4).dropLast⟩⟩ := by
        unfold hexParserApply
        simp only [htype, if_true, hdata]
      rw [htype] at hhost
      rw [hrecord] at hregion ⊢
      simp only [and_self, if_true]
      exact h.data (word16_lt _ _) rfl (hregion rfl) hhost
    · have hkeeps : (hexParserApply parser frame).record.type = frame.getD 3 0 := by
        unfold hexParserApply
        simp only
        split_ifs <;> rfl
      rw [if_neg fun hboth => htype (hkeeps.symm.trans hboth.2), List.append_nil]
      exact h.other hdata htype hresult hhost

theorem Agree.lines {raws : List Bytes} {lines : List CString} {number : ℕ}
    (h : Agree file parser records) (hlines : lines.map CString.bytes = sentLines raws)
    (hhost : parseLines file number raws = .ok file')
    (hfits : LinesFit IMAGE_BASE capacity parser lines) :
    ∃ parser', Agree file' parser' (records ++ dataRecords parser lines) := by
  induction raws generalizing file parser records lines number with
  | nil =>
    obtain rfl : lines = [] := by simpa [sentLines] using hlines
    obtain rfl := Except.ok.inj hhost
    exact ⟨parser, by rwa [dataRecords, List.append_nil]⟩
  | cons raw raws ih =>
    rw [parseLines] at hhost
    cases hfirst : parseLine file number raw with
    | error e =>
      rw [hfirst] at hhost
      cases hhost
    | ok next =>
      rw [hfirst] at hhost
      by_cases hblank : strip raw = []
      · have hsame : next = file := by
          unfold parseLine at hfirst
          rw [hblank] at hfirst
          exact (Except.ok.inj hfirst).symm
        subst hsame
        have hrest : lines.map CString.bytes = sentLines raws := by
          rw [hlines]
          simp [sentLines, hblank]
        exact ih h hrest hhost hfits
      · have hsplit : sentLines (raw :: raws) = strip raw :: sentLines raws := by
          simp [sentLines, hblank]
        cases lines with
        | nil =>
          rw [hsplit] at hlines
          cases hlines
        | cons line lines =>
          rw [hsplit, List.map_cons, List.cons.injEq] at hlines
          obtain ⟨hline, hrest⟩ := hlines
          rw [LinesFit] at hfits
          have hnext := h.line hline.symm (by rwa [hline]) hfirst hfits.1
          have hlast := ih hnext hrest hhost hfits.2
          rwa [List.append_assoc] at hlast

end agree

/-- Every data record without data starts at most one past the highest byte that the
records write. -/
def EmptyRecordsInside (records : List HexRecord) : Prop :=
  ∀ record ∈ records, record.data = [] →
    record.address - IMAGE_BASE ≤ extent (recordsWrites records)

section image

variable {file : HexFile} {parser : HexParser} {records : List HexRecord}

theorem Agree.extent_le (h : Agree file parser records) :
    extent (recordsWrites records) ≤ recordsEnd records := by
  rw [extent_le_iff]
  intro w hw
  obtain ⟨record, hrecord, hwrite⟩ := List.mem_flatMap.mp hw
  obtain ⟨hbase, hend⟩ := h.ends record hrecord
  have hne : record.data ≠ [] := by
    intro hnil
    rw [hnil, dataWrites] at hwrite
    simp at hwrite
  have hwritten := (extent_le_iff _ _).mp (extent_dataWrites record.data hbase hend hne).le w hwrite
  exact lt_of_lt_of_le hwritten ((recordsEnd_le_iff records _).mp le_rfl record hrecord)

/-- The host's image ends where the device's does, unless an empty record lies beyond. -/
theorem Agree.end_eq_iff (h : Agree file parser records) :
    recordsEnd records = extent (recordsWrites records) ↔ EmptyRecordsInside records := by
  constructor
  · intro heq record hrecord hempty
    have hle := (recordsEnd_le_iff records _).mp heq.le record hrecord
    rwa [recordEnd, hempty, List.length_nil, Nat.add_zero] at hle
  · intro hinside
    apply le_antisymm _ h.extent_le
    rw [recordsEnd_le_iff]
    intro record hrecord
    obtain ⟨hbase, hend⟩ := h.ends record hrecord
    by_cases hempty : record.data = []
    · rw [recordEnd, hempty, List.length_nil, Nat.add_zero]
      exact hinside record hrecord hempty
    · rw [recordEnd, ← extent_dataWrites record.data hbase hend hempty, extent_le_iff]
      intro w hw
      exact (extent_le_iff (recordsWrites records) _).mp le_rfl w
        (List.mem_flatMap.mpr ⟨record, hrecord, hw⟩)

theorem Agree.image_eq (h : Agree file parser records) :
    file.image = (List.range (recordsEnd records)).map (imageAt (recordsWrites records)) := by
  have hsize : (file.highest + 1).toNat = recordsEnd records := by
    rw [h.highest_eq, Int.toNat_natCast]
  unfold HexFile.image
  rw [hsize]
  exact (foldl_set_eq erased file.chunks _).trans
    (List.map_congr_left fun a _ => h.stored_eq a)

theorem parseHex_ok {text image : Bytes} (h : parseHex text = .ok image) :
    ∃ file, parseLines hexFileStart 1 (textLines text) = .ok file ∧ file.image = image := by
  unfold parseHex at h
  split_ifs at h
  cases hfile : parseLines hexFileStart 1 (textLines text) with
  | error e =>
    rw [hfile] at h
    cases h
  | ok file =>
    rw [hfile] at h
    refine ⟨file, rfl, ?_⟩
    simp only [Bind.bind, Except.bind, pure, Except.pure, throw, throwThe,
      MonadExceptOf.throw] at h
    split_ifs at h
    exact Except.ok.inj h

theorem acceptedWrites_eq {lines : List CString} {results : List FirmwareReceiveResult}
    (hlength : results.length = lines.length)
    (haccepted : ∀ result ∈ results, result = .ok ∨ result = .complete) :
    acceptedWrites IMAGE_BASE parser lines results = recordsWrites (dataRecords parser lines) := by
  induction lines generalizing parser results with
  | nil =>
    obtain rfl := List.length_eq_zero_iff.mp hlength
    rfl
  | cons line lines ih =>
    cases results with
    | nil => simp at hlength
    | cons result results =>
      have hrest : acceptedWrites IMAGE_BASE (parserAfter parser (some line)) lines results =
          recordsWrites (dataRecords (parserAfter parser (some line)) lines) :=
        ih (by simpa using hlength) fun x hx => haccepted x (by simp [hx])
      rw [acceptedWrites, if_pos (haccepted result (by simp)), hrest, dataRecords,
        recordsWrites_append]
      congr 1
      unfold lineWrites lineRecords recordWrites recordsWrites
      simp only
      split_ifs <;> simp_all

end image

/-- A file that the host parses and the device accepts, line by line, to its end: the
image and the checksum that the host sends are those of the staged bytes exactly when no
record without data lies beyond the last byte written. -/
theorem serialUpdate_agrees_iff {start capacity : ℕ} (hcapacity : capacity % 256 = 0)
    (hlt : capacity < 2 ^ 32) {mem : Mem} (herased : ∀ a < capacity, mem (start + a) = erased)
    {rx₀ rx : FirmwareReceive} (hbegin : firmwareReceiveBegin rx₀ IMAGE_BASE capacity = (.ok, rx))
    {text image : Bytes} (hparse : parseHex text = .ok image) {lines : List CString}
    (hlines : lines.map CString.bytes = sentLines (textLines text))
    {results : List FirmwareReceiveResult} {rx' : FirmwareReceive} {mem' : Mem}
    (hrun : (receiveLines (norWriter start) rx lines).run.run mem = (some (results, rx'), mem'))
    (haccepted : ∀ result ∈ results, result = .ok ∨ result = .complete)
    (hcomplete : results.getLast? = some .complete) :
    (image = read mem' start rx'.imageSize ∧
      sentCheck image = (rx'.imageSize, crc32 (read mem' start rx'.imageSize))) ↔
    EmptyRecordsInside (dataRecords hexParserReset lines) := by
  have hend := (wp_returned hrun).mp
    ((Receiving.begin hbegin herased).wp_receiveLines hcapacity hlt lines)
  obtain ⟨hsize, hstaged⟩ := hend.complete hcomplete
  obtain ⟨file, hfile, rfl⟩ := parseHex_ok hparse
  obtain ⟨parser', hagree⟩ := agree_start.lines hlines hfile (hend.fits haccepted)
  rw [List.nil_append] at hagree
  simp only [acceptedWrites_eq hend.length_eq haccepted] at hsize hstaged
  rw [← hagree.end_eq_iff, hstaged, hagree.image_eq, hsize]
  constructor
  · rintro ⟨himage, -⟩
    have hlengths := congrArg List.length himage
    rwa [List.length_map, List.length_map, List.length_range, List.length_range] at hlengths
  · intro heq
    rw [heq, sentCheck, List.length_map, List.length_range]
    exact ⟨rfl, rfl⟩

/-- `:00010000FF`, a data record at 0x100 without data. -/
def emptyRecordLine : CString :=
  ⟨[0x3A, 0x30, 0x30, 0x30, 0x31, 0x30, 0x30, 0x30, 0x30, 0x46, 0x46], by decide⟩

/-- A file of the lines, each ended by "\r\n". -/
def fileText (lines : List CString) : Bytes := lines.flatMap fun line => line.bytes ++ [0x0D, 0x0A]

/-- A receiver over two pages from the image base. -/
def imagePages : FirmwareReceive := (firmwareReceiveBegin .zero IMAGE_BASE 512).2

theorem serialUpdate_agrees_iff_one_byte : ∃ rx' mem',
    (receiveLines (norWriter 0) imagePages [imageBaseLine, oneByteLine, eofLine]).run.run
      (fun _ => erased) = (some ([.ok, .ok, .complete], rx'), mem') ∧
    [0x12] = read mem' 0 rx'.imageSize ∧
    sentCheck [0x12] = (rx'.imageSize, crc32 (read mem' 0 rx'.imageSize)) := by
  have hparse : parseHex (fileText [imageBaseLine, oneByteLine, eofLine]) = .ok [0x12] := by
    decide
  have hlines : [imageBaseLine, oneByteLine, eofLine].map CString.bytes =
      sentLines (textLines (fileText [imageBaseLine, oneByteLine, eofLine])) := by decide
  have hresults : ((receiveLines (norWriter 0) imagePages
      [imageBaseLine, oneByteLine, eofLine]).run.run (fun _ => erased)).1.map Prod.fst =
      some [.ok, .ok, .complete] := by decide +kernel
  have hinside : EmptyRecordsInside
      (dataRecords hexParserReset [imageBaseLine, oneByteLine, eofLine]) := by
    unfold EmptyRecordsInside
    decide
  rcases hrun : (receiveLines (norWriter 0) imagePages
    [imageBaseLine, oneByteLine, eofLine]).run.run (fun _ => erased) with ⟨_ | ⟨results, rx'⟩, mem'⟩
  · rw [hrun] at hresults
    cases hresults
  · rw [hrun] at hresults
    obtain rfl := Option.some.inj hresults
    have hagrees := @serialUpdate_agrees_iff 0 512 (by norm_num) (by norm_num) (fun _ => erased)
      (fun _ _ => rfl) .zero imagePages rfl _ _ hparse _ hlines _ _ _ hrun (by simp) rfl
    exact ⟨rx', mem', rfl, hagrees.mpr hinside⟩

/-- The empty record ends the host's image at 0x100, and leaves the device's at one byte. -/
theorem serialUpdate_disagrees : ∃ rx' mem',
    parseHex (fileText [imageBaseLine, oneByteLine, emptyRecordLine, eofLine]) =
      .ok (0x12 :: List.replicate 255 0xFF) ∧
    [imageBaseLine, oneByteLine, emptyRecordLine, eofLine].map CString.bytes =
      sentLines (textLines (fileText [imageBaseLine, oneByteLine, emptyRecordLine, eofLine])) ∧
    (receiveLines (norWriter 0) imagePages
      [imageBaseLine, oneByteLine, emptyRecordLine, eofLine]).run.run (fun _ => erased) =
      (some ([.ok, .ok, .ok, .complete], rx'), mem') ∧
    rx'.imageSize = 1 := by
  have hresults : ((receiveLines (norWriter 0) imagePages
      [imageBaseLine, oneByteLine, emptyRecordLine, eofLine]).run.run (fun _ => erased)).1.map
      (fun r => (r.1, r.2.imageSize)) = some ([.ok, .ok, .ok, .complete], 1) := by decide +kernel
  rcases hrun : (receiveLines (norWriter 0) imagePages
    [imageBaseLine, oneByteLine, emptyRecordLine, eofLine]).run.run (fun _ => erased) with
    ⟨_ | ⟨results, rx'⟩, mem'⟩
  · rw [hrun] at hresults
    cases hresults
  · rw [hrun] at hresults
    obtain ⟨rfl, hsize⟩ := Prod.mk.inj (Option.some.inj hresults)
    exact ⟨rx', mem', by decide +kernel, by decide +kernel, rfl, hsize⟩

end Pico
