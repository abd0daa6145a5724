import PicoFramework.Lib.Nor
import PicoFramework.Lib.Writes
import PicoFramework.Spec.FirmwareReceive

/-! The receiver over NOR flash that starts erased: what it has stored is what the
accepted records wrote, page by page, whatever order the records came in. -/

namespace Pico

open Lib.Nor Lib.Power Lib.Writes

/-- A verified NOR program at `start`: the page goes in, and is compared with what it
reads back as. -/
def norWriter (start : ℕ) : PageWriter Mem := fun offset page mem =>
  let after := program mem (start + offset) page
  (some (read after (start + offset) page.length = page), after)

/-- The bytes of a data record as writes to offsets of the region. -/
def dataWrites (base : ℕ) : ℕ → Bytes → List (ℕ × UInt8)
  | _, [] => []
  | address, value :: values =>
      (wrap32 address - base, value) :: dataWrites base (address + 1) values

def recordWrites (base : ℕ) (record : HexRecord) : List (ℕ × UInt8) :=
  if record.type = HEX_RECORD_DATA then dataWrites base record.address record.data else []

/-- The image that writes leave on erased flash. -/
def imageAt (writes : List (ℕ × UInt8)) (a : ℕ) : UInt8 := stored erased writes a

/-- What the record on a line writes, and nothing for a line that is not a record. -/
def lineWrites (base : ℕ) (parser : HexParser) (line : Option CString) : List (ℕ × UInt8) :=
  let fed := hexParserFeed parser line ⟨0, 0, []⟩
  if fed.result = .ok then recordWrites base fed.record else []

/-- A transfer without an error so far: the writes are in flash, but for those that still
wait in the page buffer. -/
structure Receiving (start base capacity : ℕ) (parser : HexParser) (writes : List (ℕ × UInt8))
    (rx : FirmwareReceive) (mem : Mem) : Prop where
  base_eq : rx.baseAddress = base
  capacity_eq : rx.capacity = capacity
  parser_eq : rx.parser = parser
  started : rx.started = true
  noError : rx.error = .ok
  size_eq : rx.imageSize = extent writes
  bound : ∀ w ∈ writes, w.1 < capacity
  clean : ∀ a < capacity,
    (rx.pageDirty = true → a < rx.pageOffset ∨ rx.pageOffset + 256 ≤ a) →
      mem (start + a) = imageAt writes a
  page_length : rx.pageDirty = true → rx.page.length = 256
  page_aligned : rx.pageDirty = true → rx.pageOffset % 256 = 0 ∧ rx.pageOffset + 256 ≤ capacity
  page : rx.pageDirty = true → ∀ i < 256,
    rx.page.getD i erased = imageAt writes (rx.pageOffset + i) ∨
      (rx.page.getD i erased = erased ∧
        mem (start + (rx.pageOffset + i)) = imageAt writes (rx.pageOffset + i))

/-- A transfer that has failed stays failed. -/
def Failed (rx : FirmwareReceive) : Prop := rx.started = true ∧ rx.error ≠ .ok

def FirmwareReceiveResult.isError (result : FirmwareReceiveResult) : Prop :=
  result ≠ .ok ∧ result ≠ .complete

section steps

variable {start base capacity : ℕ} {parser : HexParser} {writes : List (ℕ × UInt8)}
  {rx : FirmwareReceive} {mem : Mem}

theorem wp_norWriter (start offset : ℕ) (page : Bytes) (Q : Bool → Mem → Prop) (C : Mem → Prop)
    (mem : Mem) :
    wp (norWriter start offset page) Q C mem ↔
      Q (decide (read (program mem (start + offset) page) (start + offset) page.length = page))
        (program mem (start + offset) page) :=
  Iff.rfl

theorem eq_erased_of_and {b : UInt8} (h : b &&& erased = erased) : b = erased := by
  rwa [and_erased] at h

/-- The page in the buffer needs no bit of flash to be set. -/
def PageFits (start : ℕ) (rx : FirmwareReceive) (mem : Mem) : Prop :=
  rx.pageDirty = true → ∀ i, i < rx.page.length →
    mem (start + rx.pageOffset + i) &&& rx.page.getD i erased = rx.page.getD i erased

theorem Receiving.wp_flushPage (h : Receiving start base capacity parser writes rx mem) :
    wp (flushPage (norWriter start) rx)
      (fun r mem' =>
        (r.1 = .ok ∧ PageFits start rx mem ∧
          Receiving start base capacity parser writes r.2 mem' ∧ r.2.pageDirty = false) ∨
        (r.1 = .errWrite ∧ ¬ PageFits start rx mem ∧ r.2 = rx))
      (fun _ => False) mem := by
  unfold flushPage
  cases hdirty : rx.pageDirty with
  | false =>
    rw [if_pos (by simp)]
    exact (wp_pure _ _ _ _).mpr (Or.inl ⟨rfl, by simp [PageFits, hdirty], h, hdirty⟩)
  | true =>
    have hlength := h.page_length hdirty
    obtain ⟨haligned, hend⟩ := h.page_aligned hdirty
    rw [if_neg (by simp)]
    refine (wp_bind _ _ _ _ _).mpr ((wp_norWriter _ _ _ _ _ _).mpr ?_)
    by_cases hread : read (program mem (start + rx.pageOffset) rx.page) (start + rx.pageOffset)
        rx.page.length = rx.page
    swap
    · rw [decide_eq_false hread]
      exact (wp_pure _ _ _ _).mpr
        (Or.inr ⟨rfl, fun hfits => hread ((read_program_iff _ _ _).mpr (hfits hdirty)), rfl⟩)
    rw [decide_eq_true hread]
    refine (wp_pure _ _ _ _).mpr
      (Or.inl ⟨rfl, fun _ => (read_program_iff _ _ _).mp hread, ?_, rfl⟩)
    refine ⟨h.base_eq, h.capacity_eq, h.parser_eq, h.started, h.noError, h.size_eq, h.bound, ?_,
      by simp, by simp, by simp⟩
    intro a ha _
    by_cases hin : rx.pageOffset ≤ a ∧ a < rx.pageOffset + 256
    · obtain ⟨i, rfl⟩ := Nat.exists_eq_add_of_le hin.1
      have hi : i < 256 := by omega
      have hbits := (read_program_iff _ _ _).mp hread i (by omega)
      rw [program_inside (by omega) (by omega),
        show start + (rx.pageOffset + i) - (start + rx.pageOffset) = i by omega, ← Nat.add_assoc,
        hbits]
      rcases h.page hdirty i hi with hnew | ⟨hold, hmem⟩
      · exact hnew
      · rw [← Nat.add_assoc] at hmem
        rw [hold, hmem] at hbits
        rw [hold, eq_erased_of_and hbits]
    · rw [program_outside (by omega)]
      exact h.clean a ha fun _ => by omega

/-- The page that a byte goes into: the one in the buffer, or an erased one. -/
def openPage (rx : FirmwareReceive) : Bytes :=
  if rx.pageDirty then rx.page else List.replicate 256 erased

theorem putByte_eq (rx : FirmwareReceive) {offset : ℕ} (hlt : offset + 1 < 2 ^ 32) (value : UInt8)
    (hpage : rx.pageDirty = true → rx.pageOffset = offset - offset % 256) :
    putByte rx offset value = { rx with
      page := (openPage rx).set (offset % 256) value
      pageOffset := offset - offset % 256
      pageDirty := true
      bytes := wrap32 (rx.bytes + 1)
      imageSize := max rx.imageSize (offset + 1) } := by
  have hmax : (if wrap32 (offset + 1) > rx.imageSize then wrap32 (offset + 1) else rx.imageSize) =
      max rx.imageSize (offset + 1) := by
    rw [wrap32, Nat.mod_eq_of_lt hlt]
    split_ifs
    · omega
    · omega
  unfold putByte openPage
  cases hdirty : rx.pageDirty with
  | true =>
    simp only [Bool.not_true, Bool.false_eq_true, if_false, if_true, hmax]
    rw [← hpage hdirty]
    rfl
  | false =>
    simp only [resetPage, Bool.not_false, Bool.false_eq_true, if_false, if_true, hmax]
    rfl

theorem getD_set (page : Bytes) (hlength : page.length = 256) {j : ℕ} (hj : j < 256) (value : UInt8)
    (i : ℕ) : (page.set j value).getD i erased = if j = i then value else page.getD i erased := by
  rw [List.getD_eq_getElem?_getD, List.getElem?_set]
  by_cases heq : j = i
  · rw [if_pos heq, if_pos (by omega), if_pos heq, Option.getD_some]
  · rw [if_neg heq, if_neg heq, List.getD_eq_getElem?_getD]

theorem Receiving.length_openPage (h : Receiving start base capacity parser writes rx mem) :
    (openPage rx).length = 256 := by
  unfold openPage
  split_ifs with hdirty
  · exact h.page_length hdirty
  · exact List.length_replicate

theorem Receiving.putByte (h : Receiving start base capacity parser writes rx mem)
    (hcapacity : capacity % 256 = 0) (hlt : capacity < 2 ^ 32) {offset : ℕ}
    (hoffset : offset < capacity) (value : UInt8)
    (hpage : rx.pageDirty = true → rx.pageOffset = offset - offset % 256) :
    Receiving start base capacity parser (writes ++ [(offset, value)]) (putByte rx offset value)
      mem := by
  have himage (a : ℕ) : imageAt (writes ++ [(offset, value)]) a =
      if offset = a then value else imageAt writes a := stored_snoc _ _ _ _
  have hbytes : ∀ i < 256, (openPage rx).getD i erased =
      imageAt writes (offset - offset % 256 + i) ∨
        ((openPage rx).getD i erased = erased ∧ mem (start + (offset - offset % 256 + i)) =
          imageAt writes (offset - offset % 256 + i)) := by
    intro i hi
    unfold openPage
    cases hdirty : rx.pageDirty with
    | true =>
      rw [if_pos rfl, ← hpage hdirty]
      exact h.page hdirty i hi
    | false =>
      rw [if_neg (by simp)]
      right
      constructor
      · rw [List.getD_eq_getElem?_getD, List.getElem?_replicate, if_pos hi, Option.getD_some]
      · exact h.clean _ (by omega) (by simp [hdirty])
  rw [putByte_eq rx (by omega) value hpage]
  refine ⟨h.base_eq, h.capacity_eq, h.parser_eq, h.started, h.noError, ?_, ?_, ?_, ?_, ?_, ?_⟩
  · simp only [h.size_eq, extent_snoc]
  · intro w hw
    rcases List.mem_append.mp hw with hw | hw
    · exact h.bound w hw
    · rw [List.mem_singleton.mp hw]
      exact hoffset
  · intro a ha hout
    have hout := hout rfl
    simp only at hout
    rw [himage, if_neg (by omega)]
    refine h.clean a ha fun hdirty => ?_
    rw [hpage hdirty]
    exact hout
  · intro _
    rw [List.length_set, h.length_openPage]
  · intro _
    simp only
    omega
  · intro _ i hi
    simp only
    rw [himage, getD_set _ h.length_openPage (Nat.mod_lt _ (by norm_num))]
    by_cases heq : offset % 256 = i
    · left
      rw [if_pos heq, if_pos (by omega)]
    · rw [if_neg heq, if_neg (by omega)]
      exact hbytes i hi

theorem Receiving.wp_placeByte (h : Receiving start base capacity parser writes rx mem)
    (hcapacity : capacity % 256 = 0) (hlt : capacity < 2 ^ 32) (address : ℕ) (value : UInt8) :
    wp (placeByte (norWriter start) rx address value)
      (fun r mem' =>
        (r.1 = .ok ∧ (base ≤ address ∧ address - base < capacity) ∧
          Receiving start base capacity parser (writes ++ [(address - base, value)]) r.2 mem') ∨
        (r.1.isError ∧ r.2.started = true))
      (fun _ => False) mem := by
  unfold placeByte
  rw [h.base_eq, h.capacity_eq]
  by_cases hbelow : address < base
  · rw [if_pos hbelow]
    exact (wp_pure _ _ _ _).mpr (Or.inr ⟨by simp [FirmwareReceiveResult.isError], h.started⟩)
  rw [if_neg hbelow]
  by_cases hlarge : address - base ≥ capacity
  · simp only [if_pos hlarge]
    exact (wp_pure _ _ _ _).mpr (Or.inr ⟨by simp [FirmwareReceiveResult.isError], h.started⟩)
  simp only [if_neg hlarge]
  have hin : base ≤ address ∧ address - base < capacity := by omega
  by_cases hmove : rx.pageDirty = true ∧
      address - base - (address - base) % FIRMWARE_RECEIVE_PAGE_SIZE ≠ rx.pageOffset
  · rw [if_pos hmove]
    refine wp_seq h.wp_flushPage ?_
    rintro ⟨r, rx'⟩ mem' (⟨hr, -, h', hclean⟩ | ⟨hr, -, hsame⟩)
    · obtain rfl : r = .ok := hr
      simp only [ne_eq, not_true, if_false]
      exact (wp_pure _ _ _ _).mpr (Or.inl ⟨rfl, hin, h'.putByte hcapacity hlt hin.2 value
        fun hdirty => by rw [hclean] at hdirty; cases hdirty⟩)
    · obtain rfl : r = .errWrite := hr
      obtain rfl : rx' = rx := hsame
      simp only
      rw [if_pos (by simp)]
      exact (wp_pure _ _ _ _).mpr (Or.inr ⟨by simp [FirmwareReceiveResult.isError], h.started⟩)
  · rw [if_neg hmove]
    refine (wp_pure _ _ _ _).mpr (Or.inl ⟨rfl, hin, h.putByte hcapacity hlt hin.2 value ?_⟩)
    intro hdirty
    rw [not_and, not_not] at hmove
    exact (hmove hdirty).symm

/-- Every byte of a record falls inside the region. -/
def InRegion (base capacity address length : ℕ) : Prop :=
  ∀ i < length, base ≤ wrap32 (address + i) ∧ wrap32 (address + i) - base < capacity

theorem Receiving.wp_placeData (h : Receiving start base capacity parser writes rx mem)
    (hcapacity : capacity % 256 = 0) (hlt : capacity < 2 ^ 32) (address : ℕ) (values : Bytes) :
    wp (placeData (norWriter start) rx address values)
      (fun r mem' =>
        (r.1 = .ok ∧ InRegion base capacity address values.length ∧
          Receiving start base capacity parser (writes ++ dataWrites base address values) r.2 mem') ∨
        (r.1.isError ∧ Failed r.2))
      (fun _ => False) mem := by
  induction values generalizing writes rx mem address with
  | nil =>
    refine (wp_pure _ _ _ _).mpr (Or.inl ⟨rfl, fun i hi => absurd hi (by simp), ?_⟩)
    rw [dataWrites, List.append_nil]
    exact h
  | cons value values ih =>
    unfold placeData
    refine wp_seq (h.wp_placeByte hcapacity hlt (wrap32 address) value) ?_
    rintro ⟨r, rx'⟩ mem' (⟨hr, hin, h'⟩ | ⟨hr, hstarted⟩)
    · obtain rfl : r = .ok := hr
      simp only [ne_eq, not_true, if_false]
      have hnext := ih h' (address + 1)
      rw [List.append_assoc, List.singleton_append] at hnext
      refine wp_mono hnext ?_ fun _ h => h
      rintro ⟨r, rx''⟩ mem'' (⟨hr, hrest, h''⟩ | herror)
      · refine Or.inl ⟨hr, fun i hi => ?_, h''⟩
        cases i with
        | zero => exact hin
        | succ i =>
          rw [show address + (i + 1) = address + 1 + i by omega]
          exact hrest i (Nat.lt_of_succ_lt_succ hi)
      · exact Or.inr herror
    · simp only
      rw [if_pos hr.1]
      exact (wp_pure _ _ _ _).mpr (Or.inr ⟨hr, hstarted, hr.1⟩)

theorem Receiving.withParser (h : Receiving start base capacity parser writes rx mem)
    (parser' : HexParser) (records : ℕ) :
    Receiving start base capacity parser' writes { rx with parser := parser', records } mem :=
  ⟨h.base_eq, h.capacity_eq, rfl, h.started, h.noError, h.size_eq, h.bound, h.clean,
    h.page_length, h.page_aligned, h.page⟩

/-- The parser after a line. -/
def parserAfter (parser : HexParser) (line : Option CString) : HexParser :=
  (hexParserFeed parser line ⟨0, 0, []⟩).parser

/-- A line that a receiver can take: a record, and its data inside the region. -/
def LineFits (base capacity : ℕ) (parser : HexParser) (line : Option CString) : Prop :=
  let fed := hexParserFeed parser line ⟨0, 0, []⟩
  fed.result = .ok ∧
    (fed.record.type = HEX_RECORD_DATA →
      InRegion base capacity fed.record.address fed.record.data.length)

/-- What a line leaves of a transfer: still under way, complete with nothing left in the
page buffer, or failed. -/
def LineOutcome (start base capacity : ℕ) (parser : HexParser) (writes : List (ℕ × UInt8))
    (line : Option CString) (result : FirmwareReceiveResult) (rx : FirmwareReceive) (mem : Mem) :
    Prop :=
  ((result = .ok ∨ (result = .complete ∧ rx.pageDirty = false)) ∧
    LineFits base capacity parser line ∧
    Receiving start base capacity (parserAfter parser line)
      (writes ++ lineWrites base parser line) rx mem) ∨
  (result.isError ∧ Failed rx)

theorem Receiving.wp_line (h : Receiving start base capacity parser writes rx mem)
    (hcapacity : capacity % 256 = 0) (hlt : capacity < 2 ^ 32) (line : Option CString)
    (hline : line ≠ none) :
    wp (firmwareReceiveLine (norWriter start) rx line)
      (fun r => LineOutcome start base capacity parser writes line r.1 r.2)
      (fun _ => False) mem := by
  unfold firmwareReceiveLine
  rw [if_neg hline, if_neg (by simp [h.started]), if_neg (by simp [h.noError]), h.parser_eq]
  unfold LineOutcome LineFits parserAfter lineWrites
  set fed := hexParserFeed parser line ⟨0, 0, []⟩
  simp only
  by_cases hfed : fed.result = .ok
  swap
  · rw [if_pos hfed]
    exact (wp_pure _ _ _ _).mpr
      (Or.inr ⟨by simp [FirmwareReceiveResult.isError], h.started, by simp⟩)
  rw [if_neg (by simpa using hfed), if_pos hfed]
  simp only [hfed, true_and]
  have hnext := h.withParser fed.parser (wrap32 (rx.records + 1))
  unfold recordWrites
  by_cases hdata : fed.record.type = HEX_RECORD_DATA
  · rw [if_pos hdata, if_pos hdata]
    refine wp_mono (hnext.wp_placeData hcapacity hlt fed.record.address fed.record.data) ?_
      fun _ h => h
    rintro ⟨r, rx'⟩ mem' (⟨hr, hin, h'⟩ | ⟨hr, h'⟩)
    · exact Or.inl ⟨Or.inl hr, fun _ => hin, h'⟩
    · exact Or.inr ⟨hr, h'⟩
  rw [if_neg hdata, if_neg hdata, List.append_nil]
  by_cases heof : fed.record.type = HEX_RECORD_EOF
  · rw [if_pos heof]
    refine wp_seq hnext.wp_flushPage ?_
    rintro ⟨r, rx'⟩ mem' (⟨hr, -, h', hclean⟩ | ⟨hr, -, hsame⟩)
    · obtain rfl : r = .ok := hr
      simp only [ne_eq, not_true, if_false]
      refine (wp_pure _ _ _ _).mpr
        (Or.inl ⟨Or.inr ⟨rfl, hclean⟩, fun h => absurd h hdata, ?_⟩)
      exact ⟨h'.base_eq, h'.capacity_eq, h'.parser_eq, h'.started, h'.noError, h'.size_eq,
        h'.bound, h'.clean, h'.page_length, h'.page_aligned, h'.page⟩
    · obtain rfl : r = .errWrite := hr
      obtain rfl : rx' = _ := hsame
      simp only
      rw [if_pos (by simp)]
      exact (wp_pure _ _ _ _).mpr
        (Or.inr ⟨by simp [FirmwareReceiveResult.isError], h.started, by simp⟩)
  · rw [if_neg heof]
    exact (wp_pure _ _ _ _).mpr (Or.inl ⟨Or.inl rfl, fun h => absurd h hdata, hnext⟩)

theorem Failed.wp_line {σ : Type} {write : PageWriter σ} (h : Failed rx) (line : Option CString)
    (s : σ) :
    wp (firmwareReceiveLine write rx line)
      (fun r t => r.1.isError ∧ r.2 = rx ∧ t = s) (fun _ => False) s := by
  obtain ⟨hstarted, herror⟩ := h
  unfold firmwareReceiveLine
  by_cases hline : line = none
  · rw [if_pos hline]
    exact (wp_pure _ _ _ _).mpr ⟨by simp [FirmwareReceiveResult.isError], rfl, rfl⟩
  · rw [if_neg hline, if_neg (by simp [hstarted]), if_pos herror]
    exact (wp_pure _ _ _ _).mpr ⟨by simp [FirmwareReceiveResult.isError], rfl, rfl⟩

end steps

/-- The lines of a transfer, fed one after the other. -/
def receiveLines {σ : Type} (write : PageWriter σ) :
    FirmwareReceive → List CString → Powered σ (List FirmwareReceiveResult × FirmwareReceive)
  | rx, [] => return ([], rx)
  | rx, line :: lines => do
      let (result, rx) ← firmwareReceiveLine write rx (some line)
      let (results, rx) ← receiveLines write rx lines
      return (result :: results, rx)

/-- What the lines that were accepted wrote, in order. -/
def acceptedWrites (base : ℕ) : HexParser → List CString → List FirmwareReceiveResult →
    List (ℕ × UInt8)
  | parser, line :: lines, result :: results =>
      (if result = .ok ∨ result = .complete then lineWrites base parser (some line) else []) ++
        acceptedWrites base (parserAfter parser (some line)) lines results
  | _, _, _ => []

/-- Lines that a receiver can take, each after those before it. -/
def LinesFit (base capacity : ℕ) : HexParser → List CString → Prop
  | _, [] => True
  | parser, line :: lines =>
      LineFits base capacity parser (some line) ∧
        LinesFit base capacity (parserAfter parser (some line)) lines

section run

variable {start base capacity : ℕ} {rx : FirmwareReceive}

theorem Failed.wp_receiveLines {σ : Type} {write : PageWriter σ} (h : Failed rx)
    (lines : List CString) (s : σ) :
    wp (receiveLines write rx lines)
      (fun r t => r.1.length = lines.length ∧ (∀ result ∈ r.1, result.isError) ∧ r.2 = rx ∧ t = s)
      (fun _ => False) s := by
  induction lines with
  | nil => exact (wp_pure _ _ _ _).mpr ⟨rfl, by simp, rfl, rfl⟩
  | cons line lines ih =>
    refine wp_seq (h.wp_line (some line) s) ?_
    rintro ⟨result, rx'⟩ t ⟨hresult, rfl, rfl⟩
    refine wp_seq ih ?_
    rintro ⟨results, rx''⟩ t' ⟨hlength, hresults, rfl, rfl⟩
    refine (wp_pure _ _ _ _).mpr ⟨by simp [hlength], ?_, rfl, rfl⟩
    intro x hx
    rcases List.mem_cons.mp hx with rfl | hx
    · exact hresult
    · exact hresults x hx

theorem receiveLines_cons {σ : Type} (write : PageWriter σ) (rx : FirmwareReceive) (line : CString)
    (lines : List CString) :
    receiveLines write rx (line :: lines) = (do
      let (result, rx) ← firmwareReceiveLine write rx (some line)
      let (results, rx) ← receiveLines write rx lines
      return (result :: results, rx)) := rfl

theorem wp_receiveLines_append {σ : Type} {write : PageWriter σ} (rx : FirmwareReceive)
    (lines more : List CString) {Q : List FirmwareReceiveResult × FirmwareReceive → σ → Prop}
    {C : σ → Prop} {s : σ}
    (h : wp (receiveLines write rx lines)
      (fun r => wp (receiveLines write r.2 more) (fun r' => Q (r.1 ++ r'.1, r'.2)) C) C s) :
    wp (receiveLines write rx (lines ++ more)) Q C s := by
  induction lines generalizing rx s Q with
  | nil => exact h
  | cons line lines ih =>
    rw [receiveLines_cons, wp_bind] at h
    refine (wp_bind _ _ _ _ _).mpr (wp_mono h ?_ fun _ h => h)
    rintro ⟨result, rx'⟩ t ht
    simp only [wp_bind] at ht ⊢
    refine ih (Q := fun r t => Q (result :: r.1, r.2) t) rx' (wp_mono ht ?_ fun _ h => h)
    rintro ⟨results, rx''⟩ t' ht'
    exact ht'

/-- How a whole transfer can have gone: every line accepted and the writes of each stored
or in the page buffer, or a failure that no later line has undone. -/
structure RunOutcome (start base capacity : ℕ) (parser : HexParser) (writes : List (ℕ × UInt8))
    (rx : FirmwareReceive) (lines : List CString)
    (r : List FirmwareReceiveResult × FirmwareReceive) (mem : Mem) : Prop where
  length_eq : r.1.length = lines.length
  sticky : r.1.Pairwise fun earlier later => earlier.isError → later ≠ .complete
  unmoved : r.1 = [] → r.2 = rx
  fits : (∀ result ∈ r.1, result = .ok ∨ result = .complete) → LinesFit base capacity parser lines
  state : (∃ parser', Receiving start base capacity parser'
      (writes ++ acceptedWrites base parser lines r.1) r.2 mem ∧
      (r.1.getLast? = some .complete → r.2.pageDirty = false)) ∨
    ∃ result, r.1.getLast? = some result ∧ result.isError

theorem Receiving.wp_receiveLines {parser : HexParser} {writes : List (ℕ × UInt8)} {mem : Mem}
    (h : Receiving start base capacity parser writes rx mem) (hcapacity : capacity % 256 = 0)
    (hlt : capacity < 2 ^ 32) (lines : List CString) :
    wp (receiveLines (norWriter start) rx lines)
      (RunOutcome start base capacity parser writes rx lines) (fun _ => False) mem := by
  induction lines generalizing parser writes rx mem with
  | nil =>
    refine (wp_pure _ _ _ _).mpr ⟨rfl, List.Pairwise.nil, fun _ => rfl, fun _ => trivial,
      Or.inl ⟨parser, ?_, by simp⟩⟩
    simpa [acceptedWrites] using h
  | cons line lines ih =>
    refine wp_seq (h.wp_line hcapacity hlt (some line) (by simp)) ?_
    rintro ⟨result, rx'⟩ mem' (⟨hresult, hfits, h'⟩ | ⟨hresult, hfailed⟩)
    · have haccepted : result = .ok ∨ result = .complete := by
        rcases hresult with hok | ⟨hcomplete, -⟩
        · exact Or.inl hok
        · exact Or.inr hcomplete
      refine wp_seq (ih h') ?_
      rintro ⟨results, rx''⟩ mem'' hrest
      refine (wp_pure _ _ _ _).mpr ⟨by simp [hrest.length_eq], ?_, by simp, fun hall => ?_, ?_⟩
      · refine List.pairwise_cons.mpr ⟨fun later _ herror => ?_, hrest.sticky⟩
        rcases haccepted with hok | hcomplete
        · exact absurd hok herror.1
        · exact absurd hcomplete herror.2
      · exact ⟨hfits, hrest.fits fun x hx => hall x (List.mem_cons_of_mem _ hx)⟩
      · simp only [List.getLast?_cons]
        rcases hrest.state with ⟨parser', hend, hclean⟩ | ⟨last, hlast, herror⟩
        · refine Or.inl ⟨parser', ?_, fun hcomplete => ?_⟩
          · rw [acceptedWrites, if_pos haccepted, ← List.append_assoc]
            exact hend
          · cases results with
            | nil =>
              obtain rfl : rx'' = rx' := hrest.unmoved rfl
              rcases hresult with rfl | ⟨-, hclean'⟩
              · simp at hcomplete
              · exact hclean'
            | cons x xs =>
              have hlast : (x :: xs).getLast? = some ((x :: xs).getLast (by simp)) :=
                List.getLast?_eq_some_getLast _
              rw [hlast, Option.getD_some] at hcomplete
              exact hclean (hlast.trans hcomplete)
        · refine Or.inr ⟨last, ?_, herror⟩
          simp only at hlast
          rw [hlast, Option.getD_some]
    · refine wp_seq (hfailed.wp_receiveLines lines mem') ?_
      rintro ⟨results, rx''⟩ mem'' ⟨hlength, herrors, -, -⟩
      simp only at hlength herrors
      refine (wp_pure _ _ _ _).mpr ⟨by simp [hlength], ?_, by simp, fun hall => ?_, Or.inr ?_⟩
      · refine List.pairwise_cons.mpr ⟨fun later hlater _ => (herrors later hlater).2, ?_⟩
        exact List.pairwise_iff_forall_sublist.mpr fun {a b} hsub _ =>
          (herrors b (hsub.subset (by simp))).2
      · rcases hall result (by simp) with hok | hcomplete
        · exact absurd hok hresult.1
        · exact absurd hcomplete hresult.2
      · simp only [List.getLast?_cons]
        cases hlast : results.getLast? with
        | none => exact ⟨result, by simp, hresult⟩
        | some last => exact ⟨last, by simp, herrors last (List.mem_of_getLast? hlast)⟩

theorem Receiving.begin {rx₀ : FirmwareReceive} {mem : Mem}
    (hbegin : firmwareReceiveBegin rx₀ base capacity = (.ok, rx))
    (herased : ∀ a < capacity, mem (start + a) = erased) :
    Receiving start base capacity hexParserReset [] rx mem := by
  unfold firmwareReceiveBegin at hbegin
  split_ifs at hbegin
  · simp at hbegin
  obtain ⟨-, rfl⟩ := Prod.mk.inj hbegin
  exact ⟨rfl, rfl, rfl, rfl, rfl, rfl, by simp, fun a ha _ => herased a ha, by simp [resetPage],
    by simp [resetPage], by simp [resetPage]⟩

theorem RunOutcome.complete {parser : HexParser} {lines : List CString}
    {r : List FirmwareReceiveResult × FirmwareReceive} {mem : Mem}
    (h : RunOutcome start base capacity parser [] rx lines r mem)
    (hcomplete : r.1.getLast? = some .complete) :
    r.2.imageSize = extent (acceptedWrites base parser lines r.1) ∧
      read mem start r.2.imageSize =
        (List.range r.2.imageSize).map (imageAt (acceptedWrites base parser lines r.1)) := by
  rcases h.state with ⟨parser', hend, hclean⟩ | ⟨result, hlast, herror⟩
  · rw [List.nil_append] at hend
    refine ⟨hend.size_eq, List.map_congr_left fun a ha => ?_⟩
    have hrange := List.mem_range.mp ha
    have hsize := (extent_le_iff _ _).mpr hend.bound
    refine hend.clean a (by rw [hend.size_eq] at hrange; omega) fun hdirty => ?_
    rw [hclean hcomplete] at hdirty
    cases hdirty
  · rw [hcomplete] at hlast
    exact absurd (Option.some.inj hlast).symm herror.2

/-- A transfer over erased NOR flash: when its last line completes it, the region holds
the image that the accepted records wrote, up to the image's size; and no line after a
failed one completes it. -/
theorem firmwareReceive_correct (hcapacity : capacity % 256 = 0) (hlt : capacity < 2 ^ 32)
    {mem : Mem} (herased : ∀ a < capacity, mem (start + a) = erased) {rx₀ : FirmwareReceive}
    (hbegin : firmwareReceiveBegin rx₀ base capacity = (.ok, rx)) (lines : List CString) :
    ∃ results rx' mem',
      (receiveLines (norWriter start) rx lines).run.run mem = (some (results, rx'), mem') ∧
      results.length = lines.length ∧
      (results.getLast? = some .complete →
        rx'.imageSize = extent (acceptedWrites base hexParserReset lines results) ∧
        read mem' start rx'.imageSize = (List.range rx'.imageSize).map
          (imageAt (acceptedWrites base hexParserReset lines results))) ∧
      results.Pairwise fun earlier later => earlier.isError → later ≠ .complete := by
  have hrun := (Receiving.begin hbegin herased).wp_receiveLines hcapacity hlt lines
  rcases hstep : (receiveLines (norWriter start) rx lines).run.run mem with ⟨_ | ⟨results, rx'⟩, mem'⟩
  · exact ((wp_cut hstep).mp hrun).elim
  · have hend := (wp_returned hstep).mp hrun
    exact ⟨results, rx', mem', rfl, hend.length_eq, hend.complete, hend.sticky⟩

end run

theorem firmwareReceive_correct_one_byte : ∃ rx' mem',
    (receiveLines (norWriter 0) (firmwareReceiveBegin .zero 0 256).2 [oneByteLine, eofLine]).run.run
      (fun _ => erased) = (some ([.ok, .complete], rx'), mem') ∧
    rx'.imageSize = 1 ∧ read mem' 0 rx'.imageSize = [0x12] := by
  obtain ⟨results, rx', mem', hrun, -, himage, -⟩ :=
    @firmwareReceive_correct 0 0 256 (firmwareReceiveBegin .zero 0 256).2 (by norm_num)
      (by norm_num) (fun _ => erased) (fun _ _ => rfl) .zero rfl [oneByteLine, eofLine]
  have hresults : ((receiveLines (norWriter 0) (firmwareReceiveBegin .zero 0 256).2
      [oneByteLine, eofLine]).run.run (fun _ => erased)).1.map Prod.fst = some [.ok, .complete] := by
    decide +kernel
  rw [hrun] at hresults
  obtain rfl := Option.some.inj hresults
  obtain ⟨hsize, hread⟩ := himage rfl
  have hextent : extent (acceptedWrites 0 hexParserReset [oneByteLine, eofLine] [.ok, .complete]) =
      1 := by decide
  rw [hextent] at hsize
  refine ⟨rx', mem', hrun, hsize, ?_⟩
  rw [hread, hsize]
  decide

end Pico
