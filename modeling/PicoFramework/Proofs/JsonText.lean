import PicoFramework.Proofs.JsonFind
import PicoFramework.Proofs.JsonTree
import PicoFramework.Proofs.JsonValid

/-! The text of a tree is RFC 8259, and its strings and numbers read back. -/

namespace Pico

open Lib.Json

namespace JsonTree

section strings

/-- The three ways in which `put_escaped` writes a character. -/
inductive Escaped (c : UInt8) : Bytes → Prop
  | plain (hcontrol : 0x20 ≤ c) (hquote : c ≠ 0x22) (hescape : c ≠ 0x5C) : Escaped c [c]
  | letter {e : UInt8} (he : e ∈ [0x22, 0x5C, 0x2F, 0x62, 0x66, 0x6E, 0x72, 0x74])
      (h : simpleEscape e = some c) : Escaped c [0x5C, e]
  | unicode {a b : UInt8} (ha : a ∈ hexTable) (hb : b ∈ hexTable)
      (h : unicodeEscape 0x30 0x30 a b = some c) : Escaped c [0x5C, 0x75, 0x30, 0x30, a, b]

theorem escaped_control {n : ℕ} (h : n < 32) :
    Escaped (UInt8.ofNat n) (escapeText (UInt8.ofNat n)) := by
  have hall : ∀ n < 32,
      (∃ e ∈ ([0x22, 0x5C, 0x2F, 0x62, 0x66, 0x6E, 0x72, 0x74] : Bytes),
        escapeText (UInt8.ofNat n) = [0x5C, e] ∧ simpleEscape e = some (UInt8.ofNat n)) ∨
      ∃ a ∈ hexTable, ∃ b ∈ hexTable,
        escapeText (UInt8.ofNat n) = [0x5C, 0x75, 0x30, 0x30, a, b] ∧
          unicodeEscape 0x30 0x30 a b = some (UInt8.ofNat n) := by decide
  rcases hall n h with ⟨e, he, htext, hletter⟩ | ⟨a, ha, b, hb, htext, hunicode⟩
  · rw [htext]
    exact .letter he hletter
  · rw [htext]
    exact .unicode ha hb hunicode

theorem escaped (c : UInt8) : Escaped c (escapeText c) := by
  by_cases hcontrol : c < 0x20
  · have hn := UInt8.lt_iff_toNat_lt.mp hcontrol
    have := escaped_control hn
    rwa [UInt8.ofNat_toNat] at this
  · by_cases hquote : c = 0x22
    · subst hquote
      exact .letter (by decide) (by decide)
    · by_cases hescape : c = 0x5C
      · subst hescape
        exact .letter (by decide) (by decide)
      · have hplain : escapeText c = [c] := by
          have hne {d : UInt8} (hd : d < 0x20) : c ≠ d := by
            rintro rfl
            exact hcontrol hd
          unfold escapeText
          rw [if_neg hquote, if_neg hescape, if_neg (hne (by decide)), if_neg (hne (by decide)),
            if_neg (hne (by decide)), if_neg (hne (by decide)), if_neg (hne (by decide)),
            if_neg hcontrol]
        rw [hplain]
        exact .plain (UInt8.not_lt.mp hcontrol) hquote hescape

theorem hexTable_digit {a : UInt8} (h : a ∈ hexTable) : isHexDigit a = true ∧ a ≠ 0 := by
  have hall : ∀ a ∈ hexTable, isHexDigit a = true ∧ a ≠ 0 :=
    List.forall_iff_forall_mem.mp (by decide)
  exact hall a h

variable {c : UInt8} {text : Bytes}

theorem Escaped.encodes (h : Escaped c text) : Encodes c text := by
  cases h with
  | plain _ _ hescape => exact .plain hescape
  | letter _ h => exact .escape h
  | unicode _ _ h => exact .unicode h

theorem Escaped.strict (h : Escaped c text) {rest : Bytes} (hrest : StrictChars rest) :
    StrictChars (text ++ rest) := by
  cases h with
  | plain hcontrol hquote hescape => exact .plain hcontrol hquote hescape hrest
  | letter he _ => exact .escape he hrest
  | unicode ha hb _ =>
    refine .unicode ?_ hrest
    simp [(hexTable_digit ha).1, (hexTable_digit hb).1]
    decide

theorem Escaped.nul_free (h : Escaped c text) (hc : c ≠ 0) : 0 ∉ text := by
  cases h with
  | plain _ _ _ => simpa using hc.symm
  | @letter e he _ =>
    have hall : ∀ e ∈ ([0x22, 0x5C, 0x2F, 0x62, 0x66, 0x6E, 0x72, 0x74] : Bytes),
      (0 : UInt8) ∉ [0x5C, e] := List.forall_iff_forall_mem.mp (by decide)
    exact hall e he
  | unicode ha hb _ => simp [(hexTable_digit ha).2.symm, (hexTable_digit hb).2.symm]

theorem decodes_flatMap (bytes : Bytes) : Decodes (bytes.flatMap escapeText) bytes := by
  induction bytes with
  | nil => exact .nil
  | cons c bytes ih =>
    rw [List.flatMap_cons]
    exact .cons (escaped c).encodes ih

theorem strict_flatMap (bytes : Bytes) : StrictChars (bytes.flatMap escapeText) := by
  induction bytes with
  | nil => exact .nil
  | cons c bytes ih =>
    rw [List.flatMap_cons]
    exact (escaped c).strict ih

theorem quoted_strict (s : CString) : rfc8259.string (quoted s) :=
  ⟨_, strict_flatMap s.bytes, rfl⟩

theorem quoted_nul_free (s : CString) : 0 ∉ quoted s := by
  have hchars : 0 ∉ s.bytes.flatMap escapeText := by
    intro h
    obtain ⟨c, hc, hmem⟩ := List.mem_flatMap.mp h
    refine (escaped c).nul_free ?_ hmem
    rintro rfl
    exact s.nul_free hc
  simp [quoted, hchars]

end strings

section numbers

theorem digit_toNat (d : ℕ) (h : d < 10) : isDigit (UInt8.ofNat (0x30 + d)) = true ∧
    (UInt8.ofNat (0x30 + d) - 0x30).toNat = d ∧ (d ≠ 0 → 0x31 ≤ UInt8.ofNat (0x30 + d)) := by
  have hall : ∀ d < 10, isDigit (UInt8.ofNat (0x30 + d)) = true ∧
      (UInt8.ofNat (0x30 + d) - 0x30).toNat = d ∧ (d ≠ 0 → 0x31 ≤ UInt8.ofNat (0x30 + d)) := by
    decide
  exact hall d h

theorem digitLoop_digits (room magnitude : ℕ) : Digits (digitLoop room magnitude) := by
  induction room generalizing magnitude with
  | zero =>
    intro c hc
    cases hc
  | succ room ih =>
    intro c hc
    rw [digitLoop] at hc
    rcases List.mem_cons.mp hc with rfl | hc
    · exact (digit_toNat _ (Nat.mod_lt _ (by decide))).1
    · split_ifs at hc with hlast
      · cases hc
      · exact ih _ c hc

theorem digitLoop_last {room magnitude : ℕ} (hpos : 0 < magnitude) (hfit : magnitude < 10 ^ room) :
    ∃ ds d, digitLoop room magnitude = ds ++ [d] ∧ 0x31 ≤ d := by
  induction room generalizing magnitude with
  | zero => omega
  | succ room ih =>
    rw [digitLoop]
    split_ifs with hlast
    · refine ⟨[], _, rfl, (digit_toNat _ (Nat.mod_lt _ (by decide))).2.2 ?_⟩
      omega
    · obtain ⟨ds, d, hds, hd⟩ := ih (show 0 < magnitude / 10 by omega)
        (Nat.div_lt_of_lt_mul (by rw [pow_succ] at hfit; omega))
      exact ⟨_ :: ds, d, by rw [hds]; rfl, hd⟩

/-- The number that a run of digits continues. -/
def digitsValue (acc : ℕ) (ds : Bytes) : ℕ := ds.foldl (fun acc d => acc * 10 + (d - 0x30).toNat) acc

theorem digitsValue_digitLoop {room magnitude : ℕ} (hroom : 0 < room) (hfit : magnitude < 10 ^ room) :
    digitsValue 0 (digitLoop room magnitude).reverse = magnitude := by
  induction room generalizing magnitude with
  | zero => omega
  | succ room ih =>
    have hdigit := (digit_toNat _ (Nat.mod_lt magnitude (by decide : 0 < 10))).2.1
    rw [digitLoop, List.reverse_cons, digitsValue, List.foldl_append, List.foldl_cons,
      List.foldl_nil, hdigit]
    split_ifs with hlast
    · simp only [List.reverse_nil, List.foldl_nil]
      omega
    · have hpos : 0 < room := by
        rcases Nat.eq_zero_or_pos room with rfl | hpos
        · rw [pow_succ] at hfit
          omega
        · exact hpos
      have hrest := ih hpos (show magnitude / 10 < 10 ^ room from
        Nat.div_lt_of_lt_mul (by rw [pow_succ] at hfit; omega))
      rw [digitsValue] at hrest
      rw [hrest]
      omega

theorem le_digitsValue (acc : ℕ) (ds : Bytes) : acc ≤ digitsValue acc ds := by
  induction ds generalizing acc with
  | nil => exact Nat.le_refl _
  | cons d ds ih =>
    have := ih (acc * 10 + (d - 0x30).toNat)
    rw [digitsValue, List.foldl_cons]
    exact Nat.le_trans (by omega) this

theorem readMagnitude_digits {ds : Bytes} (h : Digits ds) {acc : ℕ}
    (hfit : digitsValue acc ds ≤ 2147483648) :
    readMagnitude acc ds = some (digitsValue acc ds, []) := by
  induction ds generalizing acc with
  | nil => rfl
  | cons d ds ih =>
    have hd : isJsonDigit d = true := h d (by simp)
    rw [digitsValue, List.foldl_cons] at hfit ⊢
    have hle := (le_digitsValue _ ds).trans hfit
    rw [readMagnitude, if_pos hd]
    simp only [if_neg (Nat.not_lt.mpr hle)]
    exact ih (fun c hc => h c (List.mem_cons_of_mem _ hc)) hfit

theorem natAbs_le (value : Int32) : value.toInt.natAbs ≤ 2147483648 := by
  have hlow := value.le_toInt
  have hhigh := value.toInt_lt
  omega

theorem intText_strict (value : Int32) : rfc8259.number (intText value) := by
  have hfit := natAbs_le value
  refine ⟨if value.toInt < 0 then [0x2D] else [], (digitLoop 12 value.toInt.natAbs).reverse, [], [],
    ⟨?_, ?_, Or.inl rfl, Or.inl rfl⟩, by simp [intText]⟩
  · split_ifs with hneg
    · exact Or.inr rfl
    · exact Or.inl rfl
  · rcases Nat.eq_zero_or_pos value.toInt.natAbs with hzero | hpos
    · rw [hzero]
      exact Or.inl rfl
    · obtain ⟨ds, d, hds, hd⟩ := digitLoop_last hpos (show value.toInt.natAbs < 10 ^ 12 by omega)
      have hdigits := digitLoop_digits 12 value.toInt.natAbs
      rw [hds] at hdigits ⊢
      have hdigit := hdigits d (by simp)
      simp only [isDigit, Bool.and_eq_true, decide_eq_true_eq] at hdigit
      exact Or.inr ⟨d, ds.reverse, hd, hdigit.2,
        fun c hc => hdigits c (by simp [List.mem_reverse.mp hc]), by simp⟩

theorem digits_nul_free {ds : Bytes} (h : Digits ds) : 0 ∉ ds := by
  intro hmem
  exact absurd (h 0 hmem) (by decide)

theorem intText_nul_free (value : Int32) : 0 ∉ intText value := by
  have hdigits := digits_nul_free (digitLoop_digits 12 value.toInt.natAbs)
  unfold intText
  split_ifs with hneg
  · simp [hdigits]
  · simp [hdigits]

end numbers

section trees

def membersOf (members : List (CString × JsonTree)) : List Member :=
  members.map fun member => memberOf member.1 member.2.text

theorem memberItems_eq (members : List (CString × JsonTree)) :
    memberItems members = (membersOf members).map Member.item := by
  induction members with
  | nil => rfl
  | cons first members ih =>
    obtain ⟨key, tree⟩ := first
    rw [memberItems, ih]
    rfl

theorem elementItems_eq (elements : List JsonTree) :
    elementItems elements = elements.map fun tree => ⟨[], tree.text, []⟩ := by
  induction elements with
  | nil => rfl
  | cons tree elements ih =>
    rw [elementItems, ih]
    rfl

theorem memberOf_wellFormed {n : ℕ} {key : CString} {value : Bytes} (h : Value rfc8259 n value) :
    (memberOf key value).WellFormed rfc8259 n :=
  ⟨⟨Whitespace.nil, quoted_strict key, Whitespace.nil, Whitespace.nil⟩, h, Whitespace.nil⟩

theorem members_holds {n : ℕ} {members : List (CString × JsonTree)}
    (h : ∀ member ∈ members, Value rfc8259 n member.2.text) :
    Members rfc8259 n (membersOf members) (joined (memberItems members)) := by
  by_cases hne : members = []
  · subst hne
    exact Or.inl ⟨rfl, Whitespace.nil⟩
  · refine Or.inr ⟨by simpa [membersOf] using hne, ?_, by rw [memberItems_eq]⟩
    intro member hmember
    obtain ⟨entry, hentry, rfl⟩ := List.mem_map.mp hmember
    exact memberOf_wellFormed (h entry hentry)

theorem elements_holds {n : ℕ} {elements : List JsonTree}
    (h : ∀ tree ∈ elements, Value rfc8259 n tree.text) :
    Bracket.array.Holds rfc8259 n (joined (elementItems elements)) := by
  by_cases hne : elements = []
  · subst hne
    exact Or.inl Whitespace.nil
  · refine Or.inr ⟨_, by simpa [elementItems_eq] using hne, ?_, rfl⟩
    intro item hitem
    rw [elementItems_eq] at hitem
    obtain ⟨tree, htree, rfl⟩ := List.mem_map.mp hitem
    exact ⟨Whitespace.nil, h tree htree, Whitespace.nil⟩

mutual

theorem text_value (tree : JsonTree) : Value rfc8259 tree.depth tree.text := by
  cases tree with
  | object members =>
    rw [depth, text]
    exact (members_holds (membersText_value members)).holds.value
  | array elements =>
    rw [depth, text]
    exact (elements_holds (elementsText_value elements)).value
  | int value => exact .number (intText_strict value)
  | bool value =>
    cases value with
    | false => exact .literal (by simp [text, literals])
    | true => exact .literal (by simp [text, literals])
  | null => exact .literal (by simp [text, literals])
  | string value => exact .string (quoted_strict value)

theorem membersText_value (members : List (CString × JsonTree)) :
    ∀ member ∈ members, Value rfc8259 (membersDepth members) member.2.text := by
  cases members with
  | nil =>
    intro member hmember
    cases hmember
  | cons first members =>
    obtain ⟨key, tree⟩ := first
    have htree := text_value tree
    have hmembers := membersText_value members
    intro member hmember
    rw [membersDepth]
    rcases List.mem_cons.mp hmember with rfl | hmember
    · exact htree.deepen (Nat.le_max_left _ _)
    · exact (hmembers member hmember).deepen (Nat.le_max_right _ _)

theorem elementsText_value (elements : List JsonTree) :
    ∀ tree ∈ elements, Value rfc8259 (elementsDepth elements) tree.text := by
  cases elements with
  | nil =>
    intro tree htree
    cases htree
  | cons first elements =>
    have hfirst := text_value first
    have helements := elementsText_value elements
    intro tree htree
    rw [elementsDepth]
    rcases List.mem_cons.mp htree with rfl | htree
    · exact hfirst.deepen (Nat.le_max_left _ _)
    · exact (helements tree htree).deepen (Nat.le_max_right _ _)

end

theorem joined_nul_free {items : List Item} (h : ∀ item ∈ items, 0 ∉ item.text) :
    0 ∉ joined items := by
  induction items with
  | nil => simp [joined]
  | cons item items ih =>
    have hitem := h item (by simp)
    cases items with
    | nil => exact hitem
    | cons next items =>
      have hrest := ih fun x hx => h x (List.mem_cons_of_mem _ hx)
      simp only [joined, List.mem_append, List.mem_cons, not_or]
      exact ⟨hitem, by decide, hrest⟩

theorem bracket_nul_free {bracket : Bracket} {inside : Bytes} (h : 0 ∉ inside) :
    0 ∉ bracket.text inside := by
  cases bracket with
  | object => simp [Bracket.text, Bracket.opening, Bracket.closing, h]
  | array => simp [Bracket.text, Bracket.opening, Bracket.closing, h]

mutual

theorem text_nul_free (tree : JsonTree) : 0 ∉ tree.text := by
  cases tree with
  | object members =>
    refine bracket_nul_free (joined_nul_free ?_)
    rw [memberItems_eq]
    intro item hitem
    have hmembers := membersText_nul_free members
    obtain ⟨member, hmember, rfl⟩ := List.mem_map.mp hitem
    obtain ⟨entry, hentry, rfl⟩ := List.mem_map.mp hmember
    simp [memberOf, Member.item, Naming.text, Item.text, quoted_nul_free, hmembers entry hentry]
  | array elements =>
    refine bracket_nul_free (joined_nul_free ?_)
    rw [elementItems_eq]
    intro item hitem
    have helements := elementsText_nul_free elements
    obtain ⟨tree, htree, rfl⟩ := List.mem_map.mp hitem
    simpa [Item.text] using helements tree htree
  | int value => exact intText_nul_free value
  | bool value =>
    cases value with
    | false => simp [text]
    | true => simp [text]
  | null => simp [text]
  | string value => exact quoted_nul_free value

theorem membersText_nul_free (members : List (CString × JsonTree)) :
    ∀ member ∈ members, 0 ∉ member.2.text := by
  cases members with
  | nil =>
    intro member hmember
    cases hmember
  | cons first members =>
    obtain ⟨key, tree⟩ := first
    have htree := text_nul_free tree
    have hmembers := membersText_nul_free members
    intro member hmember
    rcases List.mem_cons.mp hmember with rfl | hmember
    · exact htree
    · exact hmembers member hmember

theorem elementsText_nul_free (elements : List JsonTree) : ∀ tree ∈ elements, 0 ∉ tree.text := by
  cases elements with
  | nil =>
    intro tree htree
    cases htree
  | cons first elements =>
    have hfirst := text_nul_free first
    have helements := elementsText_nul_free elements
    intro tree htree
    rcases List.mem_cons.mp htree with rfl | htree
    · exact hfirst
    · exact helements tree htree

end

end trees

end JsonTree

end Pico
