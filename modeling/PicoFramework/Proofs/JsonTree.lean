import PicoFramework.Lib.Json
import PicoFramework.Spec.JsonWriter

/-! The documents that the writer is asked for, the calls that emit one, and the text they
leave. -/

namespace Pico

open Lib.Json

inductive JsonTree where
  | object (members : List (CString × JsonTree))
  | array (elements : List JsonTree)
  | int (value : Int32)
  | bool (value : Bool)
  | null
  | string (value : CString)

namespace JsonTree

mutual

/-- How deep the containers nest. -/
def depth : JsonTree → ℕ
  | .object members => membersDepth members + 1
  | .array elements => elementsDepth elements + 1
  | _ => 0

def membersDepth : List (CString × JsonTree) → ℕ
  | [] => 0
  | (_, tree) :: members => max tree.depth (membersDepth members)

def elementsDepth : List JsonTree → ℕ
  | [] => 0
  | tree :: elements => max tree.depth (elementsDepth elements)

end

mutual

/-- The calls for a tree, under a name or in an array. -/
def emit (key : Option CString) : JsonTree → JsonWriter → JsonWriter
  | .object members, writer =>
      jsonWriterObjectClose (emitMembers members (jsonWriterObjectOpen writer key))
  | .array elements, writer =>
      jsonWriterArrayClose (emitElements elements (jsonWriterArrayOpen writer key))
  | .int value, writer => jsonWriterInt writer key value
  | .bool value, writer => jsonWriterBool writer key value
  | .null, writer => jsonWriterNull writer key
  | .string value, writer => jsonWriterString writer key (some value)

def emitMembers : List (CString × JsonTree) → JsonWriter → JsonWriter
  | [], writer => writer
  | (key, tree) :: members, writer => emitMembers members (emit (some key) tree writer)

def emitElements : List JsonTree → JsonWriter → JsonWriter
  | [], writer => writer
  | tree :: elements, writer => emitElements elements (emit none tree writer)

end

/-- A string between its quotes. -/
def quoted (s : CString) : Bytes := 0x22 :: (s.bytes.flatMap escapeText ++ [0x22])

def intText (value : Int32) : Bytes :=
  (if value.toInt < 0 then [0x2D] else []) ++ (digitLoop 12 value.toInt.natAbs).reverse

/-- A member without whitespace. -/
def memberOf (key : CString) (value : Bytes) : Member where
  naming := ⟨[], quoted key, [], []⟩
  value := value
  after := []

mutual

/-- The text of a tree, without whitespace. -/
def text : JsonTree → Bytes
  | .object members => Bracket.object.text (joined (memberItems members))
  | .array elements => Bracket.array.text (joined (elementItems elements))
  | .int value => intText value
  | .bool value => if value then [0x74, 0x72, 0x75, 0x65] else [0x66, 0x61, 0x6C, 0x73, 0x65]
  | .null => [0x6E, 0x75, 0x6C, 0x6C]
  | .string value => quoted value

def memberItems : List (CString × JsonTree) → List Item
  | [] => []
  | (key, tree) :: members => (memberOf key tree.text).item :: memberItems members

def elementItems : List JsonTree → List Item
  | [] => []
  | tree :: elements => ⟨[], tree.text, []⟩ :: elementItems elements

end

end JsonTree

section writing

/-- The writer still takes `n` bytes. -/
def JsonWriter.Room (writer : JsonWriter) (n : ℕ) : Prop :=
  writer.overflowed = false ∧ writer.text.length + n < writer.size

def JsonWriter.wrote (writer : JsonWriter) (text : Bytes) : JsonWriter :=
  { writer with text := writer.text ++ text }

def JsonWriter.withComma (writer : JsonWriter) (comma : Bool) : JsonWriter :=
  { writer with needsComma := comma }

/-- A value is complete; the next one needs a comma. -/
def JsonWriter.settled (writer : JsonWriter) : JsonWriter := writer.withComma true

variable {writer : JsonWriter}

@[simp] theorem wrote_wrote (a b : Bytes) :
    (writer.wrote a).wrote b = writer.wrote (a ++ b) := by
  simp [JsonWriter.wrote]

theorem JsonWriter.Room.of_append {a b : Bytes} (h : writer.Room (a ++ b).length) :
    writer.Room a.length ∧ (writer.wrote a).Room b.length := by
  obtain ⟨hflag, hlength⟩ := h
  rw [List.length_append] at hlength
  refine ⟨⟨hflag, by omega⟩, hflag, ?_⟩
  simp only [JsonWriter.wrote, List.length_append]
  omega

theorem put_eq {c : UInt8} (h : writer.Room 1) : put writer c = writer.wrote [c] := by
  unfold put
  rw [if_neg]
  · rfl
  · rw [h.1]
    have := h.2
    simp only [Bool.false_eq_true, JsonWriter.length, false_or]
    omega

theorem putText_eq {text : Bytes} (h : writer.Room text.length) :
    putText writer text = writer.wrote text := by
  induction text generalizing writer with
  | nil => simp [putText, JsonWriter.wrote]
  | cons c text ih =>
    obtain ⟨hone, hrest⟩ := JsonWriter.Room.of_append (a := [c]) h
    rw [putText, List.foldl_cons, put_eq hone]
    exact (ih hrest).trans (wrote_wrote _ _)

theorem putEscaped_eq {s : CString} (h : writer.Room (s.bytes.flatMap escapeText).length) :
    putEscaped writer s = writer.wrote (s.bytes.flatMap escapeText) := by
  obtain ⟨bytes, hnul⟩ := s
  unfold putEscaped
  simp only at h ⊢
  clear hnul
  induction bytes generalizing writer with
  | nil => simp [JsonWriter.wrote]
  | cons c bytes ih =>
    rw [List.flatMap_cons] at h ⊢
    obtain ⟨hone, hrest⟩ := h.of_append
    rw [List.foldl_cons, putText_eq hone]
    exact (ih hrest).trans (wrote_wrote _ _)

/-- What goes before a value. -/
def separator (comma : Bool) (key : Option CString) : Bytes :=
  (if comma then [0x2C] else []) ++ key.elim [] fun key => JsonTree.quoted key ++ [0x3A]

theorem putSeparator_eq {key : Option CString}
    (h : writer.Room (separator writer.needsComma key).length) :
    putSeparator writer key = (writer.wrote (separator writer.needsComma key)).settled := by
  obtain ⟨hcomma, hkey⟩ := h.of_append
  have hfirst : (if writer.needsComma = true then put writer 0x2C else writer) =
      writer.wrote (if writer.needsComma = true then [0x2C] else []) := by
    cases hflag : writer.needsComma with
    | false => simp [JsonWriter.wrote]
    | true =>
      rw [hflag] at hcomma
      exact put_eq hcomma
  unfold putSeparator separator
  simp only [hfirst]
  cases key with
  | none => simp [JsonWriter.settled, JsonWriter.withComma]
  | some key =>
    -- the quote, the characters, the quote and the colon
    have hkey' : (writer.wrote (if writer.needsComma = true then [0x2C] else [])).Room
        ([0x22] ++ (key.bytes.flatMap escapeText ++ [0x22, 0x3A])).length := by
      simpa [JsonTree.quoted] using hkey
    obtain ⟨hquote, hrest⟩ := hkey'.of_append
    obtain ⟨hchars, hcolon⟩ := hrest.of_append
    change (putText (putEscaped (put _ 0x22) key) [0x22, 0x3A]).settled = _
    rw [put_eq hquote, putEscaped_eq hchars, putText_eq hcolon]
    simp [JsonTree.quoted]

theorem settled_putText_eq {key : Option CString} {text : Bytes}
    (h : writer.Room (separator writer.needsComma key ++ text).length) :
    putText (putSeparator writer key) text =
      (writer.wrote (separator writer.needsComma key ++ text)).settled := by
  obtain ⟨hseparator, htext⟩ := h.of_append
  have hsettled : (writer.wrote (separator writer.needsComma key)).settled.Room text.length := htext
  rw [putSeparator_eq hseparator, putText_eq hsettled, ← wrote_wrote]
  rfl

theorem jsonWriterInt_putText (key : Option CString) (value : Int32) :
    jsonWriterInt writer key value =
      putText (putSeparator writer key) (JsonTree.intText value) := by
  unfold jsonWriterInt JsonTree.intText
  split_ifs with hneg
  · rfl
  · rfl

theorem jsonWriterInt_eq {key : Option CString} {value : Int32}
    (h : writer.Room (separator writer.needsComma key ++ JsonTree.intText value).length) :
    jsonWriterInt writer key value =
      (writer.wrote (separator writer.needsComma key ++ JsonTree.intText value)).settled := by
  rw [← settled_putText_eq h]
  exact jsonWriterInt_putText key value

theorem putQuoted_eq {value : CString} (h : writer.Room (JsonTree.quoted value).length) :
    put (putEscaped (put writer 0x22) value) 0x22 = writer.wrote (JsonTree.quoted value) := by
  obtain ⟨hquote, hrest⟩ := JsonWriter.Room.of_append (a := [0x22]) h
  obtain ⟨hchars, hclose⟩ := hrest.of_append
  rw [put_eq hquote, putEscaped_eq hchars, put_eq hclose]
  simp [JsonTree.quoted]

theorem jsonWriterString_eq {key : Option CString} {value : CString}
    (h : writer.Room (separator writer.needsComma key ++ JsonTree.quoted value).length) :
    jsonWriterString writer key (some value) =
      (writer.wrote (separator writer.needsComma key ++ JsonTree.quoted value)).settled := by
  obtain ⟨hseparator, hvalue⟩ := h.of_append
  unfold jsonWriterString
  have hsettled : (writer.wrote (separator writer.needsComma key)).settled.Room
    (JsonTree.quoted value).length := hvalue
  rw [putSeparator_eq hseparator, ← wrote_wrote]
  exact putQuoted_eq hsettled

/-- Where the writer stands in a container it has opened. -/
def JsonWriter.inside (writer : JsonWriter) : JsonWriter :=
  { writer with depth := writer.depth + 1, needsComma := false }

theorem openContainer_eq {key : Option CString} {brace : UInt8}
    (h : writer.Room (separator writer.needsComma key ++ [brace]).length)
    (hdepth : writer.depth < JSON_MAX_DEPTH) :
    openContainer writer key brace =
      (writer.wrote (separator writer.needsComma key ++ [brace])).inside := by
  have hput : putText (putSeparator writer key) [brace] = _ := settled_putText_eq h
  unfold openContainer
  rw [if_neg (by omega)]
  change (put (putSeparator writer key) brace).inside = _
  rw [show put (putSeparator writer key) brace = _ from hput]
  rfl

theorem closeContainer_eq {brace : UInt8} (h : writer.Room 1) (hdepth : writer.depth ≠ 0) :
    closeContainer writer brace =
      { (writer.wrote [brace]).settled with depth := writer.depth - 1 } := by
  unfold closeContainer
  rw [if_neg hdepth]
  simp only [put_eq h]
  rfl

/-- The items of a container that may have some already. -/
def continued (comma : Bool) : List Item → Bytes
  | [] => []
  | item :: items => (if comma then [0x2C] else []) ++ (item.text ++ continued true items)

theorem continued_false (items : List Item) : continued false items = joined items := by
  have htrue : ∀ items, items ≠ [] → continued true items = 0x2C :: joined items := by
    intro items hne
    induction items with
    | nil => exact absurd rfl hne
    | cons item items ih =>
      cases items with
      | nil => simp [continued, joined]
      | cons next items =>
        rw [continued, ih (by simp)]
        simp [joined]
  cases items with
  | nil => rfl
  | cons item items =>
    cases items with
    | nil => simp [continued, joined]
    | cons next items =>
      rw [continued, htrue _ (by simp)]
      simp [joined]

/-- Text was appended at the same level. -/
def JsonWriter.Grew (writer : JsonWriter) (text : Bytes) (writer' : JsonWriter) : Prop :=
  ∃ comma, writer' = (writer.wrote text).withComma comma

theorem container_eq (bracket : Bracket) {key : Option CString} {items : List Item}
    {run : JsonWriter → JsonWriter} (hdepth : writer.depth < JSON_MAX_DEPTH)
    (hroom : writer.Room (separator writer.needsComma key ++ bracket.text (joined items)).length)
    (hrun : ∀ inner : JsonWriter, inner.depth = writer.depth + 1 → inner.needsComma = false →
      inner.Room (joined items).length → inner.Grew (joined items) (run inner)) :
    closeContainer (run (openContainer writer key bracket.opening)) bracket.closing =
      (writer.wrote (separator writer.needsComma key ++ bracket.text (joined items))).settled := by
  have hsplit : separator writer.needsComma key ++ bracket.text (joined items) =
      (separator writer.needsComma key ++ [bracket.opening]) ++
        (joined items ++ [bracket.closing]) := by simp [Bracket.text]
  rw [hsplit] at hroom ⊢
  obtain ⟨hopening, hrest⟩ := hroom.of_append
  obtain ⟨hitems, hclosing⟩ := hrest.of_append
  rw [openContainer_eq hopening hdepth, ← wrote_wrote (separator writer.needsComma key ++ _)]
  have hlevel : (writer.wrote (separator writer.needsComma key ++ [bracket.opening])).depth =
    writer.depth := rfl
  generalize writer.wrote (separator writer.needsComma key ++ [bracket.opening]) = opened
    at hlevel hitems hclosing ⊢
  obtain ⟨comma, hgrew⟩ := hrun opened.inside (congrArg (· + 1) hlevel) rfl hitems
  rw [hgrew, ← wrote_wrote]
  have hroom : ((opened.inside.wrote (joined items)).withComma comma).Room 1 := hclosing
  exact closeContainer_eq hroom (Nat.succ_ne_zero _)

/-- One item, and then the others. -/
theorem grew_cons (key : Option CString) (text : Bytes) {item : Item} {items : List Item}
    {emitOne emitRest : JsonWriter → JsonWriter}
    (htext : ∀ comma, separator comma key ++ text = (if comma then [0x2C] else []) ++ item.text)
    (hroom : writer.Room (continued writer.needsComma (item :: items)).length)
    (hone : writer.Room (separator writer.needsComma key ++ text).length →
      emitOne writer = (writer.wrote (separator writer.needsComma key ++ text)).settled)
    (hrest : ∀ next : JsonWriter, next.depth = writer.depth → next.needsComma = true →
      next.Room (continued true items).length → next.Grew (continued true items) (emitRest next)) :
    writer.Grew (continued writer.needsComma (item :: items)) (emitRest (emitOne writer)) := by
  have hsplit : continued writer.needsComma (item :: items) =
      (separator writer.needsComma key ++ text) ++ continued true items := by
    rw [htext, continued, List.append_assoc]
  rw [hsplit] at hroom ⊢
  obtain ⟨hfirst, hothers⟩ := hroom.of_append
  rw [hone hfirst]
  obtain ⟨comma, hgrew⟩ :=
    hrest (writer.wrote (separator writer.needsComma key ++ text)).settled rfl rfl hothers
  exact ⟨comma, by rw [hgrew, ← wrote_wrote (separator writer.needsComma key ++ text)]; rfl⟩

end writing

namespace JsonTree

mutual

theorem emit_eq (tree : JsonTree) (key : Option CString) (writer : JsonWriter)
    (hdepth : writer.depth + tree.depth ≤ JSON_MAX_DEPTH)
    (hroom : writer.Room (separator writer.needsComma key ++ tree.text).length) :
    tree.emit key writer =
      (writer.wrote (separator writer.needsComma key ++ tree.text)).settled := by
  cases tree with
  | object members =>
    rw [depth] at hdepth
    refine container_eq .object (by omega) hroom fun inner hlevel hcomma hinner => ?_
    have := emitMembers_eq members inner (by omega)
      (by rwa [hcomma, continued_false])
    rwa [hcomma, continued_false] at this
  | array elements =>
    rw [depth] at hdepth
    refine container_eq .array (by omega) hroom fun inner hlevel hcomma hinner => ?_
    have := emitElements_eq elements inner (by omega)
      (by rwa [hcomma, continued_false])
    rwa [hcomma, continued_false] at this
  | int value => exact jsonWriterInt_eq hroom
  | bool value => exact settled_putText_eq hroom
  | null => exact settled_putText_eq hroom
  | string value => exact jsonWriterString_eq hroom

theorem emitMembers_eq (members : List (CString × JsonTree)) (writer : JsonWriter)
    (hdepth : writer.depth + membersDepth members ≤ JSON_MAX_DEPTH)
    (hroom : writer.Room (continued writer.needsComma (memberItems members)).length) :
    writer.Grew (continued writer.needsComma (memberItems members))
      (emitMembers members writer) := by
  cases members with
  | nil => exact ⟨writer.needsComma, by
      simp [emitMembers, memberItems, continued, JsonWriter.wrote, JsonWriter.withComma]⟩
  | cons first members =>
    obtain ⟨key, tree⟩ := first
    rw [membersDepth] at hdepth
    refine grew_cons (some key) tree.text ?_ hroom
      (fun hone => emit_eq tree (some key) writer (by omega) hone) fun next hlevel hcomma hnext => ?_
    · intro comma
      simp [separator, memberOf, Member.item, Naming.text, Item.text]
    · have := emitMembers_eq members next (by omega) (by rwa [hcomma])
      rwa [hcomma] at this

theorem emitElements_eq (elements : List JsonTree) (writer : JsonWriter)
    (hdepth : writer.depth + elementsDepth elements ≤ JSON_MAX_DEPTH)
    (hroom : writer.Room (continued writer.needsComma (elementItems elements)).length) :
    writer.Grew (continued writer.needsComma (elementItems elements))
      (emitElements elements writer) := by
  cases elements with
  | nil =>
    exact ⟨writer.needsComma, by
      simp [emitElements, elementItems, continued, JsonWriter.wrote, JsonWriter.withComma]⟩
  | cons tree elements =>
    rw [elementsDepth] at hdepth
    refine grew_cons none tree.text ?_ hroom
      (fun hone => emit_eq tree none writer (by omega) hone) fun next hlevel hcomma hnext => ?_
    · intro comma
      simp [separator, Item.text]
    · have := emitElements_eq elements next (by omega) (by rwa [hcomma])
      rwa [hcomma] at this

end

end JsonTree

end Pico
