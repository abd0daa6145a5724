import PicoFramework.Proofs.JsonTree

/-! Any sequence of writer calls over a buffer of any size: the draft the calls amount to,
the part of it that is stored, and what `json_writer_finish` says of it. -/

namespace Pico

open Lib.Json (Bracket)

/-- The calls between `json_writer_init` and `json_writer_finish`. -/
inductive WriterCall where
  | containerOpen (bracket : Bracket) (key : Option CString)
  | containerClose (bracket : Bracket)
  | int (key : Option CString) (value : Int32)
  | bool (key : Option CString) (value : Bool)
  | null (key : Option CString)
  | string (key value : Option CString)
  | raw (key json : Option CString)

def jsonWriterCall (writer : JsonWriter) : WriterCall → JsonWriter
  | .containerOpen .object key => jsonWriterObjectOpen writer key
  | .containerOpen .array key => jsonWriterArrayOpen writer key
  | .containerClose .object => jsonWriterObjectClose writer
  | .containerClose .array => jsonWriterArrayClose writer
  | .int key value => jsonWriterInt writer key value
  | .bool key value => jsonWriterBool writer key value
  | .null key => jsonWriterNull writer key
  | .string key value => jsonWriterString writer key value
  | .raw key json => jsonWriterRaw writer key json

section drafts

/-- The text of `null`, which a missing string is written as. -/
def nullText : Bytes := [0x6E, 0x75, 0x6C, 0x6C]

/-- A document in a buffer without end. -/
structure Draft where
  text : Bytes
  depth : ℕ
  comma : Bool
  malformed : Bool

def Draft.blank : Draft where
  text := []
  depth := 0
  comma := false
  malformed := false

/-- The characters that a call puts, at that depth and with that much before it. -/
def WriterCall.text (depth : ℕ) (comma : Bool) : WriterCall → Bytes
  | .containerOpen bracket key =>
      if depth ≥ JSON_MAX_DEPTH then [] else separator comma key ++ [bracket.opening]
  | .containerClose bracket => if depth = 0 then [] else [bracket.closing]
  | .int key value => separator comma key ++ JsonTree.intText value
  | .bool key value =>
      separator comma key ++
        if value then [0x74, 0x72, 0x75, 0x65] else [0x66, 0x61, 0x6C, 0x73, 0x65]
  | .null key => separator comma key ++ nullText
  | .string key value => separator comma key ++ value.elim nullText JsonTree.quoted
  | .raw key json => separator comma key ++ json.elim nullText CString.bytes

def Draft.call (draft : Draft) (call : WriterCall) : Draft :=
  let text := draft.text ++ call.text draft.depth draft.comma
  match call with
  | .containerOpen _ _ =>
      if draft.depth ≥ JSON_MAX_DEPTH then { draft with malformed := true }
      else { draft with text, depth := draft.depth + 1, comma := false }
  | .containerClose _ =>
      if draft.depth = 0 then { draft with malformed := true }
      else { draft with text, depth := draft.depth - 1, comma := true }
  | _ => { draft with text, comma := true }

/-- The whole document of a sequence of calls. -/
def draftOf (calls : List WriterCall) : Draft := calls.foldl Draft.call Draft.blank

theorem Draft.call_text (draft : Draft) (call : WriterCall) :
    (draft.call call).text = draft.text ++ call.text draft.depth draft.comma := by
  cases call with
  | containerOpen bracket key =>
    simp only [Draft.call, WriterCall.text]
    split_ifs <;> simp
  | containerClose bracket =>
    simp only [Draft.call, WriterCall.text]
    split_ifs <;> simp
  | _ => rfl

end drafts

section putting

/-- Everything but the text and the overflow flag. -/
def JsonWriter.reflag (writer : JsonWriter) (depth : ℕ) (comma malformed : Bool) : JsonWriter :=
  { writer with depth := depth, needsComma := comma, malformed := malformed }

variable {writer : JsonWriter}

@[simp] theorem put_size (c : UInt8) : (put writer c).size = writer.size := by
  unfold put
  split_ifs <;> rfl

@[simp] theorem put_depth (c : UInt8) : (put writer c).depth = writer.depth := by
  unfold put
  split_ifs <;> rfl

@[simp] theorem put_needsComma (c : UInt8) : (put writer c).needsComma = writer.needsComma := by
  unfold put
  split_ifs <;> rfl

@[simp] theorem put_malformed (c : UInt8) : (put writer c).malformed = writer.malformed := by
  unfold put
  split_ifs <;> rfl

theorem put_reflag (depth : ℕ) (comma malformed : Bool) (c : UInt8) :
    put (writer.reflag depth comma malformed) c = (put writer c).reflag depth comma malformed := by
  unfold put
  by_cases h : writer.overflowed = true ∨ writer.length + 1 ≥ writer.size
  · have hreflag : (writer.reflag depth comma malformed).overflowed = true ∨
        (writer.reflag depth comma malformed).length + 1 ≥
          (writer.reflag depth comma malformed).size := h
    rw [if_pos h, if_pos hreflag]
    rfl
  · have hreflag : ¬((writer.reflag depth comma malformed).overflowed = true ∨
        (writer.reflag depth comma malformed).length + 1 ≥
          (writer.reflag depth comma malformed).size) := h
    rw [if_neg h, if_neg hreflag]
    rfl

theorem putText_reflag (depth : ℕ) (comma malformed : Bool) (text : Bytes) :
    putText (writer.reflag depth comma malformed) text =
      (putText writer text).reflag depth comma malformed := by
  induction text generalizing writer with
  | nil => rfl
  | cons c text ih =>
    rw [putText, List.foldl_cons, put_reflag]
    exact ih

theorem putText_cons (c : UInt8) (text : Bytes) :
    putText writer (c :: text) = putText (put writer c) text := rfl

theorem putText_append (a b : Bytes) : putText writer (a ++ b) = putText (putText writer a) b :=
  List.foldl_append

theorem putText_flags (text : Bytes) :
    (putText writer text).size = writer.size ∧ (putText writer text).depth = writer.depth ∧
      (putText writer text).needsComma = writer.needsComma ∧
      (putText writer text).malformed = writer.malformed := by
  induction text generalizing writer with
  | nil => exact ⟨rfl, rfl, rfl, rfl⟩
  | cons c text ih => simpa [putText_cons] using @ih (put writer c)

theorem putEscaped_putText (text : CString) :
    putEscaped writer text = putText writer (text.bytes.flatMap escapeText) := by
  obtain ⟨bytes, hnul⟩ := text
  unfold putEscaped
  simp only
  clear hnul
  induction bytes generalizing writer with
  | nil => rfl
  | cons c bytes ih => rw [List.foldl_cons, ih, List.flatMap_cons, putText_append]

theorem putQuoted_putText (text : CString) :
    put (putEscaped (put writer 0x22) text) 0x22 = putText writer (JsonTree.quoted text) := by
  rw [putEscaped_putText, JsonTree.quoted, putText_cons, putText_append]
  rfl

theorem putSeparator_putText (key : Option CString) :
    putSeparator writer key =
      (putText writer (separator writer.needsComma key)).reflag writer.depth true
        writer.malformed := by
  have hcomma : (if writer.needsComma = true then put writer 0x2C else writer) =
      putText writer (if writer.needsComma = true then [0x2C] else []) := by
    split_ifs <;> rfl
  have hsettled : ∀ text, { putText writer text with needsComma := true } =
      (putText writer text).reflag writer.depth true writer.malformed := by
    intro text
    obtain ⟨-, hdepth, -, hmalformed⟩ : _ ∧ _ ∧ _ ∧ _ := @putText_flags writer text
    rw [← hdepth, ← hmalformed]
    rfl
  unfold putSeparator separator
  simp only [hcomma]
  cases key with
  | none => simpa using hsettled _
  | some key =>
    rw [← hsettled, Option.elim_some, putText_append, putText_append, ← putQuoted_putText]
    rfl

theorem putValue_putText (key : Option CString) (text : Bytes) :
    putText (putSeparator writer key) text =
      (putText writer (separator writer.needsComma key ++ text)).reflag writer.depth true
        writer.malformed := by
  rw [putSeparator_putText, putText_reflag, putText_append]

theorem openContainer_putText (key : Option CString) (brace : UInt8) :
    openContainer writer key brace =
      if writer.depth ≥ JSON_MAX_DEPTH then { writer with malformed := true }
      else (putText writer (separator writer.needsComma key ++ [brace])).reflag
        (writer.depth + 1) false writer.malformed := by
  unfold openContainer
  split_ifs with hdeep
  · rfl
  · have hput := @putValue_putText writer key [brace]
    change { put (putSeparator writer key) brace with
      depth := (put (putSeparator writer key) brace).depth + 1, needsComma := false } = _
    rw [show put (putSeparator writer key) brace = _ from hput]
    rfl

theorem closeContainer_putText (brace : UInt8) :
    closeContainer writer brace =
      if writer.depth = 0 then { writer with malformed := true }
      else (putText writer [brace]).reflag (writer.depth - 1) true writer.malformed := by
  unfold closeContainer
  split_ifs with hzero
  · rfl
  · have hdepth : (put writer brace).depth = writer.depth := put_depth brace
    have hmalformed : (put writer brace).malformed = writer.malformed := put_malformed brace
    rw [← hdepth, ← hmalformed]
    rfl

/-- What a call does to the flags of a writer. -/
def WriterCall.flags (writer : JsonWriter) : WriterCall → ℕ × Bool × Bool
  | .containerOpen _ _ =>
      if writer.depth ≥ JSON_MAX_DEPTH then (writer.depth, writer.needsComma, true)
      else (writer.depth + 1, false, writer.malformed)
  | .containerClose _ =>
      if writer.depth = 0 then (writer.depth, writer.needsComma, true)
      else (writer.depth - 1, true, writer.malformed)
  | _ => (writer.depth, true, writer.malformed)

theorem jsonWriterCall_putText (writer : JsonWriter) (call : WriterCall) :
    jsonWriterCall writer call =
      (putText writer (call.text writer.depth writer.needsComma)).reflag
        (call.flags writer).1 (call.flags writer).2.1 (call.flags writer).2.2 := by
  have hopen : ∀ (key : Option CString) (bracket : Bracket),
      openContainer writer key bracket.opening =
        (putText writer
          ((WriterCall.containerOpen bracket key).text writer.depth writer.needsComma)).reflag
          ((WriterCall.containerOpen bracket key).flags writer).1
          ((WriterCall.containerOpen bracket key).flags writer).2.1
          ((WriterCall.containerOpen bracket key).flags writer).2.2 := by
    intro key bracket
    rw [openContainer_putText]
    simp only [WriterCall.text, WriterCall.flags]
    split_ifs <;> rfl
  have hclose : ∀ bracket : Bracket,
      closeContainer writer bracket.closing =
        (putText writer
          ((WriterCall.containerClose bracket).text writer.depth writer.needsComma)).reflag
          ((WriterCall.containerClose bracket).flags writer).1
          ((WriterCall.containerClose bracket).flags writer).2.1
          ((WriterCall.containerClose bracket).flags writer).2.2 := by
    intro bracket
    rw [closeContainer_putText]
    simp only [WriterCall.text, WriterCall.flags]
    split_ifs <;> rfl
  cases call with
  | containerOpen bracket key =>
    cases bracket with
    | object => exact hopen key .object
    | array => exact hopen key .array
  | containerClose bracket =>
    cases bracket with
    | object => exact hclose .object
    | array => exact hclose .array
  | int key value =>
    rw [show jsonWriterCall writer (.int key value) = _ from jsonWriterInt_putText key value]
    exact putValue_putText key _
  | bool key value => exact putValue_putText key _
  | null key => exact putValue_putText key _
  | string key value =>
    cases value with
    | none => exact putValue_putText key _
    | some value =>
      refine Eq.trans ?_ (putValue_putText key (JsonTree.quoted value))
      exact putQuoted_putText value
  | raw key json =>
    cases json with
    | none => exact putValue_putText key _
    | some json => exact putValue_putText key _

end putting

section memory

/-- The store of `put`, into memory from the buffer's first byte on. -/
def storePut (writer : JsonWriter) (memory : Bytes) (c : UInt8) : Bytes :=
  if writer.overflowed = true ∨ writer.length + 1 ≥ writer.size then memory
  else memory.set writer.length c

def storeText : JsonWriter → Bytes → Bytes → Bytes
  | _, memory, [] => memory
  | writer, memory, c :: text => storeText (put writer c) (storePut writer memory c) text

/-- The calls, with the memory that they store to. -/
def writerRun : JsonWriter → Bytes → List WriterCall → JsonWriter × Bytes
  | writer, memory, [] => (writer, memory)
  | writer, memory, call :: calls =>
      writerRun (jsonWriterCall writer call)
        (storeText writer memory (call.text writer.depth writer.needsComma)) calls

/-- The store of `json_writer_finish`. -/
def storeFinish (writer : JsonWriter) (memory : Bytes) : Bytes :=
  if writer.size > 0 then
    memory.set (if writer.length < writer.size then writer.length else writer.size - 1) 0
  else memory

/-- `json_writer_init`, the calls and `json_writer_finish`: the result and the memory. -/
def writeDocument (size : ℕ) (memory : Bytes) (calls : List WriterCall) : Bool × Bytes :=
  let (writer, memory) := writerRun (jsonWriterInit (some size)) memory calls
  ((jsonWriterFinish writer).1, storeFinish writer memory)

/-- The writer has as much of the draft as fits. -/
structure JsonWriter.Drafts (writer : JsonWriter) (draft : Draft) : Prop where
  depth : writer.depth = draft.depth
  comma : writer.needsComma = draft.comma
  malformed : writer.malformed = draft.malformed
  text : writer.text = draft.text.take (writer.size - 1)
  overflowed : writer.overflowed = true ↔ writer.size ≤ draft.text.length

variable {writer : JsonWriter} {draft : Draft}

theorem putText_fits {text : Bytes} (more : Bytes) (htext : writer.text = text.take (writer.size - 1))
    (hflag : writer.overflowed = true ↔ writer.size ≤ text.length) :
    (putText writer more).text = (text ++ more).take (writer.size - 1) ∧
      ((putText writer more).overflowed = true ↔ writer.size ≤ (text ++ more).length) := by
  induction more generalizing writer text with
  | nil => simpa [putText] using ⟨htext, hflag⟩
  | cons c more ih =>
    have hsize : (put writer c).size = writer.size := put_size c
    have hone : (put writer c).text = (text ++ [c]).take ((put writer c).size - 1) ∧
        ((put writer c).overflowed = true ↔ (put writer c).size ≤ (text ++ [c]).length) := by
      rw [hsize, List.length_append, List.length_singleton]
      by_cases hover : writer.overflowed = true
      · have hlong := hflag.mp hover
        have hput : put writer c = { writer with overflowed := true } := if_pos (Or.inl hover)
        rw [hput]
        refine ⟨?_, iff_of_true rfl (by omega)⟩
        rw [htext, List.take_append_of_le_length (by omega)]
      · have hshort : text.length < writer.size := not_le.mp (mt hflag.mpr hover)
        have hwhole : writer.text = text := by rw [htext, List.take_of_length_le (by omega)]
        by_cases hfull : writer.length + 1 ≥ writer.size
        · have hput : put writer c = { writer with overflowed := true } := if_pos (Or.inr hfull)
          rw [JsonWriter.length, hwhole] at hfull
          rw [hput]
          refine ⟨?_, iff_of_true rfl (by omega)⟩
          rw [htext, List.take_append_of_le_length (by omega)]
        · have hput : put writer c = { writer with text := writer.text ++ [c] } :=
            if_neg (not_or.mpr ⟨hover, hfull⟩)
          rw [JsonWriter.length, hwhole] at hfull
          rw [hput]
          refine ⟨?_, iff_of_false hover (by omega)⟩
          rw [hwhole, List.take_of_length_le (by simp; omega)]
    have hmore := ih hone.1 hone.2
    rwa [hsize, List.append_assoc] at hmore

theorem jsonWriterCall_size (writer : JsonWriter) (call : WriterCall) :
    (jsonWriterCall writer call).size = writer.size := by
  rw [jsonWriterCall_putText]
  exact (putText_flags _).1

theorem JsonWriter.Drafts.call (h : writer.Drafts draft) (call : WriterCall) :
    (jsonWriterCall writer call).Drafts (draft.call call) := by
  obtain ⟨htext, hflag⟩ :=
    putText_fits (call.text writer.depth writer.needsComma) h.text h.overflowed
  have hflags : (draft.call call).depth = (call.flags writer).1 ∧
      (draft.call call).comma = (call.flags writer).2.1 ∧
      (draft.call call).malformed = (call.flags writer).2.2 := by
    cases call with
    | containerOpen bracket key =>
      simp only [Draft.call, WriterCall.flags, h.depth, h.comma, h.malformed]
      split_ifs <;> simp
    | containerClose bracket =>
      simp only [Draft.call, WriterCall.flags, h.depth, h.comma, h.malformed]
      split_ifs <;> simp
    | _ => exact ⟨h.depth.symm, rfl, h.malformed.symm⟩
  have hdraft : (draft.call call).text =
      draft.text ++ call.text writer.depth writer.needsComma := by
    rw [Draft.call_text, h.depth, h.comma]
  have hsize := jsonWriterCall_size writer call
  rw [jsonWriterCall_putText] at hsize ⊢
  refine ⟨hflags.1.symm, hflags.2.1.symm, hflags.2.2.symm, ?_, ?_⟩
  · rw [hsize, hdraft]
    exact htext
  · rw [hsize, hdraft]
    exact hflag

theorem storeText_eq (beyond : Bytes) (text : Bytes) {memory : Bytes}
    (hmemory : memory = writer.text ++ beyond.drop writer.text.length)
    (hroom : writer.size ≤ beyond.length) :
    storeText writer memory text =
      (putText writer text).text ++ beyond.drop (putText writer text).text.length := by
  induction text generalizing writer memory with
  | nil => exact hmemory
  | cons c text ih =>
    rw [storeText, putText_cons]
    refine ih ?_ (by rwa [put_size])
    by_cases hfull : writer.overflowed = true ∨ writer.length + 1 ≥ writer.size
    · rw [storePut, if_pos hfull, put, if_pos hfull]
      exact hmemory
    · rw [storePut, if_neg hfull, put, if_neg hfull, hmemory]
      have hlength : writer.text.length < beyond.length := by
        have := (not_or.mp hfull).2
        rw [JsonWriter.length] at this
        omega
      rw [JsonWriter.length, List.set_append_right _ _ le_rfl, Nat.sub_self,
        List.drop_eq_getElem_cons hlength]
      simp only [List.set_cons_zero, List.length_append, List.length_singleton, List.append_assoc,
        List.singleton_append]

theorem writerRun_spec (beyond : Bytes) (calls : List WriterCall) {memory : Bytes}
    (h : writer.Drafts draft) (hmemory : memory = writer.text ++ beyond.drop writer.text.length)
    (hroom : writer.size ≤ beyond.length) :
    (writerRun writer memory calls).1.size = writer.size ∧
      (writerRun writer memory calls).1.Drafts (calls.foldl Draft.call draft) ∧
      (writerRun writer memory calls).2 = (writerRun writer memory calls).1.text ++
        beyond.drop (writerRun writer memory calls).1.text.length := by
  induction calls generalizing writer draft memory with
  | nil => exact ⟨rfl, h, hmemory⟩
  | cons call calls ih =>
    have hsize := jsonWriterCall_size writer call
    rw [writerRun, List.foldl_cons, ← hsize]
    apply ih (h.call call)
    · rw [storeText_eq beyond _ hmemory hroom, jsonWriterCall_putText]
      rfl
    · rwa [hsize]

theorem jsonWriterInit_drafts (size : ℕ) :
    (jsonWriterInit (some size)).Drafts Draft.blank where
  depth := rfl
  comma := rfl
  malformed := rfl
  text := List.take_nil.symm
  overflowed := by simp [jsonWriterInit, Draft.blank]

theorem JsonWriter.Drafts.run (h : writer.Drafts draft) (calls : List WriterCall) :
    (calls.foldl jsonWriterCall writer).size = writer.size ∧
      (calls.foldl jsonWriterCall writer).Drafts (calls.foldl Draft.call draft) := by
  induction calls generalizing writer draft with
  | nil => exact ⟨rfl, h⟩
  | cons call calls ih =>
    obtain ⟨hsize, hdrafts⟩ := ih (h.call call)
    exact ⟨hsize.trans (jsonWriterCall_size writer call), hdrafts⟩

end memory

section trees

namespace JsonTree

mutual

theorem exists_calls (tree : JsonTree) (key : Option CString) :
    ∃ calls : List WriterCall, ∀ writer, tree.emit key writer = calls.foldl jsonWriterCall writer := by
  cases tree with
  | object members =>
    obtain ⟨calls, hcalls⟩ := exists_memberCalls members
    refine ⟨.containerOpen .object key :: (calls ++ [.containerClose .object]), fun writer => ?_⟩
    rw [emit, hcalls, List.foldl_cons, List.foldl_append]
    rfl
  | array elements =>
    obtain ⟨calls, hcalls⟩ := exists_elementCalls elements
    refine ⟨.containerOpen .array key :: (calls ++ [.containerClose .array]), fun writer => ?_⟩
    rw [emit, hcalls, List.foldl_cons, List.foldl_append]
    rfl
  | int value => exact ⟨[.int key value], fun _ => rfl⟩
  | bool value => exact ⟨[.bool key value], fun _ => rfl⟩
  | null => exact ⟨[.null key], fun _ => rfl⟩
  | string value => exact ⟨[.string key (some value)], fun _ => rfl⟩

theorem exists_memberCalls (members : List (CString × JsonTree)) :
    ∃ calls : List WriterCall,
      ∀ writer, emitMembers members writer = calls.foldl jsonWriterCall writer := by
  cases members with
  | nil => exact ⟨[], fun _ => rfl⟩
  | cons first members =>
    obtain ⟨key, tree⟩ := first
    obtain ⟨one, hone⟩ := exists_calls tree (some key)
    obtain ⟨calls, hcalls⟩ := exists_memberCalls members
    refine ⟨one ++ calls, fun writer => ?_⟩
    rw [emitMembers, hone, hcalls, List.foldl_append]

theorem exists_elementCalls (elements : List JsonTree) :
    ∃ calls : List WriterCall,
      ∀ writer, emitElements elements writer = calls.foldl jsonWriterCall writer := by
  cases elements with
  | nil => exact ⟨[], fun _ => rfl⟩
  | cons tree elements =>
    obtain ⟨one, hone⟩ := exists_calls tree none
    obtain ⟨calls, hcalls⟩ := exists_elementCalls elements
    refine ⟨one ++ calls, fun writer => ?_⟩
    rw [emitElements, hone, hcalls, List.foldl_append]

end

theorem emit_overflowed (tree : JsonTree) (key : Option CString) {size large : ℕ} {text : Bytes}
    (htext : (tree.emit key (jsonWriterInit (some large))).text = text)
    (hsmall : size ≤ text.length) :
    (tree.emit key (jsonWriterInit (some size))).overflowed = true := by
  obtain ⟨calls, hcalls⟩ := exists_calls tree key
  rw [hcalls] at htext ⊢
  obtain ⟨hsize, hdrafts⟩ := (jsonWriterInit_drafts large).run calls
  obtain ⟨hsize', hdrafts'⟩ := (jsonWriterInit_drafts size).run calls
  have hle : text.length ≤ (calls.foldl Draft.call Draft.blank).text.length := by
    rw [← htext, hdrafts.text]
    exact List.length_take_le' _ _
  rw [hdrafts'.overflowed, hsize']
  exact hsmall.trans hle

end JsonTree

end trees

section nesting

/-- The containers that are open after a call, the innermost first, whatever it closes. -/
def stacked (stack : List Bracket) : WriterCall → Option (List Bracket)
  | .containerOpen bracket _ =>
      if stack.length < JSON_MAX_DEPTH then some (bracket :: stack) else none
  | .containerClose _ =>
      match stack with
      | [] => none
      | _ :: rest => some rest
  | _ => some stack

/-- A close of the other kind than the innermost open container. -/
def miscloses (stack : List Bracket) : WriterCall → Prop
  | .containerClose bracket =>
      match stack with
      | [] => False
      | innermost :: _ => innermost ≠ bracket
  | _ => False

/-- The containers that are open after a call that is allowed where it stands. -/
def nested (stack : List Bracket) : WriterCall → Option (List Bracket)
  | .containerOpen bracket _ =>
      if stack.length < JSON_MAX_DEPTH then some (bracket :: stack) else none
  | .containerClose bracket =>
      match stack with
      | [] => none
      | innermost :: rest => if innermost = bracket then some rest else none
  | _ => some stack

/-- No open is too deep, no close without its open, and every container is closed, by a close of
its own kind. -/
def WellNested (calls : List WriterCall) : Prop := calls.foldlM nested [] = some []

/-- The opens and closes are as many, in an order that a writer can follow. -/
def Levelled (calls : List WriterCall) : Prop := calls.foldlM stacked [] = some []

/-- Some close is of the other kind than the container that it closes. -/
def Mixed : List Bracket → List WriterCall → Prop
  | _, [] => False
  | stack, call :: calls =>
      miscloses stack call ∨ ∃ next, stacked stack call = some next ∧ Mixed next calls

theorem nested_eq_some_iff (stack next : List Bracket) (call : WriterCall) :
    nested stack call = some next ↔ stacked stack call = some next ∧ ¬miscloses stack call := by
  cases call with
  | containerClose bracket =>
    cases stack with
    | nil => simp [nested, stacked]
    | cons innermost rest =>
      by_cases h : innermost = bracket
      · simp [nested, stacked, miscloses, h]
      · simp [nested, stacked, miscloses, h]
  | _ => simp [nested, stacked, miscloses]

theorem foldlM_nested_iff (calls : List WriterCall) (stack last : List Bracket) :
    calls.foldlM nested stack = some last ↔
      calls.foldlM stacked stack = some last ∧ ¬Mixed stack calls := by
  induction calls generalizing stack with
  | nil => simp [Mixed]
  | cons call calls ih =>
    simp only [List.foldlM_cons, Option.bind_eq_bind, Option.bind_eq_some_iff, nested_eq_some_iff,
      ih, Mixed, not_or, not_exists, not_and]
    constructor
    · rintro ⟨next, ⟨hnext, hkind⟩, hrun, hmixed⟩
      refine ⟨⟨next, hnext, hrun⟩, hkind, fun other hother => ?_⟩
      rw [hnext] at hother
      rwa [← Option.some.inj hother]
    · rintro ⟨⟨next, hnext, hrun⟩, hkind, hmixed⟩
      exact ⟨next, ⟨hnext, hkind⟩, hrun, hmixed next hnext⟩

theorem wellNested_iff (calls : List WriterCall) :
    WellNested calls ↔ Levelled calls ∧ ¬Mixed [] calls := foldlM_nested_iff calls [] []

/-- The depth and the flag of a draft say no more than the number of open containers. -/
def Draft.Counts (draft : Draft) : Option (List Bracket) → Prop
  | none => draft.malformed = true
  | some stack => draft.malformed = false ∧ draft.depth = stack.length

theorem Draft.Counts.call {draft : Draft} {stack : List Bracket} (h : draft.Counts (some stack))
    (call : WriterCall) : (draft.call call).Counts (stacked stack call) := by
  obtain ⟨hflag, hdepth⟩ := h
  cases call with
  | containerOpen bracket key =>
    by_cases hroom : stack.length < JSON_MAX_DEPTH
    · simp [Draft.call, stacked, Counts, hdepth, hroom, hflag, not_le.mpr hroom]
    · simp [Draft.call, stacked, Counts, hdepth, hroom, not_lt.mp hroom]
  | containerClose bracket =>
    cases stack with
    | nil => simp [Draft.call, stacked, Counts, hdepth]
    | cons innermost rest => simp [Draft.call, stacked, Counts, hdepth, hflag]
  | _ => exact ⟨hflag, hdepth⟩

theorem Draft.malformed_call {draft : Draft} (h : draft.malformed = true) (call : WriterCall) :
    (draft.call call).malformed = true := by
  cases call with
  | containerOpen bracket key =>
    simp only [Draft.call]
    split_ifs
    · rfl
    · exact h
  | containerClose bracket =>
    simp only [Draft.call]
    split_ifs
    · rfl
    · exact h
  | _ => exact h

theorem Draft.Counts.run {draft : Draft} {stack : List Bracket} (h : draft.Counts (some stack))
    (calls : List WriterCall) :
    (calls.foldl Draft.call draft).Counts (calls.foldlM stacked stack) := by
  induction calls generalizing draft stack with
  | nil => exact h
  | cons call calls ih =>
    have hcall := h.call call
    rw [List.foldl_cons, List.foldlM_cons]
    cases hnext : stacked stack call with
    | some next =>
      rw [hnext] at hcall
      exact ih hcall
    | none =>
      rw [hnext] at hcall
      have hstuck : ∀ (calls : List WriterCall) (draft : Draft), draft.malformed = true →
          (calls.foldl Draft.call draft).malformed = true := by
        intro calls
        induction calls with
        | nil => exact fun _ h => h
        | cons call calls ih => exact fun draft h => ih _ (draft.malformed_call h call)
      exact hstuck calls _ hcall

theorem levelled_iff (calls : List WriterCall) :
    Levelled calls ↔ (draftOf calls).malformed = false ∧ (draftOf calls).depth = 0 := by
  have hblank : Draft.blank.Counts (some []) := ⟨rfl, rfl⟩
  have hcounts := hblank.run calls
  unfold Levelled draftOf
  cases hstack : calls.foldlM stacked [] with
  | none =>
    rw [hstack] at hcounts
    rw [show (calls.foldl Draft.call Draft.blank).malformed = true from hcounts]
    simp
  | some stack =>
    rw [hstack] at hcounts
    rw [hcounts.1, hcounts.2]
    simp

end nesting

section finishing

/-- What a buffer with `beyond` behind it holds after the calls and `json_writer_finish`, and
what that reports. -/
structure WriterLaw (buffer beyond : Bytes) (calls : List WriterCall) (finished : Bool)
    (memory : Bytes) : Prop where
  /-- The longest prefix of the document that leaves room for a terminator. -/
  stored : 0 < buffer.length → ∃ rest,
    memory = (draftOf calls).text.take (buffer.length - 1) ++ 0 :: rest
  length : memory.length = (buffer ++ beyond).length
  untouched : memory.drop buffer.length = beyond
  finished : finished = true ↔
    (draftOf calls).text.length < buffer.length ∧ WellNested calls

theorem writeDocument_spec (buffer beyond : Bytes) (calls : List WriterCall) {memory text : Bytes}
    (hmemory : memory = buffer ++ beyond)
    (htext : text = (draftOf calls).text.take (buffer.length - 1)) :
    ((writeDocument buffer.length memory calls).1 = true ↔
        (draftOf calls).text.length < buffer.length ∧ Levelled calls) ∧
      (writeDocument buffer.length memory calls).2 =
        if 0 < buffer.length then text ++ 0 :: memory.drop (text.length + 1) else memory := by
  have hinit : (jsonWriterInit (some buffer.length)).size = buffer.length := rfl
  have hroom : (jsonWriterInit (some buffer.length)).size ≤ memory.length := by
    rw [hinit, hmemory, List.length_append]
    omega
  have hstart : memory = (jsonWriterInit (some buffer.length)).text ++
    memory.drop (jsonWriterInit (some buffer.length)).text.length := rfl
  obtain ⟨hsize, hdrafts, hstored⟩ :=
    writerRun_spec memory calls (jsonWriterInit_drafts buffer.length) hstart hroom
  unfold writeDocument
  generalize writerRun (jsonWriterInit (some buffer.length)) memory calls = run
    at hsize hdrafts hstored ⊢
  obtain ⟨writer, left⟩ := run
  simp only at hsize hdrafts hstored ⊢
  rw [hinit] at hsize
  have hwriter : writer.text = text := by rw [hdrafts.text, hsize, htext]; rfl
  constructor
  · have hflag := not_congr hdrafts.overflowed
    rw [hsize, not_le, Bool.not_eq_true] at hflag
    rw [levelled_iff, jsonWriterFinish, Bool.and_eq_true, Bool.and_eq_true, decide_eq_true_eq,
      Bool.not_eq_true', Bool.not_eq_true', hflag, hdrafts.malformed, hdrafts.depth, and_assoc]
    rfl
  · rw [storeFinish, hsize, JsonWriter.length, hwriter]
    split_ifs with hpos hlength
    · have hlt : text.length < memory.length := by rw [hmemory, List.length_append]; omega
      rw [hstored, hwriter, List.set_append_right _ _ le_rfl, Nat.sub_self,
        List.drop_eq_getElem_cons hlt, List.set_cons_zero]
    · exfalso
      rw [htext, List.length_take] at hlength
      omega
    · have hnil : text = [] := by
        rw [htext, show buffer.length - 1 = 0 by omega, List.take_zero]
      rw [hstored, hwriter, hnil]
      rfl

/-- Any buffer that is longer than the draft holds all of it. -/
theorem writeDocument_whole (buffer beyond : Bytes) (calls : List WriterCall)
    (h : (draftOf calls).text.length < buffer.length) :
    ∃ rest, (writeDocument buffer.length (buffer ++ beyond) calls).2 =
      (draftOf calls).text ++ 0 :: rest := by
  obtain ⟨-, hstored⟩ := writeDocument_spec buffer beyond calls rfl rfl
  rw [if_pos (by omega), List.take_of_length_le (by omega)] at hstored
  exact ⟨_, hstored⟩

/-- The writer keeps to its buffer, and finishes with `true` exactly on a sound document, unless
a document that fits, with as many closes as opens, has a container closed as the other kind. -/
theorem writeDocument_law_iff (buffer beyond : Bytes) (calls : List WriterCall) :
    WriterLaw buffer beyond calls (writeDocument buffer.length (buffer ++ beyond) calls).1
        (writeDocument buffer.length (buffer ++ beyond) calls).2 ↔
      ¬(Mixed [] calls ∧ Levelled calls ∧ (draftOf calls).text.length < buffer.length) := by
  obtain ⟨hfinished, hstored⟩ := writeDocument_spec buffer beyond calls rfl rfl
  set text := (draftOf calls).text.take (buffer.length - 1) with htext
  have hshort : text.length ≤ buffer.length - 1 := by
    rw [htext, List.length_take]
    omega
  constructor
  · rintro law ⟨hmixed, hlevel, hfits⟩
    have hnested := (law.finished.mp (hfinished.mpr ⟨hfits, hlevel⟩)).2
    exact ((wellNested_iff calls).mp hnested).2 hmixed
  · intro hsound
    refine ⟨fun hpos => ?_, ?_, ?_, ?_⟩
    · rw [hstored, if_pos hpos]
      exact ⟨_, rfl⟩
    · rw [hstored]
      split_ifs with hpos
      · rw [List.length_append, List.length_cons, List.length_drop, List.length_append]
        omega
      · rfl
    · rw [hstored]
      split_ifs with hpos
      · rw [List.drop_append, List.drop_of_length_le (by omega), List.nil_append,
          show buffer.length - text.length = buffer.length - text.length - 1 + 1 by omega,
          List.drop_succ_cons, List.drop_drop,
          show text.length + 1 + (buffer.length - text.length - 1) = buffer.length by omega,
          List.drop_left]
      · rw [List.drop_left]
    · rw [hfinished, wellNested_iff]
      constructor
      · rintro ⟨hfits, hlevel⟩
        exact ⟨hfits, hlevel, fun hmixed => hsound ⟨hmixed, hlevel, hfits⟩⟩
      · rintro ⟨hfits, hlevel, -⟩
        exact ⟨hfits, hlevel⟩

/-- An array that is closed as an object is reported as sound. -/
theorem writeDocument_misclosed :
    ¬WriterLaw [0, 0, 0, 0] [] [.containerOpen .array none, .containerClose .object]
      (writeDocument 4 [0, 0, 0, 0] [.containerOpen .array none, .containerClose .object]).1
      (writeDocument 4 [0, 0, 0, 0] [.containerOpen .array none, .containerClose .object]).2 := by
  intro law
  have hfinished : (writeDocument 4 [0, 0, 0, 0]
      [.containerOpen .array none, .containerClose .object]).1 = true := by decide
  have hnested := (law.finished.mp hfinished).2
  have : ¬WellNested [.containerOpen .array none, .containerClose .object] := by
    unfold WellNested
    decide
  exact this hnested

end finishing

end Pico
