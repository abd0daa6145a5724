import PicoFramework.Proofs.JsonArray
import PicoFramework.Proofs.JsonText

/-! What the writer wrote, the reader finds: along every path of a tree, the value that the
tree has there. -/

namespace Pico

open Lib.Json

/-- One step into a container. -/
inductive JsonStep where
  | key (key : CString)
  | index (index : ℕ)

/-- Of equal keys, the first. -/
def JsonTree.child : JsonTree → JsonStep → Option JsonTree
  | .object members, .key key => (members.find? (·.1 = key)).map (·.2)
  | .array elements, .index index => elements[index]?
  | _, _ => none

def JsonTree.at (tree : JsonTree) (path : List JsonStep) : Option JsonTree :=
  path.foldlM JsonTree.child tree

def readStep (value : JsonValue) : JsonStep → Option JsonValue
  | .key key => jsonFindIn value key
  | .index index => jsonArrayAt value index

/-- A path is followed from a key of the document on. -/
def readPath (document : CString) : List JsonStep → Option JsonValue
  | .key key :: path => (jsonFind document key).bind (path.foldlM readStep ·)
  | _ => none

/-- What the reader makes of a value. -/
def Reads (value : JsonValue) : JsonTree → Prop
  | .object _ => value.type = .object
  | .array elements => value.type = .array ∧ jsonArrayLength value = elements.length
  | .int number => jsonGetInt value = some number
  | .bool flag => jsonGetBool value = some flag
  | .null => value.type = .null
  | .string text => (∀ size > text.length, jsonGetString value size = some text.bytes) ∧
      ∀ expected, jsonStringEquals value expected = true ↔ expected = text

/-- The reader has located the text of a tree. -/
def Locates (value : JsonValue) (tree : JsonTree) : Prop :=
  ∃ more, value = located (tree.text ++ more) more

namespace JsonTree

section located

variable {value : JsonValue} {tree : JsonTree}

theorem scanned_text (tree : JsonTree) : Value scanned tree.depth tree.text :=
  scanned_value_of_strict (text_value tree)

theorem located_text (h : Locates value tree) : value.text = tree.text := by
  obtain ⟨more, rfl⟩ := h
  simp [located, JsonValue.text]

theorem located_length (h : Locates value tree) : value.length = tree.text.length := by
  obtain ⟨more, rfl⟩ := h
  simp [located]

theorem type_eq (h : Locates value tree) : value.type = typeOf (tree.text.headD 0) := by
  obtain ⟨more, rfl⟩ := h
  exact located_type (scanned_text tree) more

theorem int_type (number : Int32) : typeOf ((intText number).headD 0) = .number :=
  typeOf_number (scanned_number_of_strict (intText_strict number))

theorem digits_head {ds : Bytes} (h : Digits ds) : ∀ c ∈ ds.head?, c ≠ 0x2D ∧ c ≠ 0x2B := by
  intro c hc
  have hdigit := h c (List.mem_of_mem_head? hc)
  constructor
  · rintro rfl
    exact absurd hdigit (by decide)
  · rintro rfl
    exact absurd hdigit (by decide)

theorem jsonGetInt_digits {negative : Bool} {ds : Bytes} (htype : value.type = .number)
    (hlength : value.length ≠ 0) (htext : value.text = (if negative then [0x2D] else []) ++ ds)
    (hds : Digits ds) (hne : ds ≠ [])
    (hfit : digitsValue 0 ds ≤ if negative then 2147483648 else 2147483647) :
    jsonGetInt value =
      some (Int32.ofInt (if negative then -digitsValue 0 ds else digitsValue 0 ds)) := by
  have hread : readMagnitude 0 ds = some (digitsValue 0 ds, []) := by
    refine readMagnitude_digits hds (hfit.trans ?_)
    split_ifs <;> decide
  have hsign : skipSign value.text = ds := by
    rw [htext]
    refine skipSign_append ?_ (digits_head hds)
    cases negative with
    | false => exact Or.inl rfl
    | true => exact Or.inr (Or.inl rfl)
  have hminus : value.text.head? = some 0x2D ↔ negative = true := by
    rw [htext]
    cases negative with
    | false =>
      simp only [Bool.false_eq_true, if_false, List.nil_append, iff_false]
      exact fun h => (digits_head hds _ h).1 rfl
    | true => simp
  have hpos : (0 : ℕ) ≠ ds.length := (List.length_pos_of_ne_nil hne).ne
  unfold jsonGetInt
  simp only [htype, hlength, ne_eq, not_true_eq_false, or_self, if_false, hsign, hread, hminus,
    Option.bind_eq_bind, Option.bind_some, List.length_nil, hpos, false_and]
  cases negative with
  | false => simpa using hfit
  | true => simp

theorem jsonGetInt_located {number : Int32} (h : Locates value (.int number)) :
    jsonGetInt value = some number := by
  have htype : value.type = .number := (type_eq h).trans (int_type number)
  have hdigits := digitLoop_digits 12 number.toInt.natAbs
  have hlow := number.le_toInt
  have hhigh := number.toInt_lt
  have hvalue := digitsValue_digitLoop (by decide)
    (show number.toInt.natAbs < 10 ^ 12 by omega)
  have hne : (digitLoop 12 number.toInt.natAbs).reverse ≠ [] := by simp [digitLoop]
  have htext : value.text = (if decide (number.toInt < 0) then [0x2D] else []) ++
      (digitLoop 12 number.toInt.natAbs).reverse := by
    rw [located_text h, text, intText]
    simp
  have hlength : value.length ≠ 0 := by
    rw [located_length h, text, intText, List.length_append]
    have := List.length_pos_of_ne_nil hne
    omega
  rw [jsonGetInt_digits htype hlength htext
    (fun c hc => hdigits c (List.mem_reverse.mp hc)) hne, hvalue]
  · have hsame : (if decide (number.toInt < 0) then -(number.toInt.natAbs : ℤ)
        else number.toInt.natAbs) = number.toInt := by
      split_ifs with hneg
      · rw [decide_eq_true_eq] at hneg
        omega
      · rw [decide_eq_true_eq] at hneg
        omega
    rw [hsame, Int32.ofInt_toInt]
  · rw [hvalue]
    split_ifs with hneg
    · omega
    · rw [decide_eq_true_eq] at hneg
      omega

theorem jsonGetBool_located {flag : Bool} (h : Locates value (.bool flag)) :
    jsonGetBool value = some flag := by
  obtain ⟨more, rfl⟩ := h
  cases flag with
  | false => rfl
  | true => rfl

section strings

variable {s : CString}

theorem string_located (h : Locates value (.string s)) :
    value.type = .string ∧ 2 ≤ value.length ∧ value.body = s.bytes.flatMap escapeText := by
  have hlength : value.length = (s.bytes.flatMap escapeText).length + 2 := by
    rw [located_length h, text, quoted, List.length_cons, List.length_append]
    rfl
  obtain ⟨more, rfl⟩ := h
  refine ⟨rfl, by omega, ?_⟩
  rw [JsonValue.body, hlength, Nat.add_sub_cancel]
  simp [located, text, quoted]

theorem jsonGetString_located (h : Locates value (.string s)) {size : ℕ} (hsize : s.length < size) :
    jsonGetString value size = some s.bytes := by
  obtain ⟨htype, hlength, hbody⟩ := string_located h
  unfold jsonGetString
  rw [if_neg (by rw [htype]; simp; omega), hbody]
  refine unescape_iff.mpr ⟨decodes_flatMap s.bytes, ?_⟩
  change s.length ≤ size - 1
  omega

theorem decodes_written {expected : Bytes} :
    Decodes (s.bytes.flatMap escapeText) expected ↔ expected = s.bytes := by
  constructor
  · intro hexpected
    have hwritten := decodes_flatMap s.bytes
    have hboth := unescape_iff.mpr ⟨hexpected, Nat.le_max_left _ s.bytes.length⟩
    rw [unescape_iff.mpr ⟨hwritten, Nat.le_max_right expected.length _⟩] at hboth
    exact (Option.some.inj hboth).symm
  · rintro rfl
    exact decodes_flatMap s.bytes

theorem jsonStringEquals_located (h : Locates value (.string s)) (expected : CString) :
    jsonStringEquals value expected = true ↔ expected = s := by
  obtain ⟨htype, hlength, hbody⟩ := string_located h
  unfold jsonStringEquals
  rw [if_neg (by rw [htype]; simp; omega), hbody, escapedEquals_iff, decodes_written, cstring_eq]

end strings

end located

section objects

theorem named_memberOf {key name : CString} {value : Bytes} :
    Named key (memberOf name value) ↔ key = name := by
  have hbody : nameBody (memberOf name value) = name.bytes.flatMap escapeText := by
    simp [nameBody, memberOf, quoted]
  unfold Named
  rw [hbody, ← escapedEquals_iff_unescape, escapedEquals_iff, decodes_written, cstring_eq]

theorem scanned_members_of_strict {n : ℕ} {members : List Member} {inside : Bytes}
    (h : Members rfc8259 n members inside) : Members scanned n members inside := by
  rcases h with ⟨hempty, hspace⟩ | ⟨hne, hmembers, hinside⟩
  · exact Or.inl ⟨hempty, hspace⟩
  · refine Or.inr ⟨hne, fun member hmember => ?_, hinside⟩
    obtain ⟨⟨hbefore, hname, hgap, hlead⟩, hvalue, hafter⟩ := hmembers member hmember
    exact ⟨⟨hbefore, scanned_string_of_strict hname, hgap, hlead⟩, scanned_value_of_strict hvalue,
      hafter⟩

theorem jsonFindN_members {members : List (CString × JsonTree)}
    (hdepth : membersDepth members < JSON_MAX_DEPTH) (key : CString) :
    match members.find? (·.1 = key) with
    | some member => ∃ value, jsonFindN (text (.object members)) key = some value ∧
        Locates value member.2
    | none => jsonFindN (text (.object members)) key = none := by
  have hmembers := scanned_members_of_strict (members_holds fun member hmember =>
    (membersText_value members member hmember).deepen (Nat.le_sub_one_of_lt hdepth))
  have hfind : jsonFindN ([] ++ (text (.object members) ++ [])) key = _ :=
    jsonFindN_object Whitespace.nil hmembers.holds
  rw [List.append_nil, List.nil_append] at hfind
  cases hfirst : members.find? (·.1 = key) with
  | none =>
    have hnone : ∀ member ∈ membersOf members, ¬ Named key member := by
      intro member hmember
      obtain ⟨entry, hentry, rfl⟩ := List.mem_map.mp hmember
      rw [named_memberOf]
      rintro rfl
      simpa using List.find?_eq_none.mp hfirst entry hentry
    rw [searchObject_absent hmembers hnone] at hfind
    exact hfind
  | some member =>
    obtain ⟨hkey, earlier, later, rfl, hearlier⟩ := List.find?_eq_some_iff_append.mp hfirst
    have hkey' : key = member.1 := (of_decide_eq_true hkey).symm
    have hsplit : membersOf (earlier ++ member :: later) =
        membersOf earlier ++ memberOf member.1 member.2.text :: membersOf later := by
      simp [membersOf]
    rw [hsplit] at hmembers
    obtain ⟨more, -, hfound⟩ := searchObject_found hmembers
      (fun other hother => by
        obtain ⟨entry, hentry, rfl⟩ := List.mem_map.mp hother
        rw [named_memberOf]
        rintro rfl
        simpa using hearlier entry hentry)
      (named_memberOf.mpr hkey') []
    rw [hfound] at hfind
    exact ⟨_, hfind, more, rfl⟩

end objects

section arrays

variable {elements : List JsonTree}

theorem depth_le_elements {tree : JsonTree} (h : tree ∈ elements) :
    tree.depth ≤ elementsDepth elements := by
  induction elements with
  | nil => cases h
  | cons first elements ih =>
    rw [elementsDepth]
    rcases List.mem_cons.mp h with rfl | h
    · exact Nat.le_max_left _ _
    · exact (ih h).trans (Nat.le_max_right _ _)

theorem depth_le_members {members : List (CString × JsonTree)} {member : CString × JsonTree}
    (h : member ∈ members) : member.2.depth ≤ membersDepth members := by
  induction members with
  | nil => cases h
  | cons first members ih =>
    obtain ⟨key, tree⟩ := first
    rw [membersDepth]
    rcases List.mem_cons.mp h with rfl | h
    · exact Nat.le_max_left _ _
    · exact (ih h).trans (Nat.le_max_right _ _)

theorem array_items {value : JsonValue} (h : Locates value (.array elements))
    (hdepth : elementsDepth elements < JSON_MAX_DEPTH) :
    ArrayItems value (elementItems elements) := by
  refine ⟨joined (elementItems elements), located_text h, ?_⟩
  by_cases hne : elements = []
  · subst hne
    exact Or.inl ⟨rfl, Whitespace.nil⟩
  · refine Or.inr ⟨by simpa [elementItems_eq] using hne, fun item hitem => ?_, rfl⟩
    rw [elementItems_eq] at hitem
    obtain ⟨tree, htree, rfl⟩ := List.mem_map.mp hitem
    have hvalue := (scanned_text tree).deepen
      (Nat.le_sub_one_of_lt ((depth_le_elements htree).trans_lt hdepth))
    exact ⟨Whitespace.nil, hvalue, Whitespace.nil⟩

theorem jsonArrayAt_located {value : JsonValue} (h : Locates value (.array elements))
    (hdepth : elementsDepth elements < JSON_MAX_DEPTH) (index : ℕ) :
    match elements[index]? with
    | some tree => ∃ element, jsonArrayAt value index = some element ∧ Locates element tree
    | none => jsonArrayAt value index = none := by
  have hat := jsonArrayAt_items (type_eq h) (array_items h hdepth) index
  rw [elementItems_eq, List.getElem?_map] at hat
  cases htree : elements[index]? with
  | none =>
    rw [htree] at hat
    exact hat
  | some tree =>
    rw [htree] at hat
    obtain ⟨more, -, hfound⟩ := hat
    exact ⟨_, hfound, more, rfl⟩

theorem jsonArrayLength_located {value : JsonValue} (h : Locates value (.array elements))
    (hdepth : elementsDepth elements < JSON_MAX_DEPTH) :
    jsonArrayLength value = elements.length := by
  rw [jsonArrayLength_items (type_eq h) (array_items h hdepth), elementItems_eq, List.length_map]

end arrays

section paths

/-- The reader is at a tree that is not too deep for it. -/
def Stands (value : JsonValue) (tree : JsonTree) : Prop :=
  Locates value tree ∧ tree.depth ≤ JSON_MAX_DEPTH

theorem Stands.reads {value : JsonValue} {tree : JsonTree} (h : Stands value tree) :
    Reads value tree := by
  obtain ⟨hlocates, hdepth⟩ := h
  cases tree with
  | object members => exact type_eq hlocates
  | array elements =>
    rw [depth] at hdepth
    exact ⟨type_eq hlocates, jsonArrayLength_located hlocates hdepth⟩
  | int number => exact jsonGetInt_located hlocates
  | bool flag => exact jsonGetBool_located hlocates
  | null => exact type_eq hlocates
  | string s =>
    exact ⟨fun size hsize => jsonGetString_located hlocates hsize,
      jsonStringEquals_located hlocates⟩

def type : JsonTree → JsonType
  | .object _ => .object
  | .array _ => .array
  | .int _ => .number
  | .bool _ => .bool
  | .null => .null
  | .string _ => .string

theorem typeOf_text (tree : JsonTree) : typeOf (tree.text.headD 0) = tree.type := by
  cases tree with
  | int number => exact int_type number
  | bool flag =>
    cases flag with
    | false => rfl
    | true => rfl
  | _ => rfl

/-- A reader's result agrees with what the tree has. -/
def Finds (result : Option JsonValue) (tree : Option JsonTree) : Prop :=
  match tree with
  | some tree => ∃ value, result = some value ∧ Stands value tree
  | none => result = none

theorem finds_members {members : List (CString × JsonTree)}
    (hdepth : membersDepth members < JSON_MAX_DEPTH) (key : CString) :
    Finds (jsonFindN (text (.object members)) key)
      ((JsonTree.object members).child (.key key)) := by
  have hfind := jsonFindN_members hdepth key
  rw [child]
  cases hfirst : members.find? (·.1 = key) with
  | none =>
    rw [hfirst] at hfind
    exact hfind
  | some member =>
    rw [hfirst] at hfind
    obtain ⟨value, hvalue, hlocates⟩ := hfind
    have hle := depth_le_members (List.mem_of_find?_eq_some hfirst)
    exact ⟨value, hvalue, hlocates, hle.trans hdepth.le⟩

theorem readStep_child {value : JsonValue} {tree : JsonTree} (h : Stands value tree)
    (step : JsonStep) : Finds (readStep value step) (tree.child step) := by
  obtain ⟨hlocates, hdepth⟩ := h
  have htype : value.type = tree.type := (type_eq hlocates).trans (typeOf_text tree)
  cases step with
  | key key =>
    rw [readStep, jsonFindIn, htype]
    cases tree with
    | object members =>
      rw [depth] at hdepth
      rw [if_neg (by simp [type]), located_text hlocates]
      exact finds_members hdepth key
    | _ => rfl
  | index index =>
    rw [readStep]
    cases tree with
    | array elements =>
      rw [depth] at hdepth
      have hat := jsonArrayAt_located hlocates hdepth index
      rw [child]
      cases helement : elements[index]? with
      | none =>
        rw [helement] at hat
        exact hat
      | some tree =>
        rw [helement] at hat
        obtain ⟨element, hsome, htree⟩ := hat
        have hle := depth_le_elements (List.mem_of_getElem? helement)
        exact ⟨element, hsome, htree, hle.trans (Nat.le_of_succ_le hdepth)⟩
    | _ =>
      rw [jsonArrayAt, htype]
      rfl

theorem readSteps_at {value : JsonValue} {tree : JsonTree} (h : Stands value tree)
    (path : List JsonStep) : Finds (path.foldlM readStep value) (tree.at path) := by
  induction path generalizing value tree with
  | nil => exact ⟨value, rfl, h⟩
  | cons step path ih =>
    have hstep := readStep_child h step
    rw [JsonTree.at, List.foldlM_cons, List.foldlM_cons]
    cases hchild : tree.child step with
    | none =>
      rw [hchild] at hstep
      rw [show readStep value step = none from hstep]
      rfl
    | some next =>
      rw [hchild] at hstep
      obtain ⟨located, hlocated, hstands⟩ := hstep
      rw [hlocated]
      exact ih hstands

end paths

end JsonTree

theorem jsonWriterFinish_emit {members : List (CString × JsonTree)} {size : ℕ}
    (hdepth : (JsonTree.object members).depth ≤ JSON_MAX_DEPTH)
    (hsize : (JsonTree.object members).text.length < size) :
    let writer := (JsonTree.object members).emit none (jsonWriterInit (some size))
    jsonWriterFinish writer = (true, writer.text) ∧ writer.text = (JsonTree.object members).text := by
  have hpositive : size ≠ 0 := by omega
  have hroom : (jsonWriterInit (some size)).Room
      (separator (jsonWriterInit (some size)).needsComma none ++
        (JsonTree.object members).text).length := by
    refine ⟨by simpa [jsonWriterInit] using hpositive, ?_⟩
    simpa [jsonWriterInit, separator] using hsize
  have hemit := JsonTree.emit_eq (.object members) none (jsonWriterInit (some size))
    (by simpa [jsonWriterInit] using hdepth) hroom
  have hfits : (JsonTree.object members).text.take (size - 1) = (JsonTree.object members).text :=
    List.take_of_length_le (by omega)
  intro writer
  have hwriter : writer = _ := hemit
  rw [hwriter]
  constructor
  · simp [jsonWriterFinish, jsonWriterInit, JsonWriter.settled, JsonWriter.withComma,
      JsonWriter.wrote, separator, hpositive, hfits]
  · simp [jsonWriterInit, JsonWriter.settled, JsonWriter.withComma, JsonWriter.wrote, separator]

theorem jsonValidN_tree {tree : JsonTree} (hdepth : tree.depth ≤ JSON_MAX_DEPTH) :
    jsonValidN tree.text = true :=
  (jsonValidN_eq_text _).mpr ⟨[], _, [], Whitespace.nil, (JsonTree.scanned_text tree).deepen hdepth,
    Whitespace.nil, by simp⟩

/-- Whatever tree is written into a buffer that holds its text, the document is sound and
valid, and every path of the tree leads the reader to the value that the tree has there. -/
theorem jsonWriter_roundTrip (members : List (CString × JsonTree)) (size : ℕ)
    (hdepth : (JsonTree.object members).depth ≤ JSON_MAX_DEPTH)
    (hsize : (JsonTree.object members).text.length < size) :
    ∃ document : CString,
      jsonWriterFinish ((JsonTree.object members).emit none (jsonWriterInit (some size))) =
        (true, document.bytes) ∧
      jsonValid document = true ∧
      ∀ path ≠ [], match (JsonTree.object members).at path with
        | some tree => ∃ value, readPath document path = some value ∧ Reads value tree
        | none => readPath document path = none := by
  obtain ⟨hfinish, htext⟩ := jsonWriterFinish_emit hdepth hsize
  refine ⟨⟨_, JsonTree.text_nul_free (.object members)⟩, ?_, jsonValidN_tree hdepth, ?_⟩
  · rw [hfinish, htext]
  · intro path hpath
    have hfinds : JsonTree.Finds (readPath ⟨_, JsonTree.text_nul_free (.object members)⟩ path)
        ((JsonTree.object members).at path) := by
      cases path with
      | nil => exact absurd rfl hpath
      | cons step path =>
        cases step with
        | index index => rfl
        | key key =>
          have hstep := JsonTree.finds_members (by rwa [JsonTree.depth] at hdepth) key
          rw [readPath, JsonTree.at, List.foldlM_cons]
          change JsonTree.Finds ((jsonFindN (JsonTree.object members).text key).bind _) _
          cases hchild : (JsonTree.object members).child (.key key) with
          | none =>
            rw [hchild] at hstep
            rw [show jsonFindN _ key = none from hstep]
            rfl
          | some tree =>
            rw [hchild] at hstep
            obtain ⟨value, hvalue, hstands⟩ := hstep
            rw [hvalue]
            exact JsonTree.readSteps_at hstands path
    cases hat : (JsonTree.object members).at path with
    | none =>
      rw [hat] at hfinds
      exact hfinds
    | some tree =>
      rw [hat] at hfinds
      obtain ⟨value, hvalue, hstands⟩ := hfinds
      exact ⟨value, hvalue, hstands.reads⟩

/-- `{"a":[-1,"\n"]}` in a buffer of 16 bytes. -/
theorem jsonWriter_roundTrip_small : ∃ document value,
    (jsonWriterFinish ((JsonTree.object
        [(⟨[0x61], by decide⟩, .array [.int (-1), .string ⟨[0x0A], by decide⟩])]).emit none
          (jsonWriterInit (some 16)))).1 = true ∧
      readPath document [.key ⟨[0x61], by decide⟩, .index 1] = some value ∧
      jsonStringEquals value ⟨[0x0A], by decide⟩ = true := by
  obtain ⟨document, hfinish, -, hpaths⟩ := jsonWriter_roundTrip
    [(⟨[0x61], by decide⟩, .array [.int (-1), .string ⟨[0x0A], by decide⟩])] 16
    (by decide) (by decide)
  have hpath := hpaths [.key ⟨[0x61], by decide⟩, .index 1] (by simp)
  obtain ⟨value, hvalue, hreads⟩ := hpath
  exact ⟨document, value, by rw [hfinish], hvalue, (hreads.2 _).mpr rfl⟩

end Pico
