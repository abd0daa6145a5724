import PicoFramework.Proofs.JsonFind

/-! The elements of an array: each reader scans the array again from its opening bracket, at a
depth of its own, and they all pass the same elements. -/

namespace Pico

open Lib.Json

/-- The elements between the brackets of an array, with the whitespace around each. -/
def Elements (n : ℕ) (items : List Item) (inside : Bytes) : Prop :=
  items = [] ∧ Whitespace inside ∨
    items ≠ [] ∧ (∀ item ∈ items,
      Whitespace item.lead ∧ Value scanned n item.value ∧ Whitespace item.after) ∧
      inside = joined items

/-- What stands before the value of an element. -/
def leading : List Item → ℕ → Bytes
  | [], _ => []
  | item :: _, 0 => item.lead
  | item :: items, index + 1 => item.text ++ 0x2C :: leading items index

section scans

variable {items : List Item}

theorem skipValue_item {item : Item}
    (h : Whitespace item.lead ∧ Value scanned (JSON_MAX_DEPTH - 1) item.value ∧
      Whitespace item.after) {c : UInt8} (hc : c = 0x5D ∨ c = 0x2C) (tail : Bytes) :
    skipWhitespace (item.text ++ c :: tail) = item.value ++ (item.after ++ c :: tail) ∧
      skipValue (JSON_MAX_DEPTH - 1) (item.value ++ (item.after ++ c :: tail)) =
        some (item.after ++ c :: tail) ∧
      skipWhitespace (item.after ++ c :: tail) = c :: tail := by
  obtain ⟨hlead, hvalue, hafter⟩ := h
  refine ⟨?_, ?_, ?_⟩
  · rw [Item.text, List.append_assoc, List.append_assoc, skipWhitespace_append hlead]
    exact skipWhitespace_value hvalue _
  · exact skipValue_complete _ _ _ hvalue (numberEnds_after .array hafter hc tail)
  · rw [skipWhitespace_append hafter]
    rcases hc with rfl | rfl
    · exact skipWhitespace_cons (by decide)
    · exact skipWhitespace_cons (by decide)

theorem elementAt_items (hne : items ≠ [])
    (hitems : ∀ item ∈ items, Whitespace item.lead ∧
      Value scanned (JSON_MAX_DEPTH - 1) item.value ∧ Whitespace item.after)
    (index : ℕ) (rest : Bytes) :
    match items[index]? with
    | none => elementAt index (skipWhitespace (joined items ++ 0x5D :: rest)) = none
    | some item => ∃ more, joined items ++ 0x5D :: rest =
          leading items index ++ (item.value ++ more) ∧
        elementAt index (skipWhitespace (joined items ++ 0x5D :: rest)) =
          some (located (item.value ++ more) more) := by
  induction items generalizing index with
  | nil => exact absurd rfl hne
  | cons first items ih =>
    obtain ⟨c, tail, htext, hnext⟩ := joined_next first items 0x5D rest
    have hc : c = 0x5D ∨ c = 0x2C := by
      rcases hnext with ⟨-, hc, -⟩ | ⟨-, hc, -⟩
      · exact Or.inl hc
      · exact Or.inr hc
    obtain ⟨hstart, hskip, hend⟩ := skipValue_item (hitems first (by simp)) hc tail
    rw [htext, hstart]
    unfold elementAt
    rw [hskip]
    cases index with
    | zero =>
      refine ⟨first.after ++ c :: tail, ?_, rfl⟩
      simp [leading, Item.text]
    | succ index =>
      rw [List.getElem?_cons_succ]
      simp only [hend]
      rcases hnext with ⟨rfl, rfl, -⟩ | ⟨hmore, rfl, rfl⟩
      · exact if_pos (by decide)
      · have hrest := ih hmore (fun x hx => hitems x (List.mem_cons_of_mem _ hx)) index
        simp only [ne_eq, not_true_eq_false, if_false]
        cases hitem : items[index]? with
        | none =>
          rw [hitem] at hrest
          exact hrest
        | some item =>
          rw [hitem] at hrest
          obtain ⟨more, hsplit, hat⟩ := hrest
          exact ⟨more, by rw [hsplit, leading]; simp, hat⟩

theorem countElements_items (hne : items ≠ [])
    (hitems : ∀ item ∈ items, Whitespace item.lead ∧
      Value scanned (JSON_MAX_DEPTH - 1) item.value ∧ Whitespace item.after)
    {fuel : ℕ} (hfuel : items.length ≤ fuel) (rest : Bytes) :
    countElements fuel (skipWhitespace (joined items ++ 0x5D :: rest)) = items.length := by
  induction items generalizing fuel with
  | nil => exact absurd rfl hne
  | cons first items ih =>
    obtain ⟨fuel, rfl⟩ := Nat.exists_eq_add_of_le' (Nat.one_le_of_lt hfuel)
    obtain ⟨c, tail, htext, hnext⟩ := joined_next first items 0x5D rest
    have hc : c = 0x5D ∨ c = 0x2C := by
      rcases hnext with ⟨-, hc, -⟩ | ⟨-, hc, -⟩
      · exact Or.inl hc
      · exact Or.inr hc
    obtain ⟨hstart, hskip, hend⟩ := skipValue_item (hitems first (by simp)) hc tail
    rw [htext, hstart, countElements, hskip]
    simp only [hend]
    rcases hnext with ⟨rfl, rfl, -⟩ | ⟨hmore, rfl, rfl⟩
    · exact if_pos (by decide)
    · simp only [ne_eq, not_true_eq_false, if_false]
      rw [ih hmore (fun x hx => hitems x (List.mem_cons_of_mem _ hx))
        (Nat.le_of_succ_le_succ hfuel), List.length_cons, Nat.add_comm]

theorem length_le_scan (hne : items ≠ [])
    (hitems : ∀ item ∈ items, Whitespace item.lead ∧
      Value scanned (JSON_MAX_DEPTH - 1) item.value ∧ Whitespace item.after) (rest : Bytes) :
    items.length ≤ (skipWhitespace (joined items ++ 0x5D :: rest)).length := by
  obtain ⟨first, others, rfl⟩ := List.exists_cons_of_ne_nil hne
  obtain ⟨c, tail, htext, hnext⟩ := joined_next first others 0x5D rest
  have hc : c = 0x5D ∨ c = 0x2C := by
    rcases hnext with ⟨-, hc, -⟩ | ⟨-, hc, -⟩
    · exact Or.inl hc
    · exact Or.inr hc
  obtain ⟨hstart, -, -⟩ := skipValue_item (hitems first (by simp)) hc tail
  have hothers := length_le_joined fun x hx => (hitems x (List.mem_cons_of_mem first hx)).2.1
  rw [htext, hstart]
  simp only [List.length_append, List.length_cons]
  rcases hnext with ⟨rfl, -, -⟩ | ⟨-, -, rfl⟩
  · rw [List.length_nil]
    omega
  · rw [List.length_append]
    omega

theorem leading_lt {i j : ℕ} {item : Item} (hi : items[i]? = some item) (hij : i < j)
    (hj : j < items.length) :
    (leading items i).length + item.value.length < (leading items j).length := by
  induction items generalizing i j with
  | nil => cases hj
  | cons first items ih =>
    obtain ⟨j, rfl⟩ := Nat.exists_eq_add_of_lt (Nat.zero_lt_of_lt hij)
    rw [Nat.zero_add]
    cases i with
    | zero =>
      obtain rfl : first = item := by simpa using hi
      simp only [leading, Item.text, List.length_append, List.length_cons]
      omega
    | succ i =>
      have hrest := ih (by simpa using hi) (by omega : i < j) (by simpa using hj)
      simp only [leading, List.length_append, List.length_cons]
      omega

end scans

section arrays

variable {array : JsonValue} {items : List Item} {inside : Bytes}

/-- The array is the text between its brackets, with those elements. -/
def ArrayItems (array : JsonValue) (items : List Item) : Prop :=
  ∃ inside, array.text = Bracket.array.text inside ∧
    Elements (JSON_MAX_DEPTH - 1) items inside

theorem ArrayItems.scan (h : ArrayItems array items) :
    items = [] ∧ (skipWhitespace (array.text.drop 1)).head? = some 0x5D ∨
      items ≠ [] ∧ (∀ item ∈ items, Whitespace item.lead ∧
          Value scanned (JSON_MAX_DEPTH - 1) item.value ∧ Whitespace item.after) ∧
        array.text = 0x5B :: (joined items ++ [0x5D]) ∧
        (skipWhitespace (array.text.drop 1)).head? ≠ some 0x5D := by
  obtain ⟨inside, htext, hinside⟩ := h
  have hdrop : array.text.drop 1 = inside ++ [0x5D] := by
    rw [htext]
    rfl
  rcases hinside with ⟨rfl, hspace⟩ | ⟨hne, hitems, rfl⟩
  · rw [hdrop, skipWhitespace_append hspace, skipWhitespace_cons (by decide)]
    exact Or.inl ⟨rfl, rfl⟩
  · refine Or.inr ⟨hne, hitems, htext, ?_⟩
    obtain ⟨first, rest, rfl⟩ := List.exists_cons_of_ne_nil hne
    obtain ⟨c, tail, hjoined, -⟩ := joined_next first rest 0x5D []
    obtain ⟨hlead, hvalue, -⟩ := hitems first (by simp)
    rw [hdrop, hjoined]
    exact @head_item_ne .array _ first hlead hvalue _

theorem jsonArrayAt_items (htype : array.type = .array) (h : ArrayItems array items) (index : ℕ) :
    match items[index]? with
    | none => jsonArrayAt array index = none
    | some item => ∃ more, array.text = 0x5B :: (leading items index ++ (item.value ++ more)) ∧
        jsonArrayAt array index = some (located (item.value ++ more) more) := by
  unfold jsonArrayAt
  simp only [htype, ne_eq, not_true_eq_false, if_false]
  rcases h.scan with ⟨rfl, hempty⟩ | ⟨hne, hitems, htext, hhead⟩
  · exact if_pos hempty
  · have hat := elementAt_items hne hitems index []
    simp only [hhead, if_false]
    rw [htext, List.drop_one, List.tail_cons]
    cases hitem : items[index]? with
    | none =>
      rw [hitem] at hat
      exact hat
    | some item =>
      rw [hitem] at hat
      obtain ⟨more, hsplit, hfound⟩ := hat
      exact ⟨more, by rw [hsplit], hfound⟩

theorem jsonArrayLength_items (htype : array.type = .array) (h : ArrayItems array items) :
    jsonArrayLength array = items.length := by
  unfold jsonArrayLength
  simp only [htype, ne_eq, not_true_eq_false, if_false]
  rcases h.scan with ⟨rfl, hempty⟩ | ⟨hne, hitems, htext, hhead⟩
  · exact if_pos hempty
  · simp only [hhead, if_false]
    refine (congrArg (countElements _) ?_).trans (countElements_items hne hitems ?_ [])
    · rw [htext]
      rfl
    · rw [htext]
      exact length_le_scan hne hitems []

/-- Where an element begins in the text of its array. -/
def spanStart (array element : JsonValue) : ℕ := array.text.length - element.start.length

/-- What the three readers say of an array with those elements. -/
structure ArrayLaw (array : JsonValue) (items : List Item) : Prop where
  length : ∀ n, jsonArrayLength array = n ↔ ∀ i, (jsonArrayAt array i).isSome = true ↔ i < n
  element : ∀ i element, jsonArrayAt array i = some element → ∃ item, items[i]? = some item ∧
    array.text = 0x5B :: (leading items i ++ element.start) ∧ element.text = item.value ∧
    element.length = item.value.length ∧ Typed item.value element.type
  count : jsonArrayLength array = items.length
  disjoint : ∀ i j x y, i < j → jsonArrayAt array i = some x → jsonArrayAt array j = some y →
    spanStart array x + x.length < spanStart array y
  ints : ∀ cells beyond : List Int32, ∃ values : List Int32, values.length ≤ cells.length ∧
    jsonArrayIntsInto array (cells ++ beyond) cells.length =
      (values.length, values ++ cells.drop values.length ++ beyond) ∧
    (∀ i value, values[i]? = some value → (jsonArrayAt array i).bind jsonGetInt = some value) ∧
    (values.length < cells.length → (jsonArrayAt array values.length).bind jsonGetInt = none)

theorem fillInts_eq (array : JsonValue) (done cells beyond : List Int32) :
    ∃ values : List Int32, values.length ≤ cells.length ∧
      fillInts array cells.length done.length (done ++ cells ++ beyond) =
        (done.length + values.length, done ++ values ++ cells.drop values.length ++ beyond) ∧
      (∀ i value, values[i]? = some value →
        (jsonArrayAt array (done.length + i)).bind jsonGetInt = some value) ∧
      (values.length < cells.length →
        (jsonArrayAt array (done.length + values.length)).bind jsonGetInt = none) := by
  induction cells generalizing done with
  | nil => exact ⟨[], le_rfl, by simp [fillInts], by simp, by simp⟩
  | cons cell cells ih =>
    cases hread : (jsonArrayAt array done.length).bind jsonGetInt with
    | none =>
      refine ⟨[], Nat.zero_le _, ?_, by simp, fun _ => hread⟩
      rw [List.length_cons, fillInts]
      cases hat : jsonArrayAt array done.length with
      | none => simp
      | some element =>
        rw [hat, Option.bind_some] at hread
        simp [hread]
    | some value =>
      obtain ⟨element, hat, hint⟩ := Option.bind_eq_some_iff.mp hread
      obtain ⟨values, hle, hrun, hvalues, hstop⟩ := ih (done ++ [value])
      rw [List.length_append, List.length_singleton] at hrun hvalues hstop
      refine ⟨value :: values, by simpa using hle, ?_, ?_, ?_⟩
      · rw [List.length_cons, fillInts, hat]
        simp only [hint]
        have hset : (done ++ cell :: cells ++ beyond).set done.length value =
            done ++ [value] ++ cells ++ beyond := by
          rw [List.append_assoc, List.set_append_right _ _ le_rfl, Nat.sub_self]
          simp
        rw [hset, hrun]
        simp only [List.length_cons, List.drop_succ_cons, List.append_assoc, List.cons_append,
          List.nil_append, Nat.add_assoc, Nat.add_comm 1]
      · intro i v hi
        cases i with
        | zero =>
          obtain rfl : value = v := by simpa using hi
          exact hread
        | succ i =>
          have := hvalues i v (by simpa using hi)
          rwa [Nat.add_assoc, Nat.add_comm 1] at this
      · intro hlt
        have := hstop (by simpa using hlt)
        rwa [Nat.add_assoc, Nat.add_comm 1] at this

theorem ArrayItems.law (htype : array.type = .array) (h : ArrayItems array items) :
    ArrayLaw array items := by
  have hat := jsonArrayAt_items htype h
  have hcount := jsonArrayLength_items htype h
  have hisSome : ∀ i, (jsonArrayAt array i).isSome = true ↔ i < items.length := by
    intro i
    have hi := hat i
    cases hitem : items[i]? with
    | none =>
      rw [hitem] at hi
      rw [show jsonArrayAt array i = none from hi]
      simpa using hitem
    | some item =>
      rw [hitem] at hi
      obtain ⟨more, -, hfound⟩ := hi
      rw [hfound]
      exact iff_of_true rfl (List.getElem?_eq_some_iff.mp hitem).1
  have helement : ∀ i element, jsonArrayAt array i = some element → ∃ item more,
      items[i]? = some item ∧ array.text = 0x5B :: (leading items i ++ (item.value ++ more)) ∧
        element = located (item.value ++ more) more := by
    intro i element hfound
    have hi := hat i
    cases hitem : items[i]? with
    | none =>
      rw [hitem] at hi
      cases hfound.symm.trans hi
    | some item =>
      rw [hitem] at hi
      obtain ⟨more, hsplit, hlocated⟩ := hi
      rw [hlocated] at hfound
      exact ⟨item, more, rfl, hsplit, (Option.some.inj hfound).symm⟩
  have hstart : ∀ i (item : Item) more,
      array.text = 0x5B :: (leading items i ++ (item.value ++ more)) →
      spanStart array (located (item.value ++ more) more) = (leading items i).length + 1 := by
    intro i item more hsplit
    simp only [spanStart, hsplit, located, List.length_cons, List.length_append]
    omega
  have hvalue : ∀ {i : ℕ} {item : Item}, items[i]? = some item →
      Value scanned (JSON_MAX_DEPTH - 1) item.value := by
    intro i item hitem
    rcases h.scan with ⟨rfl, -⟩ | ⟨-, hitems, -⟩
    · simp at hitem
    · exact (hitems item (List.mem_of_getElem? hitem)).2.1
  refine ⟨fun n => ?_, ?_, hcount, ?_, fun cells beyond => ?_⟩
  · simp only [hcount, hisSome]
    constructor
    · rintro rfl i
      rfl
    · intro hiff
      have hle := not_congr (hiff n)
      have hge := not_congr (hiff items.length)
      omega
  · intro i element hfound
    obtain ⟨item, more, hitem, hsplit, rfl⟩ := helement i element hfound
    refine ⟨item, hitem, hsplit, by simp [JsonValue.text, located], by simp [located], ?_⟩
    exact (typed_iff (hvalue hitem)).mpr (located_type (hvalue hitem) more)
  · intro i j x y hij hx hy
    obtain ⟨item, more, hitem, hsplit, rfl⟩ := helement i x hx
    obtain ⟨other, rest, hother, hsplit', rfl⟩ := helement j y hy
    have hlt := leading_lt hitem hij (List.getElem?_eq_some_iff.mp hother).1
    have hlength : (located (item.value ++ more) more).length = item.value.length := by
      simp [located]
    rw [hstart i item more hsplit, hstart j other rest hsplit', hlength]
    omega
  · obtain ⟨values, hle, hrun, hvalues, hstop⟩ := fillInts_eq array [] cells beyond
    simp only [List.length_nil, Nat.zero_add, List.nil_append] at hrun hvalues hstop
    exact ⟨values, hle, hrun, hvalues, hstop⟩

end arrays

section documents

variable {json : Bytes} {value : JsonValue}

/-- The values that the readers locate in a document, from the outermost object inwards. -/
inductive LocatedIn (json : Bytes) : JsonValue → Prop
  | find {key : CString} {value : JsonValue} (h : jsonFindN json key = some value) :
      LocatedIn json value
  | findIn {object value : JsonValue} {key : CString} (hobject : LocatedIn json object)
      (h : jsonFindIn object key = some value) : LocatedIn json value
  | arrayAt {array value : JsonValue} {index : ℕ} (harray : LocatedIn json array)
      (h : jsonArrayAt array index = some value) : LocatedIn json value

/-- A value is a value of the grammar, and is typed as one. -/
def Grammatical (value : JsonValue) : Prop :=
  Value scanned (JSON_MAX_DEPTH - 1) value.text ∧ Typed value.text value.type

theorem grammatical_located {text : Bytes} (h : Value scanned (JSON_MAX_DEPTH - 1) text)
    (more : Bytes) : Grammatical (located (text ++ more) more) := by
  have htext : (located (text ++ more) more).text = text := by simp [located, JsonValue.text]
  unfold Grammatical
  rw [htext]
  exact ⟨h, (typed_iff h).mpr (located_type h more)⟩

theorem jsonFindN_grammatical {key : CString} (h : jsonFindN json key = some value) :
    Grammatical value := by
  obtain ⟨before, inside, rest, hbefore, hinside, rfl⟩ := jsonFindN_complete h
  obtain ⟨members, hmembers⟩ := hinside.members
  rw [jsonFindN_object hbefore hinside] at h
  rcases searchObject_members key hmembers rest with
    ⟨-, habsent⟩ | ⟨earlier, member, later, more, rfl, -, -, -, hfound⟩
  · rw [habsent] at h
    cases h
  · rw [hfound] at h
    obtain rfl := Option.some.inj h
    rcases hmembers with ⟨hempty, -⟩ | ⟨-, hwell, -⟩
    · simp at hempty
    · exact grammatical_located (hwell member (by simp)).value more

theorem elementAt_grammatical {index : ℕ} {p : Bytes} (h : elementAt index p = some value) :
    Grammatical value := by
  induction index generalizing p with
  | zero =>
    unfold elementAt at h
    cases hskip : skipValue (JSON_MAX_DEPTH - 1) p with
    | none => simp [hskip] at h
    | some valueEnd =>
      simp only [hskip, Option.some.injEq] at h
      obtain ⟨text, htext, rfl⟩ := skipValue_sound _ _ _ hskip
      rw [← h]
      exact grammatical_located htext valueEnd
  | succ index ih =>
    unfold elementAt at h
    cases hskip : skipValue (JSON_MAX_DEPTH - 1) p with
    | none => simp [hskip] at h
    | some valueEnd =>
      simp only [hskip] at h
      split at h
      · cases h
      · split_ifs at h
        exact ih h

theorem LocatedIn.grammatical (h : LocatedIn json value) : Grammatical value := by
  induction h with
  | find h => exact jsonFindN_grammatical h
  | findIn _ h _ =>
    unfold jsonFindIn at h
    split_ifs at h
    exact jsonFindN_grammatical h
  | arrayAt _ h _ =>
    unfold jsonArrayAt at h
    simp only at h
    split_ifs at h
    exact elementAt_grammatical h

theorem Grammatical.items (h : Grammatical value) (htype : value.type = .array) :
    ∃ items, ArrayItems value items := by
  obtain ⟨hvalue, htyped⟩ := h
  rw [htype] at htyped
  obtain ⟨inside, hinside⟩ := htyped
  have hskip : skipValue (JSON_MAX_DEPTH - 1) (value.text ++ []) = some [] :=
    skipValue_complete _ _ _ hvalue (by simp [NumberEnds])
  rw [hinside, List.append_nil, Bracket.text,
    show JSON_MAX_DEPTH - 1 = JSON_MAX_DEPTH - 2 + 1 from rfl, skipValue_bracket] at hskip
  obtain ⟨held, hholds, heq⟩ := skipContainer_sound (skipValue_sound _) hskip
  obtain rfl : inside = held := List.append_cancel_right heq
  rcases hholds with hspace | ⟨items, hne, hitems, rfl⟩
  · exact ⟨[], inside, hinside, Or.inl ⟨rfl, hspace⟩⟩
  · refine ⟨items, _, hinside, Or.inr ⟨hne, fun item hitem => ?_, rfl⟩⟩
    obtain ⟨hlead, hdeep, hafter⟩ := hitems item hitem
    exact ⟨hlead, hdeep.deepen (by decide), hafter⟩

end documents

/-- An array that was located anywhere in a document has elements, and whichever way its text is
taken apart by the grammar, the readers agree on them. -/
theorem jsonArray_consistent {json : Bytes} {array : JsonValue} (h : LocatedIn json array)
    (htype : array.type = .array) :
    (∃ items, ArrayItems array items) ∧ ∀ items, ArrayItems array items → ArrayLaw array items :=
  ⟨h.grammatical.items htype, fun _ hitems => hitems.law htype⟩

/-- `{"a":[1,[2,"],"]]}` -/
def arrayText : Bytes :=
  [0x7B, 0x22, 0x61, 0x22, 0x3A, 0x5B, 0x31, 0x2C, 0x5B, 0x32, 0x2C, 0x22, 0x5D, 0x2C, 0x22, 0x5D,
    0x5D, 0x7D]

theorem jsonArray_consistent_small : ∃ array items, LocatedIn arrayText array ∧
    ArrayLaw array items ∧ items.length = 2 := by
  have hfound : jsonFindN arrayText ⟨[0x61], by decide⟩ =
      some ⟨.array, arrayText.drop 5, 12⟩ := by decide
  have hlocated : LocatedIn arrayText ⟨.array, arrayText.drop 5, 12⟩ := .find hfound
  obtain ⟨⟨items, hitems⟩, hlaw⟩ := jsonArray_consistent hlocated rfl
  refine ⟨_, items, hlocated, hlaw items hitems, ?_⟩
  rw [← (hlaw items hitems).count]
  decide

end Pico
