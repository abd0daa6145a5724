import PicoFramework.Proofs.JsonScan
import PicoFramework.Proofs.JsonString

/-! The two passes of `json_find_n`. The second reads the members that the first has
passed over, so it never stops but at a match or at the closing brace. -/

namespace Pico

open Lib.Json

/-- The characters of a member's name, still escaped. -/
def nameBody (member : Member) : Bytes := (member.naming.name.drop 1).dropLast

/-- The name, as `unescape` resolves it, is the key. -/
def Named (key : CString) (member : Member) : Prop :=
  unescape (nameBody member) (nameBody member).length = some key.bytes

instance (key : CString) (member : Member) : Decidable (Named key member) :=
  inferInstanceAs (Decidable (_ = _))

/-- What stands between an opening brace and the value of a member. -/
def ledBy (earlier : List Member) (member : Member) : Bytes :=
  earlier.flatMap (fun other => other.item.text ++ [0x2C]) ++ member.naming.text

/-- What a value is, by the production it is made with. -/
def Typed (text : Bytes) : JsonType → Prop
  | .invalid => False
  | .null => text = [0x6E, 0x75, 0x6C, 0x6C]
  | .bool => text = [0x74, 0x72, 0x75, 0x65] ∨ text = [0x66, 0x61, 0x6C, 0x73, 0x65]
  | .number => scanned.number text
  | .string => scanned.string text
  | .object => ∃ inside, text = Bracket.object.text inside
  | .array => ∃ inside, text = Bracket.array.text inside

section types

theorem typeOf_number {text : Bytes} (h : scanned.number text) :
    typeOf (text.headD 0) = .number := by
  obtain ⟨c, tail, rfl, hc⟩ := number_start h
  have hne {d : UInt8} (hd : isNumberStart d = false) : c ≠ d := by
    rintro rfl
    rw [hc] at hd
    cases hd
  simp [typeOf, hne (d := 0x22) (by decide), hne (d := 0x7B) (by decide),
    hne (d := 0x5B) (by decide), hne (d := 0x74) (by decide), hne (d := 0x66) (by decide),
    hne (d := 0x6E) (by decide)]

theorem typeOf_eq {text : Bytes} {type : JsonType} (h : Typed text type) :
    type = typeOf (text.headD 0) := by
  cases type with
  | invalid => exact h.elim
  | null =>
    obtain rfl := h
    rfl
  | bool =>
    rcases h with rfl | rfl
    · rfl
    · rfl
  | number => exact (typeOf_number h).symm
  | string =>
    obtain ⟨chars, -, rfl⟩ := h
    rfl
  | object =>
    obtain ⟨inside, rfl⟩ := h
    rfl
  | array =>
    obtain ⟨inside, rfl⟩ := h
    rfl

theorem exists_typed {n : ℕ} {text : Bytes} (h : Value scanned n text) : ∃ type, Typed text type := by
  have hbracket (bracket : Bracket) (inside : Bytes) : ∃ type, Typed (bracket.text inside) type := by
    cases bracket with
    | object => exact ⟨.object, inside, rfl⟩
    | array => exact ⟨.array, inside, rfl⟩
  cases h with
  | string h => exact ⟨.string, h⟩
  | number h => exact ⟨.number, h⟩
  | literal h =>
    simp only [literals, List.mem_cons, List.not_mem_nil, or_false] at h
    rcases h with rfl | rfl | rfl
    · exact ⟨.bool, Or.inl rfl⟩
    · exact ⟨.bool, Or.inr rfl⟩
    · exact ⟨.null, rfl⟩
  | empty bracket _ => exact hbracket bracket _
  | container bracket _ _ _ _ => exact hbracket bracket _

theorem typed_iff {n : ℕ} {text : Bytes} (h : Value scanned n text) {type : JsonType} :
    Typed text type ↔ type = typeOf (text.headD 0) := by
  obtain ⟨actual, hactual⟩ := exists_typed h
  constructor
  · exact typeOf_eq
  · intro htype
    rw [htype, ← typeOf_eq hactual]
    exact hactual

theorem located_type {n : ℕ} {text : Bytes} (h : Value scanned n text) (more : Bytes) :
    (located (text ++ more) more).type = typeOf (text.headD 0) := by
  obtain ⟨c, tail, rfl, -⟩ := value_start h
  rfl

end types

section search

variable {key : CString}

theorem searchMembers_space (fuel : ℕ) (p : Bytes) :
    searchMembers key.bytes fuel (skipWhitespace p) = searchMembers key.bytes fuel p := by
  cases fuel with
  | zero => rfl
  | succ fuel => simp only [searchMembers, skipWhitespace_idem]

theorem named_iff {member : Member} :
    escapedEquals (nameBody member) key.bytes = true ↔ Named key member :=
  escapedEquals_iff_unescape

theorem searchMembers_member {member : Member}
    (hmember : member.WellFormed scanned (JSON_MAX_DEPTH - 1)) {c : UInt8}
    (hc : c = 0x7D ∨ c = 0x2C) (fuel : ℕ) (rest : Bytes) :
    searchMembers key.bytes (fuel + 1) (member.item.text ++ c :: rest) =
      if Named key member then
        .found (located (member.value ++ (member.after ++ c :: rest)) (member.after ++ c :: rest))
      else if c = 0x7D then .absent
      else searchMembers key.bytes fuel rest := by
  obtain ⟨⟨hbefore, hname, hgap, hlead⟩, hvalue, hafter⟩ := hmember
  obtain ⟨chars, hchars, hquoted⟩ := hname
  have hbody : nameBody member = chars := by simp [nameBody, hquoted]
  have hnamed : escapedEquals (nameBody member) key.bytes = true ↔ Named key member := named_iff
  have hblank : isWhitespace c = false := by
    rcases hc with rfl | rfl
    · decide
    · decide
  generalize hvalueEnd : member.after ++ c :: rest = valueEnd
  have htext : member.item.text ++ c :: rest = member.naming.before ++ (member.naming.name ++
      (member.naming.gap ++ 0x3A :: (member.naming.lead ++ (member.value ++ valueEnd)))) := by
    simp [← hvalueEnd, Item.text, Member.item, Naming.text]
  have hskipName (more : Bytes) :
      skipWhitespace (member.naming.name ++ more) = member.naming.name ++ more := by
    rw [hquoted]
    exact skipWhitespace_cons (by decide)
  have hskipValue : skipValue (JSON_MAX_DEPTH - 1) (member.value ++ valueEnd) = some valueEnd := by
    rw [← hvalueEnd]
    exact skipValue_complete _ _ _ hvalue (numberEnds_after .object hafter hc rest)
  have hkey (more : Bytes) : ((member.naming.name ++ more).drop 1).take
      ((member.naming.name ++ more).length - more.length - 2) = chars := by
    have hlength : (member.naming.name ++ more).length - more.length - 2 = chars.length := by
      simp only [hquoted, List.length_append, List.length_cons, List.length_nil]
      omega
    rw [hlength, hquoted]
    simp
  rw [searchMembers]
  simp only [htext, skipWhitespace_append hbefore, hskipName,
    skipString_complete ⟨chars, hchars, hquoted⟩, skipWhitespace_append hgap,
    skipWhitespace_cons (show isWhitespace 0x3A = false by decide), skipWhitespace_append hlead,
    skipWhitespace_value hvalue, hskipValue, hkey, ← hbody, hnamed]
  rw [if_neg (by simp), ← hvalueEnd, skipWhitespace_append hafter, skipWhitespace_cons hblank]
  rcases hc with rfl | rfl
  · rfl
  · have hcomma : ¬ (0x2C : UInt8) = 0x7D := by decide
    simp only [hcomma, if_false, ne_eq, not_true]

theorem joined_next (item : Item) (items : List Item) (closing : UInt8) (rest : Bytes) :
    ∃ c tail, joined (item :: items) ++ closing :: rest = item.text ++ c :: tail ∧
      (items = [] ∧ c = closing ∧ tail = rest ∨
        items ≠ [] ∧ c = 0x2C ∧ tail = joined items ++ closing :: rest) := by
  cases items with
  | nil => exact ⟨closing, rest, rfl, Or.inl ⟨rfl, rfl, rfl⟩⟩
  | cons next items =>
    exact ⟨0x2C, _, by simp [joined], Or.inr ⟨by simp, rfl, rfl⟩⟩

theorem searchMembers_found {earlier later : List Member} {member : Member}
    (hmembers : ∀ x ∈ earlier ++ member :: later, x.WellFormed scanned (JSON_MAX_DEPTH - 1))
    (hearlier : ∀ other ∈ earlier, ¬ Named key other) (hmember : Named key member) {fuel : ℕ}
    (hfuel : (earlier ++ member :: later).length ≤ fuel) (rest : Bytes) :
    ∃ more, joined ((earlier ++ member :: later).map Member.item) ++ 0x7D :: rest =
        ledBy earlier member ++ (member.value ++ more) ∧
      searchMembers key.bytes fuel
          (joined ((earlier ++ member :: later).map Member.item) ++ 0x7D :: rest) =
        .found (located (member.value ++ more) more) := by
  induction earlier generalizing fuel with
  | nil =>
    obtain ⟨fuel, rfl⟩ := Nat.exists_eq_add_of_le' (Nat.one_le_of_lt hfuel)
    obtain ⟨c, tail, htext, hnext⟩ := joined_next member.item (later.map Member.item) 0x7D rest
    have hc : c = 0x7D ∨ c = 0x2C := by
      rcases hnext with ⟨-, hc, -⟩ | ⟨-, hc, -⟩
      · exact Or.inl hc
      · exact Or.inr hc
    rw [List.nil_append, List.map_cons, htext,
      searchMembers_member (hmembers member (by simp)) hc, if_pos hmember]
    exact ⟨_, by simp [ledBy, Item.text, Member.item], rfl⟩
  | cons first earlier ih =>
    obtain ⟨fuel, rfl⟩ := Nat.exists_eq_add_of_le' (Nat.one_le_of_lt hfuel)
    obtain ⟨more, hmore, hfound⟩ := ih (fun x hx => hmembers x (List.mem_cons_of_mem _ hx))
      (fun x hx => hearlier x (List.mem_cons_of_mem _ hx)) (by simpa using hfuel)
    have htext : joined ((first :: earlier ++ member :: later).map Member.item) ++ 0x7D :: rest =
        first.item.text ++ 0x2C ::
          (joined ((earlier ++ member :: later).map Member.item) ++ 0x7D :: rest) := by
      rw [List.cons_append, List.map_cons, joined_cons_ne_nil _ (by simp), List.append_assoc,
        List.cons_append]
    refine ⟨more, ?_, ?_⟩
    · rw [htext, hmore]
      simp [ledBy]
    · rw [htext, searchMembers_member (hmembers first (by simp)) (Or.inr rfl),
        if_neg (hearlier first (by simp)), if_neg (by decide), hfound]

theorem searchMembers_absent {members : List Member} (hne : members ≠ [])
    (hmembers : ∀ x ∈ members, x.WellFormed scanned (JSON_MAX_DEPTH - 1))
    (hnone : ∀ x ∈ members, ¬ Named key x) {fuel : ℕ} (hfuel : members.length ≤ fuel)
    (rest : Bytes) :
    searchMembers key.bytes fuel (joined (members.map Member.item) ++ 0x7D :: rest) = .absent := by
  induction members generalizing fuel with
  | nil => exact absurd rfl hne
  | cons first members ih =>
    obtain ⟨fuel, rfl⟩ := Nat.exists_eq_add_of_le' (Nat.one_le_of_lt hfuel)
    obtain ⟨c, tail, htext, hnext⟩ := joined_next first.item (members.map Member.item) 0x7D rest
    rw [List.map_cons, htext]
    rcases hnext with ⟨-, rfl, rfl⟩ | ⟨hmore, rfl, rfl⟩
    · rw [searchMembers_member (hmembers first (by simp)) (Or.inl rfl),
        if_neg (hnone first (by simp)), if_pos rfl]
    · rw [searchMembers_member (hmembers first (by simp)) (Or.inr rfl),
        if_neg (hnone first (by simp)), if_neg (by decide)]
      exact ih (by simpa using hmore) (fun x hx => hmembers x (List.mem_cons_of_mem _ hx))
        (fun x hx => hnone x (List.mem_cons_of_mem _ hx)) (by simpa using hfuel)

theorem searchObject_eq (key : CString) {members : List Member} {inside : Bytes} (hne : members ≠ [])
    (hmembers : Members scanned (JSON_MAX_DEPTH - 1) members inside) (rest : Bytes) :
    inside = joined (members.map Member.item) ∧
      (∀ x ∈ members, x.WellFormed scanned (JSON_MAX_DEPTH - 1)) ∧
      ∃ fuel, members.length ≤ fuel ∧ searchObject key.bytes (inside ++ 0x7D :: rest) =
        searchMembers key.bytes fuel (inside ++ 0x7D :: rest) := by
  rcases hmembers with ⟨hempty, -⟩ | ⟨-, hmembers, rfl⟩
  · exact absurd hempty hne
  · refine ⟨rfl, hmembers, (joined (members.map Member.item) ++ 0x7D :: rest).length, ?_, ?_⟩
    · have hlength : (members.map Member.item).length ≤ (joined (members.map Member.item)).length := by
        refine length_le_joined (n := JSON_MAX_DEPTH - 1) fun item hitem => ?_
        obtain ⟨member, hmember, rfl⟩ := List.mem_map.mp hitem
        exact (hmembers member hmember).value
      rw [List.length_map] at hlength
      rw [List.length_append]
      omega
    · obtain ⟨first, members, rfl⟩ := List.exists_cons_of_ne_nil hne
      obtain ⟨c, tail, htext, -⟩ := joined_next first.item (members.map Member.item) 0x7D rest
      obtain ⟨hlead, hvalue, -⟩ := (hmembers first (by simp)).holds
      have hhead := head_item_ne hlead hvalue (c :: tail)
      rw [searchObject, searchMembers_space, List.map_cons, htext]
      exact if_neg hhead

theorem searchObject_found {earlier later : List Member} {member : Member} {inside : Bytes}
    (hmembers : Members scanned (JSON_MAX_DEPTH - 1) (earlier ++ member :: later) inside)
    (hearlier : ∀ other ∈ earlier, ¬ Named key other) (hmember : Named key member) (rest : Bytes) :
    ∃ more, inside ++ 0x7D :: rest = ledBy earlier member ++ (member.value ++ more) ∧
      searchObject key.bytes (inside ++ 0x7D :: rest) =
        .found (located (member.value ++ more) more) := by
  obtain ⟨rfl, hwell, fuel, hfuel, heq⟩ := searchObject_eq key (by simp) hmembers rest
  obtain ⟨more, hmore, hfound⟩ := searchMembers_found hwell hearlier hmember hfuel rest
  exact ⟨more, hmore, heq.trans hfound⟩

theorem searchObject_absent {members : List Member} {inside : Bytes}
    (hmembers : Members scanned (JSON_MAX_DEPTH - 1) members inside)
    (hnone : ∀ x ∈ members, ¬ Named key x) (rest : Bytes) :
    searchObject key.bytes (inside ++ 0x7D :: rest) = .absent := by
  by_cases hne : members = []
  · rcases hmembers with ⟨-, hspace⟩ | ⟨hsome, -⟩
    · rw [searchObject, skipWhitespace_append hspace, skipWhitespace_cons (by decide)]
      exact if_pos rfl
    · exact absurd hne hsome
  · obtain ⟨rfl, hwell, fuel, hfuel, heq⟩ := searchObject_eq key hne hmembers rest
    exact heq.trans (searchMembers_absent hne hwell hnone hfuel rest)

theorem exists_first (key : CString) (members : List Member) :
    (∀ x ∈ members, ¬ Named key x) ∨ ∃ earlier member later,
      members = earlier ++ member :: later ∧ (∀ other ∈ earlier, ¬ Named key other) ∧
        Named key member := by
  cases hfind : members.find? fun x => decide (Named key x) with
  | none => exact Or.inl (by simpa using hfind)
  | some member =>
    obtain ⟨hmember, earlier, later, hsplit, hearlier⟩ := List.find?_eq_some_iff_append.mp hfind
    exact Or.inr ⟨earlier, member, later, hsplit, by simpa using hearlier, by simpa using hmember⟩

/-- A search of an object that is complete ends at a match or at the closing brace. -/
theorem searchObject_members (key : CString) {members : List Member} {inside : Bytes}
    (hmembers : Members scanned (JSON_MAX_DEPTH - 1) members inside) (rest : Bytes) :
    (∀ x ∈ members, ¬ Named key x) ∧
        searchObject key.bytes (inside ++ 0x7D :: rest) = .absent ∨
      ∃ earlier member later more, members = earlier ++ member :: later ∧
        (∀ other ∈ earlier, ¬ Named key other) ∧ Named key member ∧
        inside ++ 0x7D :: rest = ledBy earlier member ++ (member.value ++ more) ∧
        searchObject key.bytes (inside ++ 0x7D :: rest) =
          .found (located (member.value ++ more) more) := by
  rcases exists_first key members with hnone | ⟨earlier, member, later, rfl, hearlier, hmember⟩
  · exact Or.inl ⟨hnone, searchObject_absent hmembers hnone rest⟩
  · obtain ⟨more, hmore, hfound⟩ := searchObject_found hmembers hearlier hmember rest
    exact Or.inr ⟨earlier, member, later, more, rfl, hearlier, hmember, hmore, hfound⟩

end search

section documents

variable {key : CString}

theorem object_text_append (inside rest : Bytes) :
    Bracket.object.text inside ++ rest = 0x7B :: (inside ++ 0x7D :: rest) := by
  rw [Bracket.text, List.cons_append, List.append_assoc]
  rfl

theorem skipWhitespace_object {before inside rest : Bytes} (h : Whitespace before) :
    skipWhitespace (before ++ (Bracket.object.text inside ++ rest)) =
      0x7B :: (inside ++ 0x7D :: rest) := by
  rw [skipWhitespace_append h, object_text_append]
  exact skipWhitespace_cons (by decide)

theorem skipContainer_object {inside : Bytes}
    (h : Bracket.object.Holds scanned (JSON_MAX_DEPTH - 1) inside) (rest : Bytes) :
    skipContainer (skipValue (JSON_MAX_DEPTH - 1)) 0x7B (inside ++ 0x7D :: rest) = some rest := by
  have hskip := skipContainer_complete (skipValue_complete _) h rest
  exact hskip

theorem skipContainer_object_sound {p rest : Bytes}
    (h : skipContainer (skipValue (JSON_MAX_DEPTH - 1)) 0x7B p = some rest) :
    ∃ inside, Bracket.object.Holds scanned (JSON_MAX_DEPTH - 1) inside ∧
      p = inside ++ 0x7D :: rest :=
  skipContainer_sound (skipValue_sound _)
    (show skipContainer _ Bracket.object.opening p = some rest from h)

theorem jsonFindN_object {before inside rest : Bytes} (hbefore : Whitespace before)
    (h : Bracket.object.Holds scanned (JSON_MAX_DEPTH - 1) inside) :
    jsonFindN (before ++ (Bracket.object.text inside ++ rest)) key =
      match searchObject key.bytes (inside ++ 0x7D :: rest) with
      | .found value => some value
      | _ => none := by
  unfold jsonFindN
  simp only [skipWhitespace_object hbefore, skipContainer_object h]
  exact if_neg (by simp)

theorem jsonFindN_complete {json : Bytes} {value : JsonValue} (h : jsonFindN json key = some value) :
    ∃ before inside rest, Whitespace before ∧
      Bracket.object.Holds scanned (JSON_MAX_DEPTH - 1) inside ∧
      json = before ++ (Bracket.object.text inside ++ rest) := by
  obtain ⟨before, hbefore, hjson⟩ := exists_skipWhitespace json
  unfold jsonFindN at h
  cases hp : skipWhitespace json with
  | nil => simp [hp] at h
  | cons c p =>
    rw [hp] at h hjson
    simp only at h
    split_ifs at h with hbrace
    rw [not_not] at hbrace
    subst hbrace
    cases hscan : skipContainer (skipValue (JSON_MAX_DEPTH - 1)) 0x7B p with
    | none => simp [hscan] at h
    | some rest =>
      obtain ⟨inside, hinside, rfl⟩ := skipContainer_object_sound hscan
      exact ⟨before, inside, rest, hbefore, hinside, by rw [hjson, object_text_append]⟩

theorem object_unique {before inside rest before' inside' rest' : Bytes}
    (hbefore : Whitespace before) (hbefore' : Whitespace before')
    (h : Bracket.object.Holds scanned (JSON_MAX_DEPTH - 1) inside)
    (h' : Bracket.object.Holds scanned (JSON_MAX_DEPTH - 1) inside')
    (hsame : before ++ (Bracket.object.text inside ++ rest) =
      before' ++ (Bracket.object.text inside' ++ rest')) : rest = rest' := by
  have hskip := congrArg skipWhitespace hsame
  rw [skipWhitespace_object hbefore, skipWhitespace_object hbefore'] at hskip
  have hscan := skipContainer_object h rest
  rw [List.cons.inj hskip |>.2, skipContainer_object h' rest'] at hscan
  exact (Option.some.inj hscan).symm

theorem jsonFindN_cut {before inside rest : Bytes} (hbefore : Whitespace before)
    (h : Bracket.object.Holds scanned (JSON_MAX_DEPTH - 1) inside) {n : ℕ}
    (hn : n < (before ++ Bracket.object.text inside).length) :
    jsonFindN ((before ++ (Bracket.object.text inside ++ rest)).take n) key = none := by
  cases hfind : jsonFindN ((before ++ (Bracket.object.text inside ++ rest)).take n) key with
  | none => rfl
  | some value =>
    obtain ⟨before', inside', rest', hbefore', hinside', hcut⟩ := jsonFindN_complete hfind
    have hsame := List.take_append_drop n (before ++ (Bracket.object.text inside ++ rest))
    rw [hcut, List.append_assoc, List.append_assoc] at hsame
    have hrest := congrArg List.length (object_unique hbefore' hbefore hinside' h hsame)
    simp only [List.length_append, List.length_drop] at hrest hn
    omega

end documents

/-- `json_find_n` finds the first top-level member of a complete object whose decoded name is
the key, and no other. -/
theorem jsonFindN_spec (json : Bytes) (key : CString) :
    (∀ value, jsonFindN json key = some value ↔
      ∃ before inside rest earlier member later, Whitespace before ∧
        json = before ++ (Bracket.object.text inside ++ rest) ∧
        Members scanned (JSON_MAX_DEPTH - 1) (earlier ++ member :: later) inside ∧
        (∀ other ∈ earlier, ¬ Named key other) ∧ Named key member ∧
        json = before ++ 0x7B :: (ledBy earlier member ++ value.start) ∧
        value.text = member.value ∧ value.length = member.value.length ∧
        Typed member.value value.type) ∧
    (∀ before inside rest, Whitespace before →
      Bracket.object.Holds scanned (JSON_MAX_DEPTH - 1) inside →
      json = before ++ (Bracket.object.text inside ++ rest) →
      ∀ n < (before ++ Bracket.object.text inside).length, jsonFindN (json.take n) key = none) ∧
    (∀ inside, skipContainer (skipValue (JSON_MAX_DEPTH - 1)) 0x7B inside ≠ none →
      searchObject key.bytes inside ≠ .malformed) := by
  have hmemberValue {earlier later : List Member} {member : Member} {inside : Bytes}
      (hmembers : Members scanned (JSON_MAX_DEPTH - 1) (earlier ++ member :: later) inside) :
      Value scanned (JSON_MAX_DEPTH - 1) member.value := by
    rcases hmembers with ⟨hempty, -⟩ | ⟨-, hwell, -⟩
    · simp at hempty
    · exact (hwell member (by simp)).value
  refine ⟨fun value => ⟨fun h => ?_, ?_⟩, ?_, ?_⟩
  · obtain ⟨before, inside, rest, hbefore, hinside, hjson⟩ := jsonFindN_complete h
    obtain ⟨members, hmembers⟩ := hinside.members
    rw [hjson, jsonFindN_object hbefore hinside] at h
    rcases searchObject_members key hmembers rest with
      ⟨-, habsent⟩ | ⟨earlier, member, later, more, rfl, hearlier, hmember, hmore, hfound⟩
    · rw [habsent] at h
      cases h
    · rw [hfound] at h
      obtain rfl := Option.some.inj h
      have hvalue := hmemberValue hmembers
      refine ⟨before, inside, rest, earlier, member, later, hbefore, hjson, hmembers, hearlier,
        hmember, ?_, ?_, ?_, ?_⟩
      · change json = before ++ 0x7B :: (ledBy earlier member ++ (member.value ++ more))
        rw [hjson, ← hmore, object_text_append]
      · simp [JsonValue.text, located]
      · simp [located]
      · exact (typed_iff hvalue).mpr (located_type hvalue more)
  · rintro ⟨before, inside, rest, earlier, member, later, hbefore, hjson, hmembers, hearlier,
      hmember, hstart, htext, hlength, htype⟩
    obtain ⟨more, hmore, hfound⟩ := searchObject_found hmembers hearlier hmember rest
    have hvalue := hmemberValue hmembers
    rw [hjson, object_text_append, List.append_cancel_left_eq, hmore, List.cons.injEq,
      List.append_cancel_left_eq] at hstart
    rw [hjson, jsonFindN_object hbefore hmembers.holds, hfound]
    refine congrArg some (JsonValue.ext ?_ hstart.2 ?_)
    · rw [(typed_iff hvalue).mp htype]
      exact located_type hvalue more
    · simp [located, hlength]
  · rintro before inside rest hbefore hinside rfl n hn
    exact jsonFindN_cut hbefore hinside hn
  · intro inside hscan
    obtain ⟨rest, hrest⟩ := Option.ne_none_iff_exists'.mp hscan
    obtain ⟨inside, hinside, rfl⟩ := skipContainer_object_sound hrest
    obtain ⟨members, hmembers⟩ := hinside.members
    rcases searchObject_members key hmembers rest with
      ⟨-, habsent⟩ | ⟨earlier, member, later, more, -, -, -, -, hfound⟩
    · exact fun h => by cases habsent.symm.trans h
    · exact fun h => by cases hfound.symm.trans h

/-- `{"a":{"b":1},"b":2}` -/
def nestedText : Bytes :=
  [0x7B, 0x22, 0x61, 0x22, 0x3A, 0x7B, 0x22, 0x62, 0x22, 0x3A, 0x31, 0x7D, 0x2C, 0x22, 0x62, 0x22,
    0x3A, 0x32, 0x7D]

def nestedKey : CString := ⟨[0x62], by decide⟩

theorem jsonFindN_spec_nested :
    jsonFindN nestedText nestedKey = some ⟨.number, [0x32, 0x7D], 1⟩ ∧
      ∀ n < nestedText.length, jsonFindN (nestedText.take n) nestedKey = none := by
  have hfound : jsonFindN nestedText nestedKey = some ⟨.number, [0x32, 0x7D], 1⟩ := by
    decide
  obtain ⟨hiff, hcut, -⟩ := jsonFindN_spec nestedText nestedKey
  obtain ⟨before, inside, rest, earlier, member, later, hbefore, hjson, hmembers, -⟩ :=
    (hiff _).mp hfound
  have hrest : rest = [] := by
    have hopen : skipWhitespace nestedText = 0x7B :: (inside ++ 0x7D :: rest) := by
      rw [hjson]
      exact skipWhitespace_object hbefore
    have hinside : nestedText.drop 1 = inside ++ 0x7D :: rest := (List.cons.inj hopen).2
    have hclosed : skipContainer (skipValue (JSON_MAX_DEPTH - 1)) 0x7B (nestedText.drop 1) =
        some [] := by decide
    rw [hinside, skipContainer_object hmembers.holds] at hclosed
    exact Option.some.inj hclosed
  subst hrest
  refine ⟨hfound, fun n hn => hcut before inside [] hbefore hmembers.holds hjson n ?_⟩
  rw [hjson, List.append_nil] at hn
  exact hn

end Pico
