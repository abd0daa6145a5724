import Mathlib.Tactic

/-! JSON texts over bytes. Containers, literals and whitespace are those of RFC 8259; the
strings and the numbers are parameters, so that one grammar serves a strict dialect and a
relaxed one. -/

namespace Lib.Json

def isWhitespace (c : UInt8) : Bool := c = 0x20 || c = 0x09 || c = 0x0A || c = 0x0D

def isDigit (c : UInt8) : Bool := 0x30 ≤ c && c ≤ 0x39

def isHexDigit (c : UInt8) : Bool :=
  isDigit c || (0x41 ≤ c && c ≤ 0x46) || (0x61 ≤ c && c ≤ 0x66)

def Whitespace (text : List UInt8) : Prop := ∀ c ∈ text, isWhitespace c = true

def Digits (text : List UInt8) : Prop := ∀ c ∈ text, isDigit c = true

/-- The strings and the numbers of a dialect, the quotes of a string included. -/
structure Tokens where
  string : List UInt8 → Prop
  number : List UInt8 → Prop

/-- "true", "false" and "null". -/
def literals : List (List UInt8) :=
  [[0x74, 0x72, 0x75, 0x65], [0x66, 0x61, 0x6C, 0x73, 0x65], [0x6E, 0x75, 0x6C, 0x6C]]

inductive Bracket where
  | object
  | array
deriving DecidableEq

def Bracket.opening : Bracket → UInt8
  | .object => 0x7B
  | .array => 0x5B

def Bracket.closing : Bracket → UInt8
  | .object => 0x7D
  | .array => 0x5D

/-- What stands between two commas of a container: a value, and what leads up to it. -/
structure Item where
  lead : List UInt8
  value : List UInt8
  after : List UInt8

def Item.text (item : Item) : List UInt8 := item.lead ++ (item.value ++ item.after)

/-- The items of a container, with a comma between each two. -/
def joined : List Item → List UInt8
  | [] => []
  | [item] => item.text
  | item :: next :: items => item.text ++ 0x2C :: joined (next :: items)

/-- A name and its colon, with the whitespace around them. -/
structure Naming where
  before : List UInt8
  name : List UInt8
  gap : List UInt8
  lead : List UInt8

def Naming.text (naming : Naming) : List UInt8 :=
  naming.before ++ (naming.name ++ (naming.gap ++ 0x3A :: naming.lead))

structure Naming.WellFormed (T : Tokens) (naming : Naming) : Prop where
  before : Whitespace naming.before
  name : T.string naming.name
  gap : Whitespace naming.gap
  lead : Whitespace naming.lead

/-- What may lead up to a value in a container. -/
def Bracket.Lead (T : Tokens) : Bracket → List UInt8 → Prop
  | .object, text => ∃ naming : Naming, naming.WellFormed T ∧ naming.text = text
  | .array, text => Whitespace text

def Bracket.text (bracket : Bracket) (inside : List UInt8) : List UInt8 :=
  bracket.opening :: (inside ++ [bracket.closing])

/-- Values whose containers nest at most `n` deep. -/
inductive Value (T : Tokens) : ℕ → List UInt8 → Prop
  | string {n : ℕ} {text : List UInt8} (h : T.string text) : Value T n text
  | number {n : ℕ} {text : List UInt8} (h : T.number text) : Value T n text
  | literal {n : ℕ} {text : List UInt8} (h : text ∈ literals) : Value T n text
  | empty {n : ℕ} {inside : List UInt8} (bracket : Bracket) (h : Whitespace inside) :
      Value T (n + 1) (bracket.text inside)
  | container {n : ℕ} {items : List Item} (bracket : Bracket) (hne : items ≠ [])
      (hlead : ∀ item ∈ items, bracket.Lead T item.lead)
      (hafter : ∀ item ∈ items, Whitespace item.after)
      (hvalue : ∀ item ∈ items, Value T n item.value) :
      Value T (n + 1) (bracket.text (joined items))

/-- What may stand between the brackets of a container. -/
def Bracket.Holds (T : Tokens) (n : ℕ) (bracket : Bracket) (inside : List UInt8) : Prop :=
  Whitespace inside ∨ ∃ items : List Item, items ≠ [] ∧
    (∀ item ∈ items, bracket.Lead T item.lead ∧ Value T n item.value ∧ Whitespace item.after) ∧
    inside = joined items

/-- A member of an object: a name, its colon, and a value. -/
structure Member where
  naming : Naming
  value : List UInt8
  after : List UInt8

def Member.item (member : Member) : Item where
  lead := member.naming.text
  value := member.value
  after := member.after

structure Member.WellFormed (T : Tokens) (n : ℕ) (member : Member) : Prop where
  naming : member.naming.WellFormed T
  value : Value T n member.value
  after : Whitespace member.after

/-- What stands between the braces of an object with these members. -/
def Members (T : Tokens) (n : ℕ) (members : List Member) (inside : List UInt8) : Prop :=
  members = [] ∧ Whitespace inside ∨
    members ≠ [] ∧ (∀ member ∈ members, member.WellFormed T n) ∧
      inside = joined (members.map Member.item)

/-- A value with whitespace around it. -/
def Text (T : Tokens) (n : ℕ) (text : List UInt8) : Prop :=
  ∃ before value after, Whitespace before ∧ Value T n value ∧ Whitespace after ∧
    text = before ++ (value ++ after)

/-- The characters of a string of RFC 8259, over the bytes of its encoding. -/
inductive StrictChars : List UInt8 → Prop
  | nil : StrictChars []
  | plain {c : UInt8} {rest : List UInt8} (hcontrol : 0x20 ≤ c) (hquote : c ≠ 0x22)
      (hescape : c ≠ 0x5C) (h : StrictChars rest) : StrictChars (c :: rest)
  | escape {c : UInt8} {rest : List UInt8}
      (hc : c ∈ [0x22, 0x5C, 0x2F, 0x62, 0x66, 0x6E, 0x72, 0x74]) (h : StrictChars rest) :
      StrictChars (0x5C :: c :: rest)
  | unicode {a b c d : UInt8} {rest : List UInt8} (hhex : ∀ x ∈ [a, b, c, d], isHexDigit x = true)
      (h : StrictChars rest) : StrictChars (0x5C :: 0x75 :: a :: b :: c :: d :: rest)

/-- `number = [ minus ] int [ frac ] [ exp ]`. -/
structure StrictNumber (minus int frac exp : List UInt8) : Prop where
  minus : minus = [] ∨ minus = [0x2D]
  int : int = [0x30] ∨ ∃ d ds, 0x31 ≤ d ∧ d ≤ 0x39 ∧ Digits ds ∧ int = d :: ds
  frac : frac = [] ∨ ∃ ds, ds ≠ [] ∧ Digits ds ∧ frac = 0x2E :: ds
  exp : exp = [] ∨ ∃ e sign ds, (e = 0x65 ∨ e = 0x45) ∧
    (sign = [] ∨ sign = [0x2D] ∨ sign = [0x2B]) ∧ ds ≠ [] ∧ Digits ds ∧ exp = e :: (sign ++ ds)

/-- The tokens of RFC 8259. -/
def rfc8259 : Tokens where
  string text := ∃ chars, StrictChars chars ∧ text = 0x22 :: (chars ++ [0x22])
  number text := ∃ minus int frac exp, StrictNumber minus int frac exp ∧
    text = minus ++ (int ++ (frac ++ exp))

section values

variable {T T' : Tokens}

theorem Whitespace.nil : Whitespace [] := by
  intro c hc
  cases hc

theorem Bracket.Lead.mono (hstring : ∀ text, T.string text → T'.string text) {bracket : Bracket}
    {text : List UInt8} (h : bracket.Lead T text) : bracket.Lead T' text := by
  cases bracket with
  | object =>
    obtain ⟨naming, hwell, htext⟩ := h
    exact ⟨naming, ⟨hwell.before, hstring _ hwell.name, hwell.gap, hwell.lead⟩, htext⟩
  | array => exact h

theorem Value.mono (hstring : ∀ text, T.string text → T'.string text)
    (hnumber : ∀ text, T.number text → T'.number text) {n : ℕ} {text : List UInt8}
    (h : Value T n text) : Value T' n text := by
  induction h with
  | string h => exact .string (hstring _ h)
  | number h => exact .number (hnumber _ h)
  | literal h => exact .literal h
  | empty bracket h => exact .empty bracket h
  | container bracket hne hlead hafter _ ih =>
    exact .container bracket hne (fun item hitem => (hlead item hitem).mono hstring) hafter ih

theorem Value.deepen {n m : ℕ} {text : List UInt8} (h : Value T n text) (hle : n ≤ m) :
    Value T m text := by
  induction h generalizing m with
  | string h => exact .string h
  | number h => exact .number h
  | literal h => exact .literal h
  | empty bracket h =>
    obtain ⟨k, rfl⟩ := Nat.exists_eq_add_of_le' hle
    exact .empty bracket h
  | container bracket hne hlead hafter _ ih =>
    cases m with
    | zero => omega
    | succ m => exact .container bracket hne hlead hafter fun item hitem => ih item hitem (by omega)

theorem Bracket.Holds.value {n : ℕ} {bracket : Bracket} {inside : List UInt8}
    (h : bracket.Holds T n inside) : Value T (n + 1) (bracket.text inside) := by
  rcases h with hspace | ⟨items, hne, hitems, rfl⟩
  · exact .empty bracket hspace
  · exact .container bracket hne (fun item hitem => (hitems item hitem).1)
      (fun item hitem => (hitems item hitem).2.2) fun item hitem => (hitems item hitem).2.1

theorem Member.WellFormed.holds {n : ℕ} {member : Member} (h : member.WellFormed T n) :
    Bracket.object.Lead T member.item.lead ∧ Value T n member.item.value ∧
      Whitespace member.item.after :=
  ⟨⟨member.naming, h.naming, rfl⟩, h.value, h.after⟩

theorem Members.holds {n : ℕ} {members : List Member} {inside : List UInt8}
    (h : Members T n members inside) : Bracket.object.Holds T n inside := by
  rcases h with ⟨-, hspace⟩ | ⟨hne, hmembers, rfl⟩
  · exact Or.inl hspace
  · refine Or.inr ⟨_, by simpa using hne, fun item hitem => ?_, rfl⟩
    obtain ⟨member, hmember, rfl⟩ := List.mem_map.mp hitem
    exact (hmembers member hmember).holds

theorem exists_members_of_items {n : ℕ} {items : List Item}
    (h : ∀ item ∈ items, Bracket.object.Lead T item.lead ∧ Value T n item.value ∧
      Whitespace item.after) :
    ∃ members : List Member, (∀ member ∈ members, member.WellFormed T n) ∧
      items = members.map Member.item := by
  induction items with
  | nil => exact ⟨[], by simp, rfl⟩
  | cons item items ih =>
    obtain ⟨members, hmembers, rfl⟩ := ih fun x hx => h x (List.mem_cons_of_mem _ hx)
    obtain ⟨⟨naming, hnaming, hlead⟩, hvalue, hafter⟩ := h item (by simp)
    refine ⟨⟨naming, item.value, item.after⟩ :: members, ?_, ?_⟩
    · intro member hmember
      rcases List.mem_cons.mp hmember with rfl | hmember
      · exact ⟨hnaming, hvalue, hafter⟩
      · exact hmembers member hmember
    · rw [List.map_cons, Member.item, hlead]

theorem Bracket.Holds.members {n : ℕ} {inside : List UInt8}
    (h : Bracket.object.Holds T n inside) : ∃ members, Members T n members inside := by
  rcases h with hspace | ⟨items, hne, hitems, rfl⟩
  · exact ⟨[], Or.inl ⟨rfl, hspace⟩⟩
  · obtain ⟨members, hmembers, rfl⟩ := exists_members_of_items hitems
    exact ⟨members, Or.inr ⟨by simpa using hne, hmembers, rfl⟩⟩

theorem joined_cons_ne_nil (item : Item) {items : List Item} (h : items ≠ []) :
    joined (item :: items) = item.text ++ 0x2C :: joined items := by
  cases items with
  | nil => exact absurd rfl h
  | cons next items => rfl

end values

end Lib.Json
