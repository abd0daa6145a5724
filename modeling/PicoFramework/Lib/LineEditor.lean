import Mathlib.Tactic

/-! A line edited at a cursor, and the entry of one line after the other, with the lines
recorded before to go back to. -/

namespace Lib.LineEditor

variable {α : Type*}

/-- A line, split at the cursor. -/
structure Line (α : Type*) where
  before : List α
  after : List α

namespace Line

def empty : Line α := ⟨[], []⟩

/-- A line with the cursor at its end. -/
def atEnd (text : List α) : Line α := ⟨text, []⟩

def text (l : Line α) : List α := l.before ++ l.after

def cursor (l : Line α) : ℕ := l.before.length

def insert (c : α) (l : Line α) : Line α := ⟨l.before ++ [c], l.after⟩

def deleteLeft (l : Line α) : Line α := ⟨l.before.dropLast, l.after⟩

def left (l : Line α) : Line α := ⟨l.before.dropLast, l.before.getLast?.toList ++ l.after⟩

def right (l : Line α) : Line α := ⟨l.before ++ l.after.head?.toList, l.after.tail⟩

variable (l : Line α)

theorem cursor_le : l.cursor ≤ l.text.length := by
  unfold cursor text
  rw [List.length_append]
  omega

@[simp] theorem text_atEnd (text : List α) : (atEnd text).text = text := List.append_nil text

@[simp] theorem cursor_atEnd (text : List α) : (atEnd text).cursor = text.length := rfl

theorem text_insert (c : α) : (l.insert c).text = l.before ++ c :: l.after := by
  simp [insert, text]

theorem length_insert (c : α) : (l.insert c).text.length = l.text.length + 1 := by
  rw [text_insert, text]
  simp only [List.length_append, List.length_cons]
  omega

@[simp] theorem left_snoc (before after : List α) (c : α) :
    (Line.mk (before ++ [c]) after).left = ⟨before, c :: after⟩ := by
  simp [left]

@[simp] theorem right_cons (before after : List α) (c : α) :
    (Line.mk before (c :: after)).right = ⟨before ++ [c], after⟩ := rfl

@[simp] theorem right_nil (before : List α) : (Line.mk before []).right = ⟨before, []⟩ := by
  simp [right]

@[simp] theorem deleteLeft_snoc (before after : List α) (c : α) :
    (Line.mk (before ++ [c]) after).deleteLeft = ⟨before, after⟩ := by
  simp [deleteLeft]

theorem text_left : l.left.text = l.text := by
  obtain ⟨before, after⟩ := l
  rcases List.eq_nil_or_concat before with rfl | ⟨start, c, rfl⟩
  · rfl
  · simp [text]

theorem text_right : l.right.text = l.text := by
  obtain ⟨before, after⟩ := l
  cases after with
  | nil => simp [right, text]
  | cons c rest => simp [text]

end Line

/-- What a user presses. -/
inductive Key (α : Type*) where
  | char (c : α)
  | deleteLeft
  | left
  | right
  | up
  | down
  | enter

/-- How lines are entered. -/
structure Rules (α : Type*) where
  /-- The characters of a line. -/
  capacity : ℕ
  /-- What becomes of a line when a character is typed that it has no room for. -/
  overfull : α → Line α → Line α
  /-- A line that starts with such a character is not recorded. -/
  quiet : α → Bool
  /-- How many recorded lines one can go back to, and how much of each is kept. -/
  depth : ℕ
  cut : ℕ

/-- The line being entered, and the lines recorded so far. -/
structure Entry (α : Type*) where
  line : Line α
  /-- A character was typed that there was no room for. -/
  refused : Bool
  isQuiet : Bool
  /-- The oldest first. -/
  recorded : List (List α)
  /-- How many lines one has gone back. -/
  back : ℕ

namespace Entry

/-- A new line. -/
def fresh (recorded : List (List α)) : Entry α := ⟨.empty, false, false, recorded, 0⟩

/-- The `k`-th most recent line recorded; before the first, nothing. -/
def recent (recorded : List (List α)) (k : ℕ) : List α :=
  if k = 0 then [] else recorded.getD (recorded.length - k) []

variable (rules : Rules α)

/-- How far one can go back. -/
def reach (e : Entry α) : ℕ := min rules.depth e.recorded.length

def goBack (k : ℕ) (e : Entry α) : Entry α :=
  { e with line := .atEnd ((recent e.recorded k).take rules.cut), back := k }

def typed (c : α) (e : Entry α) : Entry α :=
  let e := { e with isQuiet := e.isQuiet || (e.line.text.isEmpty && rules.quiet c) }
  if e.line.text.length < rules.capacity then { e with line := e.line.insert c }
  else { e with line := rules.overfull c e.line, refused := true }

/-- The line is submitted unless it is empty or was refused a character. -/
def enter (e : Entry α) : Option (List α) × Entry α :=
  if e.refused || e.line.text.isEmpty then (none, fresh e.recorded)
  else
    (some e.line.text, fresh (if e.isQuiet then e.recorded else e.recorded ++ [e.line.text]))

/-- A key pressed: the line submitted by it, if any, and what is being entered afterwards. -/
def press (e : Entry α) : Key α → Option (List α) × Entry α
  | .char c => (none, e.typed rules c)
  | .deleteLeft => (none, { e with line := e.line.deleteLeft })
  | .left => (none, { e with line := e.line.left })
  | .right => (none, { e with line := e.line.right })
  | .up => (none, if e.back < e.reach rules then e.goBack rules (e.back + 1) else e)
  | .down => (none, if e.back = 0 then e else e.goBack rules (e.back - 1))
  | .enter => e.enter

/-- The entry after some keys. -/
def pressAll (e : Entry α) (keys : List (Key α)) : Entry α :=
  keys.foldl (fun e key => (e.press rules key).2) e

section browsing

variable {rules} {e : Entry α}

theorem press_up (h : e.back < e.reach rules) :
    (e.press rules .up).2 = e.goBack rules (e.back + 1) := if_pos h

theorem pressAll_up_oldest (h : e.reach rules ≤ e.back) (k : ℕ) :
    e.pressAll rules (List.replicate k .up) = e := by
  induction k with
  | zero => rfl
  | succ k ih =>
    have hstays : (e.press rules .up).2 = e := if_neg (by omega)
    change (e.press rules .up).2.pressAll rules (List.replicate k .up) = e
    rw [hstays, ih]

theorem pressAll_up (h : e.back < e.reach rules) (k : ℕ) :
    e.pressAll rules (List.replicate (k + 1) .up) =
      e.goBack rules (min (e.back + (k + 1)) (e.reach rules)) := by
  induction k generalizing e with
  | zero =>
    change (e.press rules .up).2 = _
    rw [press_up h, Nat.min_eq_left h]
  | succ k ih =>
    change (e.press rules .up).2.pressAll rules (List.replicate (k + 1) .up) = _
    rw [press_up h]
    rcases Nat.lt_or_ge (e.back + 1) (e.reach rules) with hmore | hend
    · rw [ih hmore]
      change e.goBack rules (min (e.back + 1 + (k + 1)) (e.reach rules)) = _
      congr 2
      omega
    · rw [pressAll_up_oldest hend]
      congr 1
      omega

theorem pressAll_down (n j : ℕ) :
    (e.goBack rules n).pressAll rules (List.replicate j .down) = e.goBack rules (n - j) := by
  induction j generalizing n with
  | zero => rfl
  | succ j ih =>
    change ((e.goBack rules n).press rules .down).2.pressAll rules (List.replicate j .down) = _
    rcases Nat.eq_zero_or_pos n with rfl | hpos
    · have hstays : ((e.goBack rules 0).press rules .down).2 = e.goBack rules 0 := rfl
      rw [hstays, ih, Nat.zero_sub, Nat.zero_sub]
    · have hdown : ((e.goBack rules n).press rules .down).2 = e.goBack rules (n - 1) :=
        if_neg (by change ¬ n = 0; omega)
      rw [hdown, ih]
      congr 1
      omega

theorem pressAll_append (keys more : List (Key α)) :
    e.pressAll rules (keys ++ more) = (e.pressAll rules keys).pressAll rules more :=
  List.foldl_append

theorem pressAll_browse (h : e.back < e.reach rules) (k j : ℕ) :
    e.pressAll rules (List.replicate (k + 1) .up ++ List.replicate j .down) =
      e.goBack rules (min (e.back + (k + 1)) (e.reach rules) - j) := by
  rw [pressAll_append, pressAll_up h, pressAll_down]

end browsing

section refused

variable {rules} {e : Entry α}

theorem press_submits (key : Key α) (hkey : key ≠ .enter) : (e.press rules key).1 = none := by
  cases key with
  | enter => exact absurd rfl hkey
  | char c => rfl
  | deleteLeft => rfl
  | left => rfl
  | right => rfl
  | up => rfl
  | down => rfl

theorem press_recorded (key : Key α) (hkey : key ≠ .enter) :
    (e.press rules key).2.recorded = e.recorded := by
  cases key with
  | char c =>
    change (e.typed rules c).recorded = _
    unfold typed
    dsimp only
    split
    · rfl
    · rfl
  | deleteLeft => rfl
  | left => rfl
  | right => rfl
  | up =>
    change Entry.recorded (if _ then _ else _) = _
    split
    · rfl
    · rfl
  | down =>
    change Entry.recorded (if _ then _ else _) = _
    split
    · rfl
    · rfl
  | enter => exact absurd rfl hkey

theorem press_refused (h : e.refused = true) (key : Key α) (hkey : key ≠ .enter) :
    (e.press rules key).2.refused = true := by
  cases key with
  | char c =>
    change (e.typed rules c).refused = true
    unfold typed
    dsimp only
    split
    · exact h
    · rfl
  | deleteLeft => exact h
  | left => exact h
  | right => exact h
  | up =>
    change Entry.refused (if _ then _ else _) = true
    split
    · exact h
    · exact h
  | down =>
    change Entry.refused (if _ then _ else _) = true
    split
    · exact h
    · exact h
  | enter => exact absurd rfl hkey

theorem press_isQuiet (key : Key α) (hkey : key ≠ .enter)
    (h : (e.press rules key).2.isQuiet = false) : e.isQuiet = false := by
  cases key with
  | char c =>
    change (e.typed rules c).isQuiet = false at h
    have hquiet : (e.typed rules c).isQuiet =
        (e.isQuiet || (e.line.text.isEmpty && rules.quiet c)) := by
      unfold typed
      dsimp only
      split
      · rfl
      · rfl
    rw [hquiet, Bool.or_eq_false_iff] at h
    exact h.1
  | deleteLeft => exact h
  | left => exact h
  | right => exact h
  | up =>
    change Entry.isQuiet (if _ then _ else _) = false at h
    split at h
    · exact h
    · exact h
  | down =>
    change Entry.isQuiet (if _ then _ else _) = false at h
    split at h
    · exact h
    · exact h
  | enter => exact absurd rfl hkey

theorem enter_line : e.enter.2.line = .empty := by
  unfold enter
  split
  · rfl
  · rfl

theorem enter_fresh : e.enter.2 = fresh e.enter.2.recorded := by
  unfold enter
  split <;> rfl

theorem enter_refused (h : e.refused = true) : e.enter = (none, fresh e.recorded) := by
  unfold enter
  rw [h]
  rfl

theorem enter_empty (h : e.line.text = []) : e.enter = (none, fresh e.recorded) := by
  unfold enter
  rw [h, List.isEmpty_nil, Bool.or_true]
  rfl

theorem enter_submits (hrefused : e.refused = false) (htext : e.line.text ≠ []) : e.enter =
    (some e.line.text, fresh (if e.isQuiet then e.recorded else e.recorded ++ [e.line.text])) := by
  unfold enter
  rw [hrefused, Bool.false_or, if_neg (by rwa [List.isEmpty_iff])]

theorem enter_eq_some_iff {text : List α} :
    e.enter.1 = some text ↔ e.refused = false ∧ e.line.text ≠ [] ∧ e.line.text = text := by
  unfold enter
  cases hrefused : e.refused with
  | true => simp
  | false =>
    by_cases hempty : e.line.text = []
    · simp [hempty]
    · simp [hempty]

end refused

section recording

variable {rules} {e : Entry α}

theorem press_records (key : Key α) :
    (e.press rules key).2.recorded = e.recorded ∨
    ∃ text, (e.press rules key).1 = some text ∧
      (e.press rules key).2.recorded = e.recorded ++ [text] := by
  by_cases hkey : key = .enter
  · subst hkey
    change e.enter.2.recorded = _ ∨ ∃ text, e.enter.1 = some text ∧ e.enter.2.recorded = _
    unfold enter
    split
    · exact .inl rfl
    · cases e.isQuiet with
      | true => exact .inl rfl
      | false => exact .inr ⟨_, rfl, rfl⟩
  · exact .inl (press_recorded key hkey)

theorem recent_length {n : ℕ} (h : ∀ text ∈ e.recorded, text.length ≤ n) (k : ℕ) :
    (recent e.recorded k).length ≤ n := by
  unfold recent
  split
  · exact Nat.zero_le n
  rw [List.getD_eq_getElem?_getD]
  cases hget : e.recorded[e.recorded.length - k]? with
  | none => exact Nat.zero_le n
  | some text => exact h text (List.mem_of_getElem? hget)

/-- While every recorded line is kept whole, it does not matter how much of one is kept. -/
theorem press_cut {cut : ℕ} (h : ∀ text ∈ e.recorded, text.length ≤ rules.cut)
    (hcut : ∀ text ∈ e.recorded, text.length ≤ cut) (key : Key α) :
    e.press { rules with cut } key = e.press rules key := by
  have hback : ∀ k, e.goBack { rules with cut } k = e.goBack rules k := by
    intro k
    have hwhole := List.take_of_length_le (recent_length h k)
    have hwhole' := List.take_of_length_le (recent_length hcut k)
    unfold goBack
    rw [hwhole, hwhole']
  cases key with
  | char c => rfl
  | deleteLeft => rfl
  | left => rfl
  | right => rfl
  | up =>
    have hup := hback (e.back + 1)
    change (none, if e.back < e.reach rules then _ else e) = (none, if _ then _ else e)
    rw [hup]
  | down =>
    have hdown := hback (e.back - 1)
    change (none, if e.back = 0 then e else _) = (none, if e.back = 0 then e else _)
    rw [hdown]
  | enter => rfl

end recording

/-- A text that is not recorded when it is entered from its first character on. -/
def startsQuiet (rules : Rules α) (text : List α) : Bool := text.head?.any rules.quiet

/-- The mark of a line that is not empty says how it starts. -/
def Marked (rules : Rules α) (e : Entry α) : Prop :=
  e.line.text ≠ [] → e.isQuiet = startsQuiet rules e.line.text

/-- The line goes on as quiet, or as not quiet, as it has been: a key does not change how it starts,
and a line that was emptied starts as the one before it. -/
def KeepsMark (rules : Rules α) (e : Entry α) : Key α → Prop
  | .char c =>
      if e.line.text = [] then
        0 < rules.capacity → e.isQuiet = true → rules.quiet c = true
      else e.line.before = [] → e.line.text.length < rules.capacity →
        rules.quiet c = startsQuiet rules e.line.text
  | .deleteLeft => e.line.before.length = 1 → e.line.after ≠ [] →
      startsQuiet rules e.line.after = startsQuiet rules e.line.text
  | .up => e.back < e.reach rules → (recent e.recorded (e.back + 1)).take rules.cut ≠ [] →
      e.isQuiet = startsQuiet rules ((recent e.recorded (e.back + 1)).take rules.cut)
  | .down => e.back ≠ 0 → (recent e.recorded (e.back - 1)).take rules.cut ≠ [] →
      e.isQuiet = startsQuiet rules ((recent e.recorded (e.back - 1)).take rules.cut)
  | _ => True

section marks

variable {rules : Rules α} {e : Entry α}

theorem marked_fresh (recorded : List (List α)) : Marked rules (fresh recorded) :=
  fun hne => absurd rfl hne

theorem marked_goBack_iff (k : ℕ) : Marked rules (e.goBack rules k) ↔
    ((recent e.recorded k).take rules.cut ≠ [] →
      e.isQuiet = startsQuiet rules ((recent e.recorded k).take rules.cut)) := by
  unfold Marked goBack
  simp only [Line.text_atEnd]

theorem typed_marked_iff (hrefuses : rules.overfull = fun _ l => l) (h : e.Marked rules) (c : α) :
    (e.typed rules c).Marked rules ↔ e.KeepsMark rules (.char c) := by
  unfold Marked at h
  unfold Marked typed KeepsMark
  simp only [hrefuses]
  by_cases hempty : e.line.text = []
  · have hbefore : e.line.before = [] := (List.append_eq_nil_iff.mp hempty).1
    simp only [hempty, List.length_nil, List.isEmpty_nil, Bool.true_and, if_true]
    by_cases hroom : 0 < rules.capacity
    · simp only [hroom, if_true, Line.text_insert, hbefore, List.nil_append, ne_eq, reduceCtorEq,
        not_false_eq_true, forall_const, startsQuiet, List.head?_cons, Option.any_some]
      cases e.isQuiet <;> cases rules.quiet c <;> simp
    · simp [hroom, hempty]
  · have hmark := h hempty
    have hflag : (e.isQuiet || e.line.text.isEmpty && rules.quiet c) = e.isQuiet := by
      simp [hempty]
    simp only [hempty, if_false, hflag]
    by_cases hroom : e.line.text.length < rules.capacity
    · simp only [hroom, if_true, Line.text_insert, hmark]
      cases hbefore : e.line.before with
      | nil => simp [startsQuiet, eq_comm]
      | cons d before => simp [startsQuiet, Line.text, hbefore]
    · simp [hroom, hempty, hmark]

theorem deleteLeft_marked_iff (h : e.Marked rules) :
    (e.press rules .deleteLeft).2.Marked rules ↔ e.KeepsMark rules .deleteLeft := by
  unfold Marked at h
  unfold Marked KeepsMark press
  simp only
  obtain ⟨⟨before, after⟩, refused, quiet, recorded, back⟩ := e
  simp only [Line.text, Line.deleteLeft] at h ⊢
  match before with
  | [] => simpa using h
  | [d] =>
    simp only [List.cons_append, List.nil_append, List.dropLast_singleton, List.length_singleton,
      forall_const, ne_eq, reduceCtorEq, not_false_eq_true] at h ⊢
    rw [h]
    exact imp_congr_right fun _ => eq_comm
  | d :: d' :: before =>
    simp only [List.cons_append, ne_eq, reduceCtorEq, not_false_eq_true, forall_const, startsQuiet,
      List.head?_cons, List.dropLast_cons_cons, List.length_cons] at h ⊢
    simp [h]

/-- A key leaves the mark of a line right exactly when it keeps it. -/
theorem press_marked_iff (hrefuses : rules.overfull = fun _ l => l) (h : e.Marked rules)
    (key : Key α) : (e.press rules key).2.Marked rules ↔ e.KeepsMark rules key := by
  cases key with
  | char c => exact typed_marked_iff hrefuses h c
  | deleteLeft => exact deleteLeft_marked_iff h
  | left =>
    have hsame : Marked rules { e with line := e.line.left } := by
      unfold Marked
      simp only [Line.text_left]
      exact h
    exact iff_of_true hsame trivial
  | right =>
    have hsame : Marked rules { e with line := e.line.right } := by
      unfold Marked
      simp only [Line.text_right]
      exact h
    exact iff_of_true hsame trivial
  | up =>
    unfold press KeepsMark
    simp only
    by_cases hmore : e.back < e.reach rules
    · rw [if_pos hmore, marked_goBack_iff]
      simp [hmore]
    · rw [if_neg hmore]
      exact iff_of_true h fun hback => absurd hback hmore
  | down =>
    unfold press KeepsMark
    simp only
    by_cases hback : e.back = 0
    · rw [if_pos hback]
      exact iff_of_true h fun hne => absurd hback hne
    · rw [if_neg hback, marked_goBack_iff]
      simp [hback]
  | enter =>
    refine iff_of_true ?_ trivial
    change Marked rules e.enter.2
    unfold enter
    split
    · exact marked_fresh _
    · exact marked_fresh _

end marks

/-- Entries that may differ only in what they made of characters there was no room for. -/
structure Agree (e e' : Entry α) : Prop where
  refused_eq : e.refused = e'.refused
  recorded_eq : e.recorded = e'.recorded
  back_eq : e.back = e'.back
  line_eq : e.refused = false → e.line = e'.line ∧ e.isQuiet = e'.isQuiet

section agree

variable {rules} {e e' : Entry α} (overfull : α → Line α → Line α)

theorem Agree.fresh {recorded recorded' : List (List α)} (h : recorded = recorded') :
    Agree (fresh recorded) (fresh recorded') := by
  rw [h]
  exact ⟨rfl, rfl, rfl, fun _ => ⟨rfl, rfl⟩⟩

theorem Agree.edit (h : Agree e e') (f : Line α → Line α) :
    Agree { e with line := f e.line } { e' with line := f e'.line } where
  refused_eq := h.refused_eq
  recorded_eq := h.recorded_eq
  back_eq := h.back_eq
  line_eq := fun hfalse => ⟨congrArg f (h.line_eq hfalse).1, (h.line_eq hfalse).2⟩

theorem Agree.typed (h : Agree e e') (c : α) :
    Agree (e.typed rules c) (e'.typed { rules with overfull } c) := by
  obtain ⟨hrefused, hrecorded, hback, hline⟩ := h
  rcases Bool.eq_false_or_eq_true e.refused with htrue | hfalse
  · -- both lines were refused a character already, whatever has become of them
    have hstill : (e.typed rules c).refused = true := press_refused htrue (.char c) nofun
    have hstill' : (e'.typed { rules with overfull } c).refused = true :=
      press_refused (hrefused ▸ htrue) (.char c) nofun
    refine ⟨hstill.trans hstill'.symm, ?_, ?_, fun hfalse => absurd (hstill.symm.trans hfalse) nofun⟩
    · have hkept : (e.typed rules c).recorded = e.recorded := press_recorded (.char c) nofun
      have hkept' : (e'.typed { rules with overfull } c).recorded = e'.recorded :=
        press_recorded (.char c) nofun
      rw [hkept, hkept', hrecorded]
    · unfold Entry.typed
      dsimp only
      split
      · split
        · exact hback
        · exact hback
      · split
        · exact hback
        · exact hback
  · obtain ⟨hsame, hquiet⟩ := hline hfalse
    unfold Entry.typed
    dsimp only
    rw [← hsame, ← hquiet]
    split
    · exact ⟨hrefused, hrecorded, hback, fun _ => ⟨rfl, rfl⟩⟩
    · exact ⟨rfl, hrecorded, hback, nofun⟩

theorem Agree.goBack (h : Agree e e') (k : ℕ) :
    Agree (e.goBack rules k) (e'.goBack { rules with overfull } k) := by
  obtain ⟨hrefused, hrecorded, hback, hline⟩ := h
  refine ⟨hrefused, hrecorded, rfl, fun hfalse => ⟨?_, (hline hfalse).2⟩⟩
  change Line.atEnd _ = Line.atEnd _
  rw [hrecorded]

theorem Agree.enter (h : Agree e e') : e.enter.1 = e'.enter.1 ∧ Agree e.enter.2 e'.enter.2 := by
  obtain ⟨hrefused, hrecorded, hback, hline⟩ := h
  rcases Bool.eq_false_or_eq_true e.refused with htrue | hfalse
  · rw [enter_refused htrue, enter_refused (hrefused ▸ htrue)]
    exact ⟨rfl, Agree.fresh hrecorded⟩
  · obtain ⟨hsame, hquiet⟩ := hline hfalse
    unfold Entry.enter
    rw [← hrefused, ← hsame, ← hquiet, ← hrecorded]
    split
    · exact ⟨rfl, Agree.fresh rfl⟩
    · exact ⟨rfl, Agree.fresh rfl⟩

variable (rules) in
/-- Entries that agree submit the same lines, whatever becomes of an overfull one. -/
theorem Agree.press (h : Agree e e') (key : Key α) :
    (e.press rules key).1 = (e'.press { rules with overfull } key).1 ∧
    Agree (e.press rules key).2 (e'.press { rules with overfull } key).2 := by
  cases key with
  | char c => exact ⟨rfl, h.typed overfull c⟩
  | deleteLeft => exact ⟨rfl, h.edit Line.deleteLeft⟩
  | left => exact ⟨rfl, h.edit Line.left⟩
  | right => exact ⟨rfl, h.edit Line.right⟩
  | up =>
    refine ⟨rfl, ?_⟩
    have hreach : e'.reach { rules with overfull } = e.reach rules := by
      unfold reach
      rw [h.recorded_eq]
    change Agree (if _ then _ else _) (if _ then _ else _)
    rw [hreach, ← h.back_eq]
    split
    · exact h.goBack overfull (e.back + 1)
    · exact h
  | down =>
    refine ⟨rfl, ?_⟩
    change Agree (if _ then _ else _) (if _ then _ else _)
    rw [← h.back_eq]
    split
    · exact h
    · exact h.goBack overfull (e.back - 1)
  | enter => exact h.enter

end agree

end Entry

end Lib.LineEditor
