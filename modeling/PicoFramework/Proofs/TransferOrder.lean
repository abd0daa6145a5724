import PicoFramework.Proofs.FirmwareReceive

/-! Data records in any order. Writes fall into runs, each within one page; a page that
is flushed and opened again is programmed again, and the comparison of that program
decides whether the order was one the receiver can take. -/

namespace Pico

open Lib.Nor Lib.Power Lib.Writes

/-- The page that holds an offset. -/
def pageOf (a : ℕ) : ℕ := a / 256

/-- No write comes back to a page, from a write to another page, once anything but the
erased value has been written there. -/
def ReturnsBlank (writes : List (ℕ × UInt8)) : Prop :=
  ∀ before last next after, writes = before ++ last :: next :: after →
    pageOf last.1 ≠ pageOf next.1 →
      ∀ w ∈ before, pageOf w.1 = pageOf next.1 → w.2 = erased

/-- `next` continues the run `cur`. -/
def SameRun (cur : List (ℕ × UInt8)) (next : ℕ × UInt8) : Prop :=
  ∀ w ∈ cur, pageOf w.1 = pageOf next.1

/-- The page of the run `cur` was blank when the run began. -/
def CleanRun (old cur : List (ℕ × UInt8)) : Prop :=
  ∀ c ∈ cur, ∀ w ∈ old, pageOf w.1 = pageOf c.1 → w.2 = erased

instance (cur : List (ℕ × UInt8)) (next : ℕ × UInt8) : Decidable (SameRun cur next) :=
  inferInstanceAs (Decidable (∀ w ∈ cur, _))

/-- Every flush of the writes `todo`, and the one that ends them, finds its page clean:
`cur` is the run in the buffer, `old` the writes flushed before it. -/
def Survives (old cur : List (ℕ × UInt8)) : List (ℕ × UInt8) → Prop
  | [] => CleanRun old cur
  | next :: todo =>
      if SameRun cur next then Survives old (cur ++ [next]) todo
      else CleanRun old cur ∧ Survives (old ++ cur) [next] todo

instance (old cur : List (ℕ × UInt8)) : Decidable (CleanRun old cur) :=
  inferInstanceAs (Decidable (∀ c ∈ cur, ∀ w ∈ old, pageOf w.1 = pageOf c.1 → w.2 = erased))

instance decidableSurvives : ∀ old cur todo, Decidable (Survives old cur todo)
  | old, cur, [] => inferInstanceAs (Decidable (CleanRun old cur))
  | old, cur, next :: todo =>
      haveI := decidableSurvives old (cur ++ [next]) todo
      haveI := decidableSurvives (old ++ cur) [next] todo
      inferInstanceAs (Decidable (if SameRun cur next then _ else _))

section runs

variable {old cur todo : List (ℕ × UInt8)} {next : ℕ × UInt8}

/-- `cur` is a run, and the run before it was in another page. -/
structure IsRun (old cur : List (ℕ × UInt8)) : Prop where
  fresh : cur = [] → old = []
  page : ∀ c ∈ cur, ∀ c' ∈ cur, pageOf c.1 = pageOf c'.1

theorem IsRun.snoc (h : IsRun old cur) (hsame : SameRun cur next) : IsRun old (cur ++ [next]) := by
  refine ⟨by simp, ?_⟩
  intro c hc c' hc'
  rcases List.mem_append.mp hc with hc | hc
  · rcases List.mem_append.mp hc' with hc' | hc'
    · exact h.page c hc c' hc'
    · rw [List.mem_singleton.mp hc']
      exact hsame c hc
  · rw [List.mem_singleton.mp hc]
    rcases List.mem_append.mp hc' with hc' | hc'
    · exact (hsame c' hc').symm
    · rw [List.mem_singleton.mp hc']

theorem isRun_singleton (old : List (ℕ × UInt8)) (next : ℕ × UInt8) : IsRun old [next] :=
  ⟨by simp, by simp⟩

theorem CleanRun.snoc_iff (h : IsRun old cur) (hsame : SameRun cur next) :
    CleanRun old (cur ++ [next]) ↔ CleanRun old cur := by
  constructor
  · intro hclean c hc
    exact hclean c (by simp [hc])
  · intro hclean c hc w hw hpage
    rcases List.mem_append.mp hc with hc | hc
    · exact hclean c hc w hw hpage
    · obtain rfl := List.mem_singleton.mp hc
      rcases List.eq_nil_or_concat cur with hnil | ⟨init, last, hcur⟩
      · rw [h.fresh hnil] at hw
        simp at hw
      · have hlast : last ∈ cur := by simp [hcur]
        exact hclean last hlast w hw (hpage.trans (hsame last hlast).symm)

/-- The writes after `old ++ cur` obey `ReturnsBlank`, counting what came before them. -/
def ReturnsBlankAfter (sofar todo : List (ℕ × UInt8)) : Prop :=
  ∀ before next after, todo = before ++ next :: after →
    ∀ last, (sofar ++ before).getLast? = some last → pageOf last.1 ≠ pageOf next.1 →
      ∀ w ∈ sofar ++ before, pageOf w.1 = pageOf next.1 → w.2 = erased

theorem returnsBlankAfter_cons (sofar : List (ℕ × UInt8)) :
    ReturnsBlankAfter sofar (next :: todo) ↔
      (∀ last, sofar.getLast? = some last → pageOf last.1 ≠ pageOf next.1 →
        ∀ w ∈ sofar, pageOf w.1 = pageOf next.1 → w.2 = erased) ∧
      ReturnsBlankAfter (sofar ++ [next]) todo := by
  constructor
  · intro h
    constructor
    · intro last hlast
      have := h [] next todo rfl last
      rw [List.append_nil] at this
      exact this hlast
    · intro before next' after htodo
      have := h (next :: before) next' after (by rw [htodo]; rfl)
      rw [List.append_assoc, List.singleton_append]
      exact this
  · rintro ⟨hfirst, hrest⟩ before next' after htodo
    cases before with
    | nil =>
      obtain ⟨rfl, -⟩ := List.cons.inj htodo
      rw [List.append_nil]
      exact hfirst
    | cons b before =>
      obtain ⟨rfl, htail⟩ := List.cons.inj htodo
      have := hrest before next' after htail
      rw [List.append_assoc, List.singleton_append] at this
      exact this

theorem survives_iff (h : IsRun old cur) :
    Survives old cur todo ↔ CleanRun old cur ∧ ReturnsBlankAfter (old ++ cur) todo := by
  induction todo generalizing old cur with
  | nil =>
    unfold Survives
    constructor
    · intro hclean
      exact ⟨hclean, fun before next after htodo => by simp at htodo⟩
    · exact And.left
  | cons next todo ih =>
    unfold Survives
    rw [returnsBlankAfter_cons]
    -- the last write so far is the last of the run
    have hlast {last : ℕ × UInt8} (hl : (old ++ cur).getLast? = some last) :
        last ∈ cur := by
      rcases List.eq_nil_or_concat cur with hnil | ⟨init, x, hcur⟩
      · rw [hnil, h.fresh hnil] at hl
        simp at hl
      · rw [hcur, List.concat_eq_append, ← List.append_assoc, List.getLast?_concat] at hl
        rw [hcur, ← Option.some.inj hl]
        simp
    by_cases hsame : SameRun cur next
    · rw [if_pos hsame, ih (h.snoc hsame), CleanRun.snoc_iff h hsame, List.append_assoc]
      constructor
      · rintro ⟨hclean, hrest⟩
        exact ⟨hclean, fun last hl hpage => absurd (hsame last (hlast hl)) hpage, hrest⟩
      · rintro ⟨hclean, -, hrest⟩
        exact ⟨hclean, hrest⟩
    · rw [if_neg hsame, ih (isRun_singleton _ _)]
      have hnext : CleanRun (old ++ cur) [next] ↔
          ∀ last, (old ++ cur).getLast? = some last → pageOf last.1 ≠ pageOf next.1 →
            ∀ w ∈ old ++ cur, pageOf w.1 = pageOf next.1 → w.2 = erased := by
        constructor
        · intro hclean last _ _
          exact hclean next (by simp)
        · intro hblank c hc
          obtain rfl := List.mem_singleton.mp hc
          unfold SameRun at hsame
          push Not at hsame
          obtain ⟨x, hx, hpage⟩ := hsame
          have hne : old ++ cur ≠ [] := List.append_ne_nil_of_right_ne_nil _ (List.ne_nil_of_mem hx)
          have hl := List.getLast?_eq_some_getLast hne
          refine hblank _ hl ?_
          rwa [h.page _ (hlast hl) x hx]
      rw [hnext]

theorem returnsBlankAfter_nil (writes : List (ℕ × UInt8)) :
    ReturnsBlankAfter [] writes ↔ ReturnsBlank writes := by
  constructor
  · intro h before last next after hwrites hpage w hw
    refine h (before ++ [last]) next after (by simp [hwrites]) last (by simp) hpage w ?_
    simp [hw]
  · intro h before next after hwrites last hlast hpage w hw hwpage
    rw [List.nil_append] at hlast hw
    obtain ⟨init, rfl⟩ := List.getLast?_eq_some_iff.mp hlast
    rcases List.mem_append.mp hw with hw | hw
    · exact h init last next after (by simp [hwrites]) hpage w hw hwpage
    · rw [List.mem_singleton.mp hw] at hwpage
      exact absurd hwpage hpage

theorem survives_nil_iff (writes : List (ℕ × UInt8)) :
    Survives [] [] writes ↔ ReturnsBlank writes := by
  rw [survives_iff ⟨fun _ => rfl, by simp⟩, List.nil_append, returnsBlankAfter_nil]
  exact and_iff_right (by simp [CleanRun])

end runs

/-- A transfer whose flushed writes are `old` and whose page buffer holds the run `cur`. -/
structure Placing (start base capacity : ℕ) (parser : HexParser) (old cur : List (ℕ × UInt8))
    (rx : FirmwareReceive) (mem : Mem) : Prop where
  receiving : Receiving start base capacity parser (old ++ cur) rx mem
  flushed : ∀ a < capacity, mem (start + a) = imageAt old a
  dirty_iff : rx.pageDirty = true ↔ cur ≠ []
  run_page : ∀ c ∈ cur, pageOf c.1 * 256 = rx.pageOffset
  run_bytes : cur ≠ [] → ∀ i < 256, rx.page.getD i erased = imageAt cur (rx.pageOffset + i)

section placing

variable {start base capacity : ℕ} {parser : HexParser} {old cur : List (ℕ × UInt8)}
  {rx : FirmwareReceive} {mem : Mem}

theorem imageAt_of_not_mem {writes : List (ℕ × UInt8)} {a : ℕ} (h : ∀ w ∈ writes, w.1 ≠ a) :
    imageAt writes a = erased :=
  stored_of_not_mem _ h

/-- A page can be programmed again exactly when nothing but erased values was there. -/
theorem Placing.pageFits_iff (h : Placing start base capacity parser old cur rx mem)
    (hnodup : ((old ++ cur).map Prod.fst).Nodup) :
    PageFits start rx mem ↔ CleanRun old cur := by
  rw [List.map_append, List.nodup_append] at hnodup
  obtain ⟨hold, hcur, hdisjoint⟩ := hnodup
  have hapart {w c : ℕ × UInt8} (hw : w ∈ old) (hc : c ∈ cur) : w.1 ≠ c.1 :=
    hdisjoint _ (List.mem_map_of_mem hw) _ (List.mem_map_of_mem hc)
  constructor
  · intro hfits c hc w hw hpage
    have hne : cur ≠ [] := List.ne_nil_of_mem hc
    have hdirty := h.dirty_iff.mpr hne
    have hoffset := h.run_page c hc
    have hlength := h.receiving.page_length hdirty
    obtain ⟨i, hi⟩ : ∃ i, w.1 = rx.pageOffset + i :=
      Nat.exists_eq_add_of_le (by rw [← hoffset, ← hpage, pageOf]; omega)
    have hilt : i < 256 := by
      have : w.1 / 256 * 256 = rx.pageOffset := by rw [← hoffset, ← hpage, pageOf]
      omega
    have hbound := h.receiving.bound w (by simp [hw])
    have hbits := hfits hdirty i (by omega)
    have hblank : imageAt cur w.1 = erased := imageAt_of_not_mem fun c' hc' => (hapart hw hc').symm
    rw [h.run_bytes hne i hilt, Nat.add_assoc, ← hi, h.flushed w.1 hbound, hblank] at hbits
    rw [← stored_of_mem erased hold hw]
    exact eq_erased_of_and hbits
  · intro hclean hdirty i hi
    have hne := h.dirty_iff.mp hdirty
    rw [h.receiving.page_length hdirty] at hi
    obtain ⟨-, hend⟩ := h.receiving.page_aligned hdirty
    rw [h.run_bytes hne i hi, Nat.add_assoc, h.flushed _ (by omega)]
    by_cases hin : ∃ w ∈ old, w.1 = rx.pageOffset + i
    · obtain ⟨w, hw, hi'⟩ := hin
      obtain ⟨c, hc⟩ := List.exists_mem_of_ne_nil cur hne
      have hpage : pageOf w.1 = pageOf c.1 := by
        have hoffset := h.run_page c hc
        rw [hi', ← hoffset, pageOf, pageOf]
        omega
      have hblank : imageAt cur w.1 = erased :=
        imageAt_of_not_mem fun c' hc' => (hapart hw hc').symm
      have hvalue : imageAt old w.1 = w.2 := stored_of_mem erased hold hw
      rw [← hi', hblank, hvalue, hclean c hc w hw hpage]
      exact and_erased _
    · push Not at hin
      rw [imageAt_of_not_mem hin, erased_and]

theorem Placing.put (h : Placing start base capacity parser old cur rx mem)
    (hcapacity : capacity % 256 = 0) (hlt : capacity < 2 ^ 32) {next : ℕ × UInt8}
    (hnext : next.1 < capacity) (hsame : SameRun cur next) :
    Placing start base capacity parser old (cur ++ [next]) (putByte rx next.1 next.2) mem := by
  have hpage : rx.pageDirty = true → rx.pageOffset = next.1 - next.1 % 256 := by
    intro hdirty
    obtain ⟨c, hc⟩ := List.exists_mem_of_ne_nil cur (h.dirty_iff.mp hdirty)
    rw [← h.run_page c hc, hsame c hc, pageOf]
    omega
  have hreceiving := h.receiving.putByte hcapacity hlt hnext next.2 hpage
  have hlength := h.receiving.length_openPage
  have hput := putByte_eq rx (by omega) next.2 hpage
  rw [hput] at hreceiving ⊢
  refine ⟨by rw [← List.append_assoc]; exact hreceiving, h.flushed, by simp, ?_, ?_⟩
  · intro c hc
    rcases List.mem_append.mp hc with hc | hc
    · simp only
      rw [hsame c hc, pageOf]
      omega
    · rw [List.mem_singleton.mp hc, pageOf]
      simp only
      omega
  · intro _ i hi
    simp only
    rw [getD_set _ hlength (Nat.mod_lt _ (by norm_num)), imageAt, stored_snoc]
    by_cases heq : next.1 % 256 = i
    · rw [if_pos heq, if_pos (by omega)]
    · rw [if_neg heq, if_neg (by omega)]
      unfold openPage
      split_ifs with hdirty
      · rw [← hpage hdirty]
        exact h.run_bytes (h.dirty_iff.mp hdirty) i hi
      · have hnil : cur = [] := by
          by_contra hne
          exact hdirty (h.dirty_iff.mpr hne)
        rw [hnil, stored_nil, List.getD_eq_getElem?_getD, List.getElem?_replicate, if_pos hi,
          Option.getD_some]

/-- The transfer after the writes `ws`, split into the flushed and the buffered again. -/
def Progress (start base capacity : ℕ) (parser : HexParser) (old cur ws : List (ℕ × UInt8))
    (rx : FirmwareReceive) (mem : Mem) : Prop :=
  ∃ old' cur', Placing start base capacity parser old' cur' rx mem ∧ IsRun old' cur' ∧
    old' ++ cur' = old ++ cur ++ ws ∧
    ∀ todo, Survives old cur (ws ++ todo) ↔ Survives old' cur' todo

/-- Some flush among the writes `ws` finds its page dirty. -/
def Doomed (old cur ws : List (ℕ × UInt8)) : Prop := ∀ todo, ¬ Survives old cur (ws ++ todo)

theorem Placing.wp_placeByte (h : Placing start base capacity parser old cur rx mem)
    (hrun : IsRun old cur) (hcapacity : capacity % 256 = 0) (hlt : capacity < 2 ^ 32)
    {address : ℕ} {value : UInt8} (hbase : base ≤ address) (hfits : address - base < capacity)
    (hnodup : ((old ++ cur).map Prod.fst).Nodup) :
    wp (placeByte (norWriter start) rx address value)
      (fun r mem' =>
        (r.1 = .ok ∧ Progress start base capacity parser old cur [(address - base, value)] r.2 mem') ∨
        (r.1.isError ∧ r.2.started = true ∧ Doomed old cur [(address - base, value)]))
      (fun _ => False) mem := by
  have hmove : (rx.pageDirty = true ∧ address - base - (address - base) % FIRMWARE_RECEIVE_PAGE_SIZE ≠
      rx.pageOffset) ↔ ¬ SameRun cur (address - base, value) := by
    have hpages (c : ℕ × UInt8) (hc : c ∈ cur) : pageOf c.1 = pageOf (address - base) ↔
        address - base - (address - base) % 256 = rx.pageOffset := by
      rw [← h.run_page c hc, pageOf, pageOf]
      omega
    rw [h.dirty_iff, SameRun]
    constructor
    · rintro ⟨hne, hpage⟩ hsame
      obtain ⟨c, hc⟩ := List.exists_mem_of_ne_nil cur hne
      exact hpage ((hpages c hc).mp (hsame c hc))
    · intro hdiffer
      push Not at hdiffer
      obtain ⟨c, hc, hpage⟩ := hdiffer
      exact ⟨List.ne_nil_of_mem hc, fun heq => hpage ((hpages c hc).mpr heq)⟩
  unfold placeByte
  rw [h.receiving.base_eq, h.receiving.capacity_eq, if_neg (by omega)]
  simp only [if_neg (show ¬ address - base ≥ capacity by omega)]
  by_cases hsame : SameRun cur (address - base, value)
  · rw [if_neg (by rw [hmove]; exact not_not.mpr hsame)]
    refine (wp_pure _ _ _ _).mpr (Or.inl ⟨rfl, old, cur ++ [(address - base, value)],
      h.put hcapacity hlt hfits hsame, hrun.snoc hsame, by rw [List.append_assoc], fun todo => ?_⟩)
    rw [List.singleton_append, Survives, if_pos hsame]
  · rw [if_pos (hmove.mpr hsame)]
    refine wp_seq h.receiving.wp_flushPage ?_
    rintro ⟨r, rx'⟩ mem' (⟨hr, hclean, h', hdirty⟩ | ⟨hr, hclash, hsame'⟩)
    · obtain rfl : r = .ok := hr
      simp only [ne_eq, not_true, if_false]
      simp only at hdirty
      have hnext : Placing start base capacity parser (old ++ cur) [] rx' mem' := by
        refine ⟨?_, fun a ha => h'.clean a ha ?_, ?_, by simp, by simp⟩
        · rw [List.append_nil]
          exact h'
        · intro hd
          rw [hdirty] at hd
          cases hd
        · simp [hdirty]
      refine (wp_pure _ _ _ _).mpr (Or.inl ⟨rfl, old ++ cur, [(address - base, value)],
        hnext.put hcapacity hlt hfits (by simp [SameRun]), isRun_singleton _ _, rfl, fun todo => ?_⟩)
      rw [List.singleton_append, Survives, if_neg hsame]
      exact and_iff_right ((h.pageFits_iff hnodup).mp hclean)
    · obtain rfl : r = .errWrite := hr
      obtain rfl : rx' = rx := hsame'
      simp only
      rw [if_pos (by simp)]
      refine (wp_pure _ _ _ _).mpr (Or.inr ⟨by simp [FirmwareReceiveResult.isError],
        h.receiving.started, fun todo => ?_⟩)
      rw [List.singleton_append, Survives, if_neg hsame]
      exact fun hsurvives => hclash ((h.pageFits_iff hnodup).mpr hsurvives.1)

theorem Doomed.append {ws : List (ℕ × UInt8)} (h : Doomed old cur ws) (vs : List (ℕ × UInt8)) :
    Doomed old cur (ws ++ vs) := by
  intro todo
  rw [List.append_assoc]
  exact h (vs ++ todo)

theorem Progress.trans {ws vs : List (ℕ × UInt8)} {old' cur' : List (ℕ × UInt8)}
    (hall : old' ++ cur' = old ++ cur ++ ws)
    (hsurvives : ∀ todo, Survives old cur (ws ++ todo) ↔ Survives old' cur' todo)
    (h : Progress start base capacity parser old' cur' vs rx mem) :
    Progress start base capacity parser old cur (ws ++ vs) rx mem := by
  obtain ⟨old'', cur'', hplacing, hrun, hwrites, hagree⟩ := h
  refine ⟨old'', cur'', hplacing, hrun, ?_, fun todo => ?_⟩
  · rw [hwrites, hall, List.append_assoc]
  · rw [List.append_assoc, hsurvives, hagree]

theorem Doomed.trans {ws vs : List (ℕ × UInt8)} {old' cur' : List (ℕ × UInt8)}
    (hsurvives : ∀ todo, Survives old cur (ws ++ todo) ↔ Survives old' cur' todo)
    (h : Doomed old' cur' vs) : Doomed old cur (ws ++ vs) := by
  intro todo
  rw [List.append_assoc, hsurvives]
  exact h todo

theorem Placing.wp_placeData (hcapacity : capacity % 256 = 0) (hlt : capacity < 2 ^ 32)
    (address : ℕ) (values : Bytes) (h : Placing start base capacity parser old cur rx mem)
    (hrun : IsRun old cur) (hregion : InRegion base capacity address values.length)
    (hnodup : ((old ++ cur ++ dataWrites base address values).map Prod.fst).Nodup) :
    wp (placeData (norWriter start) rx address values)
      (fun r mem' =>
        (r.1 = .ok ∧
          Progress start base capacity parser old cur (dataWrites base address values) r.2 mem') ∨
        (r.1.isError ∧ Failed r.2 ∧ Doomed old cur (dataWrites base address values)))
      (fun _ => False) mem := by
  induction values generalizing old cur rx mem address with
  | nil =>
    refine (wp_pure _ _ _ _).mpr (Or.inl ⟨rfl, old, cur, h, hrun, ?_, fun todo => Iff.rfl⟩)
    rw [dataWrites, List.append_nil]
  | cons value values ih =>
    obtain ⟨hbase, hfits⟩ := hregion 0 (by simp)
    rw [Nat.add_zero] at hbase hfits
    have hsofar : ((old ++ cur).map Prod.fst).Nodup := by
      rw [List.map_append, List.nodup_append] at hnodup
      exact hnodup.1
    have hsplit : dataWrites base address (value :: values) =
        [(wrap32 address - base, value)] ++ dataWrites base (address + 1) values := rfl
    unfold placeData
    refine wp_seq (h.wp_placeByte hrun hcapacity hlt hbase hfits hsofar) ?_
    rintro ⟨r, rx'⟩ mem' (⟨hr, old', cur', h', hrun', hall, hsurvives⟩ | ⟨hr, hstarted, hdoomed⟩)
    · obtain rfl : r = .ok := hr
      simp only [ne_eq, not_true, if_false]
      have hregion' : InRegion base capacity (address + 1) values.length := by
        intro i hi
        have := hregion (i + 1) (by simpa using hi)
        rwa [show address + (i + 1) = address + 1 + i by omega] at this
      have hnodup' : ((old' ++ cur' ++ dataWrites base (address + 1) values).map Prod.fst).Nodup := by
        rw [hall, List.append_assoc, ← hsplit]
        exact hnodup
      refine wp_mono (ih (address + 1) h' hrun' hregion' hnodup') ?_ fun _ h => h
      rintro ⟨r'', rx''⟩ mem'' (⟨hr'', hprogress⟩ | ⟨hr'', hfailed, hdoomed⟩)
      · exact Or.inl ⟨hr'', hprogress.trans hall hsurvives⟩
      · exact Or.inr ⟨hr'', hfailed, hdoomed.trans hsurvives⟩
    · simp only
      rw [if_pos hr.1]
      exact (wp_pure _ _ _ _).mpr (Or.inr ⟨hr, ⟨hstarted, hr.1⟩, hdoomed.append _⟩)

theorem Placing.withParser (h : Placing start base capacity parser old cur rx mem)
    (parser' : HexParser) (records : ℕ) :
    Placing start base capacity parser' old cur { rx with parser := parser', records } mem :=
  ⟨h.receiving.withParser parser' records, h.flushed, h.dirty_iff, h.run_page, h.run_bytes⟩

end placing

/-- A data record under the address base of `parser`, inside the region. -/
def DataLine (base capacity : ℕ) (parser : HexParser) (line : CString) : Prop :=
  let fed := hexParserFeed parser (some line) ⟨0, 0, []⟩
  fed.result = .ok ∧ fed.record.type = HEX_RECORD_DATA ∧
    InRegion base capacity fed.record.address fed.record.data.length

instance (base capacity : ℕ) (parser : HexParser) (line : CString) :
    Decidable (DataLine base capacity parser line) :=
  inferInstanceAs (Decidable (_ ∧ _ ∧ ∀ i < _, _ ∧ _))

/-- An end-of-file record. -/
def EofLine (parser : HexParser) (line : CString) : Prop :=
  let fed := hexParserFeed parser (some line) ⟨0, 0, []⟩
  fed.result = .ok ∧ fed.record.type = HEX_RECORD_EOF

instance (parser : HexParser) (line : CString) : Decidable (EofLine parser line) :=
  inferInstanceAs (Decidable (_ ∧ _))

/-- The parser after records that set an address base or a start address, and nothing else. -/
def baseLines : HexParser → List CString → Option HexParser
  | parser, [] => some parser
  | parser, line :: lines =>
      let fed := hexParserFeed parser (some line) ⟨0, 0, []⟩
      if fed.result = .ok ∧ fed.record.type ≠ HEX_RECORD_DATA ∧ fed.record.type ≠ HEX_RECORD_EOF then
        baseLines fed.parser lines
      else none

theorem hexParserFeed_data {parser : HexParser} {line : Option CString} {record : HexRecord}
    (h : (hexParserFeed parser line record).record.type = HEX_RECORD_DATA) :
    (hexParserFeed parser line record).parser = parser := by
  unfold hexParserFeed at h ⊢
  cases line with
  | none => rfl
  | some line =>
    simp only at h ⊢
    cases hframe : hexFrame line.bytes with
    | error result => rfl
    | ok frame =>
      rw [hframe] at h
      simp only at h ⊢
      split_ifs at h ⊢ with heof
      · rfl
      · have htype : (hexParserApply parser frame).record.type = frame.getD 3 0 := by
          unfold hexParserApply
          simp only
          split_ifs <;> rfl
        rw [htype] at h
        unfold hexParserApply
        simp only
        rw [if_pos h]

/-- The writes of data records under one address base. -/
def dataLineWrites (base : ℕ) (parser : HexParser) (lines : List CString) : List (ℕ × UInt8) :=
  lines.flatMap fun line => lineWrites base parser (some line)

section lines

variable {start base capacity : ℕ} {parser : HexParser} {old cur : List (ℕ × UInt8)}
  {rx : FirmwareReceive} {mem : Mem}

theorem Placing.wp_dataLine (hcapacity : capacity % 256 = 0) (hlt : capacity < 2 ^ 32)
    (h : Placing start base capacity parser old cur rx mem) (hrun : IsRun old cur)
    {line : CString} (hline : DataLine base capacity parser line)
    (hnodup : ((old ++ cur ++ lineWrites base parser (some line)).map Prod.fst).Nodup) :
    wp (firmwareReceiveLine (norWriter start) rx (some line))
      (fun r mem' =>
        (r.1 = .ok ∧
          Progress start base capacity parser old cur (lineWrites base parser (some line)) r.2 mem') ∨
        (r.1.isError ∧ Failed r.2 ∧ Doomed old cur (lineWrites base parser (some line))))
      (fun _ => False) mem := by
  obtain ⟨hresult, htype, hregion⟩ := hline
  have hparser := hexParserFeed_data htype
  have hstarted := h.receiving.started
  have hnoError := h.receiving.noError
  unfold lineWrites recordWrites at hnodup ⊢
  simp only [hresult, htype, if_true] at hnodup ⊢
  unfold firmwareReceiveLine
  rw [if_neg (by simp), if_neg (by simp [hstarted]), if_neg (by simp [hnoError]),
    h.receiving.parser_eq]
  simp only
  rw [if_neg (by simp [hresult]), if_pos htype, hparser]
  exact (h.withParser parser (wrap32 (rx.records + 1))).wp_placeData hcapacity hlt _ _ hrun hregion
    hnodup

theorem Placing.wp_dataLines (hcapacity : capacity % 256 = 0) (hlt : capacity < 2 ^ 32)
    (lines : List CString) (h : Placing start base capacity parser old cur rx mem)
    (hrun : IsRun old cur) (hlines : ∀ line ∈ lines, DataLine base capacity parser line)
    (hnodup : ((old ++ cur ++ dataLineWrites base parser lines).map Prod.fst).Nodup) :
    wp (receiveLines (norWriter start) rx lines)
      (fun r mem' =>
        Progress start base capacity parser old cur (dataLineWrites base parser lines) r.2 mem' ∨
        (Failed r.2 ∧ Doomed old cur (dataLineWrites base parser lines)))
      (fun _ => False) mem := by
  induction lines generalizing old cur rx mem with
  | nil =>
    refine (wp_pure _ _ _ _).mpr (Or.inl ⟨old, cur, h, hrun, ?_, fun todo => Iff.rfl⟩)
    rw [dataLineWrites, List.flatMap_nil, List.append_nil]
  | cons line lines ih =>
    have hsplit : dataLineWrites base parser (line :: lines) =
        lineWrites base parser (some line) ++ dataLineWrites base parser lines := rfl
    rw [hsplit, ← List.append_assoc] at hnodup
    have hfirst : ((old ++ cur ++ lineWrites base parser (some line)).map Prod.fst).Nodup := by
      rw [List.map_append, List.nodup_append] at hnodup
      exact hnodup.1
    rw [hsplit, receiveLines_cons]
    refine wp_seq (h.wp_dataLine hcapacity hlt hrun (hlines line (by simp)) hfirst) ?_
    rintro ⟨r, rx'⟩ mem' (⟨-, old', cur', h', hrun', hall, hsurvives⟩ | ⟨-, hfailed, hdoomed⟩)
    · have hrest := ih h' hrun' (fun line' hline' => hlines line' (by simp [hline']))
        (by rw [hall]; exact hnodup)
      refine wp_seq hrest ?_
      rintro ⟨results, rx''⟩ mem'' (hprogress | ⟨hfailed, hdoomed⟩)
      · exact (wp_pure _ _ _ _).mpr (Or.inl (hprogress.trans hall hsurvives))
      · exact (wp_pure _ _ _ _).mpr (Or.inr ⟨hfailed, hdoomed.trans hsurvives⟩)
    · refine wp_seq (hfailed.wp_receiveLines lines mem') ?_
      rintro ⟨results, rx''⟩ mem'' ⟨-, -, rfl, -⟩
      exact (wp_pure _ _ _ _).mpr (Or.inr ⟨hfailed, hdoomed.append _⟩)

theorem Placing.wp_baseLines (lines : List CString)
    (h : Placing start base capacity parser old cur rx mem) {parser' : HexParser}
    (hlines : baseLines parser lines = some parser') :
    wp (receiveLines (norWriter start) rx lines)
      (fun r mem' => Placing start base capacity parser' old cur r.2 mem')
      (fun _ => False) mem := by
  induction lines generalizing parser rx with
  | nil =>
    obtain rfl := Option.some.inj hlines
    exact (wp_pure _ _ _ _).mpr h
  | cons line lines ih =>
    unfold baseLines at hlines
    simp only at hlines
    split_ifs at hlines with hfed
    obtain ⟨hresult, hdata, heof⟩ := hfed
    have hstarted := h.receiving.started
    have hnoError := h.receiving.noError
    have hline : firmwareReceiveLine (norWriter start) rx (some line) = pure (.ok, { rx with
        parser := (hexParserFeed parser (some line) ⟨0, 0, []⟩).parser
        records := wrap32 (rx.records + 1) }) := by
      unfold firmwareReceiveLine
      rw [if_neg (by simp), if_neg (by simp [hstarted]), if_neg (by simp [hnoError]),
        h.receiving.parser_eq]
      simp only
      rw [if_neg (by simp [hresult]), if_neg hdata, if_neg heof]
    rw [receiveLines_cons, hline, wp_bind, wp_pure, wp_bind]
    exact wp_mono (ih (h.withParser _ _) hlines) (fun _ _ h => (wp_pure _ _ _ _).mpr h) fun _ h => h

/-- The record that ends a transfer: it completes exactly when the last run is clean. -/
theorem Placing.wp_eofLine (h : Placing start base capacity parser old cur rx mem)
    {line : CString} (hline : EofLine parser line) (hnodup : ((old ++ cur).map Prod.fst).Nodup) :
    wp (receiveLines (norWriter start) rx [line])
      (fun r mem' =>
        (CleanRun old cur ∧ r.1 = [.complete] ∧ r.2.imageSize = extent (old ++ cur) ∧
          ∀ a < capacity, mem' (start + a) = imageAt (old ++ cur) a) ∨
        (¬ CleanRun old cur ∧ r.1 = [.errWrite]))
      (fun _ => False) mem := by
  obtain ⟨hresult, htype⟩ := hline
  have hstarted := h.receiving.started
  have hnoError := h.receiving.noError
  rw [receiveLines_cons]
  unfold firmwareReceiveLine
  rw [if_neg (by simp), if_neg (by simp [hstarted]), if_neg (by simp [hnoError]),
    h.receiving.parser_eq]
  simp only
  rw [if_neg (by simp [hresult]), if_neg (by rw [htype]; decide), if_pos htype]
  rw [wp_bind, wp_bind]
  have hclean := h.pageFits_iff hnodup
  refine wp_mono (h.withParser _ _).receiving.wp_flushPage ?_ fun _ h => h
  rintro ⟨r, rx'⟩ mem' (⟨hr, hfits, h', hdirty⟩ | ⟨hr, hfits, -⟩)
  · obtain rfl : r = .ok := hr
    refine Or.inl ⟨hclean.mp hfits, rfl, h'.size_eq, fun a ha => h'.clean a ha fun hd => ?_⟩
    simp only at hdirty
    rw [hdirty] at hd
    cases hd
  · obtain rfl : r = .errWrite := hr
    exact Or.inr ⟨fun h => hfits (hclean.mpr h), rfl⟩

/-- A transfer that completes with `contents` in the region and `size` for its image. -/
def Transfers (start capacity : ℕ) (rx : FirmwareReceive) (mem : Mem) (lines : List CString)
    (contents : ℕ → UInt8) (size : ℕ) : Prop :=
  ∃ results rx' mem',
    (receiveLines (norWriter start) rx lines).run.run mem = (some (results, rx'), mem') ∧
    results.getLast? = some .complete ∧ rx'.imageSize = size ∧
    ∀ a < capacity, mem' (start + a) = contents a

/-- A transfer ends in one of two ways, and which one is decided by the order of its writes. -/
def EndsBy (start capacity : ℕ) (writes : List (ℕ × UInt8)) (rx : FirmwareReceive) (mem : Mem)
    (lines : List CString) : Prop :=
  wp (receiveLines (norWriter start) rx lines)
    (fun r mem' =>
      (ReturnsBlank writes ∧ r.1.getLast? = some .complete ∧ r.2.imageSize = extent writes ∧
        ∀ a < capacity, mem' (start + a) = imageAt writes a) ∨
      (¬ ReturnsBlank writes ∧ r.1.getLast? ≠ some .complete))
    (fun _ => False) mem

theorem EndsBy.returnsBlank {writes : List (ℕ × UInt8)} {lines : List CString}
    (h : EndsBy start capacity writes rx mem lines) {contents : ℕ → UInt8} {size : ℕ}
    (htransfers : Transfers start capacity rx mem lines contents size) : ReturnsBlank writes := by
  obtain ⟨results, rx', mem', hrun, hcomplete, -, -⟩ := htransfers
  rcases (wp_returned hrun).mp h with ⟨hblank, -⟩ | ⟨-, hincomplete⟩
  · exact hblank
  · exact absurd hcomplete hincomplete

theorem EndsBy.transfers {writes : List (ℕ × UInt8)} {lines : List CString}
    (h : EndsBy start capacity writes rx mem lines) (hblank : ReturnsBlank writes) :
    Transfers start capacity rx mem lines (imageAt writes) (extent writes) := by
  rcases hrun : (receiveLines (norWriter start) rx lines).run.run mem with ⟨_ | ⟨results, rx'⟩, mem'⟩
  · exact ((wp_cut hrun).mp h).elim
  · rcases (wp_returned hrun).mp h with ⟨-, hcomplete, hsize, hmem⟩ | ⟨hnot, -⟩
    · exact ⟨results, rx', mem', hrun, hcomplete, hsize, hmem⟩
    · exact absurd hblank hnot

/-- A transfer of data records, whatever their order: it completes exactly when no write
returns to a page that was not blank, and then stores each record where it belongs. -/
theorem wp_transfer (hcapacity : capacity % 256 = 0) (hlt : capacity < 2 ^ 32)
    (herased : ∀ a < capacity, mem (start + a) = erased) {rx₀ : FirmwareReceive}
    (hbegin : firmwareReceiveBegin rx₀ base capacity = (.ok, rx)) {setup data : List CString}
    {eof : CString} (hsetup : baseLines hexParserReset setup = some parser)
    (hdata : ∀ line ∈ data, DataLine base capacity parser line) (heof : EofLine parser eof)
    (hnodup : ((dataLineWrites base parser data).map Prod.fst).Nodup) :
    EndsBy start capacity (dataLineWrites base parser data) rx mem (setup ++ (data ++ [eof])) := by
  have hreceiving := Receiving.begin hbegin herased
  have hclean : rx.pageDirty = false := by
    unfold firmwareReceiveBegin at hbegin
    split_ifs at hbegin
    · simp at hbegin
    obtain ⟨-, rfl⟩ := Prod.mk.inj hbegin
    rfl
  have hstart : Placing start base capacity hexParserReset [] [] rx mem :=
    ⟨hreceiving, herased, by simp [hclean], by simp, by simp⟩
  refine wp_receiveLines_append _ _ _ (wp_mono (hstart.wp_baseLines setup hsetup) ?_ fun _ h => h)
  rintro ⟨results₁, rx₁⟩ mem₁ h₁
  refine wp_receiveLines_append _ _ _ (wp_mono (h₁.wp_dataLines hcapacity hlt data
    ⟨fun _ => rfl, by simp⟩ hdata hnodup) ?_ fun _ h => h)
  rintro ⟨results₂, rx₂⟩ mem₂ (⟨old, cur, h₂, -, hall, hsurvives⟩ | ⟨hfailed, hdoomed⟩)
  · rw [List.nil_append, List.nil_append] at hall
    have hblank : ReturnsBlank (dataLineWrites base parser data) ↔ CleanRun old cur := by
      rw [← survives_nil_iff, ← List.append_nil (dataLineWrites base parser data), hsurvives,
        Survives]
    refine wp_mono (h₂.wp_eofLine heof (by rw [hall]; exact hnodup)) ?_ fun _ h => h
    rintro ⟨results₃, rx₃⟩ mem₃ (⟨hrun, rfl, hsize, hmem⟩ | ⟨hrun, rfl⟩)
    · rw [hall] at hsize hmem
      exact Or.inl ⟨hblank.mpr hrun, by simp, hsize, hmem⟩
    · exact Or.inr ⟨fun h => hrun (hblank.mp h), by simp⟩
  · refine wp_mono (hfailed.wp_receiveLines [eof] mem₂) ?_ fun _ h => h
    rintro ⟨results₃, rx₃⟩ mem₃ ⟨hlength, herrors, -, -⟩
    obtain ⟨result, rfl⟩ := List.length_eq_one_iff.mp hlength
    refine Or.inr ⟨?_, ?_⟩
    · rw [← survives_nil_iff, ← List.append_nil (dataLineWrites base parser data)]
      exact hdoomed []
    · have herror := herrors result (by simp)
      intro hlast
      simp only [List.getLast?_append, List.getLast?_singleton, Option.some_or] at hlast
      exact herror.2 (Option.some.inj hlast)

end lines

/-- Two orders of the same disjoint records both complete, with the same bytes and size,
exactly when neither comes back to a page that was not blank. -/
theorem firmwareReceive_order_iff {start base capacity : ℕ} (hcapacity : capacity % 256 = 0)
    (hlt : capacity < 2 ^ 32) {mem : Mem} (herased : ∀ a < capacity, mem (start + a) = erased)
    {rx₀ rx : FirmwareReceive} (hbegin : firmwareReceiveBegin rx₀ base capacity = (.ok, rx))
    {setup data data' : List CString} {eof : CString} {parser : HexParser}
    (hsetup : baseLines hexParserReset setup = some parser)
    (hdata : ∀ line ∈ data, DataLine base capacity parser line) (heof : EofLine parser eof)
    (hdisjoint : ((dataLineWrites base parser data).map Prod.fst).Nodup)
    (hperm : data.Perm data') :
    (∃ contents size,
      Transfers start capacity rx mem (setup ++ (data ++ [eof])) contents size ∧
      Transfers start capacity rx mem (setup ++ (data' ++ [eof])) contents size) ↔
    ReturnsBlank (dataLineWrites base parser data) ∧
      ReturnsBlank (dataLineWrites base parser data') := by
  have hwrites : (dataLineWrites base parser data).Perm (dataLineWrites base parser data') :=
    hperm.flatMap_right _
  have hdata' : ∀ line ∈ data', DataLine base capacity parser line :=
    fun line hline => hdata line (hperm.mem_iff.mpr hline)
  have hdisjoint' := (hwrites.map Prod.fst).nodup_iff.mp hdisjoint
  constructor
  · rintro ⟨contents, size, hfirst, hsecond⟩
    exact ⟨(wp_transfer hcapacity hlt herased hbegin hsetup hdata heof hdisjoint).returnsBlank
        hfirst,
      (wp_transfer hcapacity hlt herased hbegin hsetup hdata' heof hdisjoint').returnsBlank
        hsecond⟩
  · rintro ⟨hfirst, hsecond⟩
    refine ⟨imageAt (dataLineWrites base parser data), extent (dataLineWrites base parser data),
      (wp_transfer hcapacity hlt herased hbegin hsetup hdata heof hdisjoint).transfers hfirst, ?_⟩
    have hsame := (wp_transfer hcapacity hlt herased hbegin hsetup hdata' heof hdisjoint').transfers
      hsecond
    have himage : imageAt (dataLineWrites base parser data') = imageAt (dataLineWrites base parser data) :=
      funext fun a => (stored_perm erased hwrites hdisjoint a).symm
    rw [himage, ← extent_perm hwrites] at hsame
    exact hsame

/-- `:0100000001FE`, one byte at address zero. -/
def lineAt0 : CString :=
  ⟨[0x3A, 0x30, 0x31, 0x30, 0x30, 0x30, 0x30, 0x30, 0x30, 0x30, 0x31, 0x46, 0x45], by decide⟩

/-- `:0100100003EC`, one byte at 0x10. -/
def lineAt16 : CString :=
  ⟨[0x3A, 0x30, 0x31, 0x30, 0x30, 0x31, 0x30, 0x30, 0x30, 0x30, 0x33, 0x45, 0x43], by decide⟩

/-- `:0101000002FC`, one byte at 0x100. -/
def lineAt256 : CString :=
  ⟨[0x3A, 0x30, 0x31, 0x30, 0x31, 0x30, 0x30, 0x30, 0x30, 0x30, 0x32, 0x46, 0x43], by decide⟩

/-- A receiver over two pages. -/
def twoPages : FirmwareReceive := (firmwareReceiveBegin .zero 0 512).2

theorem firmwareReceive_order_iff_pages : ∃ contents size,
    Transfers 0 512 twoPages (fun _ => erased) [lineAt0, lineAt16, lineAt256, eofLine] contents size ∧
    Transfers 0 512 twoPages (fun _ => erased) [lineAt256, lineAt0, lineAt16, eofLine] contents size := by
  have hblank : ∀ a < 512, (fun _ => erased : Mem) (0 + a) = erased := fun _ _ => rfl
  have hbegin : firmwareReceiveBegin .zero 0 512 = (.ok, twoPages) := rfl
  have hsetup : baseLines hexParserReset [] = some hexParserReset := rfl
  have hdata : ∀ line ∈ [lineAt0, lineAt16, lineAt256], DataLine 0 512 hexParserReset line := by
    decide
  have heof : EofLine hexParserReset eofLine := by decide
  have hperm : [lineAt0, lineAt16, lineAt256].Perm [lineAt256, lineAt0, lineAt16] := by decide
  have hblanks : ReturnsBlank (dataLineWrites 0 hexParserReset [lineAt0, lineAt16, lineAt256]) ∧
      ReturnsBlank (dataLineWrites 0 hexParserReset [lineAt256, lineAt0, lineAt16]) := by
    rw [← survives_nil_iff, ← survives_nil_iff]
    decide
  exact (firmwareReceive_order_iff (by norm_num) (by norm_num) hblank hbegin hsetup hdata heof
    (by decide) hperm).mpr hblanks

/-- The order 0, 0x100, 0x10 fails: page 0 is programmed for its first byte when the
record at 0x100 comes, and then compared with a page that has 0xFF there. -/
theorem firmwareReceive_order_reopened :
    (∀ line ∈ [lineAt0, lineAt256, lineAt16], DataLine 0 512 hexParserReset line) ∧
    ((dataLineWrites 0 hexParserReset [lineAt0, lineAt256, lineAt16]).map Prod.fst).Nodup ∧
    EofLine hexParserReset eofLine ∧
    ((receiveLines (norWriter 0) twoPages [lineAt0, lineAt256, lineAt16, eofLine]).run.run
      (fun _ => erased)).1.map Prod.fst = some [.ok, .ok, .ok, .errWrite] := by
  decide +kernel

end Pico
