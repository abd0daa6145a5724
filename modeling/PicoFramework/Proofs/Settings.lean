import PicoFramework.Lib.Bits
import PicoFramework.Proofs.LedRange
import PicoFramework.Proofs.ConfigDurability
import PicoFramework.Proofs.ConfigHealthy
import PicoFramework.Proofs.ConfigMap
import PicoFramework.Spec.Settings

/-! The settings of `home_led` across a reboot: the values set one after another into what room the
store has, and what a load makes of those that found none. -/

namespace Pico

open Lib.Nor Lib.Power Lib.Run

section room

/-- The room that the record of a key takes, going by what `config_get` says of its length. -/
def recordRoom (store : ConfigStore) (key : CString) : ℕ :=
  if configHas store (some key) then
    configRecordSize key.length ((configGet store (some key) 0).length.getD 0)
  else 0

/-- Does a four-byte value for `key` find room when each of the keys, whose records take `old`, is
given one in its turn? -/
def findsRoom (capacity : ℕ) (old : CString → ℕ) (key : CString) : ℕ → List CString → Bool
  | _, [] => false
  | used, k :: ks =>
      let wanted := used - old k + configRecordSize k.length 4
      if wanted ≤ capacity then decide (k = key) || findsRoom capacity old key wanted ks
      else findsRoom capacity old key used ks

variable {store : ConfigStore} {rs : List Record} {key : CString} {k : Bytes} {capacity : ℕ}

/-- A key the store can take. -/
def Usable (key : CString) : Prop := checkKey (some key) = .ok key.bytes

theorem findsRoom_congr {old old' : CString → ℕ} {ks : List CString}
    (h : ∀ k ∈ ks, old k = old' k) (used : ℕ) :
    findsRoom capacity old key used ks = findsRoom capacity old' key used ks := by
  induction ks generalizing used with
  | nil => rfl
  | cons k ks ih =>
    have htail : ∀ k ∈ ks, old k = old' k := fun k hk => h k (List.mem_cons_of_mem _ hk)
    simp only [findsRoom, h k List.mem_cons_self, ih htail]

theorem findsRoom_of_notMem {old : CString → ℕ} {ks : List CString} (h : key ∉ ks) (used : ℕ) :
    findsRoom capacity old key used ks = false := by
  induction ks generalizing used with
  | nil => rfl
  | cons k ks ih =>
    obtain ⟨hne, htail⟩ := not_or.mp (mt List.mem_cons.mpr h)
    simp only [findsRoom, ih htail, Bool.or_false, Ne.symm hne, decide_false, ite_self]

/-- The room of the record that a lookup finds. -/
def roomOf (key : Bytes) (rs : List Record) : ℕ :=
  match lookupRecord key rs with
  | none => 0
  | some value => configRecordSize key.length value.length

theorem recordRoom_eq (h : Holds store rs) (hk : Usable key) :
    recordRoom store key = roomOf key.bytes rs := by
  unfold recordRoom configHas roomOf
  rw [configGet_spec h hk]
  cases lookupRecord key.bytes rs with
  | none => rfl
  | some value =>
    simp only
    split
    · rfl
    · rfl

theorem length_image_put (new : Record) (rs : List Record) :
    (image (putRecord new rs)).length + roomOf new.key rs = (image rs).length + new.size := by
  induction rs with
  | nil => simp [putRecord, roomOf, lookupRecord]
  | cons r rs ih =>
    unfold roomOf at ih ⊢
    rw [putRecord, lookupRecord]
    by_cases hput : r.key = new.key
    · rw [if_pos hput, if_pos hput]
      simp only [image_cons, List.length_append, Record.bytes_length, Record.size, hput]
      omega
    · rw [if_neg hput, if_neg hput]
      simp only [image_cons, List.length_append, Record.bytes_length]
      omega

theorem roomOf_le (key : Bytes) (rs : List Record) : roomOf key rs ≤ (image rs).length := by
  induction rs with
  | nil => exact le_rfl
  | cons r rs ih =>
    unfold roomOf at ih ⊢
    rw [lookupRecord]
    by_cases hk : r.key = key
    · rw [if_pos hk, image_cons, List.length_append, Record.bytes_length, Record.size, hk]
      exact Nat.le_add_right _ _
    · rw [if_neg hk, image_cons, List.length_append]
      omega

end room

section words

variable {store : ConfigStore} {rs : List Record} {key : CString}

/-- What `config_get_u32` makes of a record's value. -/
def wordAt (fallback : UInt32) : Option Bytes → UInt32
  | none => fallback
  | some value =>
      if value.length = 4 then
        (value.getD 0 0).toUInt32 ||| ((value.getD 1 0).toUInt32 <<< 8) |||
          ((value.getD 2 0).toUInt32 <<< 16) ||| ((value.getD 3 0).toUInt32 <<< 24)
      else fallback

theorem wordAt_u32Value (fallback word : UInt32) :
    wordAt fallback (some (u32Value word).bytes) = word := by
  have hfour : (u32Value word).bytes.length = 4 := rfl
  simp only [wordAt, if_pos hfour]
  exact Lib.Wire.join_le32 word

theorem configGetU32_word (h : Holds store rs) (hk : Usable key) (fallback : UInt32) :
    (configGetU32 store (some key) fallback).2 = wordAt fallback (lookupRecord key.bytes rs) := by
  unfold configGetU32 wordAt
  rw [configGet_spec h hk, configGet_spec h hk]
  cases lookupRecord key.bytes rs with
  | none => rfl
  | some value =>
    by_cases hfour : value.length = 4
    · simp [hfour]
    · by_cases hzero : value.length = 0
      · simp [hzero]
      · simp [hfour, Nat.pos_of_ne_zero hzero]

/-- A word is set when there is room for it, and refused without a trace otherwise. -/
theorem configSetU32_spec (h : Holds store rs) (hk : Usable key) (word : UInt32) :
    (store.used - recordRoom store key + configRecordSize key.length 4 ≤ store.capacity ∧
      ∃ store', (configSetU32 store (some key) word).2 = store' ∧
        store'.capacity = store.capacity ∧
        store'.used = store.used - recordRoom store key + configRecordSize key.length 4 ∧
        Holds store' (putRecord (newRecord hk (u32Value word)) rs)) ∨
    (store.capacity < store.used - recordRoom store key + configRecordSize key.length 4 ∧
      (configSetU32 store (some key) word).2 = store) := by
  have hput := length_image_put (newRecord hk (u32Value word)) rs
  have hroom : recordRoom store key = roomOf (newRecord hk (u32Value word)).key rs :=
    recordRoom_eq h hk
  have hle := roomOf_le (newRecord hk (u32Value word)).key rs
  have hsize : configRecordSize key.length 4 = (newRecord hk (u32Value word)).size := rfl
  have hused := h.used_eq
  rw [hroom, hsize]
  rcases configSet_spec h hk (u32Value word) with ⟨hfull, hset⟩ | ⟨hfits, store', hset, hcap, hholds⟩
  · exact Or.inr ⟨by omega, by rw [configSetU32, hset]⟩
  · refine Or.inl ⟨by omega, store', by rw [configSetU32, hset], hcap, ?_, hholds⟩
    have hused' := hholds.used_eq
    omega

theorem wordAt_of_refused (h : Holds store rs) (hk : Usable key) (fallback : UInt32)
    (hfull : store.capacity < store.used - recordRoom store key + configRecordSize key.length 4) :
    wordAt fallback (lookupRecord key.bytes rs) = fallback := by
  have hle := roomOf_le key.bytes rs
  have hcap := h.used_le
  have hused := h.used_eq
  rw [recordRoom_eq h hk] at hfull
  unfold roomOf at hfull hle
  cases hlookup : lookupRecord key.bytes rs with
  | none => rfl
  | some value =>
    rw [hlookup] at hfull hle
    have hlength : key.length = key.bytes.length := rfl
    simp only [configRecordSize, hlength] at hfull hle
    exact if_neg (by omega)

theorem recordRoom_put {store' : ConfigStore} {other : CString} (h : Holds store rs)
    (hk : Usable key) (hother : Usable other) (hne : other ≠ key) {value : ConfigValue}
    (h' : Holds store' (putRecord (newRecord hk value) rs)) :
    recordRoom store' other = recordRoom store other := by
  have hbytes : (newRecord hk value).key ≠ other.bytes := fun heq =>
    hne (cstring_eq.mpr heq.symm)
  rw [recordRoom_eq h' hother, recordRoom_eq h hother, roomOf, lookupRecord_put, if_neg hbytes,
    roomOf]

/-- Words set one after another: each is what is read back if it found room in its turn, and the
fallback is if it did not. Nothing else is touched. -/
theorem setWords_spec (words : List (CString × UInt32)) (hkeys : ∀ word ∈ words, Usable word.1)
    (hnodup : (words.map Prod.fst).Nodup) (h : Holds store rs) :
    ∃ rs', Holds (setWords store words) rs' ∧
      (setWords store words).capacity = store.capacity ∧
      (∀ other, other ∉ words.map Prod.fst → Usable other →
        lookupRecord other.bytes rs' = lookupRecord other.bytes rs) ∧
      ∀ word ∈ words, ∀ fallback, wordAt fallback (lookupRecord word.1.bytes rs') =
        if findsRoom store.capacity (recordRoom store) word.1 store.used (words.map Prod.fst) then
          word.2 else fallback := by
  induction words generalizing store rs with
  | nil => exact ⟨rs, h, rfl, fun _ _ _ => rfl, by simp⟩
  | cons first words ih =>
    have hfirst : Usable first.1 := hkeys first List.mem_cons_self
    have hrest : ∀ word ∈ words, Usable word.1 := fun word hword =>
      hkeys word (List.mem_cons_of_mem _ hword)
    obtain ⟨hfresh, hdistinct⟩ := List.nodup_cons.mp hnodup
    have hset : setWords store (first :: words) =
        setWords (configSetU32 store (some first.1) first.2).2 words := rfl
    rw [hset, List.map_cons]
    rcases configSetU32_spec h hfirst first.2 with
      ⟨hfits, store', hstore, hcap, hused, hholds⟩ | ⟨hfull, hstore⟩
    · obtain ⟨rs', hheld, hcap', hothers, hwords⟩ := ih hrest hdistinct hholds
      rw [hstore]
      refine ⟨rs', hheld, hcap'.trans hcap, ?_, ?_⟩
      · intro other hother husable
        obtain ⟨hne, htail⟩ := not_or.mp (mt List.mem_cons.mpr hother)
        rw [hothers other htail husable, lookupRecord_put,
          if_neg fun heq => hne (cstring_eq.mpr heq.symm)]
      · intro word hword fallback
        simp only [findsRoom, hfits, if_true]
        rcases List.mem_cons.mp hword with rfl | hword
        · rw [hothers _ hfresh hfirst, lookupRecord_put]
          simp only [newRecord, if_true, wordAt_u32Value, decide_true, Bool.true_or]
        · have hne : first.1 ≠ word.1 := fun heq =>
            hfresh (heq ▸ List.mem_map_of_mem hword)
          have hcongr := @findsRoom_congr word.1 store.capacity (recordRoom store')
            (recordRoom store) (words.map Prod.fst) (by
              intro k hk
              obtain ⟨other, hother, rfl⟩ := List.mem_map.mp hk
              exact recordRoom_put h hfirst (hrest other hother)
                (fun heq => hfresh (heq ▸ hk)) hholds) store'.used
          rw [hwords word hword, hcap, hcongr, hused]
          simp only [hne, decide_false, Bool.false_or]
    · obtain ⟨rs', hheld, hcap', hothers, hwords⟩ := ih hrest hdistinct h
      rw [hstore]
      refine ⟨rs', hheld, hcap', ?_, ?_⟩
      · intro other hother husable
        exact hothers other (mt (List.mem_cons_of_mem _) hother) husable
      · intro word hword fallback
        simp only [findsRoom, Nat.not_le.mpr hfull, if_false]
        rcases List.mem_cons.mp hword with rfl | hword
        · rw [hothers _ hfresh hfirst, findsRoom_of_notMem hfresh,
            wordAt_of_refused h hfirst fallback hfull]
          rfl
        · exact hwords word hword fallback

end words

namespace LedRange

variable {limit : UInt16}

theorem Selects.run (hlimit : 0 < limit.toNat) (first last : UInt32) (moves : List RangeMove) :
    (moves.foldl LedRange.step (loadRange limit first last)).Selects limit := by
  have hstart : (loadRange limit first last).Selects limit := Selects.restored hlimit _ _
  generalize loadRange limit first last = range at hstart ⊢
  induction moves generalizing range with
  | nil => exact hstart
  | cons move moves ih => exact ih _ (hstart.step move)

theorem loadRange_eq {first last : UInt16} (hfirst : 1 ≤ first.toNat)
    (hlt : first.toNat ≤ last.toNat) (hle : last.toNat ≤ limit.toNat) :
    (loadRange limit first.toUInt32 last.toUInt32).first = first ∧
      (loadRange limit first.toUInt32 last.toUInt32).last = last := by
  have hlimit : limit ≠ 0 := by
    rintro rfl
    simp at hle
    omega
  have hsaved (value : UInt16) :
      (if value.toUInt32.toNat < 2 ^ 16 then value.toUInt32.toUInt16 else 0) = value := by
    rw [if_pos (by simpa using value.toNat_lt), UInt16.toUInt16_toUInt32]
  have hok : first ≥ 1 ∧ first ≤ last ∧ last ≤ limit := by
    simp only [ge_iff_le, UInt16.le_iff_toNat_le]
    exact ⟨hfirst, hlt, hle⟩
  unfold loadRange ledRangeRestore ledRangeInit
  simp only [hsaved, if_neg hlimit, if_pos hok]
  refine ⟨?_, rfl⟩
  simp only [LedRange.first, if_pos hlimit]
  exact UInt16.sub_add_cancel first 1

end LedRange

section light

theorem toNat_rgbWord (color : Ws2812Color) :
    (rgbWord color).toNat = color.r.toNat * 2 ^ 16 + color.g.toNat * 2 ^ 8 + color.b.toNat := by
  have hr := color.r.toNat_lt
  have hg := color.g.toNat_lt
  have hb := color.b.toNat_lt
  simp only [rgbWord, UInt32.toNat_or, UInt32.toNat_shiftLeft, UInt8.toNat_toUInt32,
    UInt32.reduceToNat, Nat.reduceMod, Nat.shiftLeft_eq]
  have hhigh := @Lib.Bits.or_eq_add (color.r.toNat * 2 ^ 16) (color.g.toNat * 2 ^ 8) 16
    (by omega) (by omega)
  rw [Nat.mod_eq_of_lt (by omega), Nat.mod_eq_of_lt (by omega), hhigh,
    Lib.Bits.or_eq_add 8 (by omega) hb]

theorem rgbWord_bytes (color : Ws2812Color) :
    (rgbWord color >>> 16).toUInt8 = color.r ∧ (rgbWord color >>> 8).toUInt8 = color.g ∧
      (rgbWord color).toUInt8 = color.b := by
  have hr := color.r.toNat_lt
  have hg := color.g.toNat_lt
  have hb := color.b.toNat_lt
  have hword := toNat_rgbWord color
  simp only [← UInt8.toNat_inj, UInt32.toNat_toUInt8, UInt32.toNat_shiftRight, UInt32.reduceToNat,
    Nat.reduceMod, Nat.shiftRight_eq_div_pow, hword]
  refine ⟨?_, ?_, ?_⟩
  · omega
  · omega
  · omega

theorem loadLight_color (brightness : UInt32) (color : Ws2812Color) :
    (loadLight brightness (rgbWord color)).color = ws2812Rgb color.r color.g color.b := by
  obtain ⟨hr, hg, hb⟩ := rgbWord_bytes color
  simp only [loadLight, lightRestore, ws2812Rgb, hr, hg, hb]

theorem loadLight_brightness (brightness : UInt8) (rgb : UInt32) :
    (loadLight brightness.toUInt32 rgb).brightness = brightness := by
  have hle : ¬brightness.toUInt32 > 255 := by
    rw [gt_iff_lt, UInt32.lt_iff_toNat_lt, UInt8.toNat_toUInt32]
    exact Nat.not_lt.mpr (Nat.le_of_lt_succ brightness.toNat_lt)
  simp only [loadLight, lightRestore, if_neg hle, UInt8.toUInt8_toUInt32]

end light

section restoring

/-- The light's brightness and colour and the range, as they were. -/
structure Restores (app app' : SettingsApp) : Prop where
  brightness : app'.light.brightness = app.light.brightness
  color : ws2812Rgb app'.light.color.r app'.light.color.g app'.light.color.b =
    ws2812Rgb app.light.color.r app.light.color.g app.light.color.b
  first : app'.range.first = app.range.first
  last : app'.range.last = app.range.last

def settingsKeys : List CString :=
  [KEY_LIGHT_ON, KEY_LIGHT_BRIGHTNESS, KEY_LIGHT_RGB, KEY_LIGHT_MIREDS, KEY_LIGHT_MODE,
    KEY_LIGHT_EFFECT, KEY_RANGE_FIRST, KEY_RANGE_LAST]

/-- The value is the one a board without it comes up with, or it finds room in the store. -/
def Remembered (store : ConfigStore) (key : CString) (value fallback : UInt32) : Prop :=
  value = fallback ∨
    findsRoom store.capacity (recordRoom store) key store.used settingsKeys = true

structure AllRemembered (app : SettingsApp) : Prop where
  brightness : Remembered app.config.store KEY_LIGHT_BRIGHTNESS app.light.brightness.toUInt32
    LIGHT_DEFAULT_BRIGHTNESS.toUInt32
  color : Remembered app.config.store KEY_LIGHT_RGB (rgbWord app.light.color) 0xFFFFFF
  first : Remembered app.config.store KEY_RANGE_FIRST app.range.first.toUInt32 1
  last : Remembered app.config.store KEY_RANGE_LAST app.range.last.toUInt32 app.ledCount.toUInt32

/-- What a load reads for a value that was set in its turn. -/
def recalled (store : ConfigStore) (key : CString) (value fallback : UInt32) : UInt32 :=
  if findsRoom store.capacity (recordRoom store) key store.used settingsKeys then value else fallback

theorem recalled_eq_iff (store : ConfigStore) (key : CString) (value fallback : UInt32) :
    recalled store key value fallback = value ↔ Remembered store key value fallback := by
  unfold recalled Remembered
  split
  · next hroom => exact ⟨fun _ => .inr hroom, fun _ => rfl⟩
  · next hroom =>
    constructor
    · exact fun h => .inl h.symm
    · rintro (h | h)
      · exact h.symm
      · exact absurd h hroom

theorem recalled_cases (store : ConfigStore) (key : CString) (value fallback : UInt32) :
    recalled store key value fallback = value ∨ recalled store key value fallback = fallback := by
  unfold recalled
  split
  · exact .inl rfl
  · exact .inr rfl

/-- What a reboot makes of the four values. -/
def rebooted (app : SettingsApp) : Light × LedRange :=
  (loadLight
      (recalled app.config.store KEY_LIGHT_BRIGHTNESS app.light.brightness.toUInt32
        LIGHT_DEFAULT_BRIGHTNESS.toUInt32)
      (recalled app.config.store KEY_LIGHT_RGB (rgbWord app.light.color) 0xFFFFFF),
    loadRange app.ledCount
      (recalled app.config.store KEY_RANGE_FIRST app.range.first.toUInt32 1)
      (recalled app.config.store KEY_RANGE_LAST app.range.last.toUInt32 app.ledCount.toUInt32))

theorem rebooted_brightness_iff (app : SettingsApp) :
    (rebooted app).1.brightness = app.light.brightness ↔
      Remembered app.config.store KEY_LIGHT_BRIGHTNESS app.light.brightness.toUInt32
        LIGHT_DEFAULT_BRIGHTNESS.toUInt32 := by
  rw [← recalled_eq_iff]
  unfold rebooted
  rcases recalled_cases app.config.store KEY_LIGHT_BRIGHTNESS app.light.brightness.toUInt32
    LIGHT_DEFAULT_BRIGHTNESS.toUInt32 with h | h
  · rw [h, loadLight_brightness]
    exact ⟨fun _ => rfl, fun _ => rfl⟩
  · rw [h, loadLight_brightness]
    exact (UInt8.toUInt32_inj).symm

theorem rebooted_color_iff (app : SettingsApp) :
    ws2812Rgb (rebooted app).1.color.r (rebooted app).1.color.g (rebooted app).1.color.b =
        ws2812Rgb app.light.color.r app.light.color.g app.light.color.b ↔
      Remembered app.config.store KEY_LIGHT_RGB (rgbWord app.light.color) 0xFFFFFF := by
  rw [← recalled_eq_iff]
  unfold rebooted
  have hwhite : rgbWord (ws2812Rgb 255 255 255) = 0xFFFFFF := by decide
  rcases recalled_cases app.config.store KEY_LIGHT_RGB (rgbWord app.light.color) 0xFFFFFF with h | h
  · rw [h, loadLight_color]
    exact ⟨fun _ => rfl, fun _ => rfl⟩
  · rw [h, ← hwhite, loadLight_color]
    constructor
    · intro hsame
      obtain ⟨hr, hg, hb, -⟩ := Ws2812Color.mk.inj hsame
      unfold rgbWord
      rw [← hr, ← hg, ← hb]
      rfl
    · intro hsame
      obtain ⟨hr, hg, hb⟩ := rgbWord_bytes app.light.color
      rw [← hr, ← hg, ← hb, ← hsame]
      decide

theorem rebooted_range_iff (app : SettingsApp) (h : app.range.Selects app.ledCount) :
    ((rebooted app).2.first = app.range.first ∧ (rebooted app).2.last = app.range.last) ↔
      Remembered app.config.store KEY_RANGE_FIRST app.range.first.toUInt32 1 ∧
        Remembered app.config.store KEY_RANGE_LAST app.range.last.toUInt32
          app.ledCount.toUInt32 := by
  have hlt := h.lt
  have hle := h.le
  have hfirst := h.first_eq
  have hstop : app.range.last.toNat = app.range.stop.toNat := rfl
  rw [← recalled_eq_iff, ← recalled_eq_iff]
  obtain ⟨first, hone, hbefore, hvalue⟩ : ∃ first : UInt16, 1 ≤ first.toNat ∧
      first.toNat ≤ app.range.first.toNat ∧
      recalled app.config.store KEY_RANGE_FIRST app.range.first.toUInt32 1 = first.toUInt32 := by
    rcases recalled_cases app.config.store KEY_RANGE_FIRST app.range.first.toUInt32 1 with h | h
    · exact ⟨app.range.first, by omega, le_rfl, h⟩
    · exact ⟨1, le_rfl, by rw [UInt16.toNat_one]; omega, h⟩
  obtain ⟨last, hafter, hwithin, hvalue'⟩ : ∃ last : UInt16, app.range.last.toNat ≤ last.toNat ∧
      last.toNat ≤ app.ledCount.toNat ∧
      recalled app.config.store KEY_RANGE_LAST app.range.last.toUInt32 app.ledCount.toUInt32 =
        last.toUInt32 := by
    rcases recalled_cases app.config.store KEY_RANGE_LAST app.range.last.toUInt32
      app.ledCount.toUInt32 with h | h
    · exact ⟨app.range.last, le_rfl, by omega, h⟩
    · exact ⟨app.ledCount, by omega, le_rfl, h⟩
  obtain ⟨hloaded, hloaded'⟩ := @LedRange.loadRange_eq app.ledCount first last hone
    (by omega) hwithin
  unfold rebooted
  rw [hvalue, hvalue', hloaded, hloaded', UInt16.toUInt32_inj, UInt16.toUInt32_inj]

theorem restores_iff {app app' : SettingsApp} (h : app.range.Selects app.ledCount)
    (hloaded : (app'.light, app'.range) = rebooted app) :
    Restores app app' ↔ AllRemembered app := by
  obtain ⟨hlight, hrange⟩ := Prod.mk.inj hloaded
  constructor
  · rintro ⟨hbrightness, hcolor, hfirst, hlast⟩
    rw [hlight] at hbrightness hcolor
    rw [hrange] at hfirst hlast
    have hboth := (rebooted_range_iff app h).mp ⟨hfirst, hlast⟩
    exact ⟨(rebooted_brightness_iff app).mp hbrightness, (rebooted_color_iff app).mp hcolor,
      hboth.1, hboth.2⟩
  · rintro ⟨hbrightness, hcolor, hfirst, hlast⟩
    have hboth := (rebooted_range_iff app h).mpr ⟨hfirst, hlast⟩
    refine ⟨?_, ?_, ?_, ?_⟩
    · rw [hlight]
      exact (rebooted_brightness_iff app).mpr hbrightness
    · rw [hlight]
      exact (rebooted_color_iff app).mpr hcolor
    · rw [hrange]
      exact hboth.1
    · rw [hrange]
      exact hboth.2

end restoring

section saving

variable {build : FlashBuild} {slot : Fin 2 → FlashRegion} {app app' : SettingsApp} {mem : Mem}
  {w : FlashWorld}

theorem settingsWords_keys (current : LightSettings) (range : LedRange) :
    (settingsWords current range).map Prod.fst = settingsKeys := rfl

theorem settingsKeys_usable : ∀ key ∈ settingsKeys, Usable key := by
  simp only [settingsKeys, List.forall_mem_cons, List.not_mem_nil, false_implies, implies_true,
    and_true]
  exact ⟨rfl, rfl, rfl, rfl, rfl, rfl, rfl, rfl⟩

theorem settingsKeys_nodup : settingsKeys.Nodup := by decide

theorem settingsStore_run {faults : List FlashFault}
    (hsave : (settingsStore build app).run.run ⟨mem, faults, []⟩ = (some (true, app'), w)) :
    ∃ config, (persistentConfigSave build (app.config.withStore
        (setWords app.config.store (settingsWords app.light.capture app.range)))).run.run
      ⟨mem, faults, []⟩ = (some (.ok, config), w) := by
  have hpost : wp (settingsStore build app) (fun answer t => answer.1 = true →
      ∃ config, (persistentConfigSave build (app.config.withStore
        (setWords app.config.store (settingsWords app.light.capture app.range)))).run.run
          ⟨mem, faults, []⟩ = (some (.ok, config), t)) (fun _ => True) ⟨mem, faults, []⟩ := by
    unfold settingsStore
    refine (wp_bind _ _ _ _ _).mpr ?_
    unfold wp PersistentConfig.withStore
    generalize (persistentConfigSave build { app.config with
      store := setWords app.config.store (settingsWords app.light.capture app.range) }).run.run
        ⟨mem, faults, []⟩ = ran
    rcases ran with ⟨_ | ⟨result, config⟩, t⟩
    · trivial
    · intro hok
      obtain rfl := of_decide_eq_true hok
      exact ⟨config, rfl⟩
  exact (wp_returned hsave).mp hpost rfl

theorem settingsStore_rebooted (hslot : slotRegions build = some slot)
    (hram : RamAgrees mem slot app.config) {faults : List FlashFault}
    (hwear : ∀ bytes, FlashFault.worn bytes ∉ faults)
    (hsave : (settingsStore build app).run.run ⟨mem, faults, []⟩ = (some (true, app'), w))
    {reboot : Bytes} (hroom : app.config.store.capacity ≤ reboot.length) (hne : reboot ≠ []) :
    ∃ loaded, settingsLoad build w.mem reboot app.ledCount = some loaded ∧
      (loaded.light, loaded.range) = rebooted app := by
  obtain ⟨hregions, ⟨rs, hrs⟩, hagrees⟩ := hram
  obtain ⟨config, hrun⟩ := settingsStore_run hsave
  have hkeys := settingsWords_keys app.light.capture app.range
  obtain ⟨rs', hheld, hcap, -, hwords⟩ := setWords_spec
    (settingsWords app.light.capture app.range)
    (fun word hword => settingsKeys_usable _ (hkeys ▸ List.mem_map_of_mem hword))
    (hkeys ▸ settingsKeys_nodup) hrs
  generalize hstore : setWords app.config.store (settingsWords app.light.capture app.range) = store
    at hrun hheld hcap
  have hram' : RamAgrees mem slot (app.config.withStore store) := ⟨hregions, ⟨rs', hheld⟩, hagrees⟩
  have hlanded : Landed mem (slot (app.config.withStore store).target)
      (app.config.withStore store).savedHeader (app.config.withStore store).store.records w := by
    rcases (wp_returned hrun).mp (hram'.save_spec hslot hwear) with ⟨-, hw⟩ | ⟨hne, -⟩
    · exact hw
    · exact absurd rfl hne
  have hpersisted := persisted_landed hslot hram' hlanded
  have himage : (app.config.withStore store).store.records = image rs' := hheld.records_eq
  rw [himage] at hpersisted
  have hfits : (image rs').length ≤ reboot.length := by
    have hle := hheld.used_le
    rw [hheld.used_eq, hcap] at hle
    exact hle.trans hroom
  obtain ⟨config', hload, hadopted⟩ := persistentConfigLoad_adopts hslot
    (fun hnil => hne (List.eq_nil_of_length_eq_zero hnil)) rfl hpersisted hfits
  have hword (word : CString × UInt32) (hmem : word ∈ settingsWords app.light.capture app.range)
      (fallback : UInt32) : (configGetU32 config'.store (some word.1) fallback).2 =
        recalled app.config.store word.1 word.2 fallback := by
    have husable : Usable word.1 :=
      settingsKeys_usable _ (hkeys ▸ List.mem_map_of_mem hmem)
    rw [configGetU32_word hadopted.holds husable, hwords word hmem, hkeys]
    rfl
  have hbrightness := hword (KEY_LIGHT_BRIGHTNESS, app.light.brightness.toUInt32)
    (.tail _ (.head _)) LIGHT_DEFAULT_BRIGHTNESS.toUInt32
  have hcolor := hword (KEY_LIGHT_RGB, rgbWord app.light.color) (.tail _ (.tail _ (.head _)))
    0xFFFFFF
  have hfirst := hword (KEY_RANGE_FIRST, app.range.first.toUInt32)
    (.tail _ (.tail _ (.tail _ (.tail _ (.tail _ (.tail _ (.head _))))))) 1
  have hlast := hword (KEY_RANGE_LAST, app.range.last.toUInt32)
    (.tail _ (.tail _ (.tail _ (.tail _ (.tail _ (.tail _ (.tail _ (.head _)))))))) app.ledCount.toUInt32
  refine ⟨_, by rw [settingsLoad, hload]; rfl, ?_⟩
  simp only [rebooted, ← hbrightness, ← hcolor, ← hfirst, ← hlast]

/-- On a chip that refuses nothing a run reports success, whatever became of the words. -/
theorem settingsStore_healthy (hslot : slotRegions build = some slot)
    (hram : RamAgrees mem slot app.config)
    (hcode : flashStorageHoldsRunningCode build (slot app.config.target) = false)
    (hcap : app.config.store.capacity ≤ persistentConfigCapacity) :
    ∃ app' w, (settingsStore build app).run.run ⟨mem, [], []⟩ = (some (true, app'), w) := by
  obtain ⟨hregions, ⟨rs, hrs⟩, -⟩ := hram
  subst hregions
  have hkeys := settingsWords_keys app.light.capture app.range
  obtain ⟨rs', hheld, hcap', -, -⟩ := setWords_spec
    (settingsWords app.light.capture app.range)
    (fun word hword => settingsKeys_usable _ (hkeys ▸ List.mem_map_of_mem hword))
    (hkeys ▸ settingsKeys_nodup) hrs
  generalize hstore : setWords app.config.store (settingsWords app.light.capture app.range) = store
    at hheld hcap'
  have hsectors := (slotRegions_spec hslot).1
  have hspace : (app.config.slot 0).size ≠ 0 := by
    rw [(hsectors 0).size_eq]
    norm_num
  have hfits : store.used ≤ persistentConfigCapacity := hheld.used_le.trans (hcap'.trans_le hcap)
  have hrecords : store.records.length = store.used := by
    rw [hheld.records_eq, ← hheld.used_eq]
  obtain ⟨next, w, hrun⟩ := @persistentConfigSave_healthy build (app.config.withStore store) hspace
    (hsectors _) hcode hrecords hfits mem
  refine ⟨{ app with config := next }, w, ?_⟩
  unfold PersistentConfig.withStore at hrun
  have hwp : wp (settingsStore build app) (fun answer t =>
      answer = (true, { app with config := next }) ∧ t = w) (fun _ => False) ⟨mem, [], []⟩ := by
    unfold settingsStore
    rw [hstore]
    exact (wp_bind _ _ _ _ _).mpr ((wp_returned hrun).mpr ⟨rfl, rfl⟩)
  unfold wp at hwp
  rcases hran : (settingsStore build app).run.run ⟨mem, [], []⟩ with ⟨_ | answer, t⟩
  · rw [hran] at hwp
    exact hwp.elim
  · rw [hran] at hwp
    obtain ⟨rfl, rfl⟩ := hwp
    rfl

end saving

section board

variable {build : FlashBuild}

/-- Whatever a board has stored and been through, a save that reports success is what the next load
comes up with exactly when each of the four values finds room, or is the one that a load without it
comes up with. -/
theorem settingsStore_restores_iff {mem : Mem} {buffer : Bytes} {result : PersistentConfigResult}
    {config : PersistentConfig}
    (hload : persistentConfigLoad build mem (some buffer) buffer.length = (result, some config))
    (hresult : result = .ok ∨ result = .errEmpty) {events : List BoardEvent} {board : Board}
    (hrun : Steps (BoardStep build) (Board.loaded mem result config) events board)
    {app app' : SettingsApp} (hconfig : board.config = some app.config)
    (hcount : 0 < app.ledCount.toNat) {first last : UInt32} {moves : List RangeMove}
    (hrange : app.range = moves.foldl LedRange.step (loadRange app.ledCount first last))
    {faults : List FlashFault} (hwear : ∀ bytes, FlashFault.worn bytes ∉ faults) {w : FlashWorld}
    (hsave : (settingsStore build app).run.run ⟨board.mem, faults, []⟩ = (some (true, app'), w))
    {reboot : Bytes} (hroom : app.config.store.capacity ≤ reboot.length) (hne : reboot ≠ []) :
    (∃ loaded, settingsLoad build w.mem reboot app.ledCount = some loaded ∧ Restores app loaded) ↔
      AllRemembered app := by
  obtain ⟨slot, hslot, hstart⟩ := Board.loaded_durable hload hresult
  have hdurable : Durable slot board :=
    hrun.invariant (fun _ _ _ h hstep => h.step hslot hstep) hstart
  have hram := hdurable.ram app.config hconfig
  have hselects : app.range.Selects app.ledCount := by
    rw [hrange]
    exact LedRange.Selects.run hcount first last moves
  obtain ⟨loaded, hloaded, hmodels⟩ := settingsStore_rebooted hslot hram hwear hsave hroom hne
  rw [← restores_iff hselects hmodels]
  constructor
  · rintro ⟨other, hother, hrestores⟩
    obtain rfl := Option.some.inj (hloaded.symm.trans hother)
    exact hrestores
  · intro hrestores
    exact ⟨loaded, hloaded, hrestores⟩

/-- A chip that has never been written, loaded into the application's buffer. -/
def blankConfig : PersistentConfig :=
  freshConfig ((slotRegions defaultBuild).getD fun _ => ⟨0, 0⟩)
    (List.replicate CONFIG_BUFFER_SIZE 0) CONFIG_BUFFER_SIZE

def appWith (config : PersistentConfig) (light : Light) : SettingsApp :=
  { ledCount := 300, light := light, range := loadRange 300 1 300, config := config
    stored := loadStrings config.store }

theorem blankConfig_loaded : persistentConfigLoad defaultBuild (fun _ => erased)
    (some (List.replicate CONFIG_BUFFER_SIZE 0))
    (List.replicate CONFIG_BUFFER_SIZE (0 : UInt8)).length = (.errEmpty, some blankConfig) := by
  rw [List.length_replicate]
  rfl

theorem blankConfig_agrees : ∃ slot, slotRegions defaultBuild = some slot ∧
    RamAgrees (fun _ => erased) slot blankConfig := by
  obtain ⟨slot, hslot, hdurable⟩ := Board.loaded_durable blankConfig_loaded (.inr rfl)
  exact ⟨slot, hslot, hdurable.ram blankConfig rfl⟩

/-- Nothing is stored yet, so every value finds room. -/
theorem settingsStore_restores_blank : ∃ app' w loaded,
    (settingsStore defaultBuild (appWith blankConfig lightInit)).run.run
      ⟨fun _ => erased, [], []⟩ = (some (true, app'), w) ∧
    settingsLoad defaultBuild w.mem (List.replicate CONFIG_BUFFER_SIZE 0) 300 = some loaded ∧
    Restores (appWith blankConfig lightInit) loaded := by
  obtain ⟨slot, hslot, hram⟩ := blankConfig_agrees
  have hcode : flashStorageHoldsRunningCode defaultBuild (slot blankConfig.target) = false := by
    obtain rfl := hram.1
    decide
  obtain ⟨app', w, hsave⟩ := @settingsStore_healthy defaultBuild slot
    (appWith blankConfig lightInit) _ hslot hram hcode (by decide)
  have hroom : (appWith blankConfig lightInit).config.store.capacity ≤
      (List.replicate CONFIG_BUFFER_SIZE (0 : UInt8)).length := by
    rw [List.length_replicate]
    exact le_rfl
  have hiff := @settingsStore_restores_iff defaultBuild _ _ _ _ blankConfig_loaded (.inr rfl) _ _
    (Steps.nil _) (appWith blankConfig lightInit) app' rfl (by decide) 1 300 [] rfl [] (by simp) w
    hsave _ hroom (by decide)
  obtain ⟨loaded, hloaded, hrestores⟩ :=
    hiff.mpr ⟨.inl rfl, .inl (by decide), .inl (by decide), .inl (by decide)⟩
  exact ⟨app', w, loaded, hsave, hloaded, hrestores⟩

/-- Four values that leave seven bytes of the buffer. -/
def fillers : List (CString × ConfigValue) :=
  let long : ConfigValue := ⟨List.replicate 255 120, by rw [List.length_replicate]; exact le_rfl⟩
  [(cstr "a", long), (cstr "b", long), (cstr "c", long),
    (cstr "d", ⟨List.replicate 240 120, by rw [List.length_replicate]; decide⟩)]

def fullConfig : PersistentConfig :=
  blankConfig.withStore (fillers.foldl
    (fun store filler => (configSet store (some filler.1) (some filler.2)).2) blankConfig.store)

def fullApp : SettingsApp := appWith fullConfig (lightInit.setBrightness 10 0)

theorem fullConfig_agrees : ∃ slot, slotRegions defaultBuild = some slot ∧
    RamAgrees (fun _ => erased) slot fullConfig := by
  obtain ⟨slot, hslot, hregions, hholds, hagrees⟩ := blankConfig_agrees
  refine ⟨slot, hslot, hregions, ?_, hagrees⟩
  unfold fullConfig PersistentConfig.withStore
  generalize blankConfig.store = store at hholds
  generalize fillers = fillers
  induction fillers generalizing store with
  | nil => exact hholds
  | cons filler fillers ih =>
    obtain ⟨rs, hrs⟩ := hholds
    exact ih _ (configSet_keeps hrs _ _)

set_option maxRecDepth 100000 in
theorem fullApp_brightness_refused : findsRoom fullConfig.store.capacity
    (recordRoom fullConfig.store) KEY_LIGHT_BRIGHTNESS fullConfig.store.used settingsKeys =
      false := by decide

set_option maxRecDepth 100000 in
/-- Seven bytes are left and the brightness is 10: the save reports success, and the next load comes
up with the default of 128. -/
theorem settingsStore_forgets : ∃ app' w loaded,
    (settingsStore defaultBuild fullApp).run.run ⟨fun _ => erased, [], []⟩ =
      (some (true, app'), w) ∧
    settingsLoad defaultBuild w.mem (List.replicate CONFIG_BUFFER_SIZE 0) 300 = some loaded ∧
    loaded.light.brightness ≠ fullApp.light.brightness := by
  obtain ⟨slot, hslot, hram⟩ := fullConfig_agrees
  have hcapacity : fullApp.config.store.capacity = CONFIG_BUFFER_SIZE := by decide
  have hcode : flashStorageHoldsRunningCode defaultBuild (slot fullApp.config.target) = false := by
    obtain rfl := hram.1
    decide
  obtain ⟨app', w, hsave⟩ := @settingsStore_healthy defaultBuild slot fullApp _ hslot hram hcode
    (by rw [hcapacity]; decide)
  have hroom : fullApp.config.store.capacity ≤
      (List.replicate CONFIG_BUFFER_SIZE (0 : UInt8)).length := by
    rw [List.length_replicate, hcapacity]
  obtain ⟨loaded, hloaded, hmodels⟩ :=
    settingsStore_rebooted hslot hram (by simp) hsave hroom (by decide)
  refine ⟨app', w, loaded, hsave, hloaded, ?_⟩
  rw [(Prod.mk.inj hmodels).1]
  intro hsame
  rcases (rebooted_brightness_iff fullApp).mp hsame with hdefault | hfound
  · exact absurd hdefault (by decide)
  · rw [show fullApp.config = fullConfig from rfl, fullApp_brightness_refused] at hfound
    cases hfound

end board

end Pico
