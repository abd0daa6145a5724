import PicoFramework.Lib.Bits
import PicoFramework.Lib.Numeral
import PicoFramework.Spec.UdpPolicy

/-! IPv4 addresses as text. Of all texts the parser takes exactly those that the formatter
writes, one for each address. -/

namespace Pico

open Lib.Numeral

section octets

/-- The digits of a text as numbers. -/
def digitsOf (text : Bytes) : List ℕ := text.map fun c => c.toNat - 0x30

/-- A decimal numeral 0..255 without leading zeros. -/
structure OctetNumeral (text : Bytes) (octet : UInt8) : Prop where
  digits : ∀ c ∈ text, isDigit c = true
  plain : Lib.Numeral.Plain 10 (digitsOf text)
  value_eq : value 10 0 (digitsOf text) = octet.toNat

variable {text : Bytes}

theorem digit_toNat : ∀ c : UInt8, isDigit c = true →
    (c - 0x30).toNat = c.toNat - 0x30 ∧ c.toNat - 0x30 < 10 ∧ (c.toNat - 0x30 = 0 ↔ c = 0x30) :=
  Lib.Bits.forall_byte (P := fun c => isDigit c = true →
    (c - 0x30).toNat = c.toNat - 0x30 ∧ c.toNat - 0x30 < 10 ∧ (c.toNat - 0x30 = 0 ↔ c = 0x30))
    (by decide)

theorem digitsValue_eq (h : ∀ c ∈ text, isDigit c = true) :
    digitsValue text = value 10 0 (digitsOf text) := by
  unfold digitsValue value digitsOf
  rw [List.foldl_map]
  apply List.foldl_ext
  intro v c hc
  rw [(digit_toNat c (h c hc)).1]

theorem head_digitsOf (h : ∀ c ∈ text, isDigit c = true) :
    (digitsOf text).head? = some 0 ↔ text.head? = some 0x30 := by
  cases text with
  | nil => simp [digitsOf]
  | cons c rest => simpa [digitsOf] using (digit_toNat c (h c List.mem_cons_self)).2.2

theorem plain_iff (h : ∀ c ∈ text, isDigit c = true) :
    Lib.Numeral.Plain 10 (digitsOf text) ↔
      text ≠ [] ∧ ¬(text.head? = some 0x30 ∧ text.length > 1) := by
  constructor
  · intro hplain
    refine ⟨fun hnil => hplain.ne_nil (by rw [hnil]; rfl), ?_⟩
    intro ⟨hzero, hlong⟩
    have hone := hplain.front ((head_digitsOf h).mpr hzero)
    rw [digitsOf, List.length_map] at hone
    omega
  · intro ⟨hne, hfront⟩
    refine ⟨by simpa [digitsOf] using hne, ?_, ?_⟩
    · intro d hd
      obtain ⟨c, hc, rfl⟩ := List.mem_map.mp hd
      exact (digit_toNat c (h c hc)).2.1
    · intro hzero
      have hpos := List.length_pos_of_ne_nil hne
      rw [digitsOf, List.length_map]
      by_contra hlength
      exact hfront ⟨(head_digitsOf h).mp hzero, by omega⟩

/-- What the parser asks of the digits of one octet. -/
def Accepted (text : Bytes) : Prop :=
  (text ≠ [] ∧ ¬(text.head? = some 0x30 ∧ text.length > 1)) ∧ ¬text.length > 3 ∧
    ¬digitsValue text > 255

theorem accepted_iff (h : ∀ c ∈ text, isDigit c = true) :
    Accepted text ↔ Lib.Numeral.Plain 10 (digitsOf text) ∧ value 10 0 (digitsOf text) < 256 := by
  rw [Accepted, ← plain_iff h, digitsValue_eq h]
  constructor
  · intro ⟨hplain, _, hvalue⟩
    exact ⟨hplain, by omega⟩
  · intro ⟨hplain, hvalue⟩
    refine ⟨hplain, fun hlong => ?_, by omega⟩
    have hlength : (digitsOf text).length = text.length := List.length_map _
    have hpow := hplain.pow_le (by omega)
    have hmono := Nat.pow_le_pow_right (n := 10) (by omega)
      (show 3 ≤ (digitsOf text).length - 1 by omega)
    omega

theorem parseOctet_eq_some_iff {octet : UInt8} {rest : Bytes} :
    parseOctet text = some (octet, rest) ↔
      OctetNumeral (text.takeWhile isDigit) octet ∧ rest = text.dropWhile isDigit := by
  have hdigits : ∀ c ∈ text.takeWhile isDigit, isDigit c = true := fun c hc =>
    List.mem_takeWhile_imp hc
  have hvalue := digitsValue_eq hdigits
  have hchecks : parseOctet text = some (octet, rest) ↔ Accepted (text.takeWhile isDigit) ∧
      UInt8.ofNat (digitsValue (text.takeWhile isDigit)) = octet ∧
      text.dropWhile isDigit = rest := by
    unfold parseOctet spanDigits Accepted
    dsimp only
    split_ifs <;> simp_all
  rw [hchecks, accepted_iff hdigits, hvalue]
  constructor
  · intro ⟨⟨hplain, hlt⟩, hoctet, hrest⟩
    refine ⟨⟨hdigits, hplain, ?_⟩, hrest.symm⟩
    rw [← hoctet, UInt8.toNat_ofNat', Nat.mod_eq_of_lt hlt]
  · intro ⟨hnumeral, hrest⟩
    have hlt := octet.toNat_lt
    rw [← hnumeral.value_eq] at hlt
    refine ⟨⟨hnumeral.plain, hlt⟩, ?_, hrest.symm⟩
    rw [hnumeral.value_eq, UInt8.ofNat_toNat]

theorem octetText_checks : ∀ octet : UInt8, (octetText octet).all isDigit = true ∧
    (octetText octet ≠ [] ∧ ¬((octetText octet).head? = some 0x30 ∧ (octetText octet).length > 1)) ∧
    digitsValue (octetText octet) = octet.toNat ∧ (octetText octet).length ≤ 3 :=
  Lib.Bits.forall_byte (P := fun octet => (octetText octet).all isDigit = true ∧
    (octetText octet ≠ [] ∧ ¬((octetText octet).head? = some 0x30 ∧ (octetText octet).length > 1)) ∧
    digitsValue (octetText octet) = octet.toNat ∧ (octetText octet).length ≤ 3)
    (by decide)

theorem octetNumeral_octetText (octet : UInt8) : OctetNumeral (octetText octet) octet := by
  obtain ⟨hall, hplain, hvalue, -⟩ := octetText_checks octet
  have hdigits := List.all_eq_true.mp hall
  exact ⟨hdigits, (plain_iff hdigits).mpr hplain, (digitsValue_eq hdigits).symm.trans hvalue⟩

theorem octetNumeral_iff {octet : UInt8} : OctetNumeral text octet ↔ text = octetText octet := by
  constructor
  · intro h
    have hown := octetNumeral_octetText octet
    have hsame := h.plain.eq_of_value (by decide) hown.plain (h.value_eq.trans hown.value_eq.symm)
    have hback : ∀ c : UInt8, isDigit c = true → UInt8.ofNat (c.toNat - 0x30 + 0x30) = c :=
      Lib.Bits.forall_byte (P := fun c => isDigit c = true → UInt8.ofNat (c.toNat - 0x30 + 0x30) = c)
        (by decide)
    have hread : ∀ {t : Bytes}, (∀ c ∈ t, isDigit c = true) →
        (digitsOf t).map (fun d => UInt8.ofNat (d + 0x30)) = t := by
      intro t ht
      rw [digitsOf, List.map_map]
      exact (List.map_congr_left fun c hc => hback c (ht c hc)).trans (List.map_id t)
    rw [← hread h.digits, hsame, hread hown.digits]
  · intro h
    rw [h]
    exact octetNumeral_octetText octet

end octets

section addresses

/-- The text does not go on with a digit. -/
def Stops (text : Bytes) : Prop := ∀ c ∈ text.head?, isDigit c = false

theorem takeWhile_digits {digits rest : Bytes} (hdigits : ∀ c ∈ digits, isDigit c = true)
    (hrest : Stops rest) : (digits ++ rest).takeWhile isDigit = digits ∧
      (digits ++ rest).dropWhile isDigit = rest := by
  rw [List.takeWhile_append_of_pos hdigits, List.dropWhile_append_of_pos hdigits]
  cases rest with
  | nil => simp
  | cons c rest =>
    have hc := hrest c rfl
    simp [hc]

theorem parseOctet_iff {text rest : Bytes} {octet : UInt8} :
    parseOctet text = some (octet, rest) ↔ text = octetText octet ++ rest ∧ Stops rest := by
  rw [parseOctet_eq_some_iff, octetNumeral_iff]
  constructor
  · intro ⟨hdigits, hrest⟩
    refine ⟨by rw [← hdigits, hrest, List.takeWhile_append_dropWhile], fun c hc => ?_⟩
    subst hrest
    have hne : text.dropWhile isDigit ≠ [] := by
      intro hnil
      rw [hnil] at hc
      exact nomatch hc
    have hhead := List.head_dropWhile_not isDigit hne
    rw [List.head?_eq_some_head hne] at hc
    rwa [← Option.some.inj hc]
  · intro ⟨htext, hrest⟩
    obtain ⟨htake, hdrop⟩ := takeWhile_digits (octetNumeral_octetText octet).digits hrest
    rw [htext]
    exact ⟨htake, hdrop.symm⟩

theorem parseDotOctet_iff {text rest : Bytes} {octet : UInt8} :
    parseDotOctet text = some (octet, rest) ↔ text = 0x2E :: (octetText octet ++ rest) ∧ Stops rest := by
  cases text with
  | nil => simp [parseDotOctet]
  | cons c text =>
    by_cases hdot : c = 0x2E
    · simp [parseDotOctet, hdot, parseOctet_iff]
    · simp [parseDotOctet, hdot]

theorem stops_dot (rest : Bytes) : Stops (0x2E :: rest) := by
  intro c hc
  obtain rfl : 0x2E = c := Option.some.inj hc
  rfl

theorem stops_nil : Stops [] := fun _ hc => nomatch hc

theorem udpIpv4Parse_iff {text : CString} {address : Ipv4} :
    udpIpv4Parse (some text) = some address ↔ text.bytes = ipv4Text address := by
  unfold udpIpv4Parse ipv4Text
  simp only [Option.bind_eq_bind, Option.bind_some, Option.bind_eq_some_iff, Prod.exists,
    parseOctet_iff, parseDotOctet_iff, Option.ite_none_right_eq_some, Option.some.injEq]
  constructor
  · rintro ⟨a, _, ⟨htext, -⟩, b, _, ⟨rfl, -⟩, c, _, ⟨rfl, -⟩, d, _, ⟨rfl, -⟩, rfl, rfl⟩
    rw [htext, List.append_nil]
  · intro htext
    refine ⟨address.a, _, ⟨htext, stops_dot _⟩, address.b, _, ⟨rfl, stops_dot _⟩, address.c, _,
      ⟨rfl, stops_dot _⟩, address.d, [], ⟨?_, stops_nil⟩, rfl, rfl⟩
    rw [List.append_nil]

theorem ipv4Text_length (address : Ipv4) : (ipv4Text address).length < UDP_ADDRESS_LENGTH := by
  obtain ⟨-, -, -, ha⟩ := octetText_checks address.a
  obtain ⟨-, -, -, hb⟩ := octetText_checks address.b
  obtain ⟨-, -, -, hc⟩ := octetText_checks address.c
  obtain ⟨-, -, -, hd⟩ := octetText_checks address.d
  simp only [ipv4Text, List.length_append, List.length_cons, UDP_ADDRESS_LENGTH]
  omega

theorem ipv4Text_nul_free (address : Ipv4) : 0 ∉ ipv4Text address := by
  have hfree : ∀ octet : UInt8, 0 ∉ octetText octet := by
    intro octet hmem
    have hdigit := (octetNumeral_octetText octet).digits 0 hmem
    exact absurd hdigit (by decide)
  simp [ipv4Text, hfree]

/-- A buffer of `UDP_ADDRESS_LENGTH` bytes takes every address. -/
theorem udpIpv4Format_eq (address : Ipv4) {out : Bytes} (hroom : UDP_ADDRESS_LENGTH ≤ out.length) :
    udpIpv4Format address out = ((ipv4Text address).length,
      ipv4Text address ++ 0 :: out.drop ((ipv4Text address).length + 1)) := by
  have hlength := ipv4Text_length address
  have hkept : (ipv4Text address).take (out.length - 1) = ipv4Text address :=
    List.take_of_length_le (by omega)
  rw [udpIpv4Format, if_neg (by rw [UDP_ADDRESS_LENGTH] at hroom; omega)]
  simp only [printInto, hkept]
  rw [if_neg (by omega)]

theorem bufferString_format (address : Ipv4) {out : Bytes}
    (hroom : UDP_ADDRESS_LENGTH ≤ out.length) :
    (bufferString (udpIpv4Format address out).2).bytes = ipv4Text address := by
  have hfree : ∀ c ∈ ipv4Text address, decide (c ≠ 0) = true := by
    intro c hc
    refine decide_eq_true fun hzero => ipv4Text_nul_free address ?_
    rwa [← hzero]
  rw [udpIpv4Format_eq address hroom]
  change List.takeWhile _ _ = _
  rw [List.takeWhile_append_of_pos hfree, List.takeWhile_cons_of_neg (by simp), List.append_nil]

/-- Four numerals 0..255 without leading zeros, with dots between them. -/
def DottedQuad (text : Bytes) (address : Ipv4) : Prop :=
  ∃ w x y z, OctetNumeral w address.a ∧ OctetNumeral x address.b ∧ OctetNumeral y address.c ∧
    OctetNumeral z address.d ∧ text = w ++ 0x2E :: (x ++ 0x2E :: (y ++ 0x2E :: z))

theorem dottedQuad_iff {text : Bytes} {address : Ipv4} :
    DottedQuad text address ↔ text = ipv4Text address := by
  unfold DottedQuad ipv4Text
  simp only [octetNumeral_iff]
  constructor
  · intro ⟨_, _, _, _, ha, hb, hc, hd, htext⟩
    rw [htext, ha, hb, hc, hd]
  · intro htext
    exact ⟨_, _, _, _, rfl, rfl, rfl, rfl, htext⟩

theorem udpIpv4ParseInto_cases (text : CString) (out : Ipv4) :
    (∃ address, DottedQuad text.bytes address ∧ udpIpv4ParseInto (some text) out = (true, address)) ∨
      (¬ ∃ address, DottedQuad text.bytes address) ∧
        udpIpv4ParseInto (some text) out = (false, out) := by
  unfold udpIpv4ParseInto
  cases hparse : udpIpv4Parse (some text) with
  | some address => exact .inl ⟨address, dottedQuad_iff.mpr (udpIpv4Parse_iff.mp hparse), rfl⟩
  | none =>
    refine .inr ⟨?_, rfl⟩
    intro ⟨address, hquad⟩
    have hsome := udpIpv4Parse_iff.mpr (dottedQuad_iff.mp hquad)
    exact absurd (hparse.symm.trans hsome) nofun

end addresses

/-- IPv4 text and bytes are inverse: exactly the dotted quads are taken, each for the address that
it spells and nothing else touching the output; an address that is formatted is parsed back, and a
text that is parsed is formatted back. -/
theorem udp_ipv4_inverse :
    (∀ (text : CString) (out : Ipv4),
      let parsed := udpIpv4ParseInto (some text) out
      (parsed.1 = true ↔ ∃ address, DottedQuad text.bytes address) ∧
        (∀ address, DottedQuad text.bytes address → parsed.2 = address) ∧
        (parsed.1 = false → parsed.2 = out)) ∧
    (∀ (address : Ipv4) (buffer : Bytes) (out : Ipv4), UDP_ADDRESS_LENGTH ≤ buffer.length →
      udpIpv4ParseInto (some (bufferString (udpIpv4Format address buffer).2)) out =
        (true, address)) ∧
    ∀ (text : CString) (out : Ipv4) (buffer : Bytes), UDP_ADDRESS_LENGTH ≤ buffer.length →
      let parsed := udpIpv4ParseInto (some text) out
      parsed.1 = true →
        udpIpv4Format parsed.2 buffer =
            (text.length, text.bytes ++ 0 :: buffer.drop (text.length + 1)) ∧
          bufferString (udpIpv4Format parsed.2 buffer).2 = text := by
  refine ⟨fun text out => ?_, fun address buffer out hroom => ?_, fun text out buffer hroom => ?_⟩
  · rcases udpIpv4ParseInto_cases text out with ⟨address, hquad, hparse⟩ | ⟨hno, hparse⟩
    · rw [hparse]
      refine ⟨iff_of_true rfl ⟨address, hquad⟩, fun other hother => ?_, nofun⟩
      have hsame := (udpIpv4Parse_iff.mpr (dottedQuad_iff.mp hquad)).symm.trans
        (udpIpv4Parse_iff.mpr (dottedQuad_iff.mp hother))
      exact Option.some.inj hsame
    · rw [hparse]
      exact ⟨iff_of_false nofun hno, fun address hquad => absurd ⟨address, hquad⟩ hno, fun _ => rfl⟩
  · rw [udpIpv4ParseInto, udpIpv4Parse_iff.mpr (bufferString_format address hroom)]
  · rcases udpIpv4ParseInto_cases text out with ⟨address, hquad, hparse⟩ | ⟨hno, hparse⟩
    · rw [hparse]
      intro parsed _
      have htext := dottedQuad_iff.mp hquad
      refine ⟨?_, cstring_eq.mpr ((bufferString_format address hroom).trans htext.symm)⟩
      rw [CString.length, htext]
      exact udpIpv4Format_eq address hroom
    · rw [hparse]
      exact fun h => absurd h nofun

end Pico
