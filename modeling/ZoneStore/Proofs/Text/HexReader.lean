import ZoneStore.Proofs.Text.Numerals
import ZoneStore.Text.HexReader

/-!
# Hexadecimal octets and their digits

Whatever has been read, a reader has the octets that the digits so far
denote, two by two, and the value of the last digit if it stands alone. White
space changes nothing in this, also between the two digits of an octet, and
every character that is neither a blank nor a digit ends the reading.
-/

namespace ZoneStore.Text

def withoutBlanks (text : List Char) : List Char :=
  text.filter fun c => !isAsciiBlank c

/-! ## Digits two by two -/

theorem HexOctets.unique {digits : List Char} {octets others : List UInt8}
    (h : HexOctets digits octets) (hOther : HexOctets digits others) : octets = others := by
  induction h generalizing others with
  | nil =>
    cases hOther
    rfl
  | @cons _ _ octet _ _ hHigh hLow _ ih =>
    cases hOther with
    | @cons _ _ other _ _ hHigh' hLow' hRest' =>
      have hUpper := hHigh.unique hHigh'
      have hLower := hLow.unique hLow'
      have hOctet : octet = other := UInt8.toNat_inj.mp (by omega)
      rw [hOctet, ih hRest']

theorem HexOctets.append {digits more : List Char} {octets others : List UInt8}
    (h : HexOctets digits octets) (hMore : HexOctets more others) :
    HexOctets (digits ++ more) (octets ++ others) := by
  induction h with
  | nil => exact hMore
  | cons hHigh hLow _ ih => exact .cons hHigh hLow ih

theorem hexOctets_pair {high low : Char} {upper lower : UInt8}
    (hHigh : IsHexDigit high upper.toNat) (hLow : IsHexDigit low lower.toNat) :
    HexOctets [high, low] [upper <<< 4 ||| lower] := by
  have hAll : ∀ u < 16, ∀ l < 16, (UInt8.ofNat u <<< 4 ||| UInt8.ofNat l).toNat = 16 * u + l := by
    decide
  have hJoined := hAll _ hHigh.lt _ hLow.lt
  have hHighLt := hHigh.lt
  have hLowLt := hLow.lt
  rw [UInt8.ofNat_toNat, UInt8.ofNat_toNat] at hJoined
  refine .cons ?_ ?_ .nil
  · rwa [hJoined, show (16 * upper.toNat + lower.toNat) / 16 = upper.toNat by omega]
  · rwa [hJoined, show (16 * upper.toNat + lower.toNat) % 16 = lower.toNat by omega]

/-! ## Octets and characters -/

theorem isAscii_of_isAsciiBlank {c : Char} (h : isAsciiBlank c = true) : c.toNat < 128 := by
  simp only [isAsciiBlank, Bool.or_eq_true, beq_iff_eq] at h
  rcases h with (((rfl | rfl) | rfl) | rfl) | rfl <;> decide

theorem isBlankOctet_of_le {octet : UInt8} (h : 128 ≤ octet) : isBlankOctet octet = false := by
  rw [← Bool.not_eq_true]
  intro hBlank
  simp only [isBlankOctet, Bool.or_eq_true, beq_iff_eq] at hBlank
  rcases hBlank with (((rfl | rfl) | rfl) | rfl) | rfl <;> exact absurd h (by decide)

theorem nibbleOf_of_le {octet : UInt8} (h : 128 ≤ octet) : nibbleOf octet = none := by
  have hAbove : ∀ {low high : UInt8}, high < 128 → ¬(low ≤ octet ∧ octet ≤ high) :=
    fun hHigh hOctet => UInt8.not_le.mpr hHigh (UInt8.le_trans h hOctet.2)
  rw [nibbleOf, if_neg (hAbove (by decide)), if_neg (hAbove (by decide)),
    if_neg (hAbove (by decide))]

/-- The first octet of a character decides what it is, and an ASCII character has no other. -/
theorem exists_utf8EncodeChar_eq_cons (c : Char) :
    ∃ octet rest, String.utf8EncodeChar c = octet :: rest ∧
      isBlankOctet octet = isAsciiBlank c ∧ nibbleOf octet = hexValue c ∧
      (c.toNat < 128 → rest = []) := by
  rcases Nat.lt_or_ge c.toNat 128 with hAscii | hOther
  · refine ⟨_, [], utf8EncodeChar_of_lt hAscii, ?_, ?_, fun _ => rfl⟩
    · revert c
      exact forall_ascii (by decide +kernel)
    · revert c
      exact forall_ascii (by decide +kernel)
  · obtain ⟨first, second, rest, hEncode, hFirst, -⟩ := utf8EncodeChar_of_le hOther
    have hBlank : isAsciiBlank c = false := by
      rw [← Bool.not_eq_true]
      exact fun hBlank => Nat.not_le_of_lt (isAscii_of_isAsciiBlank hBlank) hOther
    have hValue : hexValue c = none := by
      refine Option.eq_none_iff_forall_ne_some.mpr fun value hValue => ?_
      exact Nat.not_le_of_lt (isAscii_of_hexValue hValue) hOther
    exact ⟨first, second :: rest, hEncode, (isBlankOctet_of_le hFirst).trans hBlank.symm,
      (nibbleOf_of_le hFirst).trans hValue.symm, fun hAscii => absurd hAscii (Nat.not_lt.mpr hOther)⟩

/-! ## What a reader has read -/

namespace HexReader

variable {reader next : HexReader} {digits text : List Char} {octets : List UInt8}

/-- The digits so far denote the octets, but for one digit that may stand alone behind them. -/
inductive HasRead : HexReader → List Char → Prop where
  | paired {digits : List Char} {octets : List UInt8} (hDigits : HexOctets digits octets) :
      HasRead ⟨octets, none⟩ digits
  | pending {digits : List Char} {octets : List UInt8} {c : Char} {high : UInt8}
      (hDigits : HexOctets digits octets) (hHigh : IsHexDigit c high.toNat) :
      HasRead ⟨octets, some high⟩ (digits ++ [c])

theorem HasRead.take {c : Char} {nibble : UInt8} (h : reader.HasRead digits)
    (hDigit : IsHexDigit c nibble.toNat) : (reader.take nibble).HasRead (digits ++ [c]) := by
  cases h with
  | paired hDigits => exact .pending hDigits hDigit
  | pending hDigits hHigh =>
    rw [List.append_assoc]
    exact .paired (hDigits.append (hexOctets_pair hHigh hDigit))

theorem HasRead.finish_eq_some_iff (h : reader.HasRead digits) :
    reader.finish = some octets ↔ HexOctets digits octets := by
  cases h with
  | paired hDigits =>
    constructor
    · rintro ⟨⟩
      exact hDigits
    · intro hOctets
      rw [hDigits.unique hOctets]
      rfl
  | pending hDigits _ =>
    refine iff_of_false nofun fun hOctets => ?_
    have hOdd := hOctets.length_eq
    rw [List.length_append, hDigits.length_eq] at hOdd
    simp only [List.length_singleton] at hOdd
    omega

/-- A blank leaves the reader as it is, a digit is taken, and nothing else is read. -/
theorem HasRead.run_char (h : reader.HasRead digits) (c : Char) (rest : List UInt8) :
    (∃ next : HexReader, reader.run (String.utf8EncodeChar c ++ rest) = next.run rest ∧
        next.HasRead (digits ++ withoutBlanks [c])) ∨
      reader.run (String.utf8EncodeChar c ++ rest) = none ∧
        ∃ d ∈ withoutBlanks [c], ∀ value, ¬IsHexDigit d value := by
  obtain ⟨octet, more, hEncode, hBlankOctet, hNibble, hMore⟩ := exists_utf8EncodeChar_eq_cons c
  rw [hEncode, List.cons_append, run, step, hBlankOctet, hNibble]
  cases hBlank : isAsciiBlank c with
  | true =>
    rw [hMore (isAscii_of_isAsciiBlank hBlank)]
    exact .inl ⟨reader, rfl, by simpa [withoutBlanks, hBlank] using h⟩
  | false =>
    have hOnly : withoutBlanks [c] = [c] := by simp [withoutBlanks, hBlank]
    rw [hOnly]
    cases hValue : hexValue c with
    | some nibble =>
      rw [hMore (isAscii_of_hexValue hValue)]
      exact .inl ⟨reader.take nibble, rfl, h.take (hexValue_eq_some_iff.mp hValue)⟩
    | none =>
      exact .inr ⟨rfl, c, List.mem_singleton_self c, hexValue_eq_none_iff.mp hValue⟩

theorem HasRead.run_cases (h : reader.HasRead digits) (text : List Char) :
    (∃ last : HexReader, reader.run (octetsOf text) = some last ∧
        last.HasRead (digits ++ withoutBlanks text)) ∨
      reader.run (octetsOf text) = none ∧
        ∃ c ∈ withoutBlanks text, ∀ value, ¬IsHexDigit c value := by
  induction text generalizing reader digits with
  | nil => exact .inl ⟨reader, rfl, by simpa [withoutBlanks] using h⟩
  | cons c text ih =>
    have hSplit : withoutBlanks (c :: text) = withoutBlanks [c] ++ withoutBlanks text := by
      rw [withoutBlanks, ← List.singleton_append, List.filter_append]
      rfl
    rw [octetsOf_cons, hSplit]
    obtain ⟨next, hRun, hNext⟩ | ⟨hRun, d, hMem, hOther⟩ := h.run_char c (octetsOf text)
    · rw [hRun, ← List.append_assoc]
      obtain hLast | ⟨hNone, d, hMem, hOther⟩ := ih hNext
      · exact .inl hLast
      · exact .inr ⟨hNone, d, List.mem_append_right _ hMem, hOther⟩
    · exact .inr ⟨hRun, d, List.mem_append_left _ hMem, hOther⟩

end HexReader

/-! ## Reading -/

theorem decodeStored_eq_some_iff {text : List Char} {octets : List UInt8} :
    decodeStored (octetsOf text) = some octets ↔ HexOctets (withoutBlanks text) octets := by
  have hStart : HexReader.start.HasRead [] := .paired .nil
  rw [decodeStored]
  obtain ⟨last, hRun, hLast⟩ | ⟨hRun, c, hMem, hOther⟩ := hStart.run_cases text
  · rw [hRun]
    exact hLast.finish_eq_some_iff
  · rw [hRun]
    refine iff_of_false nofun fun hOctets => ?_
    obtain ⟨value, hDigit⟩ := hOctets.isHexDigit c hMem
    exact hOther value hDigit

theorem decodeStored_eq (text : List Char) : decodeStored (octetsOf text) = decodeHex text := by
  refine Option.ext fun octets => ?_
  rw [decodeStored_eq_some_iff, decodeHex_eq_some_iff]
  rfl

theorem exists_decodeHex_iff {text : List Char} :
    (∃ octets, decodeHex text = some octets) ↔
      2 ∣ (withoutBlanks text).length ∧
        ∀ c ∈ withoutBlanks text, ∃ value, IsHexDigit c value := by
  constructor
  · rintro ⟨octets, hRead⟩
    have hOctets := decodeHex_eq_some_iff.mp hRead
    exact ⟨⟨_, hOctets.length_eq⟩, hOctets.isHexDigit⟩
  · rintro ⟨⟨_, hLength⟩, hDigits⟩
    obtain ⟨octets, -, hOctets⟩ := exists_hexOctets hLength hDigits
    exact ⟨octets, decodeHex_eq_some_iff.mpr hOctets⟩

theorem decodeHex_eq_none {text : List Char} {c : Char} (hMem : c ∈ text) (hc : 128 ≤ c.toNat) :
    decodeHex text = none := by
  refine Option.eq_none_iff_forall_ne_some.mpr fun octets hRead => ?_
  have hKept : c ∈ withoutBlanks text := by
    refine List.mem_filter.mpr ⟨hMem, ?_⟩
    rw [Bool.not_eq_true', ← Bool.not_eq_true]
    exact fun hBlank => Nat.not_le_of_lt (isAscii_of_isAsciiBlank hBlank) hc
  obtain ⟨value, hDigit⟩ := (decodeHex_eq_some_iff.mp hRead).isHexDigit c hKept
  exact Nat.not_le_of_lt hDigit.isAscii hc

/-! ## Writing -/

theorem hexDigitOf_eq_ok {nibble : UInt8} {value : Fin 16} (h : nibble.toNat = value) :
    hexDigitOf nibble = .ok (hexDigit value) := by
  rw [hexDigitOf, dif_pos (h ▸ value.isLt)]
  exact congrArg _ (congrArg hexDigit (Fin.ext h))

theorem writeOctet_eq (octet : UInt8) : writeOctet octet = .ok (hexPair octet) := by
  have hHigh : (octet >>> 4).toNat = highNibble octet := by
    rw [UInt8.toNat_shiftRight]
    exact Nat.shiftRight_eq_div_pow _ 4
  have hLow : (octet &&& 0xF).toNat = lowNibble octet := by
    rw [UInt8.toNat_and]
    exact Nat.and_two_pow_sub_one_eq_mod _ 4
  rw [writeOctet, hexDigitOf_eq_ok hHigh, hexDigitOf_eq_ok hLow]
  rfl

theorem writeOctets_eq (octets : List UInt8) : writeOctets octets = .ok (encodeHex octets) := by
  induction octets with
  | nil => rfl
  | cons octet octets ih =>
    rw [writeOctets, writeOctet_eq, ih]
    rfl

/-! ## Reading what is written -/

/-- What a text is read as, from its characters and from its octets. -/
structure ReadsHexPairs (text : List Char) : Prop where
  ok_iff : ∀ octets, decodeHex text = some octets ↔ HexOctets (withoutBlanks text) octets
  accepted_iff : (∃ octets, decodeHex text = some octets) ↔
    2 ∣ (withoutBlanks text).length ∧ ∀ c ∈ withoutBlanks text, ∃ value, IsHexDigit c value
  not_ascii : ∀ c ∈ text, 128 ≤ c.toNat → decodeHex text = none
  stored : decodeStored (octetsOf text) = decodeHex text

/-- Digits are read two by two whatever white space there is, so that octets are read back from
whatever differs from their digits in letter case and white space only. -/
theorem hex_read_in_pairs :
    (∀ text, ReadsHexPairs text) ∧
      ∀ octets, ∃ digits, writeOctets octets = .ok digits ∧
        ∀ text, lower (withoutBlanks text) = lower digits → decodeHex text = some octets := by
  constructor
  · exact fun text =>
      { ok_iff := fun _ => decodeHex_eq_some_iff
        accepted_iff := exists_decodeHex_iff
        not_ascii := fun _ hMem hc => decodeHex_eq_none hMem hc
        stored := decodeStored_eq text }
  · intro octets
    refine ⟨encodeHex octets, writeOctets_eq octets, fun text hText => ?_⟩
    rw [decodeHex_eq_some_iff]
    exact (hexOctets_encodeHex octets).of_lower_eq hText.symm

example : decodeStored (octetsOf "aB 0\n1".toList) = some [0xAB, 0x01] := by
  decide

end ZoneStore.Text
