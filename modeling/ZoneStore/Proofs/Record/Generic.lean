import ZoneStore.Proofs.Record.Presentation
import ZoneStore.Proofs.Text.Numerals
import ZoneStore.Proofs.Text.Trimming

/-!
# Data in the generic form

A text whose first field is `\#` is read as the octets that it denotes: a
numeral says how many there are, and the other fields hold their digits.
The type that the data is read for does not count.
-/

namespace ZoneStore

open Text

namespace Rdata

variable {text : List Char}

def genericMark : List Char := ['\\', '#']

/-- The octets that a text in the generic form denotes; its digits may be in any fields. -/
def IsGenericForm (text : List Char) (octets : List UInt8) : Prop :=
  ∃ number digits, fields text = genericMark :: number :: digits ∧
    IsNumeral number octets.length ∧ HexOctets digits.flatten octets

theorem isGeneric_of_head? (hMark : (fields text).head? = some genericMark) :
    isGeneric text = true := by
  obtain ⟨more, hFields⟩ := List.head?_eq_some_iff.mp hMark
  obtain ⟨blanks, rest, rfl, hBlanks⟩ := exists_of_fields_eq_cons hFields
  have hTrim : trimStart (blanks ++ (genericMark ++ rest)) = genericMark ++ rest := by
    rw [trimStart_append_of_isAsciiBlank hBlanks]
    exact trimStart_cons_of_not_isBlank (by decide) _
  rw [isGeneric, hTrim]
  rfl

theorem ofChars_eq_ofGeneric (type : RecordType) (hMark : (fields text).head? = some genericMark) :
    ofChars type text = ofGeneric ((fields text).drop 1) :=
  if_pos (isGeneric_of_head? hMark)

theorem checkLength_eq_ok_iff {octets : List UInt8} {rdata : Rdata} :
    checkLength octets = .ok rdata ↔ rdata.octets = octets := by
  unfold checkLength ofOctets?
  constructor
  · intro hCheck
    split at hCheck
    · rename_i hSome
      split at hSome
      · cases hSome
        cases hCheck
        rfl
      · cases hSome
    · cases hCheck
  · rintro rfl
    rw [dif_pos rdata.length_le]

/-- The number is compared with the octets, and their number with the limit. -/
theorem ofGeneric_eq_ok_iff {number : List Char} {digits : List (List Char)} {rdata : Rdata} :
    ofGeneric (number :: digits) = .ok rdata ↔
      IsNumeral number rdata.octets.length ∧ decodeHex digits.flatten = some rdata.octets := by
  rw [ofGeneric]
  constructor
  · intro hRead
    split at hRead
    · rename_i length octets hNumber hDigits
      split at hRead
      · rename_i hLength
        obtain rfl := checkLength_eq_ok_iff.mp hRead
        rw [hLength]
        exact ⟨(readUnsigned_eq_some_iff.mp hNumber).1, hDigits⟩
      · cases hRead
    · cases hRead
  · rintro ⟨hNumber, hDigits⟩
    have hRead : readUnsigned maxGenericLength number = some rdata.octets.length :=
      readUnsigned_eq_some_iff.mpr ⟨hNumber, Nat.le_trans rdata.length_le (by decide)⟩
    rw [hRead, hDigits]
    dsimp only
    rw [if_pos rfl]
    exact checkLength_eq_ok_iff.mpr rfl

/-- No blank is left among the digits of the fields. -/
theorem decodeHex_flatten_eq_some_iff {digits : List (List Char)} {octets : List UInt8}
    (hDigits : ∀ field ∈ digits, field ∈ fields text) :
    decodeHex digits.flatten = some octets ↔ HexOctets digits.flatten octets := by
  refine decodeHex_eq_some_iff_of_no_blank fun c hc => ?_
  obtain ⟨field, hField, hChar⟩ := List.mem_flatten.mp hc
  exact not_isAsciiBlank_of_mem_fields (hDigits field hField) c hChar

theorem ofChars_eq_ok_iff (type : RecordType) (hMark : (fields text).head? = some genericMark)
    {rdata : Rdata} : ofChars type text = .ok rdata ↔ IsGenericForm text rdata.octets := by
  rw [ofChars_eq_ofGeneric type hMark, IsGenericForm]
  obtain ⟨more, hFields⟩ := List.head?_eq_some_iff.mp hMark
  have hMem : ∀ field ∈ more, field ∈ fields text :=
    fun field hField => hFields ▸ List.mem_cons_of_mem _ hField
  rw [hFields, List.drop_succ_cons, List.drop_zero]
  cases more with
  | nil =>
    constructor
    · rintro ⟨⟩
    · rintro ⟨_, _, ⟨⟩, _⟩
  | cons number digits =>
    rw [ofGeneric_eq_ok_iff,
      decodeHex_flatten_eq_some_iff (List.forall_mem_cons.mp hMem).2]
    constructor
    · exact fun ⟨hNumber, hDigits⟩ => ⟨number, digits, rfl, hNumber, hDigits⟩
    · rintro ⟨_, _, ⟨⟩, hNumber, hDigits⟩
      exact ⟨hNumber, hDigits⟩

/-- Digits that differ in case and layout only are decoded alike. -/
theorem decodeHex_flatten_congr {texts others : List Char} {digits laidOut : List (List Char)}
    (hDigits : ∀ field ∈ digits, field ∈ fields texts)
    (hLaidOut : ∀ field ∈ laidOut, field ∈ fields others)
    (hSame : lower laidOut.flatten = lower digits.flatten) :
    decodeHex laidOut.flatten = decodeHex digits.flatten := by
  apply Option.ext
  intro octets
  rw [decodeHex_flatten_eq_some_iff hDigits, decodeHex_flatten_eq_some_iff hLaidOut]
  exact ⟨fun hOctets => hOctets.of_lower_eq hSame, fun hOctets => hOctets.of_lower_eq hSame.symm⟩

theorem ofGeneric_congr {texts others : List Char}
    (hNumber : (fields others)[1]? = (fields texts)[1]?)
    (hDigits : lower ((fields others).drop 2).flatten = lower ((fields texts).drop 2).flatten) :
    ofGeneric ((fields others).drop 1) = ofGeneric ((fields texts).drop 1) := by
  have hDecode : decodeHex ((fields others).drop 2).flatten =
      decodeHex ((fields texts).drop 2).flatten :=
    decodeHex_flatten_congr (fun _ => List.mem_of_mem_drop) (fun _ => List.mem_of_mem_drop) hDigits
  have hTail : ∀ parts : List (List Char), parts.drop 2 = (parts.drop 1).tail :=
    fun parts => by rw [List.tail_drop]
  rw [hTail, hTail] at hDecode
  rw [← List.head?_drop, ← List.head?_drop] at hNumber
  generalize (fields others).drop 1 = laidOut at hNumber hDecode ⊢
  generalize (fields texts).drop 1 = parts at hNumber hDecode ⊢
  cases laidOut with
  | nil => rw [List.head?_eq_none_iff.mp hNumber.symm]
  | cons number digits =>
    obtain ⟨more, rfl⟩ := List.head?_eq_some_iff.mp hNumber.symm
    rw [List.tail_cons, List.tail_cons] at hDecode
    rw [ofGeneric, ofGeneric, hDecode]

/-- What a text in the generic form is read as, and what does not matter to it. -/
structure ReadsGeneric (type : RecordType) (text : String) : Prop where
  accepted_iff : (∃ rdata, ofText type text = .ok rdata) ↔
    ∃ number digits count, fields text.toList = genericMark :: number :: digits ∧
      IsNumeral number count ∧ count ≤ maxRdataLength ∧ digits.flatten.length = 2 * count ∧
      ∀ c ∈ digits.flatten, ∃ value, IsHexDigit c value
  denoted : ∀ rdata, ofText type text = .ok rdata →
    HexOctets ((fields text.toList).drop 2).flatten rdata.octets
  unchanged : ∀ (other : RecordType) (laidOut : String),
    (fields laidOut.toList).head? = some genericMark →
    (fields laidOut.toList)[1]? = (fields text.toList)[1]? →
    lower ((fields laidOut.toList).drop 2).flatten = lower ((fields text.toList).drop 2).flatten →
    ofText other laidOut = ofText type text

theorem exists_isGenericForm_iff :
    (∃ rdata : Rdata, IsGenericForm text rdata.octets) ↔
      ∃ number digits count, fields text = genericMark :: number :: digits ∧
        IsNumeral number count ∧ count ≤ maxRdataLength ∧ digits.flatten.length = 2 * count ∧
        ∀ c ∈ digits.flatten, ∃ value, IsHexDigit c value := by
  constructor
  · rintro ⟨rdata, number, digits, hFields, hNumber, hOctets⟩
    exact ⟨number, digits, _, hFields, hNumber, rdata.length_le, hOctets.length_eq,
      hOctets.isHexDigit⟩
  · rintro ⟨number, digits, count, hFields, hNumber, hCount, hLength, hDigits⟩
    obtain ⟨octets, rfl, hOctets⟩ := exists_hexOctets hLength hDigits
    exact ⟨⟨octets, hCount⟩, number, digits, hFields, hNumber, hOctets⟩

/-- Whatever type it is for, generic text is read as it denotes, and printed data is read back. -/
theorem ofText_reads_generic (type : RecordType) :
    (∀ text : String, (fields text.toList).head? = some genericMark → ReadsGeneric type text) ∧
      ∀ rdata, ofText type rdata.toText = .ok rdata := by
  refine ⟨fun text hMark => ⟨?_, ?_, ?_⟩, ofText_toText type⟩
  · rw [← exists_isGenericForm_iff]
    exact exists_congr fun rdata => ofChars_eq_ok_iff type hMark
  · intro rdata hRead
    obtain ⟨number, digits, hFields, -, hOctets⟩ := (ofChars_eq_ok_iff type hMark).mp hRead
    rw [hFields]
    exact hOctets
  · intro other laidOut hOther hNumber hDigits
    rw [ofText, ofText, ofChars_eq_ofGeneric other hOther, ofChars_eq_ofGeneric type hMark]
    exact ofGeneric_congr hNumber hDigits

theorem ofText_reads_generic_mixedCase :
    (fields " \\# +02 aB\tCd".toList).head? = some genericMark ∧
      ReadsGeneric .a " \\# +02 aB\tCd" ∧
      (ofText .a " \\# +02 aB\tCd").map octets = .ok [0xAB, 0xCD] := by
  have hMark : (fields " \\# +02 aB\tCd".toList).head? = some genericMark := by decide
  exact ⟨hMark, (ofText_reads_generic .a).1 _ hMark, by decide⟩

end Rdata

end ZoneStore
