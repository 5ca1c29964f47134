import Mathlib.Data.List.Nodup
import ZoneStore.Proofs.Text.Numerals
import ZoneStore.Proofs.Text.Stored
import ZoneStore.Record.Codes

/-!
# Codes as they are spelled

A code is read from its mnemonic and from the mark with a numeral behind it,
in letters of either case, and from nothing else. No mnemonic starts like the
mark, so that neither spelling is taken for the other. A stored text is cut
behind the mark alone, which ends where a character does.
-/

namespace ZoneStore

open Text

/-- A word for the code or the mark and a numeral of it, in letters of either case. -/
inductive SpellsCode (words : List (Nat × String)) (mark : String) (text : List Char)
    (code : Nat) : Prop where
  | word {word : String} (hWord : (code, word) ∈ words) (hText : lower text = lower word.toList) :
      SpellsCode words mark text code
  | number {front numeral : List Char} (hText : text = front ++ numeral)
      (hFront : lower front = lower mark.toList) (hNumeral : IsNumeral numeral code) :
      SpellsCode words mark text code

theorem SpellsCode.of_lower_eq {words : List (Nat × String)} {mark : String}
    {text other : List Char} {code : Nat} (h : SpellsCode words mark text code)
    (hSame : lower other = lower text) : SpellsCode words mark other code := by
  cases h with
  | word hWord hText => exact .word hWord (hSame.trans hText)
  | number hText hFront hNumeral =>
    rw [hText, lower_append] at hSame
    obtain ⟨front, digits, rfl, hFrontSame, hDigits⟩ := List.map_eq_append_iff.mp hSame
    obtain rfl := hNumeral.eq_of_lower_eq hDigits
    exact .number rfl (hFrontSame.trans hFront) hNumeral

namespace CodeSpelling

variable {Coded Fault : Type} {spelling : CodeSpelling Coded Fault} {value : Coded}
  {text : String} {front back : List Char}

/-- The codes that have a mnemonic, as numbers. -/
def words (spelling : CodeSpelling Coded Fault) : List (Nat × String) :=
  spelling.mnemonics.map fun (value, word) => ((spelling.code value).toNat, word)

theorem code_injective {other : Coded} (h : spelling.code value = spelling.code other) :
    value = other := by
  rw [← spelling.ofCode_code value, h, spelling.ofCode_code]

theorem mem_words_iff {word : String} :
    ((spelling.code value).toNat, word) ∈ spelling.words ↔ (value, word) ∈ spelling.mnemonics := by
  rw [words, List.mem_map]
  constructor
  · rintro ⟨⟨other, _⟩, hEntry, hSame⟩
    obtain ⟨hCode, rfl⟩ := Prod.mk.inj hSame
    rw [← code_injective (UInt16.toNat_inj.mp hCode)]
    exact hEntry
  · exact fun hEntry => ⟨_, hEntry, rfl⟩

/-! ## Mnemonics -/

theorem find?_eq_some_iff {entry : Coded × String} :
    (spelling.mnemonics.find? fun other => sameCaseless other.2 text) = some entry ↔
      entry ∈ spelling.mnemonics ∧ lower text.toList = lower entry.2.toList := by
  have hFound : ∀ {found}, (spelling.mnemonics.find? fun other => sameCaseless other.2 text) =
      some found → found ∈ spelling.mnemonics ∧ lower text.toList = lower found.2.toList :=
    fun hFind => ⟨List.mem_of_find?_eq_some hFind,
      (sameCaseless_iff.mp (by simpa using List.find?_some hFind)).symm⟩
  refine ⟨hFound, fun ⟨hEntry, hText⟩ => ?_⟩
  cases hFind : spelling.mnemonics.find? fun other => sameCaseless other.2 text with
  | none =>
    exact absurd (sameCaseless_iff.mpr hText.symm) (List.find?_eq_none.mp hFind entry hEntry)
  | some found =>
    obtain ⟨hMem, hSame⟩ := hFound hFind
    rw [List.inj_on_of_nodup_map spelling.distinct hMem hEntry (hSame.symm.trans hText)]

/-- What starts like the mark is no mnemonic. -/
theorem find?_eq_none (hText : text.toList = front ++ back)
    (hFront : lower front = lower spelling.mark.toList) :
    (spelling.mnemonics.find? fun entry => sameCaseless entry.2 text) = none := by
  refine List.find?_eq_none.mpr fun entry hEntry hSame => spelling.unmarked entry hEntry ?_
  have hLength : (lower front).length = spelling.mark.toList.length := by
    rw [hFront, length_lower]
  rw [sameCaseless_iff, hText, lower_append] at hSame
  rw [lower, List.map_take, ← lower, hSame, List.take_left' hLength, hFront]

/-! ## Numbers -/

theorem readNumber_eq_ok_iff {digits : List Char} :
    spelling.readNumber digits = .ok value ↔ IsNumeral digits (spelling.code value).toNat := by
  have hBound : ∀ code : UInt16, code.toNat ≤ 65535 := fun code => Nat.le_of_lt_succ code.toNat_lt
  rw [readNumber]
  constructor
  · intro hRead
    split at hRead
    · rename_i number hNumber
      obtain ⟨hNumeral, hHigh⟩ := readUnsigned_eq_some_iff.mp hNumber
      obtain rfl := Except.ok.inj hRead
      rwa [spelling.code_ofCode, Nat.toUInt16, UInt16.toNat_ofNat_of_lt' (Nat.lt_succ_of_le hHigh)]
    · cases hRead
  · intro hNumeral
    rw [readUnsigned_eq_some_iff.mpr ⟨hNumeral, hBound _⟩]
    exact congrArg Except.ok ((congrArg _ UInt16.ofNat_toNat).trans (spelling.ofCode_code value))

/-! ## Reading -/

theorem take_of_lower_eq {mark : List Char} (hFront : lower front = lower mark)
    (back : List Char) :
    (front ++ back).take mark.length = front ∧ (front ++ back).drop mark.length = back := by
  have hLength : front.length = mark.length := by
    rw [← length_lower, hFront, length_lower]
  exact ⟨List.take_left' hLength, List.drop_left' hLength⟩

theorem lower_take_eq_iff {mark : List Char} :
    lower (text.toList.take mark.length) = lower mark ↔
      ∃ front back : String, text = front ++ back ∧ lower front.toList = lower mark := by
  constructor
  · intro hFront
    refine ⟨.ofList (text.toList.take mark.length), .ofList (text.toList.drop mark.length), ?_, ?_⟩
    · rw [← String.ofList_append, List.take_append_drop, String.ofList_toList]
    · rwa [String.toList_ofList]
  · rintro ⟨front, back, rfl, hFront⟩
    rw [String.toList_append, (take_of_lower_eq hFront _).1, hFront]

theorem ofText_of_mem {entry : Coded × String} (hEntry : entry ∈ spelling.mnemonics)
    (hText : lower text.toList = lower entry.2.toList) : spelling.ofText text = .ok entry.1 := by
  rw [ofText, find?_eq_some_iff.mpr ⟨hEntry, hText⟩]

theorem ofText_of_mark (hText : text.toList = front ++ back)
    (hFront : lower front = lower spelling.mark.toList) :
    spelling.ofText text = spelling.readNumber back := by
  obtain ⟨hTake, hDrop⟩ := take_of_lower_eq hFront back
  rw [ofText, find?_eq_none hText hFront, hText, hTake, hDrop]
  exact if_pos hFront

/-- A text is a mnemonic, it starts like the mark, or it is refused as unknown. -/
theorem ofText_cases (spelling : CodeSpelling Coded Fault) (text : String) :
    (∃ entry ∈ spelling.mnemonics, lower text.toList = lower entry.2.toList) ∨
      (∃ front back, text.toList = front ++ back ∧ lower front = lower spelling.mark.toList) ∨
      spelling.ofText text = .error spelling.unknown := by
  cases hFind : spelling.mnemonics.find? fun entry => sameCaseless entry.2 text with
  | some entry => exact .inl ⟨entry, find?_eq_some_iff.mp hFind⟩
  | none =>
    by_cases hFront : lower (text.toList.take spelling.mark.toList.length) =
        lower spelling.mark.toList
    · exact .inr (.inl ⟨_, _, (List.take_append_drop _ _).symm, hFront⟩)
    · refine .inr (.inr ?_)
      rw [ofText, hFind]
      exact if_neg hFront

theorem ofText_eq_ok_iff :
    spelling.ofText text = .ok value ↔
      SpellsCode spelling.words spelling.mark text.toList (spelling.code value).toNat := by
  constructor
  · intro hRead
    obtain ⟨entry, hEntry, hText⟩ | ⟨front, back, hText, hFront⟩ | hUnknown :=
      spelling.ofText_cases text
    · obtain rfl := Except.ok.inj ((ofText_of_mem hEntry hText).symm.trans hRead)
      exact .word (mem_words_iff.mpr hEntry) hText
    · rw [ofText_of_mark hText hFront, readNumber_eq_ok_iff] at hRead
      exact .number hText hFront hRead
    · cases hUnknown.symm.trans hRead
  · rintro (⟨hWord, hText⟩ | ⟨hText, hFront, hNumeral⟩)
    · exact ofText_of_mem (mem_words_iff.mp hWord) hText
    · rw [ofText_of_mark hText hFront, readNumber_eq_ok_iff]
      exact hNumeral

/-! ## Stored texts -/

/-- What differs from the mark in letter case only has as many octets, so the cut is behind it. -/
theorem ofStored_of_mark {front back : String}
    (hFront : lower front.toList = lower spelling.mark.toList) :
    spelling.ofStored (front ++ back) = some (spelling.readNumber back.toList) := by
  have hSize := utf8ByteSize_eq_of_lower_eq hFront
  simp only [ofStored, sameStored_eq_sameCaseless]
  rw [find?_eq_none String.toList_append hFront, frontOf?_eq_some_iff.mpr ⟨back, rfl, hSize⟩,
    backOf?_eq_some_iff.mpr ⟨front, rfl, hSize⟩]
  exact if_pos (sameCaseless_iff.mpr hFront)

theorem ofStored_eq (text : String) : spelling.ofStored text = some (spelling.ofText text) := by
  by_cases hMark : lower (text.toList.take spelling.mark.toList.length) =
      lower spelling.mark.toList
  · obtain ⟨front, back, rfl, hFront⟩ := lower_take_eq_iff.mp hMark
    rw [ofStored_of_mark hFront, ofText_of_mark String.toList_append hFront]
  · simp only [ofStored, ofText, sameStored_eq_sameCaseless, if_neg hMark]
    cases spelling.mnemonics.find? fun entry => sameCaseless entry.2 text with
    | some entry => rfl
    | none =>
      cases hCut : frontOf? text spelling.mark.utf8ByteSize with
      | none => rfl
      | some front =>
        obtain ⟨back, hText, -⟩ := frontOf?_eq_some_iff.mp hCut
        refine if_neg fun hSame => hMark (lower_take_eq_iff.mpr ⟨front, back, hText, ?_⟩)
        exact sameCaseless_iff.mp hSame

/-! ## Written codes -/

variable [DecidableEq Coded]

theorem toText_cases (spelling : CodeSpelling Coded Fault) (value : Coded) :
    (∃ word, (value, word) ∈ spelling.mnemonics ∧ spelling.toText value = word) ∨
      (spelling.toText value).toList =
        spelling.mark.toList ++ decimal (spelling.code value).toNat := by
  unfold toText
  cases hFind : spelling.mnemonics.find? fun entry => entry.1 = value with
  | some entry =>
    obtain rfl : entry.1 = value := by simpa using List.find?_some hFind
    exact .inl ⟨entry.2, List.mem_of_find?_eq_some hFind, rfl⟩
  | none => exact .inr (by rw [String.toList_append, toList_decimalText])

theorem spellsCode_toText (spelling : CodeSpelling Coded Fault) (value : Coded) :
    SpellsCode spelling.words spelling.mark (spelling.toText value).toList
      (spelling.code value).toNat := by
  obtain ⟨word, hWord, hText⟩ | hText := spelling.toText_cases value
  · exact .word (mem_words_iff.mpr hWord) (hText ▸ rfl)
  · exact .number hText rfl (isNumeral_decimal _)

theorem ofText_toText (spelling : CodeSpelling Coded Fault) (value : Coded) :
    spelling.ofText (spelling.toText value) = .ok value :=
  ofText_eq_ok_iff.mpr (spelling.spellsCode_toText value)

theorem isGraphic_toText (spelling : CodeSpelling Coded Fault)
    (hWords : ∀ entry ∈ spelling.mnemonics,
      (entry.2.toList.all fun c => decide (IsGraphic c)) = true)
    (hMark : (spelling.mark.toList.all fun c => decide (IsGraphic c)) = true) (value : Coded) :
    ∀ c ∈ (spelling.toText value).toList, IsGraphic c := by
  obtain ⟨word, hWord, rfl⟩ | hText := spelling.toText_cases value
  · exact isGraphic_of_all (hWords _ hWord)
  · rw [hText]
    exact List.forall_mem_append.mpr ⟨isGraphic_of_all hMark, isGraphic_of_mem_decimal⟩

end CodeSpelling

/-- What is read as which code, from a stored text just as well, and what is read back. -/
structure IsReadAsSpelled {Coded Fault : Type} (words : List (Nat × String)) (mark : String)
    (code : Coded → UInt16) (ofText : String → Except Fault Coded)
    (ofStored : String → Option (Except Fault Coded)) (toText : Coded → String) : Prop where
  ok_iff : ∀ text value,
    ofText text = .ok value ↔ SpellsCode words mark text.toList (code value).toNat
  ofStored_eq : ∀ text, ofStored text = some (ofText text)
  read_back : ∀ value text,
    lower text.toList = lower (toText value).toList → ofText text = .ok value

theorem CodeSpelling.isReadAsSpelled {Coded Fault : Type} [DecidableEq Coded]
    (spelling : CodeSpelling Coded Fault) :
    IsReadAsSpelled spelling.words spelling.mark spelling.code spelling.ofText spelling.ofStored
      spelling.toText where
  ok_iff _ _ := ofText_eq_ok_iff
  ofStored_eq := ofStored_eq
  read_back value _ hSame :=
    ofText_eq_ok_iff.mpr ((spelling.spellsCode_toText value).of_lower_eq hSame)

/-- The types that have a mnemonic. -/
def typeWords : List (Nat × String) :=
  [(1, "A"), (2, "NS"), (5, "CNAME"), (6, "SOA"), (12, "PTR"), (13, "HINFO"), (15, "MX"),
    (16, "TXT"), (28, "AAAA"), (33, "SRV"), (255, "ANY")]

/-- The classes that have a mnemonic. -/
def classWords : List (Nat × String) :=
  [(1, "IN"), (3, "CH"), (4, "HS")]

/-- Types and classes are read exactly from their spellings, and no character is ever cut. -/
theorem codes_read_as_spelled :
    IsReadAsSpelled typeWords "TYPE" RecordType.code RecordType.ofText
        RecordType.spelling.ofStored RecordType.toText ∧
      IsReadAsSpelled classWords "CLASS" RecordClass.code RecordClass.ofText
        RecordClass.spelling.ofStored RecordClass.toText := by
  constructor
  · rw [funext RecordType.ofText_eq, funext RecordType.toText_eq]
    exact RecordType.spelling.isReadAsSpelled
  · rw [funext RecordClass.ofText_eq, funext RecordClass.toText_eq]
    exact RecordClass.spelling.isReadAsSpelled

end ZoneStore
