import ZoneStore.Proofs.Text.Numerals
import ZoneStore.Proofs.Text.Trimming
import ZoneStore.Settings

/-!
# Spellings of an argument

An argument is a word, or a key and a value with white space between them,
and in either case there may be blanks around it. A key and a value mean
something if the key is known and the value is one for it. Every other
argument is refused for one reason, which does not depend on the arguments
around it.
-/

namespace ZoneStore

open Text

/-! ## Times to live -/

namespace Ttl

variable {text : List Char}

theorem ofChars_eq_ok_iff {ttl : Ttl} : ofChars text = .ok ttl ↔ IsNumeral text ttl.seconds := by
  have hRead : readUnsigned maxWord text = some ttl.seconds ↔ IsNumeral text ttl.seconds := by
    rw [readUnsigned_eq_some_iff]
    have hBound : ttl.seconds ≤ maxWord := Nat.le_trans ttl.seconds_le (by decide)
    simp only [hBound, and_true]
  rw [← hRead, ofChars]
  cases readUnsigned maxWord text with
  | none => simp
  | some value =>
    dsimp only
    rw [Option.some.injEq]
    by_cases hValue : value ≤ maxTtl
    · rw [dif_pos hValue, Except.ok.injEq, Ttl.ext_iff]
    · rw [dif_neg hValue]
      refine iff_of_false nofun ?_
      rintro rfl
      exact hValue ttl.seconds_le

/-- A value that a word holds but a time to live does not is told from text that is no number. -/
inductive Refuses (text : List Char) : TtlError → Prop where
  | tooLarge {value : Nat} (hText : IsNumeral text value) (hLow : maxTtl < value)
      (hHigh : value ≤ maxWord) : Refuses text .tooLarge
  | notNumber (hText : ∀ value, IsNumeral text value → maxWord < value) : Refuses text .notNumber

theorem ofChars_eq_error_iff {cause : TtlError} :
    ofChars text = .error cause ↔ Refuses text cause := by
  rw [ofChars]
  constructor
  · intro hError
    split at hError
    · rename_i value hRead
      split at hError
      · cases hError
      · rename_i hValue
        cases hError
        obtain ⟨hText, hHigh⟩ := readUnsigned_eq_some_iff.mp hRead
        exact .tooLarge hText (Nat.lt_of_not_le hValue) hHigh
    · rename_i hRead
      cases hError
      refine .notNumber fun value hText => Nat.lt_of_not_le fun hHigh => ?_
      rw [readUnsigned_eq_some_iff.mpr ⟨hText, hHigh⟩] at hRead
      cases hRead
  · rintro (⟨hText, hLow, hHigh⟩ | hText)
    · rw [readUnsigned_eq_some_iff.mpr ⟨hText, hHigh⟩]
      exact dif_neg (Nat.not_le_of_lt hLow)
    · cases hRead : readUnsigned maxWord text with
      | none => rfl
      | some value =>
        obtain ⟨hNumeral, hHigh⟩ := readUnsigned_eq_some_iff.mp hRead
        exact absurd hHigh (Nat.not_le_of_lt (hText value hNumeral))

end Ttl

namespace Settings

variable {text key value rest : List Char}

/-! ## Splitting at the first blank -/

theorem splitBlank_append {blank : Char} (hKey : ∀ c ∈ key, isBlank c = false)
    (hBlank : isBlank blank = true) (text : List Char) :
    splitBlank (key ++ blank :: text) = some (key, text) := by
  have hDrop : (key ++ blank :: text).dropWhile (fun c => !isBlank c) = blank :: text := by
    rw [List.dropWhile_append_of_pos fun c hc => by rw [hKey c hc]; rfl]
    exact List.dropWhile_cons_of_neg (by simp [hBlank])
  have hTake : (key ++ blank :: text).takeWhile (fun c => !isBlank c) = key := by
    rw [List.takeWhile_append_of_pos fun c hc => by rw [hKey c hc]; rfl,
      List.takeWhile_cons_of_neg (by simp [hBlank]), List.append_nil]
  rw [splitBlank, hDrop, hTake]

theorem splitBlank_eq_none_iff : splitBlank text = none ↔ ∀ c ∈ text, isBlank c = false := by
  have hDrop : text.dropWhile (fun c => !isBlank c) = [] ↔ ∀ c ∈ text, isBlank c = false := by
    rw [List.dropWhile_eq_nil_iff]
    simp only [Bool.not_eq_true']
  rw [← hDrop, splitBlank]
  split
  · rename_i hNil
    simp [hNil]
  · rename_i hCons
    simp [hCons]

theorem splitBlank_eq_some_iff :
    splitBlank text = some (key, rest) ↔
      (∀ c ∈ key, isBlank c = false) ∧
        ∃ blank, isBlank blank = true ∧ text = key ++ blank :: rest := by
  constructor
  · intro hSplit
    rw [splitBlank] at hSplit
    split at hSplit
    · cases hSplit
    · rename_i blank _ hDrop
      cases hSplit
      refine ⟨fun c hc => by simpa using List.mem_takeWhile_imp hc, blank, ?_, ?_⟩
      · have hHead := List.head?_dropWhile_not (fun c => !isBlank c) text
        rw [hDrop] at hHead
        simpa using hHead
      · rw [← hDrop, List.takeWhile_append_dropWhile]
  · rintro ⟨hKey, blank, hBlank, rfl⟩
    exact splitBlank_append hKey hBlank rest

/-! ## Words, keys and values -/

/-- Only blanks are around the word, which may be empty. -/
def IsBareWord (text word : List Char) : Prop :=
  (∀ c ∈ word, isBlank c = false) ∧ ∃ front back, (∀ c ∈ front, isBlank c = true) ∧
    (∀ c ∈ back, isBlank c = true) ∧ text = front ++ (word ++ back)

/-- The key has no blank in it, the value none at its ends, and blanks are between and around. -/
structure IsPair (text key value : List Char) : Prop where
  key_ne_nil : key ≠ []
  key_not_blank : ∀ c ∈ key, isBlank c = false
  value_ne_nil : value ≠ []
  value_trimmed : IsTrimmed value
  text_eq : ∃ front gap back, (∀ c ∈ front, isBlank c = true) ∧ gap ≠ [] ∧
    (∀ c ∈ gap, isBlank c = true) ∧ (∀ c ∈ back, isBlank c = true) ∧
    text = front ++ (key ++ (gap ++ value) ++ back)

theorem isBareWord_iff {word : List Char} :
    IsBareWord text word ↔ trim text = word ∧ splitBlank (trim text) = none := by
  rw [splitBlank_eq_none_iff]
  constructor
  · rintro ⟨hWord, hText⟩
    obtain rfl := trim_eq_iff.mpr ⟨isTrimmed_of_no_blank hWord, hText⟩
    exact ⟨rfl, hWord⟩
  · rintro ⟨rfl, hWord⟩
    exact ⟨hWord, exists_append_trim text⟩

theorem isPair_iff :
    IsPair text key value ↔
      ∃ rest, splitBlank (trim text) = some (key, rest) ∧ trimStart rest = value := by
  constructor
  · rintro ⟨hKey, hNoBlank, hValue, hTrimmed, front, gap, back, hFront, hGap, hBlanks, hBack, rfl⟩
    have hCore : IsTrimmed (key ++ (gap ++ value)) := by
      rw [isTrimmed_append_iff hKey (List.append_ne_nil_of_right_ne_nil _ hValue),
        List.getLast?_append_of_ne_nil _ hValue]
      exact ⟨fun c hc => hNoBlank c (List.mem_of_head? hc), hTrimmed.2⟩
    rw [trim_append hFront hCore hBack]
    obtain ⟨blank, blanks, rfl⟩ := List.exists_cons_of_ne_nil hGap
    obtain ⟨hBlank, hMore⟩ := List.forall_mem_cons.mp hBlanks
    refine ⟨blanks ++ value, splitBlank_append hNoBlank hBlank _, ?_⟩
    rw [trimStart_append_of_isBlank hMore, trimStart_eq_self_iff.mpr hTrimmed.1]
  · rintro ⟨rest, hSplit, rfl⟩
    obtain ⟨hNoBlank, blank, hBlank, hTrim⟩ := splitBlank_eq_some_iff.mp hSplit
    obtain ⟨gap, hGap, hRest⟩ := exists_append_trimStart rest
    obtain ⟨front, back, hFront, hBack, hText⟩ := exists_append_trim text
    have hBlanks : ∀ c ∈ blank :: gap, isBlank c = true := List.forall_mem_cons.mpr ⟨hBlank, hGap⟩
    have hShape : trim text = key ++ (blank :: gap ++ trimStart rest) := by
      rw [hTrim, List.cons_append, ← hRest]
    have hTrimmed : IsTrimmed (key ++ (blank :: gap ++ trimStart rest)) :=
      hShape ▸ isTrimmed_trim text
    obtain ⟨hKey, hValue⟩ := hTrimmed.ne_nil (List.cons_ne_nil _ _) hBlanks
    rw [← List.append_assoc, isTrimmed_append_iff (by simp) hValue] at hTrimmed
    exact ⟨hKey, hNoBlank, hValue, ⟨head?_trimStart rest, hTrimmed.2⟩, front, blank :: gap, back,
      hFront, List.cons_ne_nil _ _, hBlanks, hBack, hShape ▸ hText⟩

theorem exists_isBareWord_or_isPair (text : List Char) :
    (∃ word, IsBareWord text word) ∨ ∃ key value, IsPair text key value := by
  cases hSplit : splitBlank (trim text) with
  | none => exact .inl ⟨trim text, isBareWord_iff.mpr ⟨rfl, hSplit⟩⟩
  | some parts =>
    obtain ⟨key, rest⟩ := parts
    exact .inr ⟨key, trimStart rest, isPair_iff.mpr ⟨rest, hSplit, rfl⟩⟩

/-! ## What an argument says -/

/-- A path is any value, a time to live is a numeral for it. -/
inductive Means (text : String) : Argument → Prop where
  | records {path : String} (hText : IsPair text.toList "records".toList path.toList) :
      Means text (.records path)
  | ttl {numeral : List Char} {value : Ttl} (hText : IsPair text.toList "ttl".toList numeral)
      (hNumeral : IsNumeral numeral value.seconds) : Means text (.ttl value)

/-- The reasons for which an argument says nothing. -/
inductive Refuses (text : String) : SettingsError → Prop where
  | missingValue {word : List Char} (hText : IsBareWord text.toList word) :
      Refuses text (.missingValue (String.ofList word))
  | unknownKey {key value : List Char} (hText : IsPair text.toList key value)
      (hRecords : key ≠ "records".toList) (hTtl : key ≠ "ttl".toList) :
      Refuses text (.unknownKey (String.ofList key))
  | invalidTtl {numeral : List Char} {cause : TtlError}
      (hText : IsPair text.toList "ttl".toList numeral) (hCause : Ttl.Refuses numeral cause) :
      Refuses text (.invalidTtl cause)

variable {argument : String} {said : Argument} {e : SettingsError}

theorem Means.readArgument_eq (h : Means argument said) : readArgument argument = .ok said := by
  cases h with
  | records hText =>
    obtain ⟨rest, hSplit, hValue⟩ := isPair_iff.mp hText
    simp [readArgument, hSplit, hValue]
  | ttl hText hNumeral =>
    obtain ⟨rest, hSplit, hValue⟩ := isPair_iff.mp hText
    simp [readArgument, hSplit, hValue, Ttl.ofChars_eq_ok_iff.mpr hNumeral]

theorem Refuses.readArgument_eq (h : Refuses argument e) : readArgument argument = .error e := by
  cases h with
  | missingValue hText =>
    obtain ⟨rfl, hSplit⟩ := isBareWord_iff.mp hText
    simp [readArgument, hSplit]
  | unknownKey hText hRecords hTtl =>
    obtain ⟨rest, hSplit, -⟩ := isPair_iff.mp hText
    rw [readArgument, hSplit]
    exact (if_neg hRecords).trans (if_neg hTtl)
  | invalidTtl hText hCause =>
    obtain ⟨rest, hSplit, hValue⟩ := isPair_iff.mp hText
    simp [readArgument, hSplit, hValue, Ttl.ofChars_eq_error_iff.mpr hCause]

theorem exists_means_or_refuses (argument : String) :
    (∃ said, Means argument said) ∨ ∃ e, Refuses argument e := by
  obtain ⟨word, hText⟩ | ⟨key, value, hText⟩ := exists_isBareWord_or_isPair argument.toList
  · exact .inr ⟨_, .missingValue hText⟩
  · by_cases hRecords : key = "records".toList
    · subst hRecords
      obtain ⟨path, rfl⟩ : ∃ path : String, path.toList = value :=
        ⟨String.ofList value, String.toList_ofList⟩
      exact .inl ⟨.records path, .records hText⟩
    · by_cases hTtl : key = "ttl".toList
      · subst hTtl
        cases hRead : Ttl.ofChars value with
        | ok ttl => exact .inl ⟨_, .ttl hText (Ttl.ofChars_eq_ok_iff.mp hRead)⟩
        | error cause => exact .inr ⟨_, .invalidTtl hText (Ttl.ofChars_eq_error_iff.mp hRead)⟩
      · exact .inr ⟨_, .unknownKey hText hRecords hTtl⟩

theorem readArgument_eq_ok_iff : readArgument argument = .ok said ↔ Means argument said := by
  refine ⟨fun hRead => ?_, Means.readArgument_eq⟩
  obtain ⟨other, hOther⟩ | ⟨e, hRefuses⟩ := exists_means_or_refuses argument
  · cases hRead.symm.trans hOther.readArgument_eq
    exact hOther
  · cases hRead.symm.trans hRefuses.readArgument_eq

theorem readArgument_eq_error_iff : readArgument argument = .error e ↔ Refuses argument e := by
  refine ⟨fun hRead => ?_, Refuses.readArgument_eq⟩
  obtain ⟨said, hSaid⟩ | ⟨other, hOther⟩ := exists_means_or_refuses argument
  · cases hRead.symm.trans hSaid.readArgument_eq
  · cases hRead.symm.trans hOther.readArgument_eq
    exact hOther

end Settings

end ZoneStore
