import ZoneStore.Proofs.Record.Dispatch
import ZoneStore.Proofs.Record.Quoted

/-!
# Descriptive text

A text that opens with a quote is accepted exactly if it is a sequence of
quoted strings that fit into a record, and any other text is taken whole.
Either way the data are the strings in order, each behind its length.
However the octets of strings are written between quotes, the text of all of
them is read as these strings.
-/

namespace ZoneStore

open Text CharacterString

namespace Rdata

variable {text : List Char} {strings : List (List UInt8)} {rdata : Rdata}

theorem exists_stringsForm_iff :
    (∃ rdata : Rdata, StringsForm strings rdata.octets) ↔
      (∀ string ∈ strings, string.length ≤ maxLength) ∧ wireLength strings ≤ maxRdataLength := by
  constructor
  · rintro ⟨rdata, hForm⟩
    exact ⟨hForm.length_le, hForm.length_eq ▸ rdata.length_le⟩
  · rintro ⟨hLe, hFits⟩
    have hForm := stringsForm_encode hLe
    exact ⟨⟨encode strings, hForm.length_eq ▸ hFits⟩, hForm⟩

theorem ofChars_txt_eq_ok_iff (hMark : ¬OpensWithMark text) :
    ofChars .txt text = .ok rdata ↔
      ∃ strings, CharacterString.ofText text = some strings ∧ rdata.octets = encode strings := by
  rw [ofChars_txt hMark]
  cases CharacterString.ofText text with
  | none =>
    constructor
    · rintro ⟨⟩
    · rintro ⟨_, ⟨⟩, _⟩
  | some strings =>
    rw [Option.elim_some, Function.comp_apply, checkLength_eq_ok_iff]
    constructor
    · exact fun hOctets => ⟨strings, rfl, hOctets⟩
    · rintro ⟨_, ⟨⟩, hOctets⟩
      exact hOctets

/-! ## Quoted strings -/

theorem not_opensWithMark_of_quote (hQuote : (trimStart text).head? = some '"') :
    ¬OpensWithMark text := by
  rintro ⟨rest, hMark⟩
  rw [← hMark] at hQuote
  cases hQuote

theorem ofChars_quoted_eq_ok_iff (hQuote : (trimStart text).head? = some '"') :
    ofChars .txt text = .ok rdata ↔
      ∃ strings, QuotedText StringText strings (trimStart text) ∧
        StringsForm strings rdata.octets := by
  rw [ofChars_txt_eq_ok_iff (not_opensWithMark_of_quote hQuote)]
  refine exists_congr fun strings => ?_
  rw [ofText_eq_some_iff hQuote, stringsForm_iff, and_assoc]

theorem exists_ofChars_quoted_iff (hQuote : (trimStart text).head? = some '"') :
    (∃ rdata, ofChars .txt text = .ok rdata) ↔
      ∃ strings, QuotedText StringText strings (trimStart text) ∧
        (∀ string ∈ strings, string.length ≤ maxLength) ∧
        wireLength strings ≤ maxRdataLength := by
  simp only [ofChars_quoted_eq_ok_iff hQuote]
  rw [exists_comm]
  refine exists_congr fun strings => ?_
  rw [exists_and_left, exists_stringsForm_iff]

/-! ## Texts that are taken whole -/

/-- A text that is not quoted is cut into strings, which only their number can make too long. -/
theorem exists_takenWhole (hMark : ¬OpensWithMark text)
    (hQuote : (trimStart text).head? ≠ some '"') :
    ∃ strings, TakenWhole (octetsOf text) strings ∧
      ((wireLength strings ≤ maxRdataLength ∧
          ∃ rdata, ofChars .txt text = .ok rdata ∧ StringsForm strings rdata.octets) ∨
        (maxRdataLength < wireLength strings ∧ ofChars .txt text = .error .tooLong)) := by
  have hWhole := takenWhole_ofPlain text
  have hForm := stringsForm_encode hWhole.length_le
  have hRead : ofChars .txt text = checkLength (encode (ofPlain text)) := by
    rw [ofChars_txt hMark, CharacterString.ofText, if_neg hQuote]
    rfl
  refine ⟨ofPlain text, hWhole, ?_⟩
  rw [hRead, ← hForm.length_eq]
  rcases Nat.lt_or_ge maxRdataLength (encode (ofPlain text)).length with hLong | hFits
  · exact .inr ⟨hLong, checkLength_of_lt hLong⟩
  · exact .inl ⟨hFits, _, checkLength_of_le hFits, hForm⟩

/-! ## Main statement -/

/-- What a quoted text has to be, and what it is read as. -/
structure ReadsQuoted (text : String) : Prop where
  accepted_iff : (∃ rdata, ofText .txt text = .ok rdata) ↔
    ∃ strings, QuotedText StringText strings (trimStart text.toList) ∧
      (∀ string ∈ strings, string.length ≤ 255) ∧ wireLength strings ≤ 65535
  result_iff : ∀ rdata, ofText .txt text = .ok rdata ↔
    ∃ strings, QuotedText StringText strings (trimStart text.toList) ∧
      StringsForm strings rdata.octets

/--
Quoted texts of strings that fit are read as their strings, and no others are; whatever way each
octet is written, strings are read back from their quoted text.
-/
theorem ofText_reads_quoted :
    (∀ text : String, (trimStart text.toList).head? = some '"' → ReadsQuoted text) ∧
      ∀ strings : List (List UInt8), strings ≠ [] → (∀ string ∈ strings, string.length ≤ 255) →
        wireLength strings ≤ 65535 →
        ∀ (text : String) (blanks written : List Char), text.toList = blanks ++ written →
          (∀ c ∈ blanks, isBlank c = true) → QuotedText OctetsText strings written →
          ∃ rdata, ofText .txt text = .ok rdata ∧ StringsForm strings rdata.octets := by
  constructor
  · intro text hQuote
    exact ⟨exists_ofChars_quoted_iff hQuote, fun rdata => ofChars_quoted_eq_ok_iff hQuote⟩
  · intro strings hSome hLe hFits text blanks written hText hBlanks hWritten
    have hTrim : trimStart text.toList = trimStart written := by
      rw [hText, trimStart_append_of_isBlank hBlanks]
    obtain ⟨hQuote, hTrimmed⟩ := hWritten.of_trimStart hSome
    rw [← hTrim] at hQuote hTrimmed
    obtain ⟨rdata, hForm⟩ := exists_stringsForm_iff.mpr ⟨hLe, hFits⟩
    have hStrings := hTrimmed.mono fun _ _ hOctets => hOctets.toStringText
    exact ⟨rdata, (ofChars_quoted_eq_ok_iff hQuote).mpr ⟨strings, hStrings, hForm⟩, hForm⟩

theorem ofText_reads_quoted_escapes :
    (trimStart "\t\"a\\\"\\0651\"\"\" ".toList).head? = some '"' ∧
      ReadsQuoted "\t\"a\\\"\\0651\"\"\" " ∧
      (ofText .txt "\t\"a\\\"\\0651\"\"\" ").map octets = .ok [4, 97, 34, 65, 49, 0] ∧
      ∃ rdata, ofText .txt "\t\"a\\\"\\0651\"\"\" " = .ok rdata ∧
        StringsForm [[97, 34, 65, 49], []] rdata.octets := by
  have hQuote : (trimStart "\t\"a\\\"\\0651\"\"\" ".toList).head? = some '"' := by decide
  have hOctets : OctetsText [97, 34, 65, 49] ['a', '\\', '"', '\\', '0', '6', '5', '1'] :=
    .cons (.plain (c := 'a') (by decide) (by decide) (by decide))
      (.cons (.escaped (c := '"') (by decide) (by decide))
        (.cons (.decimal (a := '0') (b := '6') (c := '5') rfl rfl rfl (by decide))
          (.cons (.plain (c := '1') (by decide) (by decide) (by decide)) .nil)))
  have hBlank : QuotedText OctetsText [] [' '] := .blank (by decide) .nil
  have hWritten : QuotedText OctetsText [[97, 34, 65, 49], []]
      ['"', 'a', '\\', '"', '\\', '0', '6', '5', '1', '"', '"', '"', ' '] :=
    .string hOctets (.string .nil hBlank)
  exact ⟨hQuote, ofText_reads_quoted.1 _ hQuote, by decide +kernel,
    ofText_reads_quoted.2 _ (by decide) (by decide) (by decide) _ ['\t'] _ rfl
      (List.forall_mem_singleton.mpr rfl) hWritten⟩

end Rdata

end ZoneStore
