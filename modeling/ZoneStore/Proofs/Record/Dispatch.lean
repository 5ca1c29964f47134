import ZoneStore.Proofs.Record.CharacterString
import ZoneStore.Proofs.Record.Generic

/-!
# How a text of data is read

What stands first in a text decides how it is read. If the trimmed text opens
with `\#`, it is read in the generic form. Every other text is read in the
form of its type: addresses, names and numbers field by field, where the
words have to be as many as the fields, and descriptive text by itself.
-/

namespace ZoneStore

open Text CharacterString

/-! ## Fields -/

namespace RdataField

/-- Words that are read as the fields of a layout, in order, and what they are read as. -/
inductive Reads : List RdataField → List (List Char) → List UInt8 → Prop
  | nil : Reads [] [] []
  | cons {field : RdataField} {fields : List RdataField} {word : List Char}
      {words : List (List Char)} {octets more : List UInt8} :
      field.read word = .ok octets → Reads fields words more →
      Reads (field :: fields) (word :: words) (octets ++ more)

variable {layout : List RdataField} {words extra : List (List Char)} {octets : List UInt8}

theorem readAll_eq_ok_iff : readAll layout words = .ok octets ↔ Reads layout words octets := by
  constructor
  · intro h
    induction layout generalizing words octets with
    | nil =>
      cases words with
      | nil =>
        cases h
        exact .nil
      | cons word words => cases h
    | cons field layout ih =>
      cases words with
      | nil => cases h
      | cons word words =>
        rw [readAll] at h
        split at h
        · cases h
        · rename_i hRead
          split at h
          · cases h
          · rename_i hMore
            cases h
            exact .cons hRead (ih hMore)
  · intro h
    induction h with
    | nil => rfl
    | cons hRead _ ih => rw [readAll, hRead, ih]

/-- Where the words end before the fields do, a field is missing. -/
theorem Reads.readAll_dropLast (h : Reads layout words octets) (hSome : words ≠ []) :
    readAll layout words.dropLast = .error .missingField := by
  induction h with
  | nil => exact absurd rfl hSome
  | cons hRead hRest ih =>
    cases hRest with
    | nil => rfl
    | cons hNext hRest =>
      rw [List.dropLast_cons_cons, readAll, hRead, ih (List.cons_ne_nil _ _)]

theorem Reads.readAll_append (h : Reads layout words octets) (hMore : extra ≠ []) :
    readAll layout (words ++ extra) = .error .extraField := by
  induction h with
  | nil =>
    obtain ⟨word, extra, rfl⟩ := List.exists_cons_of_ne_nil hMore
    rfl
  | cons hRead _ ih => rw [List.cons_append, readAll, hRead, ih]

theorem reads_singleton_iff {field : RdataField} {word : List Char} :
    Reads [field] [word] octets ↔ field.read word = .ok octets := by
  constructor
  · intro h
    cases h with
    | cons hRead hRest =>
      cases hRest
      rwa [List.append_nil]
  · intro hRead
    have h := Reads.cons hRead .nil
    rwa [List.append_nil] at h

end RdataField

namespace Rdata

variable {type : RecordType} {text : List Char}

/-! ## What stands first -/

def OpensWithMark (text : List Char) : Prop :=
  genericMark <+: trimStart text

instance (text : List Char) : Decidable (OpensWithMark text) :=
  inferInstanceAs (Decidable (_ <+: _))

theorem isGeneric_iff : isGeneric text = true ↔ OpensWithMark text := by
  rw [isGeneric, beq_iff_eq, OpensWithMark, List.prefix_iff_eq_take]
  exact eq_comm

theorem opensWithMark_of_head? (hMark : (fields text).head? = some genericMark) :
    OpensWithMark text :=
  isGeneric_iff.mp (isGeneric_of_head? hMark)

theorem ofChars_of_opensWithMark (hMark : OpensWithMark text) :
    ofChars type text = ofGeneric ((fields text).drop 1) :=
  if_pos (isGeneric_iff.mpr hMark)

theorem checkLength_of_le {octets : List UInt8} (hLe : octets.length ≤ maxRdataLength) :
    checkLength octets = .ok ⟨octets, hLe⟩ :=
  checkLength_eq_ok_iff.mpr rfl

theorem checkLength_of_lt {octets : List UInt8} (hLt : maxRdataLength < octets.length) :
    checkLength octets = .error .tooLong := by
  rw [checkLength, ofOctets?, dif_neg (Nat.not_le.mpr hLt)]

theorem layout_txt : RdataField.layout .txt = none := by
  decide

theorem ofChars_of_layout (hMark : ¬OpensWithMark text) {layout : List RdataField}
    (hLayout : RdataField.layout type = some layout) :
    ofChars type text = (RdataField.readAll layout (fields text)).bind checkLength := by
  have hTxt : type ≠ .txt := by
    rintro rfl
    rw [layout_txt] at hLayout
    cases hLayout
  rw [ofChars, if_neg (mt isGeneric_iff.mp hMark), if_neg hTxt, hLayout]
  dsimp only
  cases RdataField.readAll layout (fields text) <;> rfl

theorem ofChars_eq_ok_iff_reads (hMark : ¬OpensWithMark text) {layout : List RdataField}
    (hLayout : RdataField.layout type = some layout) {rdata : Rdata} :
    ofChars type text = .ok rdata ↔ RdataField.Reads layout (fields text) rdata.octets := by
  rw [ofChars_of_layout hMark hLayout, ← RdataField.readAll_eq_ok_iff]
  cases RdataField.readAll layout (fields text) with
  | error e =>
    constructor
    · rintro ⟨⟩
    · rintro ⟨⟩
  | ok octets =>
    rw [Except.bind, checkLength_eq_ok_iff, Except.ok.injEq]
    exact eq_comm

theorem ofChars_txt (hMark : ¬OpensWithMark text) :
    ofChars .txt text =
      (CharacterString.ofText text).elim (.error .invalidString) (checkLength ∘ encode) := by
  rw [ofChars, if_neg (mt isGeneric_iff.mp hMark), if_pos rfl]
  cases CharacterString.ofText text <;> rfl

theorem ofChars_of_layout_eq_none (hMark : ¬OpensWithMark text) (hTxt : type ≠ .txt)
    (hLayout : RdataField.layout type = none) :
    ofChars type text = .error (.unsupportedType type) := by
  rw [ofChars, if_neg (mt isGeneric_iff.mp hMark), if_neg hTxt, hLayout]

end Rdata

end ZoneStore
