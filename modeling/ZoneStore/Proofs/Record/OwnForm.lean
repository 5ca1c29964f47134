import ZoneStore.Proofs.Name.Wire
import ZoneStore.Proofs.Record.Descriptive

/-!
# Data in the form of their type

A text that does not open with the mark of the generic form is read in the
form of its type. The mark is looked for where the trimmed text starts, and
not in the first field: a text whose first field is a longer one that begins
like the mark is taken for a generic one as well, and the field is dropped.
-/

namespace ZoneStore

open Text CharacterString

/-- The types whose data have a form of their own. -/
def ownTypes : List RecordType :=
  [.a, .ns, .cname, .soa, .ptr, .mx, .txt, .aaaa]

/-- The types whose data are a single name. -/
def nameTypes : List RecordType :=
  [.ns, .cname, .ptr]

theorem layout_of_mem_nameTypes {type : RecordType} (h : type ∈ nameTypes) :
    RdataField.layout type = some [.domainName] := by
  have hAll : ∀ type ∈ nameTypes, RdataField.layout type = some [.domainName] := by decide
  exact hAll type h

theorem layout_of_not_mem_ownTypes {type : RecordType} (h : type ∉ ownTypes) :
    RdataField.layout type = none := by
  simp only [ownTypes, List.mem_cons, List.not_mem_nil, or_false, not_or] at h
  obtain ⟨hA, hNs, hCname, hSoa, hPtr, hMx, -, hAaaa⟩ := h
  simp only [RdataField.layout, hA, hNs, hCname, hSoa, hPtr, hMx, hAaaa, or_self, if_false]

theorem RdataField.read_domainName_eq_ok_iff {word : List Char} {octets : List UInt8} :
    RdataField.domainName.read word = .ok octets ↔
      ∃ name, Name.ofChars word = .ok name ∧ octets = name.wire := by
  rw [read]
  cases Name.ofChars word with
  | error e =>
    constructor
    · rintro ⟨⟩
    · rintro ⟨_, ⟨⟩, _⟩
  | ok name =>
    constructor
    · rintro ⟨⟩
      exact ⟨name, rfl, rfl⟩
    · rintro ⟨_, ⟨⟩, rfl⟩
      rfl

namespace Rdata

variable {type : RecordType} {text : List Char}

/-- A name without blanks is the only field of its text. -/
theorem ofChars_name (hMark : ¬OpensWithMark text) (hType : type ∈ nameTypes)
    (hBlank : ∀ c ∈ text, isAsciiBlank c = false) {name : Name}
    (hName : Name.ofChars text = .ok name) :
    ∃ rdata, ofChars type text = .ok rdata ∧ rdata.octets = name.wire := by
  have hSome : text ≠ [] := by
    rintro rfl
    cases hName
  refine ⟨⟨name.wire, Nat.le_trans name.length_wire_le (by decide)⟩, ?_, rfl⟩
  rw [ofChars_eq_ok_iff_reads hMark (layout_of_mem_nameTypes hType), fields_word hBlank hSome,
    RdataField.reads_singleton_iff, RdataField.read_domainName_eq_ok_iff]
  exact ⟨name, hName, rfl⟩

/-- What the form of its own makes of a text, type by type. -/
structure ReadsOwn (type : RecordType) (text : String) : Prop where
  name : type ∈ nameTypes → (∀ c ∈ text.toList, isAsciiBlank c = false) →
    ∀ name, Name.ofText text = .ok name →
      ∃ rdata, ofText type text = .ok rdata ∧ rdata.octets = name.wire
  fieldwise : ∀ layout, RdataField.layout type = some layout → ∀ rdata,
    ofText type text = .ok rdata ↔
      RdataField.Reads layout (fields text.toList) rdata.octets
  quoted : type = .txt → (trimStart text.toList).head? = some '"' → ReadsQuoted text
  whole : type = .txt → (trimStart text.toList).head? ≠ some '"' →
    ∃ strings, TakenWhole (octetsOf text.toList) strings ∧
      ((wireLength strings ≤ maxRdataLength ∧
          ∃ rdata, ofText type text = .ok rdata ∧ StringsForm strings rdata.octets) ∨
        (maxRdataLength < wireLength strings ∧ ofText type text = .error .tooLong))
  unsupported : type ∉ ownTypes → ofText type text = .error (.unsupportedType type)

/-- The first field goes for the mark, whatever else is in it. -/
structure TakenForGeneric (type : RecordType) (text : String) : Prop where
  same : ∀ (other : RecordType) (marked : String),
    (fields marked.toList).head? = some genericMark →
    (fields marked.toList).drop 1 = (fields text.toList).drop 1 →
    ofText type text = ofText other marked
  lone : (∀ c ∈ text.toList, isAsciiBlank c = false) →
    ofText type text = .error .invalidGeneric

theorem readsOwn_of_not_opensWithMark (type : RecordType) {text : String}
    (hMark : ¬OpensWithMark text.toList) : ReadsOwn type text where
  name hType hBlank name hName := ofChars_name hMark hType hBlank hName
  fieldwise layout hLayout rdata := ofChars_eq_ok_iff_reads hMark hLayout
  quoted _ hQuote :=
    ⟨exists_ofChars_quoted_iff hQuote, fun _ => ofChars_quoted_eq_ok_iff hQuote⟩
  whole := by
    rintro rfl hQuote
    exact exists_takenWhole hMark hQuote
  unsupported hType := by
    refine ofChars_of_layout_eq_none hMark ?_ (layout_of_not_mem_ownTypes hType)
    rintro rfl
    exact hType (by decide)

theorem takenForGeneric_of_opensWithMark (type : RecordType) {text : String}
    (hMark : OpensWithMark text.toList) : TakenForGeneric type text where
  same other marked hHead hRest := by
    rw [ofText, ofText, ofChars_of_opensWithMark hMark, ofChars_eq_ofGeneric other hHead, hRest]
  lone hBlank := by
    have hSome : text.toList ≠ [] := by
      intro hNil
      rw [OpensWithMark, hNil] at hMark
      cases List.prefix_nil.mp hMark
    rw [ofText, ofChars_of_opensWithMark hMark, fields_word hBlank hSome]
    rfl

/--
Data are read in the form of their type unless the text opens with the mark; then whatever field
comes first is dropped, and a name that opens so is refused.
-/
theorem ofText_reads_own_form (type : RecordType) (text : String) :
    (¬OpensWithMark text.toList → ReadsOwn type text) ∧
      (OpensWithMark text.toList → TakenForGeneric type text) ∧
      ((fields text.toList).head? = some genericMark → OpensWithMark text.toList) :=
  ⟨readsOwn_of_not_opensWithMark type, takenForGeneric_of_opensWithMark type,
    opensWithMark_of_head?⟩

theorem ofText_reads_own_form_numberSign :
    ¬OpensWithMark "\\035a.".toList ∧ ReadsOwn .cname "\\035a." ∧
      OpensWithMark "\\#a.".toList ∧ TakenForGeneric .cname "\\#a." ∧
      (fields " \\# 0".toList).head? = some genericMark ∧ OpensWithMark " \\# 0".toList :=
  ⟨by decide, (ofText_reads_own_form _ _).1 (by decide), by decide,
    (ofText_reads_own_form _ _).2.1 (by decide), by decide,
    (ofText_reads_own_form .a _).2.2 (by decide)⟩

/-- The text is a name, and its first field is not the mark, but it is not read as a name. -/
theorem escaped_numberSign_not_read :
    ¬∀ (type : RecordType) (text : String),
      (fields text.toList).head? ≠ some genericMark → ReadsOwn type text := by
  intro hOwn
  have hName : Name.ofText "\\#a." = .ok ⟨[⟨[35, 97], by decide, by decide⟩], by decide⟩ := by
    decide
  have hBlank : ∀ c ∈ "\\#a.".toList, isAsciiBlank c = false :=
    not_isAsciiBlank_of_all (by decide)
  have hRefused : ofText .cname "\\#a." = .error .invalidGeneric :=
    (takenForGeneric_of_opensWithMark .cname (by decide)).lone hBlank
  obtain ⟨_, hRead, -⟩ :=
    (hOwn .cname "\\#a." (by decide)).name (by decide) hBlank _ hName
  rw [hRefused] at hRead
  cases hRead

end Rdata

end ZoneStore
