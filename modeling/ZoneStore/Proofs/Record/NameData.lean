import Mathlib.Data.List.Forall2
import ZoneStore.Proofs.Name.Presentation
import ZoneStore.Proofs.Record.OwnForm
import ZoneStore.Proofs.Text.Layout
import ZoneStore.Proofs.Text.Numerals

/-!
# Data that hold names

The words of data that hold names are the printed names and numerals of the
numbers. However they are laid out, they are read as the wire forms of the
names and the octets of the numbers, and there must be neither a word less
nor a word more. A printed name never opens like the mark of the generic
form, whatever octets it has.
-/

namespace ZoneStore

open Text

/-- Data of the types that hold names. -/
inductive NameData where
  | single (type : RecordType) (hType : type ∈ nameTypes) (name : Name)
  | exchange (preference : UInt16) (host : Name)
  | authority (primary mailbox : Name) (numbers : Vector UInt32 5)

/-! ## Parts of data on the wire and in text -/

def octets16 (value : UInt16) : List UInt8 :=
  [(value >>> 8).toUInt8, value.toUInt8]

def octets32 (value : UInt32) : List UInt8 :=
  [(value >>> 24).toUInt8, (value >>> 16).toUInt8, (value >>> 8).toUInt8, value.toUInt8]

namespace NameData

def type : NameData → RecordType
  | single type _ _ => type
  | exchange _ _ => .mx
  | authority _ _ _ => .soa

/-- Names without compression, and numbers from the highest octet on. -/
def octets : NameData → List UInt8
  | single _ _ name => name.wire
  | exchange preference host => octets16 preference ++ host.wire
  | authority primary mailbox numbers =>
    primary.wire ++ (mailbox.wire ++ numbers.toList.flatMap octets32)

inductive Words : NameData → List (List Char) → Prop
  | single {type : RecordType} {hType : type ∈ nameTypes} {name : Name} :
      Words (.single type hType name) [name.toText.toList]
  | exchange {preference : UInt16} {host : Name} {numeral : List Char} :
      IsNumeral numeral preference.toNat →
      Words (.exchange preference host) [numeral, host.toText.toList]
  | authority {primary mailbox : Name} {numbers : Vector UInt32 5} {numerals : List (List Char)} :
      List.Forall₂ (fun numeral number => IsNumeral numeral number.toNat) numerals numbers.toList →
      Words (.authority primary mailbox numbers)
        (primary.toText.toList :: mailbox.toText.toList :: numerals)

end NameData

namespace Rdata

/-! ## Words that are no marks -/

/-- A word that can stand first without being taken for the mark. -/
structure IsPart (word : List Char) : Prop where
  ne_nil : word ≠ []
  graphic : ∀ c ∈ word, IsGraphic c
  not_mark : ¬genericMark <+: word

theorem IsPart.isWord {word : List Char} (h : IsPart word) : IsWord word where
  ne_nil := h.ne_nil
  not_blank c hc := (h.graphic c hc).not_isAsciiBlank

theorem isPart_of_isNumeral {numeral : List Char} {value : Nat} (h : IsNumeral numeral value) :
    IsPart numeral where
  ne_nil := by
    rintro rfl
    exact (isNumeral_iff.mp h).1 rfl
  graphic c hc := by
    rcases h.mem c hc with rfl | hDigit
    · decide
    · exact isGraphic_of_isDigit hDigit
  not_mark hMark := by
    have hBackslash : '\\' ∈ numeral := hMark.subset (by decide)
    rcases h.mem _ hBackslash with hPlus | hDigit
    · cases hPlus
    · cases hDigit

/-- Behind the backslash of a printed octet stands a dot, a backslash or a digit. -/
theorem not_mark_octetText_append (octet : UInt8) (rest : List Char) :
    ¬genericMark <+: Name.octetText octet ++ rest := by
  unfold Name.octetText genericMark
  split
  · simp
  · split
    · simp
    · rename_i hBackslash
      split
      · rename_i hVisible
        simp only [Name.isVisible, Bool.and_eq_true, decide_eq_true_eq] at hVisible
        intro hMark
        have hChar : '\\' = Char.ofNat octet.toNat := (List.cons_prefix_cons.mp hMark).1
        have hAscii : octet < 128 := UInt8.lt_of_le_of_lt hVisible.2 (by decide)
        apply hBackslash
        rw [hChar, toNat_asciiChar hAscii, Nat.toUInt8, UInt8.ofNat_toNat]
      · intro hMark
        have hValue := octet.toNat_lt
        have hTail := (List.cons_prefix_cons.mp hMark).2
        have hSign : '#' = Nat.digitChar (octet.toNat / 100) := (List.cons_prefix_cons.mp hTail).1
        have hDigit := isDigit_digitChar_of_lt (show octet.toNat / 100 < 10 by omega)
        rw [← hSign] at hDigit
        cases hDigit

theorem isPart_toText (name : Name) : IsPart name.toText.toList := by
  have hOpens : name.toText.toList = ['.'] ∨
      ∃ octet rest, name.toText.toList = Name.octetText octet ++ rest := by
    rw [Name.toText, String.toList_ofList, Name.toChars]
    split
    · exact .inl rfl
    · rename_i hRoot
      rw [Name.isRoot, List.isEmpty_iff] at hRoot
      obtain ⟨label, labels, hLabels⟩ := List.exists_cons_of_ne_nil hRoot
      obtain ⟨octet, octets, hOctets⟩ := List.exists_cons_of_ne_nil label.ne_nil
      rw [hLabels, List.flatMap_cons, Name.labelText, hOctets, List.flatMap_cons,
        List.append_assoc, List.append_assoc]
      exact .inr ⟨octet, _, rfl⟩
  refine ⟨?_, Name.isGraphic_toText name, ?_⟩
  · rcases hOpens with hDot | ⟨octet, rest, hItem⟩
    · rw [hDot]
      exact List.cons_ne_nil _ _
    · rw [hItem]
      exact List.append_ne_nil_of_left_ne_nil (Name.itemText_octetText octet).ne_nil rest
  · rcases hOpens with hDot | ⟨octet, rest, hItem⟩
    · rw [hDot]
      decide
    · rw [hItem]
      exact not_mark_octetText_append octet rest

theorem not_opensWithMark_of_laidOut {words : List (List Char)} {text : List Char}
    (hLaid : LaidOut words text) (hPart : ∀ word ∈ words.head?, IsPart word) :
    ¬OpensWithMark text := by
  intro hMark
  cases words with
  | nil =>
    cases hLaid with
    | blank hBlanks =>
      have hTrim := trimStart_append_of_isAsciiBlank hBlanks []
      rw [List.append_nil] at hTrim
      rw [OpensWithMark, hTrim] at hMark
      cases List.prefix_nil.mp hMark
  | cons word words =>
    have hSigns : ∀ c ∈ genericMark, isAsciiBlank c = false :=
      not_isAsciiBlank_of_all (by decide)
    obtain ⟨hSome, hGraphic, hNot⟩ := hPart word rfl
    exact hNot (hLaid.isPrefix_of_isPrefix_trimStart hSome hGraphic hSigns hMark)

theorem ofChars_eq_readAll {type : RecordType} {layout : List RdataField}
    {words : List (List Char)} {text : List Char} (hLayout : RdataField.layout type = some layout)
    (hLaid : LaidOut words text) (hWords : ∀ word ∈ words, IsWord word)
    (hFirst : ∀ word ∈ words.head?, IsPart word) :
    ofChars type text = (RdataField.readAll layout words).bind checkLength := by
  rw [ofChars_of_layout (not_opensWithMark_of_laidOut hLaid hFirst) hLayout,
    hLaid.fields_eq hWords]

end Rdata

/-! ## Words that are read as the fields -/

namespace RdataField

theorem bigEndian_two (value : UInt16) : bigEndian 2 value.toNat = octets16 value := by
  simp [bigEndian, octets16, List.range_succ, ← UInt8.toNat_inj, Nat.shiftRight_eq_div_pow]

theorem bigEndian_four (value : UInt32) : bigEndian 4 value.toNat = octets32 value := by
  simp [bigEndian, octets32, List.range_succ, ← UInt8.toNat_inj, Nat.shiftRight_eq_div_pow]

theorem read_domainName_toText (name : Name) :
    domainName.read name.toText.toList = .ok name.wire :=
  read_domainName_eq_ok_iff.mpr ⟨name, Name.ofText_toText name, rfl⟩

theorem read_number16_of_isNumeral {numeral : List Char} {value : UInt16}
    (h : IsNumeral numeral value.toNat) : number16.read numeral = .ok (octets16 value) := by
  have hLe : value.toNat ≤ 65535 := Nat.le_of_lt_succ value.toNat_lt
  rw [read, readUnsigned_eq_some_iff.mpr ⟨h, hLe⟩, ← bigEndian_two]

theorem read_number32_of_isNumeral {numeral : List Char} {value : UInt32}
    (h : IsNumeral numeral value.toNat) : number32.read numeral = .ok (octets32 value) := by
  have hLe : value.toNat ≤ 4294967295 := Nat.le_of_lt_succ value.toNat_lt
  rw [read, readUnsigned_eq_some_iff.mpr ⟨h, hLe⟩, ← bigEndian_four]

theorem reads_numerals {numerals : List (List Char)} {numbers : List UInt32}
    (h : List.Forall₂ (fun numeral number => IsNumeral numeral number.toNat) numerals numbers) :
    Reads (List.replicate numbers.length .number32) numerals (numbers.flatMap octets32) := by
  induction h with
  | nil => exact .nil
  | cons hNumeral _ ih => exact .cons (read_number32_of_isNumeral hNumeral) ih

end RdataField

namespace NameData

variable {data : NameData} {words : List (List Char)}

theorem Words.ne_nil (h : data.Words words) : words ≠ [] := by
  cases h <;> exact List.cons_ne_nil _ _

theorem Words.isPart (h : data.Words words) : ∀ word ∈ words, Rdata.IsPart word := by
  cases h with
  | single => exact List.forall_mem_singleton.mpr (Rdata.isPart_toText _)
  | exchange hPreference =>
    exact List.forall_mem_cons.mpr ⟨Rdata.isPart_of_isNumeral hPreference,
      List.forall_mem_singleton.mpr (Rdata.isPart_toText _)⟩
  | authority hNumbers =>
    refine List.forall_mem_cons.mpr ⟨Rdata.isPart_toText _,
      List.forall_mem_cons.mpr ⟨Rdata.isPart_toText _, ?_⟩⟩
    have hNumerals := hNumbers.imp fun _ _ hNumeral =>
      And.intro (Rdata.isPart_of_isNumeral hNumeral) hNumeral
    exact ((List.forall₂_and_left _ _).mp hNumerals).1

theorem Words.exists_reads (h : data.Words words) :
    ∃ layout, RdataField.layout data.type = some layout ∧
      RdataField.Reads layout words data.octets := by
  cases h with
  | @single type hType name =>
    exact ⟨_, layout_of_mem_nameTypes hType,
      RdataField.reads_singleton_iff.mpr (RdataField.read_domainName_toText name)⟩
  | exchange hPreference =>
    exact ⟨_, rfl, .cons (RdataField.read_number16_of_isNumeral hPreference)
      (RdataField.reads_singleton_iff.mpr (RdataField.read_domainName_toText _))⟩
  | @authority primary mailbox numbers numerals hNumbers =>
    have hReads := RdataField.reads_numerals hNumbers
    rw [Vector.length_toList] at hReads
    exact ⟨_, rfl, .cons (RdataField.read_domainName_toText primary)
      (.cons (RdataField.read_domainName_toText mailbox) hReads)⟩

theorem length_flatMap_octets32 (numbers : List UInt32) :
    (numbers.flatMap octets32).length = 4 * numbers.length := by
  simp [List.length_flatMap, octets32, Nat.mul_comm]

theorem length_octets_le (data : NameData) : data.octets.length ≤ maxRdataLength := by
  cases data with
  | single type hType name => exact Nat.le_trans name.length_wire_le (by decide)
  | exchange preference host =>
    have hHost : host.wire.length ≤ 255 := host.length_wire_le
    rw [octets, List.length_append, octets16, maxRdataLength]
    simp only [List.length_cons, List.length_nil]
    omega
  | authority primary mailbox numbers =>
    have hPrimary : primary.wire.length ≤ 255 := primary.length_wire_le
    have hMailbox : mailbox.wire.length ≤ 255 := mailbox.length_wire_le
    rw [octets, List.length_append, List.length_append, length_flatMap_octets32,
      Vector.length_toList, maxRdataLength]
    omega

theorem ofChars_of_laidOut {text : List Char} (h : data.Words words) (hLaid : LaidOut words text) :
    ∃ rdata, Rdata.ofChars data.type text = .ok rdata ∧ rdata.octets = data.octets := by
  obtain ⟨layout, hLayout, hReads⟩ := h.exists_reads
  refine ⟨⟨data.octets, length_octets_le data⟩, ?_, rfl⟩
  rw [Rdata.ofChars_eq_readAll hLayout hLaid (fun word hWord => (h.isPart word hWord).isWord)
    fun word hWord => h.isPart word (List.mem_of_mem_head? hWord),
    RdataField.readAll_eq_ok_iff.mpr hReads]
  exact Rdata.checkLength_of_le (length_octets_le data)

theorem ofChars_of_laidOut_dropLast {text : List Char} (h : data.Words words)
    (hLaid : LaidOut words.dropLast text) :
    Rdata.ofChars data.type text = .error .missingField := by
  obtain ⟨layout, hLayout, hReads⟩ := h.exists_reads
  have hPart : ∀ word ∈ words.dropLast, Rdata.IsPart word :=
    fun word hWord => h.isPart word (List.dropLast_subset words hWord)
  rw [Rdata.ofChars_eq_readAll hLayout hLaid (fun word hWord => (hPart word hWord).isWord)
    fun word hWord => hPart word (List.mem_of_mem_head? hWord),
    hReads.readAll_dropLast h.ne_nil]
  rfl

theorem ofChars_of_laidOut_append {text extra : List Char} (h : data.Words words)
    (hExtra : IsWord extra) (hLaid : LaidOut (words ++ [extra]) text) :
    Rdata.ofChars data.type text = .error .extraField := by
  obtain ⟨layout, hLayout, hReads⟩ := h.exists_reads
  have hWords : ∀ word ∈ words ++ [extra], IsWord word :=
    List.forall_mem_append.mpr
      ⟨fun word hWord => (h.isPart word hWord).isWord, List.forall_mem_singleton.mpr hExtra⟩
  have hFirst : ∀ word ∈ (words ++ [extra]).head?, Rdata.IsPart word := by
    rw [List.head?_append_of_ne_nil words h.ne_nil]
    exact fun word hWord => h.isPart word (List.mem_of_mem_head? hWord)
  rw [Rdata.ofChars_eq_readAll hLayout hLaid hWords hFirst,
    hReads.readAll_append (List.cons_ne_nil _ _)]
  rfl

end NameData

/-! ## Main statement -/

/-- What comes of a text that lays out words, of all but the last, and of one more. -/
structure ReadsLaidOut (data : NameData) (words : List (List Char)) : Prop where
  complete : ∀ text : String, LaidOut words text.toList →
    ∃ rdata, Rdata.ofText data.type text = .ok rdata ∧ rdata.octets = data.octets
  missing : ∀ text : String, LaidOut words.dropLast text.toList →
    Rdata.ofText data.type text = .error .missingField
  extra : ∀ (text : String) (word : List Char), IsWord word →
    LaidOut (words ++ [word]) text.toList → Rdata.ofText data.type text = .error .extraField

/--
The words of data are read as the data whatever the blanks between them, and a word less or one
more is refused. A single name is recovered from its octets.
-/
theorem Rdata.ofText_reads_names (data : NameData) (words : List (List Char))
    (hWords : data.Words words) :
    ReadsLaidOut data words ∧
      ∀ type hType name, data = .single type hType name → Name.ofWire data.octets = .ok name := by
  refine ⟨⟨fun _ => NameData.ofChars_of_laidOut hWords,
    fun _ => NameData.ofChars_of_laidOut_dropLast hWords,
    fun _ _ => NameData.ofChars_of_laidOut_append hWords⟩, ?_⟩
  rintro type hType name rfl
  exact Name.ofWire_eq_ok_iff.mpr rfl

theorem Rdata.ofText_reads_names_backslash :
    NameData.Words (.exchange 10 ⟨[⟨[92, 35], by decide, by decide⟩], by decide⟩)
        ["+010".toList, "\\\\#.".toList] ∧
      (∃ rdata, ofText .mx "\t+010 \n\\\\#." = .ok rdata ∧ rdata.octets = [0, 10, 2, 92, 35, 0]) ∧
      ofText .mx "+010 " = .error .missingField ∧
      ofText .mx "+010 \\\\#. \\#" = .error .extraField ∧
      NameData.Words (.single .ptr (by decide) .root) [".".toList] ∧
      Name.ofWire [0] = .ok .root := by
  have hEscaped : NameData.Words (.exchange 10 ⟨[⟨[92, 35], by decide, by decide⟩], by decide⟩)
      ["+010".toList, "\\\\#.".toList] :=
    .exchange ⟨['+'], 1, .inr rfl, by decide⟩
  have hRoot : NameData.Words (.single .ptr (by decide) .root) [".".toList] := .single
  obtain ⟨hComplete, hMissing, hExtra⟩ := (ofText_reads_names _ _ hEscaped).1
  have hEnd : LaidOut [] [] := .blank (List.forall_mem_nil _)
  have hFront : LaidOut ["+010".toList] ([] ++ ("+010".toList ++ [' '])) :=
    .word (List.forall_mem_nil _) (by simp [isAsciiBlank])
      (.blank (List.forall_mem_singleton.mpr rfl))
  have hLaid : LaidOut ["+010".toList, "\\\\#.".toList]
      (['\t'] ++ ("+010".toList ++ ([' ', '\n'] ++ ("\\\\#.".toList ++ [])))) :=
    .word (by simp [isAsciiBlank]) (by simp [isAsciiBlank])
      (.word (by simp [isAsciiBlank]) (by simp) hEnd)
  have hMore : LaidOut ["+010".toList, "\\\\#.".toList, "\\#".toList]
      ([] ++ ("+010".toList ++ ([' '] ++ ("\\\\#.".toList ++ ([' '] ++ ("\\#".toList ++ [])))))) :=
    .word (List.forall_mem_nil _) (by simp [isAsciiBlank])
      (.word (by simp [isAsciiBlank]) (by simp [isAsciiBlank])
        (.word (by simp [isAsciiBlank]) (by simp) hEnd))
  have hMark : IsWord "\\#".toList := ⟨by decide, not_isAsciiBlank_of_all (by decide)⟩
  exact ⟨hEscaped, hComplete _ hLaid, hMissing _ hFront, hExtra _ _ hMark hMore,
    hRoot, (ofText_reads_names _ _ hRoot).2 _ _ _ rfl⟩

end ZoneStore
