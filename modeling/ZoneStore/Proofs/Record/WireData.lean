import ZoneStore.Proofs.Record.Address
import ZoneStore.Proofs.Record.OwnForm

/-!
# Data that are well formed on the wire

Whatever is accepted in the form of its type is what the type has on the
wire: addresses of their length, names that can be read, numbers of their
width, and strings that end where the data do. A later reader of the octets
may rely on it.
-/

namespace ZoneStore

open Text CharacterString

/-- What the data of a type are made of, for the types that have a form of their own. -/
inductive WireData : RecordType → List UInt8 → Prop
  | shortAddress {octets : List UInt8} : octets.length = 4 → WireData .a octets
  | longAddress {octets : List UInt8} : octets.length = 16 → WireData .aaaa octets
  | name {type : RecordType} {octets : List UInt8} {name : Name} :
      type ∈ nameTypes → Name.ofWire octets = .ok name → WireData type octets
  | exchange {preference octets : List UInt8} {host : Name} :
      preference.length = 2 → Name.ofWire octets = .ok host →
      WireData .mx (preference ++ octets)
  | authority {primary mailbox numbers : List UInt8} {server owner : Name} :
      Name.ofWire primary = .ok server → Name.ofWire mailbox = .ok owner →
      numbers.length = 20 → WireData .soa (primary ++ (mailbox ++ numbers))
  | strings {strings : List (List UInt8)} {octets : List UInt8} :
      strings ≠ [] → StringsForm strings octets → WireData .txt octets

/-! ## What a field is read as -/

namespace RdataField

variable {word : List Char} {words : List (List Char)} {octets : List UInt8}

theorem length_bigEndian (width value : Nat) : (bigEndian width value).length = width := by
  rw [bigEndian, List.length_map, List.length_reverse, List.length_range]

/-- The octets of a field, where they are as many whatever is written. -/
def width : RdataField → Option Nat
  | shortAddress => some 4
  | longAddress => some 16
  | domainName => none
  | number16 => some 2
  | number32 => some 4

theorem length_read {field : RdataField} {count : Nat} (h : field.read word = .ok octets)
    (hWidth : field.width = some count) : octets.length = count := by
  cases field with
  | domainName => cases hWidth
  | shortAddress =>
    cases hWidth
    rw [read] at h
    split at h
    · rename_i hAddress
      cases h
      exact Address.length_ofShortText hAddress
    · cases h
  | longAddress =>
    cases hWidth
    rw [read] at h
    split at h
    · rename_i hAddress
      cases h
      exact Address.length_ofLongText hAddress
    · cases h
  | number16 | number32 =>
    cases hWidth
    rw [read] at h
    split at h
    · cases h
      exact length_bigEndian _ _
    · cases h

theorem exists_ofWire_of_read (h : domainName.read word = .ok octets) :
    ∃ name, Name.ofWire octets = .ok name := by
  obtain ⟨name, -, rfl⟩ := read_domainName_eq_ok_iff.mp h
  exact ⟨name, Name.ofWire_eq_ok_iff.mpr rfl⟩

theorem Reads.length_number32 {count : Nat}
    (h : Reads (List.replicate count .number32) words octets) : octets.length = 4 * count := by
  induction count generalizing words octets with
  | zero =>
    cases h
    rfl
  | succ count ih =>
    cases h with
    | cons hRead hRest =>
      rw [List.length_append, length_read hRead rfl, ih hRest]
      omega

end RdataField

namespace Rdata

variable {type : RecordType} {text : List Char}

theorem layout_cases {layout : List RdataField} (h : RdataField.layout type = some layout) :
    (type = .a ∧ layout = [.shortAddress]) ∨ (type = .aaaa ∧ layout = [.longAddress]) ∨
      (type ∈ nameTypes ∧ layout = [.domainName]) ∨
      (type = .mx ∧ layout = [.number16, .domainName]) ∨
      (type = .soa ∧ layout = .domainName :: .domainName :: List.replicate 5 .number32) := by
  unfold RdataField.layout at h
  split at h
  · cases h
    exact .inl ⟨‹_›, rfl⟩
  · split at h
    · cases h
      exact .inr (.inl ⟨‹_›, rfl⟩)
    · split at h
      · rename_i hName
        cases h
        refine .inr (.inr (.inl ⟨?_, rfl⟩))
        simpa [nameTypes] using hName
      · split at h
        · cases h
          exact .inr (.inr (.inr (.inl ⟨‹_›, rfl⟩)))
        · split at h
          · cases h
            exact .inr (.inr (.inr (.inr ⟨‹_›, rfl⟩)))
          · cases h

theorem wireData_of_reads {layout : List RdataField} {words : List (List Char)}
    {octets : List UInt8} (hLayout : RdataField.layout type = some layout)
    (h : RdataField.Reads layout words octets) : WireData type octets := by
  rcases layout_cases hLayout with
    ⟨rfl, rfl⟩ | ⟨rfl, rfl⟩ | ⟨hName, rfl⟩ | ⟨rfl, rfl⟩ | ⟨rfl, rfl⟩
  · obtain - | ⟨hRead, hRest⟩ := h
    cases hRest
    rw [List.append_nil]
    exact .shortAddress (RdataField.length_read hRead rfl)
  · obtain - | ⟨hRead, hRest⟩ := h
    cases hRest
    rw [List.append_nil]
    exact .longAddress (RdataField.length_read hRead rfl)
  · obtain - | ⟨hRead, hRest⟩ := h
    cases hRest
    rw [List.append_nil]
    obtain ⟨name, hWire⟩ := RdataField.exists_ofWire_of_read hRead
    exact .name hName hWire
  · obtain - | ⟨hPreference, hRest⟩ := h
    obtain - | ⟨hHost, hRest⟩ := hRest
    cases hRest
    rw [List.append_nil]
    obtain ⟨host, hWire⟩ := RdataField.exists_ofWire_of_read hHost
    exact .exchange (RdataField.length_read hPreference rfl) hWire
  · obtain - | ⟨hPrimary, hRest⟩ := h
    obtain - | ⟨hMailbox, hNumbers⟩ := hRest
    obtain ⟨server, hServer⟩ := RdataField.exists_ofWire_of_read hPrimary
    obtain ⟨owner, hOwner⟩ := RdataField.exists_ofWire_of_read hMailbox
    exact .authority hServer hOwner hNumbers.length_number32

/-- There is always a string, if only an empty one. -/
theorem wireData_txt {strings : List (List UInt8)}
    (h : CharacterString.ofText text = some strings) : WireData .txt (encode strings) := by
  by_cases hQuote : (trimStart text).head? = some '"'
  · obtain ⟨hQuoted, hLe⟩ := (ofText_eq_some_iff hQuote).mp h
    refine .strings ?_ (stringsForm_encode hLe)
    rintro rfl
    exact hQuoted.ne_nil_of_head? hQuote rfl
  · rw [CharacterString.ofText, if_neg hQuote] at h
    cases h
    have hWhole := takenWhole_ofPlain text
    exact .strings hWhole.ne_nil (stringsForm_encode hWhole.length_le)

/-! ## Main statement -/

/-- What is accepted without the mark is well formed on the wire. -/
theorem ofText_wireData (type : RecordType) (text : String) (hOwn : ¬OpensWithMark text.toList)
    (rdata : Rdata) (hRead : ofText type text = .ok rdata) :
    rdata.octets.length ≤ 65535 ∧ WireData type rdata.octets := by
  refine ⟨rdata.length_le, ?_⟩
  by_cases hTxt : type = .txt
  · subst hTxt
    obtain ⟨strings, hStrings, hOctets⟩ := (ofChars_txt_eq_ok_iff hOwn).mp hRead
    rw [hOctets]
    exact wireData_txt hStrings
  cases hLayout : RdataField.layout type with
  | none =>
    rw [ofText, ofChars_of_layout_eq_none hOwn hTxt hLayout] at hRead
    cases hRead
  | some layout => exact wireData_of_reads hLayout ((ofChars_eq_ok_iff_reads hOwn hLayout).mp hRead)

theorem ofText_wireData_authority :
    ¬OpensWithMark "a. . 1 02 +3 4\t4294967295".toList ∧
      ofText .soa "a. . 1 02 +3 4\t4294967295" =
        .ok ⟨[1, 97, 0, 0, 0, 0, 0, 1, 0, 0, 0, 2, 0, 0, 0, 3, 0, 0, 0, 4, 255, 255, 255, 255],
          by decide⟩ ∧
      WireData .soa
        [1, 97, 0, 0, 0, 0, 0, 1, 0, 0, 0, 2, 0, 0, 0, 3, 0, 0, 0, 4, 255, 255, 255, 255] := by
  have hOwn : ¬OpensWithMark "a. . 1 02 +3 4\t4294967295".toList := by decide
  have hRead : ofText .soa "a. . 1 02 +3 4\t4294967295" =
      .ok ⟨[1, 97, 0, 0, 0, 0, 0, 1, 0, 0, 0, 2, 0, 0, 0, 3, 0, 0, 0, 4, 255, 255, 255, 255],
        by decide⟩ := by
    decide +kernel
  exact ⟨hOwn, hRead, (ofText_wireData .soa _ hOwn _ hRead).2⟩

end Rdata

end ZoneStore
