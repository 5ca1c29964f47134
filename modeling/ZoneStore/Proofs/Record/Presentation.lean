import ZoneStore.Proofs.Record.Codes
import ZoneStore.Proofs.Text.Fields
import ZoneStore.Record.Presentation
import ZoneStore.Record.Ttl

/-!
# Parts of records that are read back

Times to live, types, classes and data are each written as a text that is
read as what was written. Data are read back under any type, since they are
written in the generic form.
-/

namespace ZoneStore

open Text

/-! ## Times to live -/

namespace Ttl

theorem ofText_toText (ttl : Ttl) : ofText ttl.toText = .ok ttl := by
  have hRead : readUnsigned maxWord (decimal ttl.seconds) = some ttl.seconds :=
    readUnsigned_decimal (Nat.le_trans ttl.seconds_le (by decide))
  rw [ofText, ofChars, toText, toList_decimalText, hRead]
  exact dif_pos ttl.seconds_le

theorem isGraphic_toText (ttl : Ttl) : ∀ c ∈ ttl.toText.toList, IsGraphic c := by
  rw [toText, toList_decimalText]
  exact isGraphic_of_mem_decimal

end Ttl

/-! ## Types and classes -/

namespace RecordType

theorem ofText_toText (type : RecordType) : ofText type.toText = .ok type := by
  rw [toText_eq, ofText_eq, spelling.ofText_toText]

theorem isGraphic_toText (type : RecordType) : ∀ c ∈ type.toText.toList, IsGraphic c := by
  rw [toText_eq]
  exact spelling.isGraphic_toText (by decide) (by decide) type

end RecordType

namespace RecordClass

theorem ofText_toText (recordClass : RecordClass) :
    ofText recordClass.toText = .ok recordClass := by
  rw [toText_eq, ofText_eq, spelling.ofText_toText]

theorem isGraphic_toText (recordClass : RecordClass) :
    ∀ c ∈ recordClass.toText.toList, IsGraphic c := by
  rw [toText_eq]
  exact spelling.isGraphic_toText (by decide) (by decide) recordClass

end RecordClass

/-! ## Data -/

namespace Rdata

theorem toChars_eq (rdata : Rdata) :
    rdata.toChars = ['\\', '#'] ++ ' ' :: (decimal rdata.octets.length ++
      if rdata.octets.isEmpty then [] else ' ' :: encodeHex rdata.octets) := by
  rw [toChars, List.append_assoc]
  rfl

theorem fields_toChars (rdata : Rdata) :
    fields rdata.toChars = ['\\', '#'] :: decimal rdata.octets.length ::
      if rdata.octets.isEmpty then [] else [encodeHex rdata.octets] := by
  have hMark : ∀ c ∈ ['\\', '#'], isAsciiBlank c = false :=
    not_isAsciiBlank_of_all (by decide)
  have hLength : ∀ c ∈ decimal rdata.octets.length, isAsciiBlank c = false :=
    fun c hc => (isGraphic_of_mem_decimal c hc).not_isAsciiBlank
  have hDigits : ∀ c ∈ encodeHex rdata.octets, isAsciiBlank c = false :=
    fun c hc => (isGraphic_of_mem_encodeHex c hc).not_isAsciiBlank
  rw [toChars_eq, fields_append_blank hMark (List.cons_ne_nil _ _) (by decide)]
  congr 1
  -- Without octets there are no digits, and then no blank behind the length either.
  split
  · rw [List.append_nil]
    exact fields_word hLength (decimal_ne_nil _)
  · rename_i hSome
    rw [fields_append_blank hLength (decimal_ne_nil _) (by decide),
      fields_word hDigits fun hNil => hSome (by rw [encodeHex_eq_nil_iff.mp hNil]; rfl)]

theorem ofGeneric_toChars (rdata : Rdata) :
    ofGeneric ((fields rdata.toChars).drop 1) = .ok rdata := by
  have hLength : readUnsigned maxGenericLength (decimal rdata.octets.length) =
      some rdata.octets.length :=
    readUnsigned_decimal (Nat.le_trans rdata.length_le (by decide))
  have hDigits : decodeHex (if rdata.octets.isEmpty then [] else [encodeHex rdata.octets]).flatten =
      some rdata.octets := by
    split
    · rename_i hNone
      rw [List.isEmpty_iff.mp hNone]
      rfl
    · rw [List.flatten_singleton, decodeHex_encodeHex]
  rw [fields_toChars, List.drop_succ_cons, List.drop_zero, ofGeneric, hLength, hDigits]
  dsimp only
  rw [if_pos rfl, checkLength, ofOctets?, dif_pos rdata.length_le]

theorem ofText_toText (type : RecordType) (rdata : Rdata) :
    ofText type rdata.toText = .ok rdata := by
  have hGeneric : isGeneric rdata.toChars = true := rfl
  rw [ofText, toText, String.toList_ofList, ofChars, if_pos hGeneric, ofGeneric_toChars]

theorem isGraphic_or_space (rdata : Rdata) :
    ∀ c ∈ rdata.toText.toList, IsGraphic c ∨ c = ' ' := by
  have hMark : ∀ c ∈ ['\\', '#'], IsGraphic c := isGraphic_of_all (by decide)
  rw [toText, String.toList_ofList, toChars_eq]
  refine List.forall_mem_append.mpr ⟨fun c hc => .inl (hMark c hc), ?_⟩
  refine List.forall_mem_cons.mpr ⟨.inr rfl, ?_⟩
  refine List.forall_mem_append.mpr ⟨fun c hc => .inl (isGraphic_of_mem_decimal c hc), ?_⟩
  split
  · exact List.forall_mem_nil _
  · exact List.forall_mem_cons.mpr ⟨.inr rfl, fun c hc => .inl (isGraphic_of_mem_encodeHex c hc)⟩

end Rdata

end ZoneStore
