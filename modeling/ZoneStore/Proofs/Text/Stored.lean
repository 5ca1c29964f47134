import ZoneStore.Text.Stored

/-!
# Stored texts and their characters

The octets of a text are those that Lean stores for it. Comparing them up to
letter case compares the characters, and a text is cut at an octet position
exactly where it is the end of one part and the beginning of another.
-/

namespace ZoneStore.Text

/-- The octets of a text are those that the text is stored in. -/
theorem toByteArray_octetsOf (text : String) :
    (octetsOf text.toList).toByteArray = text.toByteArray := by
  conv => rhs; rw [← String.ofList_toList (s := text), String.toByteArray_ofList]
  rfl

theorem length_octetsOf (text : String) : (octetsOf text.toList).length = text.utf8ByteSize := by
  rw [String.utf8ByteSize, ← toByteArray_octetsOf, List.size_toByteArray]

theorem octetsOf_eq_nil_iff {text : String} : octetsOf text.toList = [] ↔ text = "" := by
  rw [← List.length_eq_zero_iff, length_octetsOf, String.utf8ByteSize_eq_zero_iff]

theorem octetsOf_injective {a b : List Char} (h : octetsOf a = octetsOf b) : a = b := by
  have hStored : (String.ofList a).toByteArray = (String.ofList b).toByteArray := by
    rw [← toByteArray_octetsOf, ← toByteArray_octetsOf, String.toList_ofList, String.toList_ofList,
      h]
  exact String.ofList_inj.mp (String.toByteArray_inj.mp hStored)

/-! ## Letter case -/

theorem lowerChar_of_le {c : Char} (h : 128 ≤ c.toNat) : lowerChar c = c := by
  refine if_neg fun hLetter => ?_
  exact absurd (Nat.le_trans h (Char.le_def.mp hLetter.2)) (by decide)

theorem lowerOctet_of_le {octet : UInt8} (h : 128 ≤ octet) : lowerOctet octet = octet := by
  refine if_neg fun hLetter => ?_
  exact absurd (UInt8.le_trans h hLetter.2) (by decide)

theorem utf8EncodeChar_lowerChar (c : Char) :
    String.utf8EncodeChar (lowerChar c) = (String.utf8EncodeChar c).map lowerOctet := by
  rcases Nat.lt_or_ge c.toNat 128 with hAscii | hOther
  · revert c
    exact forall_ascii (by decide +kernel)
  · have hSame : ∀ octet ∈ String.utf8EncodeChar c, octet = lowerOctet octet :=
      fun octet hOctet => (lowerOctet_of_le (le_of_mem_utf8EncodeChar hOther octet hOctet)).symm
    rw [lowerChar_of_le hOther, ← List.map_congr_left hSame, List.map_id']

theorem octetsOf_lower (text : List Char) :
    octetsOf (lower text) = (octetsOf text).map lowerOctet := by
  induction text with
  | nil => rfl
  | cons c text ih =>
    rw [lower, List.map_cons, ← lower, octetsOf_cons, ih, utf8EncodeChar_lowerChar, octetsOf_cons,
      List.map_append]

theorem sameStored_eq_sameCaseless (a b : String) : sameStored a b = sameCaseless a b := by
  rw [Bool.eq_iff_iff, sameStored, sameOctets_iff, sameCaseless_iff, ← octetsOf_lower,
    ← octetsOf_lower]
  exact ⟨octetsOf_injective, congrArg octetsOf⟩

theorem utf8ByteSize_eq_of_lower_eq {a b : String} (h : lower a.toList = lower b.toList) :
    a.utf8ByteSize = b.utf8ByteSize := by
  rw [← length_octetsOf, ← length_octetsOf, ← List.length_map lowerOctet, ← octetsOf_lower, h,
    octetsOf_lower, List.length_map]

/-! ## Octet positions -/

variable {text front back : String} {position : Nat}

/-- There is a place at a position exactly if the text comes apart there. -/
theorem exists_place_iff :
    (∃ place, text.pos? ⟨position⟩ = some place ∧ place.Splits front back) ↔
      text = front ++ back ∧ front.utf8ByteSize = position := by
  simp only [String.pos?, String.Slice.pos?, Option.map_eq_some_iff]
  constructor
  · rintro ⟨place, ⟨inner, hInner, rfl⟩, hSplits⟩
    split at hInner
    · cases hInner
      exact ⟨hSplits.eq_append, congrArg String.Pos.Raw.byteIdx hSplits.offset_eq_rawEndPos.symm⟩
    · cases hInner
  · rintro ⟨hText, rfl⟩
    have hValid : String.Pos.Raw.IsValid text ⟨front.utf8ByteSize⟩ :=
      String.Pos.Raw.isValid_iff_exists_append.mpr ⟨front, back, hText, rfl⟩
    have hSlice : String.Pos.Raw.IsValidForSlice text.toSlice ⟨front.utf8ByteSize⟩ :=
      String.Pos.Raw.isValidForSlice_toSlice_iff.mpr hValid
    exact ⟨text.pos _ hValid, ⟨text.toSlice.pos _ hSlice,
      dif_pos (String.Pos.Raw.isValidForSlice_eq_true_iff.mpr hSlice), rfl⟩, hText, rfl⟩

theorem frontOf?_eq_some_iff :
    frontOf? text position = some front ↔
      ∃ back, text = front ++ back ∧ front.utf8ByteSize = position := by
  simp only [frontOf?, Option.map_eq_some_iff, ← exists_place_iff]
  constructor
  · rintro ⟨place, hPlace, rfl⟩
    exact ⟨_, place, hPlace, place.splits⟩
  · rintro ⟨back, place, hPlace, hSplits⟩
    exact ⟨place, hPlace, hSplits.copy_sliceTo_eq⟩

theorem backOf?_eq_some_iff :
    backOf? text position = some back ↔
      ∃ front, text = front ++ back ∧ front.utf8ByteSize = position := by
  simp only [backOf?, Option.map_eq_some_iff, ← exists_place_iff]
  constructor
  · rintro ⟨place, hPlace, rfl⟩
    exact ⟨_, place, hPlace, place.splits⟩
  · rintro ⟨front, place, hPlace, hSplits⟩
    exact ⟨place, hPlace, hSplits.copy_sliceFrom_eq⟩

end ZoneStore.Text
