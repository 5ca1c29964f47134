import ZoneStore.Proofs.Name.Reader
import ZoneStore.Proofs.Text.Digits

/-!
# Names and their texts

Reading accepts exactly the texts of the grammar, and gives the labels that
the text spells. Writing a name gives a text of the grammar, so a name that
is written and read again is the same name.
-/

namespace ZoneStore.Name

open Text

/-! ## Labels that make up a name -/

theorem exists_labels {labels : List (List UInt8)} (hPos : ∀ octets ∈ labels, 1 ≤ octets.length)
    (hLe : ∀ octets ∈ labels, octets.length ≤ 63) :
    ∃ checked : List Label, checked.map Label.octets = labels := by
  induction labels with
  | nil => exact ⟨[], rfl⟩
  | cons octets labels ih =>
    rw [List.forall_mem_cons] at hPos hLe
    obtain ⟨checked, rfl⟩ := ih hPos.2 hLe.2
    exact ⟨⟨octets, List.ne_nil_of_length_pos hPos.1, hLe.1⟩ :: checked, rfl⟩

theorem wireLengthOf_eq_sum (labels : List Label) :
    wireLengthOf labels = ((labels.map Label.octets).map fun octets => octets.length + 1).sum := by
  induction labels with
  | nil => rfl
  | cons label labels ih =>
    rw [wireLengthOf_cons, ih, List.map_cons, List.map_cons, List.sum_cons, Label.wireLength]

theorem FitsWire.exists_name {labels : List (List UInt8)} (h : FitsWire labels) :
    ∃ name : Name, name.labels.map Label.octets = labels := by
  obtain ⟨checked, hChecked⟩ := exists_labels h.length_pos h.length_le
  refine ⟨⟨checked, ?_⟩, hChecked⟩
  rw [wireLengthOf_eq_sum, hChecked]
  exact h.sum_le

theorem fitsWire (name : Name) : FitsWire (name.labels.map Label.octets) where
  length_pos := by
    intro octets hOctets
    obtain ⟨label, _, rfl⟩ := List.mem_map.mp hOctets
    exact List.length_pos_iff.mpr label.ne_nil
  length_le := by
    intro octets hOctets
    obtain ⟨label, _, rfl⟩ := List.mem_map.mp hOctets
    exact label.length_le
  sum_le := by
    rw [← wireLengthOf_eq_sum]
    exact name.wireLength_le

theorem labelOctets_eq_iff {name : Name} {labels : List (List UInt8)} :
    name.labelOctets = labels ++ [[]] ↔ name.labels.map Label.octets = labels := by
  rw [labelOctets, List.append_left_inj]

/-! ## Reading -/

theorem ItemText.ne_nil {octet : UInt8} {item : List Char} (h : ItemText octet item) :
    item ≠ [] := by
  cases h <;> exact List.cons_ne_nil _ _

theorem LabelText.eq_nil {octets : List UInt8} (h : LabelText octets []) : octets = [] := by
  generalize hText : ([] : List Char) = text at h
  cases h with
  | nil => rfl
  | cons hItem _ => exact absurd (List.append_eq_nil_iff.mp hText.symm).1 hItem.ne_nil

theorem LabelsText.eq_nil_iff {labels : List (List UInt8)} {text : List Char}
    (h : LabelsText labels text) : labels = [] ↔ text = [] := by
  cases h with
  | nil => simp
  | cons _ _ => simp

/-- A lone dot spells the null label, which no name has before its end. -/
theorem LabelsText.of_dot {labels : List (List UInt8)} (h : LabelsText labels ['.']) :
    labels = [[]] := by
  generalize hText : ['.'] = text at h
  cases h with
  | nil => cases hText
  | @cons octets labels front rest hLabel hRest =>
    cases front with
    | nil =>
      rw [List.nil_append] at hText
      cases hText
      rw [hLabel.eq_nil, hRest.eq_nil_iff.mpr rfl]
    | cons c front => simp at hText

theorem ofChars_eq_ok_iff {text : List Char} {name : Name} :
    ofChars text = .ok name ↔ IsNameText (name.labels.map Label.octets) text := by
  unfold ofChars IsNameText
  split
  · rename_i hEmpty
    subst hEmpty
    constructor
    · intro h
      cases h
    · rintro (⟨_, h⟩ | ⟨hLabels, hText, _⟩)
      · cases h
      · exact absurd (hText.eq_nil_iff.mpr rfl) hLabels
  · rename_i hEmpty
    split
    · rename_i hDot
      subst hDot
      constructor
      · intro h
        cases h
        exact .inl ⟨rfl, rfl⟩
      · rintro (⟨hLabels, _⟩ | ⟨_, hText, hFits⟩)
        · rw [show name = root from Name.ext (List.map_eq_nil_iff.mp hLabels)]
        · have hNull := hFits.length_pos [] (by rw [hText.of_dot]; exact List.mem_singleton_self _)
          cases hNull
    · rename_i hDot
      rw [readInto_octetsOf_eq_ok_iff]
      constructor
      · intro h
        exact .inr ⟨fun hLabels => hEmpty (h.eq_nil_iff.mp hLabels), h, fitsWire name⟩
      · rintro (⟨_, h⟩ | ⟨_, h, _⟩)
        · exact absurd h hDot
        · exact h

/-- A text is read as a name with given labels exactly when it is a text of these labels. -/
theorem exists_ofText_iff {text : String} {labels : List (List UInt8)} :
    (∃ name, ofText text = .ok name ∧ name.labelOctets = labels ++ [[]]) ↔
      IsNameText labels text.toList := by
  constructor
  · rintro ⟨name, hName, hLabels⟩
    rw [← labelOctets_eq_iff.mp hLabels]
    exact ofChars_eq_ok_iff.mp hName
  · intro h
    obtain ⟨name, hName⟩ : ∃ name : Name, name.labels.map Label.octets = labels := by
      rcases h with ⟨rfl, _⟩ | ⟨_, _, hFits⟩
      · exact ⟨root, rfl⟩
      · exact hFits.exists_name
    rw [← hName] at h
    exact ⟨name, ofChars_eq_ok_iff.mpr h, labelOctets_eq_iff.mpr hName⟩

/-! ## Texts of names are ASCII -/

theorem ItemText.isAscii {octet : UInt8} {item : List Char} (h : ItemText octet item) :
    ∀ c ∈ item, c.toNat < 128 := by
  cases h with
  | plain hc _ _ => simpa using hc
  | decimal ha hb hc _ =>
    simp only [List.forall_mem_cons, List.not_mem_nil, false_imp_iff, implies_true, and_true]
    exact ⟨by decide, isAscii_of_isDigit ha, isAscii_of_isDigit hb, isAscii_of_isDigit hc⟩
  | escaped hc _ =>
    simp only [List.forall_mem_cons, List.not_mem_nil, false_imp_iff, implies_true, and_true]
    exact ⟨by decide, hc⟩

theorem LabelText.isAscii {octets : List UInt8} {text : List Char} (h : LabelText octets text) :
    ∀ c ∈ text, c.toNat < 128 := by
  induction h with
  | nil => simp
  | cons hItem _ ih => exact List.forall_mem_append.mpr ⟨hItem.isAscii, ih⟩

theorem LabelsText.isAscii {labels : List (List UInt8)} {text : List Char}
    (h : LabelsText labels text) : ∀ c ∈ text, c.toNat < 128 := by
  induction h with
  | nil => simp
  | cons hLabel _ ih =>
    exact List.forall_mem_append.mpr ⟨hLabel.isAscii, List.forall_mem_cons.mpr ⟨by decide, ih⟩⟩

theorem IsNameText.isAscii {labels : List (List UInt8)} {text : List Char}
    (h : IsNameText labels text) : ∀ c ∈ text, c.toNat < 128 := by
  rcases h with ⟨_, rfl⟩ | ⟨_, hText, _⟩
  · simp
  · exact hText.isAscii

/-! ## Writing -/

theorem itemText_octetText (octet : UInt8) : ItemText octet (octetText octet) := by
  unfold octetText
  split
  · rename_i hDot
    rw [hDot]
    exact .escaped (by decide) rfl
  · rename_i hDot
    split
    · rename_i hBackslash
      rw [hBackslash]
      exact .escaped (by decide) rfl
    · rename_i hBackslash
      split
      · rename_i hVisible
        simp only [isVisible, Bool.and_eq_true, decide_eq_true_eq] at hVisible
        have hAscii : octet < 128 := UInt8.lt_of_le_of_lt hVisible.2 (by decide)
        have hCode := toNat_asciiChar hAscii
        have hOctet : (Char.ofNat octet.toNat).toNat.toUInt8 = octet := by
          rw [hCode, Nat.toUInt8, UInt8.ofNat_toNat]
        rw [UInt8.lt_iff_toNat_lt, ← hCode] at hAscii
        have hItem := ItemText.plain hAscii (fun h => hDot (by rw [← hOctet, h]))
          (fun h => hBackslash (by rw [← hOctet, h]))
        rwa [hOctet] at hItem
      · have hValue := octet.toNat_lt
        have hDigits := digitsValue_threeDigits (show octet.toNat < 1000 by omega)
        have hHundreds : octet.toNat / 100 < 10 := by omega
        have hItem := ItemText.decimal (isDigit_digitChar_of_lt hHundreds)
          (isDigit_digitChar_of_lt (Nat.mod_lt (octet.toNat / 10) (by decide)))
          (isDigit_digitChar_of_lt (Nat.mod_lt octet.toNat (by decide)))
          (by rw [← threeDigits, hDigits]; omega)
        rwa [← threeDigits, hDigits, Nat.toUInt8, UInt8.ofNat_toNat] at hItem

theorem labelText_octetText (octets : List UInt8) :
    LabelText octets (octets.flatMap octetText) := by
  induction octets with
  | nil => exact .nil
  | cons octet octets ih => exact .cons (itemText_octetText octet) ih

theorem labelsText_labelText (labels : List Label) :
    LabelsText (labels.map Label.octets) (labels.flatMap fun label => labelText label.octets) := by
  induction labels with
  | nil => exact .nil
  | cons label labels ih =>
    rw [List.map_cons, List.flatMap_cons, labelText, List.append_assoc, List.singleton_append]
    exact .cons (labelText_octetText label.octets) ih

theorem isNameText_toChars (name : Name) :
    IsNameText (name.labels.map Label.octets) name.toChars := by
  unfold toChars
  split
  · rename_i hRoot
    exact .inl ⟨by rw [List.isEmpty_iff.mp hRoot]; rfl, rfl⟩
  · rename_i hRoot
    refine .inr ⟨fun hLabels => hRoot ?_, labelsText_labelText name.labels, fitsWire name⟩
    exact List.isEmpty_iff.mpr (List.map_eq_nil_iff.mp hLabels)

theorem ofText_toText (name : Name) : ofText name.toText = .ok name := by
  rw [ofText, toText, String.toList_ofList]
  exact ofChars_eq_ok_iff.mpr (isNameText_toChars name)

theorem isGraphic_octetText (octet : UInt8) : ∀ c ∈ octetText octet, IsGraphic c := by
  unfold octetText
  split
  · exact isGraphic_of_all (by decide)
  · split
    · exact isGraphic_of_all (by decide)
    · split
      · rename_i hVisible
        simp only [isVisible, Bool.and_eq_true, decide_eq_true_eq] at hVisible
        have hAscii : octet < 128 := UInt8.lt_of_le_of_lt hVisible.2 (by decide)
        intro c hc
        rw [List.mem_singleton.mp hc, IsGraphic, toNat_asciiChar hAscii]
        exact hVisible
      · intro c hc
        simp only [threeDigits, List.mem_cons, List.not_mem_nil, or_false] at hc
        rcases hc with rfl | rfl | rfl | rfl
        · decide
        · exact isGraphic_digitChar _
        · exact isGraphic_digitChar _
        · exact isGraphic_digitChar _

theorem isGraphic_toText (name : Name) : ∀ c ∈ name.toText.toList, IsGraphic c := by
  rw [toText, String.toList_ofList]
  unfold toChars
  split
  · exact isGraphic_of_all (by decide)
  · intro c hc
    obtain ⟨label, _, hLabel⟩ := List.mem_flatMap.mp hc
    rcases List.mem_append.mp hLabel with hOctets | hDot
    · obtain ⟨octet, _, hItem⟩ := List.mem_flatMap.mp hOctets
      exact isGraphic_octetText octet c hItem
    · rw [List.mem_singleton.mp hDot]
      decide

/-! ## Main statements -/

/--
Exactly the texts of the grammar are names, and a text has the labels that it spells. No text
with a character outside ASCII is a name.
-/
theorem ofText_accepts_grammar (text : String) :
    (∀ labels, (∃ name, ofText text = .ok name ∧ name.labelOctets = labels ++ [[]]) ↔
      IsNameText labels text.toList) ∧
    ((∃ name, ofText text = .ok name) ↔ ∃ labels, IsNameText labels text.toList) ∧
    ((∃ c ∈ text.toList, 128 ≤ c.toNat) → ¬∃ name, ofText text = .ok name) := by
  have hRead : (∃ name, ofText text = .ok name) ↔ ∃ labels, IsNameText labels text.toList := by
    constructor
    · rintro ⟨name, hName⟩
      exact ⟨_, ofChars_eq_ok_iff.mp hName⟩
    · rintro ⟨labels, hText⟩
      obtain ⟨name, hName, _⟩ := exists_ofText_iff.mpr hText
      exact ⟨name, hName⟩
  refine ⟨fun labels => exists_ofText_iff, hRead, ?_⟩
  rintro ⟨c, hc, hHigh⟩ hName
  obtain ⟨labels, hText⟩ := hRead.mp hName
  have hAscii := hText.isAscii c hc
  omega

/-- The text of every name is read as a name of the same octets, letter case included. -/
theorem ofText_toText_same_octets (name : Name) :
    ∃ copy, ofText name.toText = .ok copy ∧ copy.wire = name.wire ∧ copy.offsets = name.offsets :=
  ⟨name, ofText_toText name, rfl, rfl⟩

end ZoneStore.Name
