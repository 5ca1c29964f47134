/-!
# Texts in octets

A text is stored in UTF-8. An ASCII character is one octet below 128, and
every other character is two to four octets of 128 and more.
-/

namespace ZoneStore.Text

def octetsOf (text : List Char) : List UInt8 :=
  text.flatMap String.utf8EncodeChar

@[simp]
theorem octetsOf_nil : octetsOf [] = [] := rfl

@[simp]
theorem octetsOf_cons (c : Char) (text : List Char) :
    octetsOf (c :: text) = String.utf8EncodeChar c ++ octetsOf text := rfl

@[simp]
theorem octetsOf_append (front back : List Char) :
    octetsOf (front ++ back) = octetsOf front ++ octetsOf back := by
  simp [octetsOf]

theorem utf8EncodeChar_of_lt {c : Char} (h : c.toNat < 128) :
    String.utf8EncodeChar c = [c.toNat.toUInt8] := by
  have hSize : c.utf8Size = 1 :=
    Char.utf8Size_eq_one_iff.mpr (UInt32.le_iff_toNat_le.mpr (Nat.le_of_lt_succ h))
  exact String.utf8EncodeChar_eq_singleton hSize

theorem utf8Size_ne_one {c : Char} (h : 128 ≤ c.toNat) : c.utf8Size ≠ 1 := by
  intro hSize
  have hAscii := UInt32.le_iff_toNat_le.mp (Char.utf8Size_eq_one_iff.mp hSize)
  exact absurd h (Nat.not_le_of_lt (Nat.lt_succ_of_le hAscii))

/-- Every octet of a character that is not ASCII carries a mark of 128 or more. -/
theorem le_of_mem_utf8EncodeChar {c : Char} (h : 128 ≤ c.toNat) :
    ∀ octet ∈ String.utf8EncodeChar c, 128 ≤ octet := by
  have hMarked : ∀ {bits mark : UInt8}, 128 ≤ mark → 128 ≤ bits ||| mark :=
    fun hMark => UInt8.le_trans hMark UInt8.right_le_or
  rcases Char.utf8Size_eq c with hOne | hTwo | hThree | hFour
  · exact absurd hOne (utf8Size_ne_one h)
  · simp only [String.utf8EncodeChar_eq_cons_cons hTwo, List.forall_mem_cons, List.not_mem_nil,
      false_implies, implies_true, and_true]
    exact ⟨hMarked (by decide), hMarked (by decide)⟩
  · simp only [String.utf8EncodeChar_eq_cons_cons_cons hThree, List.forall_mem_cons,
      List.not_mem_nil, false_implies, implies_true, and_true]
    exact ⟨hMarked (by decide), hMarked (by decide), hMarked (by decide)⟩
  · simp only [String.utf8EncodeChar_eq_cons_cons_cons_cons hFour, List.forall_mem_cons,
      List.not_mem_nil, false_implies, implies_true, and_true]
    exact ⟨hMarked (by decide), hMarked (by decide), hMarked (by decide), hMarked (by decide)⟩

theorem utf8EncodeChar_of_le {c : Char} (h : 128 ≤ c.toNat) :
    ∃ first second rest, String.utf8EncodeChar c = first :: second :: rest ∧
      128 ≤ first ∧ 128 ≤ second := by
  have hOctets := le_of_mem_utf8EncodeChar h
  have hLength : 2 ≤ (String.utf8EncodeChar c).length := by
    rw [String.length_utf8EncodeChar]
    exact Nat.lt_of_le_of_ne c.utf8Size_pos (utf8Size_ne_one h).symm
  match hEncode : String.utf8EncodeChar c, hLength with
  | first :: second :: rest, _ =>
    simp only [hEncode, List.forall_mem_cons] at hOctets
    exact ⟨first, second, rest, rfl, hOctets.1, hOctets.2.1⟩

/-- The first octet of a text is an ASCII character, or it opens a longer sequence. -/
theorem octetsOf_eq_cons {text : List Char} {octet : UInt8} {rest : List UInt8}
    (h : octetsOf text = octet :: rest) :
    (∃ c tail, text = c :: tail ∧ c.toNat < 128 ∧ octet = c.toNat.toUInt8 ∧ rest = octetsOf tail) ∨
      ∃ second tail, rest = second :: tail ∧ 128 ≤ octet ∧ 128 ≤ second := by
  cases text with
  | nil => cases h
  | cons c tail =>
    rw [octetsOf_cons] at h
    rcases Nat.lt_or_ge c.toNat 128 with hAscii | hAscii
    · rw [utf8EncodeChar_of_lt hAscii] at h
      cases h
      exact .inl ⟨c, tail, rfl, hAscii, rfl, rfl⟩
    · obtain ⟨first, second, more, hEncode, hFirst, hSecond⟩ := utf8EncodeChar_of_le hAscii
      rw [hEncode] at h
      cases h
      exact .inr ⟨second, more ++ octetsOf tail, rfl, hFirst, hSecond⟩

/-- An octet below 128 at the start of a text is its first character. -/
theorem head_of_octetsOf {text : List Char} {octet : UInt8} {rest : List UInt8}
    (h : octetsOf text = octet :: rest) (hAscii : octet < 128) :
    ∃ c tail, text = c :: tail ∧ c.toNat < 128 ∧ octet = c.toNat.toUInt8 ∧
      octetsOf tail = rest := by
  rcases octetsOf_eq_cons h with ⟨c, tail, hText, hc, hOctet, hRest⟩ | ⟨_, _, _, hHigh, _⟩
  · exact ⟨c, tail, hText, hc, hOctet, hRest.symm⟩
  · exact absurd hAscii (UInt8.not_lt.mpr hHigh)

/-- What holds of the characters below 128, one by one, holds of an ASCII character. -/
theorem forall_ascii {P : Char → Prop} (h : ∀ code < 128, P (Char.ofNat code)) (c : Char)
    (hc : c.toNat < 128) : P c := by
  rw [← Char.ofNat_toNat c]
  exact h c.toNat hc

theorem octetsOf_ne_nil {c : Char} {tail : List Char} : octetsOf (c :: tail) ≠ [] := by
  simp [String.utf8EncodeChar_ne_nil]

theorem toNat_asciiOctet {c : Char} (h : c.toNat < 128) : c.toNat.toUInt8.toNat = c.toNat := by
  rw [Nat.toUInt8, UInt8.toNat_ofNat_of_lt' (by change c.toNat < 256; omega)]

theorem toNat_asciiChar {octet : UInt8} (h : octet < 128) :
    (Char.ofNat octet.toNat).toNat = octet.toNat := by
  have hCode : octet.toNat < 128 := UInt8.lt_iff_toNat_lt.mp h
  rw [Char.ofNat, dif_pos (Or.inl (by omega))]
  rfl

theorem asciiOctet_injective {c d : Char} (hc : c.toNat < 128) (hd : d.toNat < 128)
    (h : c.toNat.toUInt8 = d.toNat.toUInt8) : c = d := by
  have hCode := congrArg UInt8.toNat h
  rw [toNat_asciiOctet hc, toNat_asciiOctet hd] at hCode
  exact Char.toNat_inj.mp hCode

end ZoneStore.Text
