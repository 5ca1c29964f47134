import ZoneStore.Text.Decimal
import ZoneStore.Text.Hex

/-!
# Digits as they are written

Numbers in decimal digits and octets in hexadecimal ones are written in
visible ASCII, so that they hold neither white space nor a control
character. The digits of a number have its value.
-/

namespace ZoneStore.Text

/-- A visible ASCII character. -/
def IsGraphic (c : Char) : Prop :=
  33 ≤ c.toNat ∧ c.toNat ≤ 126

instance (c : Char) : Decidable (IsGraphic c) :=
  inferInstanceAs (Decidable (_ ∧ _))

theorem isGraphic_of_all {text : List Char} (h : (text.all fun c => decide (IsGraphic c)) = true) :
    ∀ c ∈ text, IsGraphic c :=
  fun c hc => of_decide_eq_true (List.all_eq_true.mp h c hc)

theorem IsGraphic.not_isAsciiBlank {c : Char} (h : IsGraphic c) : isAsciiBlank c = false := by
  rw [← Bool.not_eq_true]
  intro hBlank
  simp only [isAsciiBlank, Bool.or_eq_true, beq_iff_eq] at hBlank
  obtain ⟨hLow, -⟩ := h
  rcases hBlank with (((rfl | rfl) | rfl) | rfl) | rfl <;> exact absurd hLow (by decide)

theorem not_isAsciiBlank_of_all {text : List Char}
    (h : (text.all fun c => decide (IsGraphic c)) = true) : ∀ c ∈ text, isAsciiBlank c = false :=
  fun c hc => (isGraphic_of_all h c hc).not_isAsciiBlank

theorem isGraphic_of_isDigit {c : Char} (h : c.isDigit = true) : IsGraphic c := by
  obtain ⟨hLow, hHigh⟩ := Char.isDigit_iff_toNat.mp h
  exact ⟨Nat.le_trans (by decide) hLow, Nat.le_trans hHigh (by decide)⟩

theorem isGraphic_digitChar (digit : Nat) : IsGraphic (Nat.digitChar digit) := by
  rcases Nat.lt_or_ge digit 16 with hLt | hGe
  · have hAll : ∀ d < 16, IsGraphic (Nat.digitChar d) := by decide
    exact hAll digit hLt
  · rw [Nat.digitChar_eq_star.mpr hGe]
    decide

/-! ## Decimal digits -/

theorem isDigit_of_mem_decimal {value : Nat} {c : Char} (h : c ∈ decimal value) :
    c.isDigit = true :=
  Nat.isDigit_of_mem_toDigits (by decide) (by decide) h

theorem isGraphic_of_mem_decimal {value : Nat} : ∀ c ∈ decimal value, IsGraphic c :=
  fun _ h => isGraphic_of_isDigit (isDigit_of_mem_decimal h)

theorem decimal_ne_nil (value : Nat) : decimal value ≠ [] :=
  Nat.toDigits_ne_nil

theorem toList_decimalText (value : Nat) : (decimalText value).toList = decimal value :=
  String.toList_ofList

theorem digitsValue_decimal (value : Nat) : digitsValue (decimal value) = value :=
  Nat.ofDigitChars_ten_toDigits

/-! ## Hexadecimal digits -/

theorem isGraphic_of_mem_encodeHex {octets : List UInt8} :
    ∀ c ∈ encodeHex octets, IsGraphic c := by
  intro c hc
  obtain ⟨octet, _, hPair⟩ := List.mem_flatMap.mp hc
  simp only [hexPair, List.mem_cons, List.not_mem_nil, or_false] at hPair
  rcases hPair with rfl | rfl
  · exact isGraphic_digitChar _
  · exact isGraphic_digitChar _

theorem encodeHex_eq_nil_iff {octets : List UInt8} : encodeHex octets = [] ↔ octets = [] := by
  cases octets <;> simp [encodeHex, hexPair]

end ZoneStore.Text
