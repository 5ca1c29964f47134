import Mathlib.Data.List.Induction
import ZoneStore.Proofs.Text.Digits
import ZoneStore.Text.Caseless
import ZoneStore.Text.Octets

/-!
# What digits denote

A numeral is a plus sign that may be left out, zeros and the digits of a
number; two hexadecimal digits of either case stand for the halves of an
octet. The readers take exactly the texts that denote something, and read
what they denote. What is written denotes what was written, and is read back.
-/

namespace ZoneStore.Text

/-! ## Decimal numerals -/

def IsNumeral (text : List Char) (value : Nat) : Prop :=
  ∃ sign zeros, (sign = [] ∨ sign = ['+']) ∧
    text = sign ++ (List.replicate zeros '0' ++ decimal value)

theorem digitChar_of_isDigit {c : Char} (h : c.isDigit = true) :
    Nat.digitChar (c.toNat - '0'.toNat) = c := by
  rw [Char.isDigit_iff_toNat] at h
  have hZero : '0'.toNat = 48 := rfl
  have hNine : '9'.toNat = 57 := rfl
  apply Char.toNat_inj.mp
  rw [Nat.toNat_digitChar_of_lt_ten (by omega)]
  omega

theorem digitsValue_append_singleton (digits : List Char) (c : Char) :
    digitsValue (digits ++ [c]) = 10 * digitsValue digits + (c.toNat - '0'.toNat) := by
  rw [digitsValue, List.foldl_append]
  rfl

theorem decimal_of_isDigit {c : Char} (h : c.isDigit = true) :
    decimal (c.toNat - '0'.toNat) = [c] := by
  have hDigit := Char.isDigit_iff_toNat.mp h
  have hZero : '0'.toNat = 48 := rfl
  have hNine : '9'.toNat = 57 := rfl
  rw [decimal, Nat.toDigits_of_lt_base (by omega), digitChar_of_isDigit h]

/-- By induction from the last digit on; a zero in front stays in front. -/
theorem exists_zeros_append_decimal {digits : List Char} (hNe : digits ≠ [])
    (hDigits : ∀ c ∈ digits, c.isDigit = true) :
    ∃ zeros, digits = List.replicate zeros '0' ++ decimal (digitsValue digits) := by
  induction digits using List.reverseRecOn with
  | nil => exact absurd rfl hNe
  | append_singleton digits c ih =>
    obtain ⟨hFront, hLast⟩ := List.forall_mem_append.mp hDigits
    have hDigit : c.isDigit = true := hLast c (List.mem_singleton_self c)
    have hCode := Char.isDigit_iff_toNat.mp hDigit
    have hZero : '0'.toNat = 48 := rfl
    have hNine : '9'.toNat = 57 := rfl
    rw [digitsValue_append_singleton]
    by_cases hNil : digits = []
    · subst hNil
      refine ⟨0, ?_⟩
      rw [show digitsValue [] = 0 from rfl, Nat.mul_zero, Nat.zero_add, decimal_of_isDigit hDigit]
      rfl
    · obtain ⟨zeros, hValue⟩ := ih hNil hFront
      rcases Nat.eq_zero_or_pos (digitsValue digits) with hNone | hSome
      · refine ⟨zeros + 1, ?_⟩
        rw [hNone, decimal, Nat.toDigits_zero, ← List.replicate_succ'] at hValue
        rw [hNone, Nat.mul_zero, Nat.zero_add, decimal_of_isDigit hDigit, ← hValue]
      · refine ⟨zeros, ?_⟩
        have hAppend := Nat.toDigits_append_toDigits (b := 10) (d := c.toNat - '0'.toNat)
          (by decide) hSome (by omega)
        rw [← decimal, ← decimal, decimal_of_isDigit hDigit] at hAppend
        rw [decimal, ← hAppend, ← List.append_assoc, ← hValue]

theorem digitsValue_replicate_append (zeros : Nat) (digits : List Char) :
    digitsValue (List.replicate zeros '0' ++ digits) = digitsValue digits := by
  induction zeros with
  | zero => rfl
  | succ zeros ih => exact ih

theorem dropPlus_eq_iff {text digits : List Char} (hDigits : ∀ c ∈ digits, c.isDigit = true) :
    dropPlus text = digits ↔ text = digits ∨ text = '+' :: digits := by
  have hPlus : ∀ rest, digits ≠ '+' :: rest := by
    rintro rest rfl
    exact absurd (hDigits '+' List.mem_cons_self) (by decide)
  unfold dropPlus
  split
  · rename_i rest
    constructor
    · rintro rfl
      exact .inr rfl
    · rintro (hSame | hSame)
      · exact absurd hSame.symm (hPlus rest)
      · exact (List.cons.inj hSame).2
  · rename_i hOther
    constructor
    · exact .inl
    · rintro (hSame | hSame)
      · exact hSame
      · exact absurd hSame (hOther digits)

theorem isNumeral_iff {text : List Char} {value : Nat} :
    IsNumeral text value ↔
      dropPlus text ≠ [] ∧ (∀ c ∈ dropPlus text, c.isDigit = true) ∧
        digitsValue (dropPlus text) = value := by
  constructor
  · rintro ⟨sign, zeros, hSign, rfl⟩
    have hDigits : ∀ c ∈ List.replicate zeros '0' ++ decimal value, c.isDigit = true := by
      refine List.forall_mem_append.mpr ⟨fun c hc => ?_, fun c => isDigit_of_mem_decimal⟩
      rw [List.eq_of_mem_replicate hc]
      rfl
    have hDrop : dropPlus (sign ++ (List.replicate zeros '0' ++ decimal value)) =
        List.replicate zeros '0' ++ decimal value := by
      rw [dropPlus_eq_iff hDigits]
      rcases hSign with rfl | rfl
      · exact .inl rfl
      · exact .inr rfl
    rw [hDrop]
    refine ⟨List.append_ne_nil_of_right_ne_nil _ (decimal_ne_nil value), hDigits, ?_⟩
    rw [digitsValue_replicate_append, digitsValue_decimal]
  · rintro ⟨hNe, hDigits, rfl⟩
    obtain ⟨zeros, hZeros⟩ := exists_zeros_append_decimal hNe hDigits
    rcases (dropPlus_eq_iff hDigits).mp rfl with hText | hText
    · exact ⟨[], zeros, .inl rfl, hText.trans hZeros⟩
    · exact ⟨['+'], zeros, .inr rfl, hText.trans (congrArg _ hZeros)⟩

theorem IsNumeral.mem {numeral : List Char} {value : Nat} (h : IsNumeral numeral value) :
    ∀ c ∈ numeral, c = '+' ∨ c.isDigit = true := by
  obtain ⟨sign, zeros, hSign, rfl⟩ := h
  refine List.forall_mem_append.mpr ⟨fun c hc => ?_, List.forall_mem_append.mpr ⟨fun c hc => ?_,
    fun c hc => .inr (isDigit_of_mem_decimal hc)⟩⟩
  · rcases hSign with rfl | rfl
    · cases hc
    · exact .inl (List.mem_singleton.mp hc)
  · rw [List.eq_of_mem_replicate hc]
    exact .inr rfl

theorem isNumeral_decimal (value : Nat) : IsNumeral (decimal value) value :=
  ⟨[], 0, .inl rfl, rfl⟩

/-- Only letters have a case. -/
theorem eq_of_lowerChar_eq {c d : Char} (h : lowerChar c = lowerChar d) (hd : d.toNat < 65) :
    c = d := by
  have hSmall : lowerChar d = d := if_neg fun hLetter => by
    have hFirst : 65 ≤ d.toNat := Char.le_def.mp hLetter.1
    exact Nat.not_le_of_lt hd hFirst
  rw [hSmall, lowerChar] at h
  split at h
  · rename_i hLetter
    have hFirst : 65 ≤ c.toNat := Char.le_def.mp hLetter.1
    have hLast : c.toNat ≤ 90 := Char.le_def.mp hLetter.2
    rw [← h, Char.ofNat, dif_pos (Or.inl (by omega))] at hd
    change c.toNat + 32 < 65 at hd
    omega
  · exact h

theorem eq_of_lower_eq {text other : List Char} (h : lower other = lower text)
    (hText : ∀ c ∈ text, c.toNat < 65) : other = text := by
  induction text generalizing other with
  | nil => exact List.map_eq_nil_iff.mp h
  | cons d text ih =>
    obtain ⟨c, rest, rfl, hChar, hRest⟩ := List.map_eq_cons_iff.mp h
    obtain ⟨hd, hMore⟩ := List.forall_mem_cons.mp hText
    rw [eq_of_lowerChar_eq hChar hd, ih hRest hMore]

theorem IsNumeral.eq_of_lower_eq {numeral other : List Char} {value : Nat}
    (h : IsNumeral numeral value) (hSame : lower other = lower numeral) : other = numeral := by
  refine Text.eq_of_lower_eq hSame fun c hc => ?_
  rcases h.mem c hc with rfl | hDigit
  · decide
  · exact Nat.lt_of_le_of_lt (Char.isDigit_iff_toNat.mp hDigit).2 (by decide)

theorem readUnsigned_eq_some_iff {bound value : Nat} {text : List Char} :
    readUnsigned bound text = some value ↔ IsNumeral text value ∧ value ≤ bound := by
  rw [isNumeral_iff]
  simp only [readUnsigned, Option.ite_none_right_eq_some, Bool.and_eq_true, Bool.not_eq_true',
    List.isEmpty_eq_false_iff, List.all_eq_true, decide_eq_true_eq, Option.some.injEq]
  constructor
  · rintro ⟨⟨⟨hNe, hDigits⟩, hBound⟩, rfl⟩
    exact ⟨⟨hNe, hDigits, rfl⟩, hBound⟩
  · rintro ⟨⟨hNe, hDigits, rfl⟩, hBound⟩
    exact ⟨⟨⟨hNe, hDigits⟩, hBound⟩, rfl⟩

theorem readUnsigned_decimal {bound value : Nat} (h : value ≤ bound) :
    readUnsigned bound (decimal value) = some value :=
  readUnsigned_eq_some_iff.mpr ⟨isNumeral_decimal value, h⟩

/-! ## Hexadecimal digits -/

/-- A hexadecimal digit of either case. -/
def IsHexDigit (c : Char) (value : Nat) : Prop :=
  "0123456789abcdef".toList[value]? = some (lowerChar c)

instance (c : Char) (value : Nat) : Decidable (IsHexDigit c value) :=
  inferInstanceAs (Decidable (_ = _))

/-- The octets that digits denote, two by two, the high half first. -/
inductive HexOctets : List Char → List UInt8 → Prop where
  | nil : HexOctets [] []
  | cons {high low : Char} {octet : UInt8} {digits : List Char} {octets : List UInt8}
      (hHigh : IsHexDigit high (octet.toNat / 16)) (hLow : IsHexDigit low (octet.toNat % 16))
      (hRest : HexOctets digits octets) :
      HexOctets (high :: low :: digits) (octet :: octets)

theorem IsHexDigit.lt {c : Char} {value : Nat} (h : IsHexDigit c value) : value < 16 :=
  (List.getElem?_eq_some_iff.mp h).1

theorem IsHexDigit.unique {c : Char} {value other : Nat} (h : IsHexDigit c value)
    (hOther : IsHexDigit c other) : value = other := by
  have hNodup : "0123456789abcdef".toList.Nodup := by decide
  exact (List.getElem?_inj h.lt hNodup).mp (h.trans hOther.symm)

theorem IsHexDigit.isAscii {c : Char} {value : Nat} (h : IsHexDigit c value) : c.toNat < 128 := by
  have hAlphabet : ∀ d ∈ "0123456789abcdef".toList, d.toNat < 128 := by simp
  have hLower := hAlphabet _ (List.mem_of_getElem? h)
  unfold lowerChar at hLower
  split at hLower
  · rename_i hUpper
    exact Nat.lt_of_le_of_lt (Char.le_def.mp hUpper.2) (by decide)
  · exact hLower

theorem isAscii_of_hexValue {c : Char} {value : UInt8} (h : hexValue c = some value) :
    c.toNat < 128 := by
  unfold hexValue at h
  have hBelow : ∀ {last : Char}, c ≤ last → last.toNat < 128 → c.toNat < 128 :=
    fun hLast hAscii => Nat.lt_of_le_of_lt (Char.le_def.mp hLast) hAscii
  split at h
  · rename_i hDigit
    exact hBelow hDigit.2 (by decide)
  · split at h
    · rename_i hUpper
      exact hBelow hUpper.2 (by decide)
    · split at h
      · rename_i hLower
        exact hBelow hLower.2 (by decide)
      · cases h

theorem hexValue_eq_some_iff {c : Char} {value : UInt8} :
    hexValue c = some value ↔ IsHexDigit c value.toNat := by
  have hAll : ∀ c : Char, c.toNat < 128 → (∀ v ∈ hexValue c, IsHexDigit c v.toNat) ∧
      (hexValue c = none → ∀ v < 16, ¬ IsHexDigit c v) := by
    refine forall_ascii ?_
    decide +kernel
  constructor
  · intro hValue
    exact (hAll c (isAscii_of_hexValue hValue)).1 value hValue
  · intro hDigit
    obtain ⟨hSome, hNone⟩ := hAll c hDigit.isAscii
    cases hValue : hexValue c with
    | none => exact absurd hDigit (hNone hValue value.toNat hDigit.lt)
    | some other => rw [UInt8.toNat_inj.mp ((hSome other hValue).unique hDigit)]

theorem hexValue_eq_none_iff {c : Char} :
    hexValue c = none ↔ ∀ value, ¬IsHexDigit c value := by
  constructor
  · intro hNone value hDigit
    have hValue : value.toUInt8.toNat = value :=
      UInt8.toNat_ofNat_of_lt' (Nat.lt_trans hDigit.lt (by decide))
    rw [hexValue_eq_some_iff.mpr (hValue.symm ▸ hDigit)] at hNone
    cases hNone
  · intro hOther
    exact Option.eq_none_iff_forall_ne_some.mpr fun _ hSome =>
      hOther _ (hexValue_eq_some_iff.mp hSome)

theorem HexOctets.length_eq {digits : List Char} {octets : List UInt8}
    (h : HexOctets digits octets) : digits.length = 2 * octets.length := by
  induction h with
  | nil => rfl
  | cons _ _ _ ih => simp only [List.length_cons, ih, Nat.mul_succ]

theorem HexOctets.isHexDigit {digits : List Char} {octets : List UInt8}
    (h : HexOctets digits octets) : ∀ c ∈ digits, ∃ value, IsHexDigit c value := by
  induction h with
  | nil => exact List.forall_mem_nil _
  | cons hHigh hLow _ ih =>
    exact List.forall_mem_cons.mpr ⟨⟨_, hHigh⟩, List.forall_mem_cons.mpr ⟨⟨_, hLow⟩, ih⟩⟩

theorem exists_octet_of_halves {high low : Nat} (hHigh : high < 16) (hLow : low < 16) :
    ∃ octet : UInt8, octet.toNat / 16 = high ∧ octet.toNat % 16 = low := by
  refine ⟨(16 * high + low).toUInt8, ?_⟩
  rw [Nat.toUInt8, UInt8.toNat_ofNat_of_lt' (by change 16 * high + low < 256; omega)]
  omega

theorem exists_hexOctets {count : Nat} {digits : List Char} (hLength : digits.length = 2 * count)
    (hDigits : ∀ c ∈ digits, ∃ value, IsHexDigit c value) :
    ∃ octets, octets.length = count ∧ HexOctets digits octets := by
  induction count generalizing digits with
  | zero =>
    rw [List.eq_nil_of_length_eq_zero hLength]
    exact ⟨[], rfl, .nil⟩
  | succ count ih =>
    obtain ⟨high, low, rest, rfl⟩ : ∃ high low rest, digits = high :: low :: rest := by
      match digits, hLength with
      | high :: low :: rest, _ => exact ⟨high, low, rest, rfl⟩
    simp only [List.forall_mem_cons] at hDigits
    obtain ⟨⟨_, hHigh⟩, ⟨_, hLow⟩, hRest⟩ := hDigits
    obtain ⟨octets, hCount, hOctets⟩ := ih (by simpa [Nat.mul_succ] using hLength) hRest
    obtain ⟨octet, rfl, rfl⟩ := exists_octet_of_halves hHigh.lt hLow.lt
    exact ⟨octet :: octets, congrArg Nat.succ hCount, .cons hHigh hLow hOctets⟩

/-- The case of the digits does not count. -/
theorem HexOctets.of_lower_eq {digits other : List Char} {octets : List UInt8}
    (h : HexOctets digits octets) (hSame : lower digits = lower other) :
    HexOctets other octets := by
  induction h generalizing other with
  | nil =>
    rw [List.map_eq_nil_iff.mp hSame.symm]
    exact .nil
  | cons hHigh hLow _ ih =>
    obtain ⟨high, _, rfl, hHighSame, hRest⟩ := List.map_eq_cons_iff.mp hSame.symm
    obtain ⟨low, rest, rfl, hLowSame, hRest⟩ := List.map_eq_cons_iff.mp hRest
    rw [IsHexDigit, ← hHighSame] at hHigh
    rw [IsHexDigit, ← hLowSame] at hLow
    exact .cons hHigh hLow (ih hRest.symm)

theorem joined_eq_iff {high low octet : UInt8} (hHigh : high.toNat < 16) (hLow : low.toNat < 16) :
    16 * high + low = octet ↔ high.toNat = octet.toNat / 16 ∧ low.toNat = octet.toNat % 16 := by
  have hSixteen : UInt8.toNat 16 = 16 := rfl
  rw [← UInt8.toNat_inj, UInt8.toNat_add, UInt8.toNat_mul, hSixteen]
  omega

theorem bind_pairNibbles_cons_cons {high low : Char} {digits : List Char}
    {done octets : List UInt8} :
    ((high :: low :: digits).mapM hexValue).bind (pairNibbles done) = some octets ↔
      ∃ a b, hexValue high = some a ∧ hexValue low = some b ∧
        (digits.mapM hexValue).bind (pairNibbles ((16 * a + b) :: done)) = some octets := by
  simp only [List.mapM_cons, Option.bind_eq_bind, Option.pure_def, Option.bind_assoc,
    Option.bind_some, pairNibbles, Option.bind_eq_some_iff, exists_and_left]

theorem toNat_nibble (nibble : Fin 16) : nibble.val.toUInt8.toNat = nibble.val := by
  decide +revert

/-- Two digits are read at a time, as they are paired. -/
theorem pairNibbles_eq_some_iff {done octets : List UInt8} : ∀ {digits : List Char},
    (digits.mapM hexValue).bind (pairNibbles done) = some octets ↔
      ∃ more, octets = done.reverse ++ more ∧ HexOctets digits more
  | [] => by
    constructor
    · rintro hDone
      cases hDone
      exact ⟨[], (List.append_nil _).symm, .nil⟩
    · rintro ⟨_, rfl, ⟨⟩⟩
      rw [List.append_nil]
      rfl
  | [c] => by
    constructor
    · intro hOdd
      cases hValue : hexValue c <;> simp [hValue, pairNibbles] at hOdd
    · rintro ⟨_, _, ⟨⟩⟩
  | high :: low :: digits => by
    rw [bind_pairNibbles_cons_cons]
    constructor
    · rintro ⟨a, b, hHigh, hLow, hRest⟩
      obtain ⟨more, rfl, hMore⟩ := pairNibbles_eq_some_iff.mp hRest
      rw [hexValue_eq_some_iff] at hHigh hLow
      obtain ⟨hA, hB⟩ := (joined_eq_iff hHigh.lt hLow.lt).mp rfl
      rw [hA] at hHigh
      rw [hB] at hLow
      refine ⟨(16 * a + b) :: more, ?_, .cons hHigh hLow hMore⟩
      rw [List.reverse_cons, List.append_assoc]
      rfl
    · rintro ⟨_, rfl, hOctets⟩
      cases hOctets with
      | @cons _ _ octet _ more hHigh hLow hMore =>
        refine ⟨(highNibble octet).val.toUInt8, (lowNibble octet).val.toUInt8, ?_, ?_, ?_⟩
        · rwa [hexValue_eq_some_iff, toNat_nibble]
        · rwa [hexValue_eq_some_iff, toNat_nibble]
        · have hHalf := fun nibble : Fin 16 => (toNat_nibble nibble).symm ▸ nibble.isLt
          rw [(joined_eq_iff (hHalf _) (hHalf _)).mpr ⟨toNat_nibble _, toNat_nibble _⟩]
          exact pairNibbles_eq_some_iff.mpr ⟨more, by simp, hMore⟩

theorem decodeHex_eq_some_iff {text : List Char} {octets : List UInt8} :
    decodeHex text = some octets ↔ HexOctets (text.filter fun c => !isAsciiBlank c) octets := by
  rw [decodeHex, pairNibbles_eq_some_iff]
  simp

theorem decodeHex_eq_some_iff_of_no_blank {text : List Char} {octets : List UInt8}
    (hText : ∀ c ∈ text, isAsciiBlank c = false) :
    decodeHex text = some octets ↔ HexOctets text octets := by
  have hAll : text.filter (fun c => !isAsciiBlank c) = text := by
    rw [List.filter_eq_self]
    intro c hc
    rw [hText c hc]
    rfl
  rw [decodeHex_eq_some_iff, hAll]

/-! ## Octets as they are written -/

theorem isHexDigit_hexDigit (nibble : Fin 16) : IsHexDigit (hexDigit nibble) nibble := by
  decide +revert

theorem hexOctets_encodeHex (octets : List UInt8) : HexOctets (encodeHex octets) octets := by
  induction octets with
  | nil => exact .nil
  | cons octet octets ih =>
    exact .cons (isHexDigit_hexDigit (highNibble octet)) (isHexDigit_hexDigit (lowNibble octet)) ih

theorem decodeHex_encodeHex (octets : List UInt8) : decodeHex (encodeHex octets) = some octets := by
  rw [decodeHex_eq_some_iff_of_no_blank fun c hc =>
    (isGraphic_of_mem_encodeHex c hc).not_isAsciiBlank]
  exact hexOctets_encodeHex octets

end ZoneStore.Text
