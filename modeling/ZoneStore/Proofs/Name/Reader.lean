import ZoneStore.Name.Presentation
import ZoneStore.Proofs.Name.Grammar

/-!
# Reading the octets of a text

The reader of names walks octets. Its accepting runs are described by a
grammar over octets, and on the octets of a text that grammar is the one
over characters: a character outside ASCII behind a backslash gives up its
first octet, but never its second.
-/

namespace ZoneStore.Name

open Text

/-- The moves that the reader makes on octets that it does not refuse itself. -/
inductive Scan : List Move → List UInt8 → Prop
  | nil : Scan [] []
  | close {moves : List Move} {rest : List UInt8} :
      Scan moves rest → Scan (.close :: moves) (dot :: rest)
  | plain {octet : UInt8} {moves : List Move} {rest : List UInt8} :
      octet < 128 → octet ≠ dot → octet ≠ backslash → Scan moves rest →
      Scan (.push octet :: moves) (octet :: rest)
  | decimal {a b c : UInt8} {moves : List Move} {rest : List UInt8} :
      isDigit a = true → isDigit b = true → isDigit c = true → decimalValue a b c ≤ 255 →
      Scan moves rest →
      Scan (.push (decimalValue a b c).toUInt8 :: moves) (backslash :: a :: b :: c :: rest)
  | escaped {a : UInt8} {moves : List Move} {rest : List UInt8} :
      isDigit a = false → Scan moves rest → Scan (.push a :: moves) (backslash :: a :: rest)

theorem readInto_dot {draft next : Draft} (rest : List UInt8) (h : draft.close = .ok next) :
    readInto draft (dot :: rest) = readInto next rest := by
  rw [readInto.eq_def]
  simp [h, dot, backslash]

theorem readInto_plain {draft next : Draft} {octet : UInt8} (rest : List UInt8)
    (hAscii : octet < 128) (hDot : octet ≠ dot) (hBackslash : octet ≠ backslash)
    (h : draft.push octet = .ok next) : readInto draft (octet :: rest) = readInto next rest := by
  rw [readInto.eq_def]
  simp [h, hAscii, hDot, hBackslash]

theorem readInto_decimal {draft next : Draft} {a b c : UInt8} (rest : List UInt8)
    (ha : isDigit a = true) (hb : isDigit b = true) (hc : isDigit c = true)
    (hValue : decimalValue a b c ≤ 255)
    (h : draft.push (decimalValue a b c).toUInt8 = .ok next) :
    readInto draft (backslash :: a :: b :: c :: rest) = readInto next rest := by
  rw [readInto.eq_def]
  simp only [if_true, ha, hb, hc, hValue, decide_true, Bool.and_self, h]

theorem readInto_escaped {draft next : Draft} {a : UInt8} (rest : List UInt8)
    (ha : isDigit a = false) (h : draft.push a = .ok next) :
    readInto draft (backslash :: a :: rest) = readInto next rest := by
  rw [readInto.eq_def]
  simp only [if_true, ha, Bool.false_eq_true, if_false, h]

theorem readInto_of_scan {draft : Draft} {moves : List Move} {octets : List UInt8} {name : Name}
    (h : Scan moves octets) (hFeed : draft.feed moves = .ok name) :
    readInto draft octets = .ok name := by
  induction h generalizing draft with
  | nil => exact hFeed
  | close _ ih =>
    obtain ⟨next, hStep, hNext⟩ := Draft.feed_cons_eq_ok_iff.mp hFeed
    rw [readInto_dot _ hStep]
    exact ih hNext
  | plain hAscii hDot hBackslash _ ih =>
    obtain ⟨next, hStep, hNext⟩ := Draft.feed_cons_eq_ok_iff.mp hFeed
    rw [readInto_plain _ hAscii hDot hBackslash hStep]
    exact ih hNext
  | decimal ha hb hc hValue _ ih =>
    obtain ⟨next, hStep, hNext⟩ := Draft.feed_cons_eq_ok_iff.mp hFeed
    rw [readInto_decimal _ ha hb hc hValue hStep]
    exact ih hNext
  | escaped ha _ ih =>
    obtain ⟨next, hStep, hNext⟩ := Draft.feed_cons_eq_ok_iff.mp hFeed
    rw [readInto_escaped _ ha hStep]
    exact ih hNext

theorem scan_of_readInto {draft : Draft} {octets : List UInt8} {name : Name}
    (h : readInto draft octets = .ok name) :
    ∃ moves, Scan moves octets ∧ draft.feed moves = .ok name := by
  fun_induction readInto draft octets with
  | case1 draft => exact ⟨[], .nil, h⟩
  | case4 draft a ha b c rest hDigits next hPush ih =>
    obtain ⟨moves, hScan, hFeed⟩ := ih h
    simp only [Bool.and_eq_true, decide_eq_true_eq] at hDigits
    obtain ⟨⟨hb, hc⟩, hValue⟩ := hDigits
    exact ⟨_, .decimal ha hb hc hValue hScan, Draft.feed_cons_eq_ok_iff.mpr ⟨next, hPush, hFeed⟩⟩
  | case8 draft a rest ha next hPush ih =>
    obtain ⟨moves, hScan, hFeed⟩ := ih h
    exact ⟨_, .escaped (Bool.eq_false_iff.mpr ha) hScan,
      Draft.feed_cons_eq_ok_iff.mpr ⟨next, hPush, hFeed⟩⟩
  | case10 draft rest next hClose _ ih =>
    obtain ⟨moves, hScan, hFeed⟩ := ih h
    exact ⟨_, .close hScan, Draft.feed_cons_eq_ok_iff.mpr ⟨next, hClose, hFeed⟩⟩
  | case12 draft octet rest hBackslash hDot hAscii next hPush ih =>
    obtain ⟨moves, hScan, hFeed⟩ := ih h
    exact ⟨_, .plain hAscii hDot hBackslash hScan,
      Draft.feed_cons_eq_ok_iff.mpr ⟨next, hPush, hFeed⟩⟩
  -- Every other path of the reader ends in an error.
  | _ => cases h

theorem readInto_eq_ok_iff {draft : Draft} {octets : List UInt8} {name : Name} :
    readInto draft octets = .ok name ↔ ∃ moves, Scan moves octets ∧ draft.feed moves = .ok name :=
  ⟨scan_of_readInto, fun ⟨_, hScan, hFeed⟩ => readInto_of_scan hScan hFeed⟩

/-! ## From octets to characters -/

theorem isAscii_of_isDigit {c : Char} (h : c.isDigit = true) : c.toNat < 128 :=
  Nat.lt_of_le_of_lt (Char.isDigit_iff_toNat.mp h).2 (by decide)

theorem isDigit_asciiOctet {c : Char} (h : c.toNat < 128) :
    isDigit c.toNat.toUInt8 = c.isDigit := by
  rw [Bool.eq_iff_iff, Char.isDigit_iff_toNat]
  simp only [isDigit, Bool.and_eq_true, decide_eq_true_eq, UInt8.le_iff_toNat_le,
    toNat_asciiOctet h]
  exact Iff.rfl

theorem decimalValue_asciiOctets {a b c : Char} (ha : a.toNat < 128) (hb : b.toNat < 128)
    (hc : c.toNat < 128) :
    decimalValue a.toNat.toUInt8 b.toNat.toUInt8 c.toNat.toUInt8 = digitsValue [a, b, c] := by
  have hZero : '0'.toNat = 48 := rfl
  simp only [decimalValue, digitsValue, List.foldl_cons, List.foldl_nil, toNat_asciiOctet ha,
    toNat_asciiOctet hb, toNat_asciiOctet hc, hZero]
  omega

theorem lt_of_isDigit {octet : UInt8} (h : isDigit octet = true) : octet < 128 := by
  simp only [isDigit, Bool.and_eq_true, decide_eq_true_eq] at h
  exact UInt8.lt_of_le_of_lt h.2 (by decide)

theorem Scan.head_lt {moves : List Move} {octet : UInt8} {rest : List UInt8}
    (h : Scan moves (octet :: rest)) : octet < 128 := by
  cases h with
  | close _ => decide
  | plain hAscii _ _ _ => exact hAscii
  | decimal _ _ _ _ _ => decide
  | escaped _ _ => decide

theorem Scan.spells {moves : List Move} {octets : List UInt8} (h : Scan moves octets)
    {text : List Char} (hText : octetsOf text = octets) : Spells moves text := by
  induction h generalizing text with
  | nil =>
    cases text with
    | nil => exact .nil
    | cons c tail => exact absurd hText octetsOf_ne_nil
  | close _ ih =>
    obtain ⟨c, tail, rfl, hc, hDot, hTail⟩ := head_of_octetsOf hText (by decide)
    obtain rfl : c = '.' := asciiOctet_injective hc (by decide) hDot.symm
    exact .close (ih hTail)
  | plain hAscii hDot hBackslash _ ih =>
    obtain ⟨c, tail, rfl, hc, rfl, hTail⟩ := head_of_octetsOf hText hAscii
    refine .push (.plain hc ?_ ?_) (ih hTail)
    · rintro rfl
      exact hDot rfl
    · rintro rfl
      exact hBackslash rfl
  | decimal ha hb hc hValue _ ih =>
    obtain ⟨e, tail, rfl, he, hEscape, hTail⟩ := head_of_octetsOf hText (by decide)
    obtain rfl : e = '\\' := asciiOctet_injective he (by decide) hEscape.symm
    obtain ⟨a, tailA, rfl, hAsciiA, rfl, hTailA⟩ := head_of_octetsOf hTail (lt_of_isDigit ha)
    obtain ⟨b, tailB, rfl, hAsciiB, rfl, hTailB⟩ := head_of_octetsOf hTailA (lt_of_isDigit hb)
    obtain ⟨c, tailC, rfl, hAsciiC, rfl, hTailC⟩ := head_of_octetsOf hTailB (lt_of_isDigit hc)
    rw [decimalValue_asciiOctets hAsciiA hAsciiB hAsciiC] at hValue ⊢
    rw [isDigit_asciiOctet hAsciiA] at ha
    rw [isDigit_asciiOctet hAsciiB] at hb
    rw [isDigit_asciiOctet hAsciiC] at hc
    exact .push (.decimal ha hb hc hValue) (ih hTailC)
  | @escaped a moves rest ha hRest ih =>
    obtain ⟨e, tail, rfl, he, hEscape, hTail⟩ := head_of_octetsOf hText (by decide)
    obtain rfl : e = '\\' := asciiOctet_injective he (by decide) hEscape.symm
    rcases octetsOf_eq_cons hTail with ⟨c, tail, rfl, hc, rfl, hMore⟩ | ⟨second, _, rfl, _, hSecond⟩
    · rw [isDigit_asciiOctet hc] at ha
      exact .push (.escaped hc ha) (ih hMore.symm)
    · -- The second octet of the character would have to open an item.
      exact absurd hRest.head_lt (UInt8.not_lt.mpr hSecond)

theorem Spells.scan {moves : List Move} {text : List Char} (h : Spells moves text) :
    Scan moves (octetsOf text) := by
  induction h with
  | nil => exact .nil
  | close _ ih => exact .close ih
  | push hItem _ ih =>
    cases hItem with
    | @plain c hc hDot hBackslash =>
      rw [List.singleton_append, octetsOf_cons, utf8EncodeChar_of_lt hc]
      refine .plain ?_ (fun h => hDot ?_) (fun h => hBackslash ?_) ih
      · rw [UInt8.lt_iff_toNat_lt, toNat_asciiOctet hc]
        exact hc
      · exact asciiOctet_injective hc (by decide) h
      · exact asciiOctet_injective hc (by decide) h
    | @decimal a b c ha hb hc hValue =>
      have hAsciiA := isAscii_of_isDigit ha
      have hAsciiB := isAscii_of_isDigit hb
      have hAsciiC := isAscii_of_isDigit hc
      rw [octetsOf_append]
      simp only [octetsOf_cons, octetsOf_nil, utf8EncodeChar_of_lt hAsciiA,
        utf8EncodeChar_of_lt hAsciiB, utf8EncodeChar_of_lt hAsciiC]
      rw [← decimalValue_asciiOctets hAsciiA hAsciiB hAsciiC] at hValue ⊢
      rw [← isDigit_asciiOctet hAsciiA] at ha
      rw [← isDigit_asciiOctet hAsciiB] at hb
      rw [← isDigit_asciiOctet hAsciiC] at hc
      exact .decimal ha hb hc hValue ih
    | @escaped c hc hDigit =>
      rw [octetsOf_append]
      simp only [octetsOf_cons, octetsOf_nil, utf8EncodeChar_of_lt hc]
      rw [← isDigit_asciiOctet hc] at hDigit
      exact .escaped hDigit ih

theorem scan_octetsOf_iff {moves : List Move} {text : List Char} :
    Scan moves (octetsOf text) ↔ Spells moves text :=
  ⟨fun h => h.spells rfl, Spells.scan⟩

/-- The reader builds a name from a text exactly when the text spells the name's labels. -/
theorem readInto_octetsOf_eq_ok_iff {text : List Char} {name : Name} :
    readInto .empty (octetsOf text) = .ok name ↔
      LabelsText (name.labels.map Label.octets) text := by
  rw [readInto_eq_ok_iff, ← spells_spelling_iff, ← scan_octetsOf_iff]
  constructor
  · rintro ⟨moves, hScan, hFeed⟩
    rwa [Draft.feed_empty_eq_ok_iff.mp hFeed] at hScan
  · intro h
    exact ⟨_, h, Draft.feed_empty_eq_ok_iff.mpr rfl⟩

end ZoneStore.Name
