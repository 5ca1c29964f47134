import ZoneStore.Proofs.Record.CharacterString
import ZoneStore.Proofs.Text.Layout

/-!
# Quoted strings

Quoted text is a sequence of strings between double quotes, with ASCII
blanks wherever they stand outside of a string. Inside, three digits behind a
backslash are an octet, any other character behind one is itself, and so is
every character but the two marks. Reading accepts exactly such texts whose
strings are short enough, and gives the strings.
-/

namespace ZoneStore.CharacterString

open Text

/-- Three digits stand first. -/
def OpensDecimal : List Char → Prop
  | a :: b :: c :: _ => a.isDigit = true ∧ b.isDigit = true ∧ c.isDigit = true
  | _ => False

/-- The octets that the inside of a quoted string stands for. -/
inductive StringText : List UInt8 → List Char → Prop
  | nil : StringText [] []
  | plain {c : Char} {octets : List UInt8} {rest : List Char} :
      c ≠ '"' → c ≠ '\\' → StringText octets rest → StringText (octetsOf [c] ++ octets) (c :: rest)
  | decimal {a b c : Char} {octets : List UInt8} {rest : List Char} :
      a.isDigit = true → b.isDigit = true → c.isDigit = true → digitsValue [a, b, c] ≤ 255 →
      StringText octets rest →
      StringText ((digitsValue [a, b, c]).toUInt8 :: octets) ('\\' :: a :: b :: c :: rest)
  | escaped {c : Char} {octets : List UInt8} {rest : List Char} :
      ¬OpensDecimal (c :: rest) → StringText octets rest →
      StringText (octetsOf [c] ++ octets) ('\\' :: c :: rest)

/-- Closed strings in quotes, what is inside of each being told by `Writes`. -/
inductive QuotedText (Writes : List UInt8 → List Char → Prop) : List (List UInt8) → List Char → Prop
  | nil : QuotedText Writes [] []
  | blank {c : Char} {strings : List (List UInt8)} {rest : List Char} :
      isAsciiBlank c = true → QuotedText Writes strings rest → QuotedText Writes strings (c :: rest)
  | string {octets : List UInt8} {strings : List (List UInt8)} {inside rest : List Char} :
      Writes octets inside → QuotedText Writes strings rest →
      QuotedText Writes (octets :: strings) ('"' :: (inside ++ '"' :: rest))

/-! ## One turn of the reader -/

section Turns

variable (done : List (List UInt8)) (pending : List UInt8) (rest : List Char)

theorem readQuoted_blank {c : Char} (hBlank : isAsciiBlank c = true) :
    readQuoted done none (c :: rest) = readQuoted done none rest := by
  rw [readQuoted.eq_def]
  exact if_pos hBlank

theorem readQuoted_open : readQuoted done none ('"' :: rest) = readQuoted done (some []) rest := by
  rw [readQuoted.eq_def]
  rfl

theorem readQuoted_close :
    readQuoted done (some pending) ('"' :: rest) =
      if pending.length ≤ maxLength then readQuoted (pending.reverse :: done) none rest
      else none := by
  rw [readQuoted.eq_def]
  rfl

theorem readQuoted_plain {c : Char} (hQuote : c ≠ '"') (hBackslash : c ≠ '\\') :
    readQuoted done (some pending) (c :: rest) =
      readQuoted done (some ((octetsOf [c]).reverse ++ pending)) rest := by
  rw [readQuoted.eq_def]
  dsimp only
  rw [if_neg hQuote, if_neg hBackslash]

theorem readQuoted_decimal {a b c : Char} (ha : a.isDigit = true) (hb : b.isDigit = true)
    (hc : c.isDigit = true) :
    readQuoted done (some pending) ('\\' :: a :: b :: c :: rest) =
      if digitsValue [a, b, c] ≤ 255 then
        readQuoted done (some ((digitsValue [a, b, c]).toUInt8 :: pending)) rest
      else none := by
  rw [readQuoted.eq_def]
  dsimp only
  rw [if_neg (by decide), if_pos rfl, ha, hb, hc]
  rfl

theorem readQuoted_escaped {c : Char} (hOther : ¬OpensDecimal (c :: rest)) :
    readQuoted done (some pending) ('\\' :: c :: rest) =
      readQuoted done (some ((octetsOf [c]).reverse ++ pending)) rest := by
  match rest with
  | [] => rfl
  | [_] => rfl
  | y :: z :: rest =>
    have hDigits : (c.isDigit && y.isDigit && z.isDigit) = false := by
      rw [← Bool.not_eq_true, Bool.and_eq_true, Bool.and_eq_true, and_assoc]
      exact hOther
    rw [readQuoted.eq_def]
    dsimp only
    rw [if_neg (by decide), if_pos rfl, hDigits]
    rfl

end Turns

/-! ## Strings from quote to quote -/

theorem OpensDecimal.isDigit_head {c : Char} {rest : List Char} (h : OpensDecimal (c :: rest)) :
    c.isDigit = true := by
  match rest, h with
  | _ :: _ :: _, h => exact h.1

variable {done strings : List (List UInt8)} {pending octets : List UInt8}
  {inside rest text : List Char}

/-- A closing quote is no digit, so that what stands behind it does not count. -/
theorem opensDecimal_append_iff (text rest : List Char) :
    OpensDecimal (text ++ '"' :: rest) ↔ OpensDecimal text := by
  have hQuote : '"'.isDigit ≠ true := by decide
  match text with
  | [] =>
    match rest with
    | [] | [_] => exact Iff.rfl
    | _ :: _ :: _ => exact ⟨fun h => hQuote h.1, False.elim⟩
  | [_] =>
    match rest with
    | [] => exact Iff.rfl
    | _ :: _ => exact ⟨fun h => hQuote h.2.1, False.elim⟩
  | [_, _] => exact ⟨fun h => hQuote h.2.2, False.elim⟩
  | _ :: _ :: _ :: _ => exact Iff.rfl

theorem StringText.readQuoted_eq (h : StringText octets inside) (pending : List UInt8) :
    readQuoted done (some pending) (inside ++ '"' :: rest) =
      readQuoted done (some (octets.reverse ++ pending)) ('"' :: rest) := by
  induction h generalizing pending with
  | nil => rfl
  | plain hQuote hBackslash _ ih =>
    rw [List.cons_append, readQuoted_plain _ _ _ hQuote hBackslash, ih, List.reverse_append,
      List.append_assoc]
  | decimal ha hb hc hValue _ ih =>
    rw [List.cons_append, List.cons_append, List.cons_append, List.cons_append,
      readQuoted_decimal _ _ _ ha hb hc, if_pos hValue, ih, List.reverse_cons, List.append_assoc]
    rfl
  | @escaped c _ inside hOther _ ih =>
    have hBehind : ¬OpensDecimal (c :: (inside ++ '"' :: rest)) :=
      fun hDigits => hOther ((opensDecimal_append_iff (c :: inside) rest).mp hDigits)
    rw [List.cons_append, List.cons_append, readQuoted_escaped _ _ _ hBehind, ih,
      List.reverse_append, List.append_assoc]

/-- By induction on the text, one item at a time, up to the quote that closes the string. -/
theorem exists_inside_of_readQuoted (h : readQuoted done (some pending) text = some strings) :
    ∃ octets inside rest, text = inside ++ '"' :: rest ∧ StringText octets inside ∧
      (octets.reverse ++ pending).length ≤ maxLength ∧
      readQuoted ((octets.reverse ++ pending).reverse :: done) none rest = some strings := by
  induction hSize : text.length using Nat.strongRecOn generalizing pending text with
  | ind size ih =>
    subst hSize
    cases text with
    | nil => cases h
    | cons c text =>
      by_cases hQuote : c = '"'
      · subst hQuote
        rw [readQuoted_close, Option.ite_none_right_eq_some] at h
        exact ⟨[], [], text, rfl, .nil, h⟩
      by_cases hBackslash : c = '\\'
      · subst hBackslash
        cases text with
        | nil => cases h
        | cons a text =>
          by_cases hDigits : OpensDecimal (a :: text)
          · match text, hDigits with
            | b :: c :: text, ⟨ha, hb, hc⟩ =>
              rw [readQuoted_decimal _ _ _ ha hb hc, Option.ite_none_right_eq_some] at h
              obtain ⟨hValue, h⟩ := h
              obtain ⟨octets, inside, rest, rfl, hInside, hRest⟩ :=
                ih text.length (by simp only [List.length_cons]; omega) h rfl
              refine ⟨_ :: octets, _, rest, rfl, .decimal ha hb hc hValue hInside, ?_⟩
              rwa [List.reverse_cons, List.append_assoc]
          · rw [readQuoted_escaped _ _ _ hDigits] at h
            obtain ⟨octets, inside, rest, rfl, hInside, hRest⟩ :=
              ih text.length (by simp only [List.length_cons]; omega) h rfl
            refine ⟨octetsOf [a] ++ octets, '\\' :: a :: inside, rest, rfl, ?_, ?_⟩
            · have hOther : ¬OpensDecimal (a :: inside) :=
                fun hOpens => hDigits ((opensDecimal_append_iff _ _).mpr hOpens)
              exact .escaped hOther hInside
            · rwa [List.reverse_append, List.append_assoc]
      · rw [readQuoted_plain _ _ _ hQuote hBackslash] at h
        obtain ⟨octets, inside, rest, rfl, hInside, hRest⟩ :=
          ih text.length (Nat.lt_succ_self _) h rfl
        refine ⟨octetsOf [c] ++ octets, c :: inside, rest, rfl,
          .plain hQuote hBackslash hInside, ?_⟩
        rwa [List.reverse_append, List.append_assoc]

theorem readQuoted_eq_some_iff :
    readQuoted done none text = some strings ↔
      ∃ more, strings = done.reverse ++ more ∧ QuotedText StringText more text ∧
        ∀ string ∈ more, string.length ≤ maxLength := by
  constructor
  · intro h
    induction hSize : text.length using Nat.strongRecOn generalizing done text with
    | ind size ih =>
      subst hSize
      cases text with
      | nil =>
        cases h
        exact ⟨[], (List.append_nil _).symm, .nil, List.forall_mem_nil _⟩
      | cons c text =>
        by_cases hBlank : isAsciiBlank c = true
        · rw [readQuoted_blank _ _ hBlank] at h
          obtain ⟨more, hStrings, hQuoted, hLe⟩ := ih text.length (Nat.lt_succ_self _) h rfl
          exact ⟨more, hStrings, .blank hBlank hQuoted, hLe⟩
        by_cases hQuote : c = '"'
        · subst hQuote
          rw [readQuoted_open] at h
          obtain ⟨octets, inside, rest, rfl, hInside, hLe, hRest⟩ := exists_inside_of_readQuoted h
          rw [List.append_nil, List.length_reverse] at hLe
          rw [List.append_nil, List.reverse_reverse] at hRest
          obtain ⟨more, rfl, hQuoted, hMore⟩ := ih rest.length
            (by simp only [List.length_cons, List.length_append]; omega) hRest rfl
          refine ⟨octets :: more, ?_, .string hInside hQuoted,
            List.forall_mem_cons.mpr ⟨hLe, hMore⟩⟩
          rw [List.reverse_cons, List.append_assoc]
          rfl
        · rw [readQuoted.eq_def] at h
          dsimp only at h
          rw [if_neg hBlank, if_neg hQuote] at h
          cases h
  · rintro ⟨more, rfl, hQuoted, hLe⟩
    induction hQuoted generalizing done with
    | nil =>
      rw [List.append_nil]
      rfl
    | blank hBlank _ ih =>
      rw [readQuoted_blank _ _ hBlank]
      exact ih hLe
    | @string octets more inside rest hInside _ ih =>
      obtain ⟨hOctets, hMore⟩ := List.forall_mem_cons.mp hLe
      rw [readQuoted_open, hInside.readQuoted_eq, List.append_nil, readQuoted_close,
        List.length_reverse, if_pos hOctets, List.reverse_reverse, ih hMore, List.reverse_cons,
        List.append_assoc]
      rfl

theorem ofText_eq_some_iff (hQuote : (trimStart text).head? = some '"') :
    ofText text = some strings ↔
      QuotedText StringText strings (trimStart text) ∧
        ∀ string ∈ strings, string.length ≤ maxLength := by
  rw [ofText, if_pos hQuote, readQuoted_eq_some_iff]
  constructor
  · rintro ⟨more, rfl, hQuoted⟩
    exact hQuoted
  · intro hQuoted
    exact ⟨strings, rfl, hQuoted⟩

/-! ## Ways to write a string -/

/-- An octet as itself, behind a backslash, or as three digits behind one. -/
inductive OctetText : UInt8 → List Char → Prop
  | plain {c : Char} : c.toNat < 128 → c ≠ '"' → c ≠ '\\' → OctetText c.toNat.toUInt8 [c]
  | escaped {c : Char} : c.toNat < 128 → c.isDigit = false → OctetText c.toNat.toUInt8 ['\\', c]
  | decimal {a b c : Char} : a.isDigit = true → b.isDigit = true → c.isDigit = true →
      digitsValue [a, b, c] ≤ 255 →
      OctetText (digitsValue [a, b, c]).toUInt8 ['\\', a, b, c]

inductive OctetsText : List UInt8 → List Char → Prop
  | nil : OctetsText [] []
  | cons {octet : UInt8} {octets : List UInt8} {item rest : List Char} :
      OctetText octet item → OctetsText octets rest → OctetsText (octet :: octets) (item ++ rest)

theorem octetsOf_singleton {c : Char} (hAscii : c.toNat < 128) :
    octetsOf [c] = [c.toNat.toUInt8] := by
  rw [octetsOf_cons, octetsOf_nil, utf8EncodeChar_of_lt hAscii, List.append_nil]

theorem OctetsText.toStringText (h : OctetsText octets text) : StringText octets text := by
  induction h with
  | nil => exact .nil
  | cons hItem _ ih =>
    cases hItem with
    | plain hAscii hQuote hBackslash =>
      have hInside := StringText.plain hQuote hBackslash ih
      rwa [octetsOf_singleton hAscii] at hInside
    | @escaped c hAscii hDigit =>
      have hOther : ∀ rest, ¬OpensDecimal (c :: rest) := by
        intro rest hOpens
        rw [hOpens.isDigit_head] at hDigit
        cases hDigit
      have hInside := StringText.escaped (hOther _) ih
      rwa [octetsOf_singleton hAscii] at hInside
    | decimal ha hb hc hValue => exact .decimal ha hb hc hValue ih

theorem QuotedText.mono {Writes Other : List UInt8 → List Char → Prop}
    (hWrites : ∀ octets inside, Writes octets inside → Other octets inside)
    (h : QuotedText Writes strings text) : QuotedText Other strings text := by
  induction h with
  | nil => exact .nil
  | blank hBlank _ ih => exact .blank hBlank ih
  | string hInside _ ih => exact .string (hWrites _ _ hInside) ih

/-- Blanks in front of the first string are trimmed away, and its quote is not. -/
theorem QuotedText.of_trimStart {Writes : List UInt8 → List Char → Prop}
    (h : QuotedText Writes strings text) (hSome : strings ≠ []) :
    (trimStart text).head? = some '"' ∧ QuotedText Writes strings (trimStart text) := by
  induction h with
  | nil => exact absurd rfl hSome
  | blank hBlank _ ih =>
    rw [trimStart_cons_of_isBlank (isBlank_of_isAsciiBlank hBlank)]
    exact ih hSome
  | string hInside hRest _ =>
    rw [trimStart_cons_of_not_isBlank (by decide)]
    exact ⟨rfl, .string hInside hRest⟩

theorem QuotedText.ne_nil_of_head? {Writes : List UInt8 → List Char → Prop}
    (h : QuotedText Writes strings text) (hQuote : text.head? = some '"') : strings ≠ [] := by
  rintro rfl
  cases h with
  | nil => cases hQuote
  | blank hBlank _ =>
    cases hQuote
    cases hBlank

end ZoneStore.CharacterString
