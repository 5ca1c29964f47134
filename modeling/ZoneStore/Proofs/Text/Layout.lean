import ZoneStore.Proofs.Text.Digits
import ZoneStore.Proofs.Text.Fields
import ZoneStore.Proofs.Text.Trimming

/-!
# Words that are laid out

A text lays out words if they stand in it in order, with nothing but blanks
in front of them, between them and behind them. However wide the gaps are,
the words are the fields of the text, and a mark that opens the trimmed text
opens the first word.
-/

namespace ZoneStore.Text

/-- What can be a field of a text. -/
structure IsWord (word : List Char) : Prop where
  ne_nil : word ≠ []
  not_blank : ∀ c ∈ word, isAsciiBlank c = false

/-- Behind every word comes a blank, or the text ends. -/
inductive LaidOut : List (List Char) → List Char → Prop
  | blank {blanks : List Char} : (∀ c ∈ blanks, isAsciiBlank c = true) → LaidOut [] blanks
  | word {words : List (List Char)} {front word rest : List Char} :
      (∀ c ∈ front, isAsciiBlank c = true) → (∀ c ∈ rest.head?, isAsciiBlank c = true) →
      LaidOut words rest → LaidOut (word :: words) (front ++ (word ++ rest))

theorem fields_append_of_isAsciiBlank {blanks : List Char}
    (hBlanks : ∀ c ∈ blanks, isAsciiBlank c = true) (rest : List Char) :
    fields (blanks ++ rest) = fields rest := by
  induction blanks with
  | nil => rfl
  | cons c blanks ih =>
    obtain ⟨hBlank, hMore⟩ := List.forall_mem_cons.mp hBlanks
    rw [List.cons_append, fields_cons_of_isAsciiBlank hBlank, ih hMore]

theorem IsWord.fields_append {word rest : List Char} (hWord : IsWord word)
    (hRest : ∀ c ∈ rest.head?, isAsciiBlank c = true) :
    fields (word ++ rest) = word :: fields rest := by
  cases rest with
  | nil =>
    rw [List.append_nil, fields_word hWord.not_blank hWord.ne_nil]
    rfl
  | cons blank rest =>
    have hBlank : isAsciiBlank blank = true := hRest blank rfl
    rw [fields_append_blank hWord.not_blank hWord.ne_nil hBlank,
      fields_cons_of_isAsciiBlank hBlank]

theorem LaidOut.fields_eq {words : List (List Char)} {text : List Char} (h : LaidOut words text)
    (hWords : ∀ word ∈ words, IsWord word) : fields text = words := by
  induction h with
  | @blank blanks hBlanks =>
    have hAll := fields_append_of_isAsciiBlank hBlanks []
    rwa [List.append_nil] at hAll
  | word hFront hRest _ ih =>
    obtain ⟨hWord, hMore⟩ := List.forall_mem_cons.mp hWords
    rw [fields_append_of_isAsciiBlank hFront, hWord.fields_append hRest, ih hMore]

/-! ## What opens the trimmed text -/

theorem IsGraphic.not_isBlank {c : Char} (h : IsGraphic c) : isBlank c = false := by
  obtain ⟨hLow, hHigh⟩ := h
  rw [isBlank, List.any_eq_false]
  intro range hRange
  have hOutside : ∀ range ∈ blankRanges, range.2 < 33 ∨ 126 < range.1 := by decide
  have := hOutside range hRange
  simp only [Bool.and_eq_true, decide_eq_true_eq, not_and]
  omega

/-- A mark without blanks does not reach past the word that stands first. -/
theorem isPrefix_of_isPrefix_append {mark word rest : List Char}
    (hMark : ∀ c ∈ mark, isAsciiBlank c = false) (hRest : ∀ c ∈ rest.head?, isAsciiBlank c = true)
    (h : mark <+: word ++ rest) : mark <+: word := by
  rcases List.prefix_or_prefix_of_prefix h (List.prefix_append word rest) with hIn | hPast
  · exact hIn
  · obtain ⟨more, rfl⟩ := hPast
    cases more with
    | nil => simp
    | cons c more =>
      have hMore : c :: more <+: rest := (List.prefix_append_right_inj word).mp h
      obtain ⟨behind, rfl⟩ := hMore
      have hBlank : isAsciiBlank c = true := hRest c rfl
      rw [hMark c (List.mem_append_right word List.mem_cons_self)] at hBlank
      cases hBlank

theorem LaidOut.isPrefix_of_isPrefix_trimStart {mark word text : List Char}
    {words : List (List Char)} (h : LaidOut (word :: words) text) (hWord : word ≠ [])
    (hGraphic : ∀ c ∈ word, IsGraphic c) (hMark : ∀ c ∈ mark, isAsciiBlank c = false)
    (hOpens : mark <+: trimStart text) : mark <+: word := by
  cases h with
  | word hFront hRest _ =>
    obtain ⟨c, more, rfl⟩ := List.exists_cons_of_ne_nil hWord
    rw [trimStart_append_of_isAsciiBlank hFront, List.cons_append,
      trimStart_cons_of_not_isBlank (hGraphic c List.mem_cons_self).not_isBlank] at hOpens
    exact isPrefix_of_isPrefix_append hMark hRest hOpens

end ZoneStore.Text
