import Mathlib.Data.List.Basic
import Mathlib.Data.List.TakeWhile
import ZoneStore.Text.Blank

/-!
# Trimming

Trimming at one end does not see what is done at the other. Text behind a
word keeps the blanks in front of it and loses those at its end, unless it
is blank throughout; then it goes altogether.
-/

namespace ZoneStore.Text

variable {c : Char} {text : List Char}

theorem trimStart_cons_of_not_isBlank (hChar : isBlank c = false) (text : List Char) :
    trimStart (c :: text) = c :: text :=
  List.dropWhile_cons_of_neg (by simpa using hChar)

theorem trimStart_cons_of_isBlank (hChar : isBlank c = true) (text : List Char) :
    trimStart (c :: text) = trimStart text :=
  List.dropWhile_cons_of_pos hChar

theorem trimStart_append_of_isBlank {blanks : List Char} (hBlanks : ∀ c ∈ blanks, isBlank c = true)
    (rest : List Char) : trimStart (blanks ++ rest) = trimStart rest :=
  List.dropWhile_append_of_pos hBlanks

theorem trimStart_append_of_isAsciiBlank {blanks : List Char}
    (hBlanks : ∀ c ∈ blanks, isAsciiBlank c = true) (rest : List Char) :
    trimStart (blanks ++ rest) = trimStart rest :=
  trimStart_append_of_isBlank (fun c hc => isBlank_of_isAsciiBlank (hBlanks c hc)) rest

theorem trimStart_eq_self_iff : trimStart text = text ↔ ∀ c ∈ text.head?, isBlank c = false := by
  cases text with
  | nil => simp [trimStart]
  | cons c text =>
    rw [List.head?_cons]
    by_cases hChar : isBlank c = true
    · rw [trimStart_cons_of_isBlank hChar]
      have hLength : (trimStart text).length ≤ text.length :=
        (List.dropWhile_suffix isBlank).length_le
      constructor
      · intro hSame
        rw [hSame] at hLength
        exact absurd hLength (Nat.not_succ_le_self _)
      · intro hHead
        rw [hHead c rfl] at hChar
        cases hChar
    · rw [Bool.not_eq_true] at hChar
      simp [trimStart_cons_of_not_isBlank hChar, hChar]

theorem head?_trimStart (text : List Char) : ∀ c ∈ (trimStart text).head?, isBlank c = false := by
  induction text with
  | nil => simp [trimStart]
  | cons c text ih =>
    by_cases hChar : isBlank c = true
    · rw [trimStart_cons_of_isBlank hChar]
      exact ih
    · rw [Bool.not_eq_true] at hChar
      simp [trimStart_cons_of_not_isBlank hChar, hChar]

theorem trimEnd_eq_nil_iff : trimEnd text = [] ↔ ∀ c ∈ text, isBlank c = true := by
  rw [trimEnd, List.reverse_eq_nil_iff, List.dropWhile_eq_nil_iff]
  simp only [List.mem_reverse]

theorem trimEnd_eq_reverse (text : List Char) : trimEnd text = (trimStart text.reverse).reverse :=
  rfl

theorem trimEnd_eq_self_iff : trimEnd text = text ↔ ∀ c ∈ text.getLast?, isBlank c = false := by
  rw [trimEnd_eq_reverse, List.reverse_eq_iff, trimStart_eq_self_iff, List.head?_reverse]

theorem trimEnd_eq_self (hText : ∀ c ∈ text, isBlank c = false) : trimEnd text = text :=
  trimEnd_eq_self_iff.mpr fun c hc => hText c (List.mem_of_getLast? hc)

theorem trimEnd_append (front back : List Char) :
    trimEnd (front ++ back) =
      if trimEnd back = [] then trimEnd front else front ++ trimEnd back := by
  unfold trimEnd
  rw [List.reverse_append, List.dropWhile_append]
  by_cases hBack : back.reverse.dropWhile isBlank = []
  · rw [hBack]
    rfl
  · rw [if_neg (by simpa using hBack), if_neg (by simpa using hBack), List.reverse_append,
      List.reverse_reverse]

theorem trimEnd_cons (c : Char) (text : List Char) :
    trimEnd (c :: text) =
      if trimEnd text = [] then (if isBlank c then [] else [c]) else c :: trimEnd text := by
  rw [← List.singleton_append, trimEnd_append]
  congr 1
  unfold trimEnd
  by_cases hChar : isBlank c = true
  · simp [hChar]
  · simp [hChar]

theorem trimEnd_cons_of_not_isBlank (hChar : isBlank c = false) (text : List Char) :
    trimEnd (c :: text) = c :: trimEnd text := by
  rw [trimEnd_cons, hChar]
  split
  · rename_i hNil
    rw [hNil]
    rfl
  · rfl

theorem trimStart_trimEnd (text : List Char) : trimStart (trimEnd text) = trim text := by
  induction text with
  | nil => rfl
  | cons c text ih =>
    by_cases hChar : isBlank c = true
    · rw [trim, trimStart_cons_of_isBlank hChar, ← trim, ← ih, trimEnd_cons, if_pos hChar]
      split
      · rename_i hNil
        rw [hNil]
      · exact trimStart_cons_of_isBlank hChar _
    · rw [Bool.not_eq_true] at hChar
      rw [trim, trimStart_cons_of_not_isBlank hChar, trimEnd_cons_of_not_isBlank hChar,
        trimStart_cons_of_not_isBlank hChar]

/-- What is not blank throughout is not trimmed away from either end. -/
theorem trim_eq_nil_iff : trim text = [] ↔ trimEnd text = [] := by
  induction text with
  | nil => rfl
  | cons c text ih =>
    by_cases hChar : isBlank c = true
    · rw [trim, trimStart_cons_of_isBlank hChar, ← trim, ih, trimEnd_cons, if_pos hChar]
      simp
    · rw [Bool.not_eq_true] at hChar
      rw [trim, trimStart_cons_of_not_isBlank hChar, trimEnd_cons_of_not_isBlank hChar]

theorem trim_append_trimStart (front : List Char) (hText : trim text ≠ []) :
    trim (front ++ trimStart text) = trimStart (front ++ trim text) := by
  rw [← trimStart_trimEnd, trimEnd_append, ← trim, if_neg hText]

theorem trim_append_trimStart_ne_nil (front : List Char) (hText : trim text ≠ []) :
    trim (front ++ trimStart text) ≠ [] := by
  rw [ne_eq, trim_eq_nil_iff, trimEnd_append, ← trim, if_neg hText]
  exact List.append_ne_nil_of_right_ne_nil front hText

/-- The first character of a trimmed text stands in front of the text that is trimmed later. -/
theorem head?_trim (hText : trim text ≠ []) : (trim text).head? = (trimStart text).head? := by
  unfold trim at hText ⊢
  generalize trimStart text = shown at hText ⊢
  cases shown with
  | nil => rfl
  | cons c rest =>
    rw [trimEnd_cons] at hText ⊢
    split
    · rename_i hNil
      rw [if_pos hNil] at hText
      split
      · rename_i hBlank
        rw [if_pos hBlank] at hText
        exact absurd rfl hText
      · rfl
    · rfl

/-! ## Text without blanks at its ends -/

/-- Neither end is blank. -/
def IsTrimmed (text : List Char) : Prop :=
  (∀ c ∈ text.head?, isBlank c = false) ∧ ∀ c ∈ text.getLast?, isBlank c = false

theorem isTrimmed_append_iff {front back : List Char} (hFront : front ≠ []) (hBack : back ≠ []) :
    IsTrimmed (front ++ back) ↔
      (∀ c ∈ front.head?, isBlank c = false) ∧ ∀ c ∈ back.getLast?, isBlank c = false := by
  rw [IsTrimmed, List.head?_append_of_ne_nil _ hFront, List.getLast?_append_of_ne_nil _ hBack]

/-- Blanks within such text have something on either side. -/
theorem IsTrimmed.ne_nil {front gap back : List Char} (h : IsTrimmed (front ++ (gap ++ back)))
    (hGap : gap ≠ []) (hBlanks : ∀ c ∈ gap, isBlank c = true) : front ≠ [] ∧ back ≠ [] := by
  obtain ⟨hHead, hLast⟩ := h
  constructor
  · rintro rfl
    rw [List.nil_append, List.head?_append_of_ne_nil _ hGap] at hHead
    have hFirst := hHead _ (List.head?_eq_some_head hGap)
    rw [hBlanks _ (List.head_mem hGap)] at hFirst
    cases hFirst
  · rintro rfl
    rw [List.append_nil, List.getLast?_append_of_ne_nil _ hGap] at hLast
    have hEnd := hLast _ (List.getLast?_eq_some_getLast hGap)
    rw [hBlanks _ (List.getLast_mem hGap)] at hEnd
    cases hEnd

theorem isTrimmed_of_no_blank (hText : ∀ c ∈ text, isBlank c = false) : IsTrimmed text :=
  ⟨fun c hc => hText c (List.mem_of_head? hc), fun c hc => hText c (List.mem_of_getLast? hc)⟩

theorem isTrimmed_trim (text : List Char) : IsTrimmed (trim text) := by
  constructor
  · rw [← trimStart_trimEnd]
    exact head?_trimStart _
  · rw [trim, trimEnd_eq_reverse, List.getLast?_reverse]
    exact head?_trimStart _

theorem exists_append_trimStart (text : List Char) :
    ∃ front, (∀ c ∈ front, isBlank c = true) ∧ text = front ++ trimStart text :=
  ⟨text.takeWhile isBlank, fun _ hc => List.mem_takeWhile_imp hc,
    List.takeWhile_append_dropWhile.symm⟩

/-- What is trimmed away at either end is blank. -/
theorem exists_append_trim (text : List Char) :
    ∃ front back, (∀ c ∈ front, isBlank c = true) ∧ (∀ c ∈ back, isBlank c = true) ∧
      text = front ++ (trim text ++ back) := by
  obtain ⟨front, hFront, hText⟩ := exists_append_trimStart text
  obtain ⟨back, hBack, hReverse⟩ := exists_append_trimStart (trimStart text).reverse
  refine ⟨front, back.reverse, hFront, by simpa using hBack, ?_⟩
  rw [trim, trimEnd_eq_reverse, ← List.reverse_append, ← hReverse, List.reverse_reverse]
  exact hText

theorem trim_append {front core back : List Char} (hFront : ∀ c ∈ front, isBlank c = true)
    (hCore : IsTrimmed core) (hBack : ∀ c ∈ back, isBlank c = true) :
    trim (front ++ (core ++ back)) = core := by
  rw [← trimStart_trimEnd, trimEnd_append, trimEnd_append, if_pos (trimEnd_eq_nil_iff.mpr hBack),
    trimEnd_eq_self_iff.mpr hCore.2]
  split
  · rename_i hNil
    rw [hNil, trimEnd_eq_nil_iff.mpr hFront]
    rfl
  · rw [trimStart_append_of_isBlank hFront, trimStart_eq_self_iff.mpr hCore.1]

theorem trim_eq_iff {core : List Char} :
    trim text = core ↔
      IsTrimmed core ∧ ∃ front back, (∀ c ∈ front, isBlank c = true) ∧
        (∀ c ∈ back, isBlank c = true) ∧ text = front ++ (core ++ back) := by
  constructor
  · rintro rfl
    exact ⟨isTrimmed_trim text, exists_append_trim text⟩
  · rintro ⟨hCore, front, back, hFront, hBack, rfl⟩
    exact trim_append hFront hCore hBack

end ZoneStore.Text
