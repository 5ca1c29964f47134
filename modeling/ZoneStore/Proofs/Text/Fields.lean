import ZoneStore.Text.Blank

/-!
# Words between white space

A text that is a word, a blank character and a rest has the word as its
first field and the fields of the rest behind it. Parts that are set apart
by a character hold no other characters than they held alone.
-/

namespace ZoneStore.Text

variable {word : List Char}

theorem fields.close_eq_append (field : List Char) (done : List (List Char)) :
    (fields.close field done).reverse = done.reverse ++ (fields.close field []).reverse := by
  unfold fields.close
  split <;> simp

theorem fields.go_eq_append (field : List Char) (done : List (List Char)) (text : List Char) :
    fields.go field done text = done.reverse ++ fields.go field [] text := by
  induction text generalizing field done with
  | nil => exact fields.close_eq_append field done
  | cons c rest ih =>
    rw [fields.go, fields.go]
    split
    · rw [ih [] (fields.close field done), ih [] (fields.close field []), fields.close_eq_append,
        List.append_assoc]
    · exact ih (c :: field) done

/-- A word is taken into the pending field letter by letter. -/
theorem fields.go_append_word (hWord : ∀ c ∈ word, isAsciiBlank c = false)
    (field rest : List Char) :
    fields.go field [] (word ++ rest) = fields.go (word.reverse ++ field) [] rest := by
  induction word generalizing field with
  | nil => rfl
  | cons c word ih =>
    rw [List.forall_mem_cons] at hWord
    rw [List.cons_append, fields.go, hWord.1, if_neg Bool.false_ne_true, ih hWord.2,
      List.reverse_cons, List.append_assoc]
    rfl

theorem fields.close_reverse (hNe : word ≠ []) (done : List (List Char)) :
    fields.close word.reverse done = word :: done := by
  unfold fields.close
  rw [List.isEmpty_reverse, List.reverse_reverse]
  exact if_neg fun hEmpty => hNe (List.isEmpty_iff.mp hEmpty)

theorem fields_word (hWord : ∀ c ∈ word, isAsciiBlank c = false) (hNe : word ≠ []) :
    fields word = [word] := by
  have hGo := fields.go_append_word hWord [] []
  rw [List.append_nil, List.append_nil] at hGo
  rw [fields, hGo, fields.go, fields.close_reverse hNe]
  rfl

theorem fields_append_blank (hWord : ∀ c ∈ word, isAsciiBlank c = false) (hNe : word ≠ [])
    {blank : Char} (hBlank : isAsciiBlank blank = true) (rest : List Char) :
    fields (word ++ blank :: rest) = word :: fields rest := by
  rw [fields, fields.go_append_word hWord, List.append_nil, fields.go, if_pos hBlank,
    fields.close_reverse hNe, fields.go_eq_append]
  rfl

theorem fields_cons_of_isAsciiBlank {c : Char} (hBlank : isAsciiBlank c = true)
    (rest : List Char) : fields (c :: rest) = fields rest := by
  rw [fields, fields.go, if_pos hBlank]
  rfl

/-- A pending field grows until a blank or the end. -/
theorem fields.go_eq_cons {field text : List Char} {more : List (List Char)} (hField : field ≠ [])
    (h : fields.go field [] text = word :: more) :
    ∃ front rest, text = front ++ rest ∧ word = field.reverse ++ front := by
  have hClose : fields.close field [] = [field.reverse] :=
    if_neg fun hNone => hField (List.isEmpty_iff.mp hNone)
  induction text generalizing field with
  | nil =>
    rw [fields.go, hClose] at h
    exact ⟨[], [], rfl, by rw [List.append_nil]; exact (List.cons.inj h).1.symm⟩
  | cons c text ih =>
    rw [fields.go] at h
    split at h
    · rw [fields.go_eq_append, hClose] at h
      exact ⟨[], c :: text, rfl, by rw [List.append_nil]; exact (List.cons.inj h).1.symm⟩
    · obtain ⟨front, rest, rfl, hWord⟩ := ih (List.cons_ne_nil c field) h
        (if_neg (by simp))
      refine ⟨c :: front, rest, rfl, ?_⟩
      rw [hWord, List.reverse_cons, List.append_assoc]
      rfl

/-- Nothing but blanks stands in front of the first field. -/
theorem exists_of_fields_eq_cons {text : List Char} {more : List (List Char)}
    (h : fields text = word :: more) :
    ∃ blanks rest, text = blanks ++ (word ++ rest) ∧ ∀ c ∈ blanks, isAsciiBlank c = true := by
  induction text with
  | nil => cases h
  | cons c text ih =>
    by_cases hBlank : isAsciiBlank c = true
    · rw [fields_cons_of_isAsciiBlank hBlank] at h
      obtain ⟨blanks, rest, rfl, hBlanks⟩ := ih h
      exact ⟨c :: blanks, rest, rfl, List.forall_mem_cons.mpr ⟨hBlank, hBlanks⟩⟩
    · rw [fields, fields.go, if_neg hBlank] at h
      obtain ⟨front, rest, rfl, rfl⟩ := fields.go_eq_cons (List.cons_ne_nil c []) h
      exact ⟨[], rest, rfl, List.forall_mem_nil _⟩

/-- The fields are what is left of a text without its blanks. -/
theorem fields.flatten_go (field : List Char) (done : List (List Char)) (text : List Char) :
    (fields.go field done text).flatten =
      done.reverse.flatten ++ (field.reverse ++ text.filter fun c => !isAsciiBlank c) := by
  have hClose : ∀ field done,
      (fields.close field done).reverse.flatten = done.reverse.flatten ++ field.reverse := by
    intro field done
    unfold fields.close
    split
    · rename_i hNone
      rw [List.isEmpty_iff.mp hNone, List.reverse_nil, List.append_nil]
    · rw [List.reverse_cons, List.flatten_append, List.flatten_singleton]
  induction text generalizing field done with
  | nil => rw [fields.go, hClose, List.filter_nil, List.append_nil]
  | cons c text ih =>
    rw [fields.go]
    split
    · rename_i hBlank
      rw [ih, hClose, List.filter_cons_of_neg (by simpa using hBlank), List.append_assoc]
      rfl
    · rename_i hBlank
      rw [ih, List.filter_cons_of_pos (by simpa using hBlank), List.reverse_cons,
        List.append_assoc, List.singleton_append]

theorem flatten_fields (text : List Char) :
    (fields text).flatten = text.filter fun c => !isAsciiBlank c :=
  fields.flatten_go [] [] text

theorem not_isAsciiBlank_of_mem_fields {text field : List Char} (hField : field ∈ fields text) :
    ∀ c ∈ field, isAsciiBlank c = false := by
  intro c hc
  have hFlat : c ∈ (fields text).flatten := List.mem_flatten.mpr ⟨field, hField, hc⟩
  rw [flatten_fields, List.mem_filter] at hFlat
  simpa using hFlat.2

theorem not_mem_intercalate {parts : List (List Char)} {c mark : Char} (hMark : c ≠ mark)
    (hParts : ∀ part ∈ parts, c ∉ part) : c ∉ [mark].intercalate parts := by
  induction parts with
  | nil => exact List.not_mem_nil
  | cons part parts ih =>
    rw [List.forall_mem_cons] at hParts
    cases parts with
    | nil =>
      rw [List.intercalate_singleton]
      exact hParts.1
    | cons next parts =>
      rw [List.intercalate_cons_cons, List.mem_append, List.mem_append, List.mem_singleton]
      rintro ((hPart | hSame) | hRest)
      · exact hParts.1 hPart
      · exact hMark hSame
      · exact ih hParts.2 hRest

end ZoneStore.Text
