import Mathlib.Algebra.Order.Floor.Div
import ZoneStore.Proofs.Record.Descriptive
import ZoneStore.Proofs.Text.Stored

/-!
# Texts that are kept whole

A descriptive text that is neither quoted nor generic is stored octet by
octet, blanks at its ends included. What is stored can be read as strings in
one way only, and in it every string but the last is full, so that the length
of the text decides how many length octets there are, and whether all of it
fits into a record.
-/

namespace ZoneStore

open Text

namespace CharacterString

variable {strings other : List (List UInt8)} {octets : List UInt8}

/-! ## One reading -/

/-- Each length octet says where the next one stands, so there is one way to read strings. -/
theorem StringsForm.unique (h : StringsForm strings octets) (hOther : StringsForm other octets) :
    other = strings := by
  induction h generalizing other with
  | nil =>
    cases hOther
    rfl
  | @cons length string rest strings hLength _ ih =>
    generalize hOctets : length :: (string ++ rest) = octets at hOther
    cases hOther with
    | nil => cases hOctets
    | cons hLength' hRest =>
      obtain ⟨rfl, hMore⟩ := List.cons.inj hOctets
      obtain ⟨rfl, rfl⟩ := List.append_inj hMore (hLength.trans hLength'.symm)
      rw [ih hRest]

theorem wireLength_eq (strings : List (List UInt8)) :
    wireLength strings = strings.flatten.length + strings.length := by
  induction strings with
  | nil => rfl
  | cons string strings ih =>
    rw [wireLength, List.map_cons, List.sum_cons, ← wireLength, ih, List.flatten_cons,
      List.length_append, List.length_cons]
    omega

/-! ## Full strings and a last one -/

theorem CutInto.flatten_eq (h : CutInto octets strings) : strings.flatten = octets := by
  induction h with
  | nil => rfl
  | last _ _ => exact List.flatten_singleton
  | full _ _ ih => rw [List.flatten_cons, ih]

theorem CutInto.length_of_mem_dropLast (h : CutInto octets strings) :
    ∀ string ∈ strings.dropLast, string.length = 255 := by
  induction h with
  | nil => exact List.forall_mem_nil _
  | last _ _ => exact List.forall_mem_nil _
  | @full string _ strings hFull _ ih =>
    cases strings with
    | nil => exact List.forall_mem_nil _
    | cons next strings =>
      rw [List.dropLast_cons_cons]
      exact List.forall_mem_cons.mpr ⟨hFull, ih⟩

theorem CutInto.nil_not_mem (h : CutInto octets strings) : [] ∉ strings := by
  induction h with
  | nil => exact List.not_mem_nil
  | last hSome _ => simpa using hSome.symm
  | full hFull _ ih =>
    rintro (_ | ⟨_, hMem⟩)
    · cases hFull
    · exact ih hMem

theorem CutInto.length_eq (h : CutInto octets strings) : strings.length = octets.length ⌈/⌉ 255 := by
  rw [Nat.ceilDiv_eq_add_pred_div]
  induction h with
  | nil => rfl
  | @last string hSome hLe =>
    have hPos := List.length_pos_iff.mpr hSome
    rw [List.length_singleton]
    omega
  | full hFull _ ih =>
    rw [List.length_cons, List.length_append, ih, hFull]
    omega

/-! ## Texts taken whole -/

theorem TakenWhole.flatten_eq (h : TakenWhole octets strings) : strings.flatten = octets := by
  rcases h with ⟨rfl, rfl⟩ | ⟨-, hCut⟩
  · rfl
  · exact hCut.flatten_eq

theorem TakenWhole.length_of_mem_dropLast (h : TakenWhole octets strings) :
    ∀ string ∈ strings.dropLast, string.length = 255 := by
  rcases h with ⟨-, rfl⟩ | ⟨-, hCut⟩
  · exact List.forall_mem_nil _
  · exact hCut.length_of_mem_dropLast

theorem TakenWhole.nil_mem_iff (h : TakenWhole octets strings) : [] ∈ strings ↔ octets = [] := by
  rcases h with ⟨rfl, rfl⟩ | ⟨hSome, hCut⟩
  · exact iff_of_true (List.mem_singleton_self _) rfl
  · exact iff_of_false hCut.nil_not_mem hSome

theorem TakenWhole.length_eq (h : TakenWhole octets strings) :
    strings.length = max 1 (octets.length ⌈/⌉ 255) := by
  rcases h with ⟨rfl, rfl⟩ | ⟨hSome, hCut⟩
  · rfl
  · have hPos := List.length_pos_iff.mpr (hCut.ne_nil hSome)
    rw [← hCut.length_eq]
    omega

theorem TakenWhole.wireLength_eq (h : TakenWhole octets strings) :
    wireLength strings = octets.length + max 1 (octets.length ⌈/⌉ 255) := by
  rw [CharacterString.wireLength_eq, h.flatten_eq, h.length_eq]

end CharacterString

/-! ## Main statement -/

namespace Rdata

open CharacterString

/-- The octets that a text takes as strings, each string but the last being full. -/
def wholeLength (text : String) : Nat :=
  text.utf8ByteSize + max 1 (text.utf8ByteSize ⌈/⌉ 255)

/-- A text is stored octet by octet, in strings that can be told in one way, if they fit. -/
structure KeepsWhole (text : String) : Prop where
  accepted_iff : (∃ rdata, ofText .txt text = .ok rdata) ↔ wholeLength text ≤ 65535
  refused_iff : ofText .txt text = .error .tooLong ↔ 65535 < wholeLength text
  stored : ∀ rdata, ofText .txt text = .ok rdata → ∃ strings,
    (∀ other, StringsForm other rdata.octets ↔ other = strings) ∧
      (∀ string ∈ strings.dropLast, string.length = 255) ∧
      ([] ∈ strings ↔ text = "") ∧
      strings.flatten.toByteArray = text.toByteArray

theorem ofText_keeps_whole {text : String} (hMark : ¬OpensWithMark text.toList)
    (hQuote : (trimStart text.toList).head? ≠ some '"') : KeepsWhole text := by
  obtain ⟨strings, hWhole, hRead⟩ := exists_takenWhole hMark hQuote
  rw [hWhole.wireLength_eq, length_octetsOf, ← wholeLength] at hRead
  change (_ ∧ ∃ rdata, ofText .txt text = .ok rdata ∧ _) ∨ (_ ∧ ofText .txt text = _) at hRead
  rcases hRead with ⟨hFits, rdata, hOk, hForm⟩ | ⟨hLong, hError⟩
  · constructor
    · exact iff_of_true ⟨rdata, hOk⟩ hFits
    · rw [hOk]
      exact iff_of_false nofun (Nat.not_lt.mpr hFits)
    · intro other hOther
      rw [hOk, Except.ok.injEq] at hOther
      subst hOther
      refine ⟨strings, fun other => ⟨hForm.unique, fun hSame => hSame ▸ hForm⟩,
        hWhole.length_of_mem_dropLast, ?_, ?_⟩
      · rw [hWhole.nil_mem_iff, octetsOf_eq_nil_iff]
      · rw [hWhole.flatten_eq, toByteArray_octetsOf]
  · constructor
    · rw [hError]
      exact iff_of_false (fun ⟨_, hOk⟩ => nomatch hOk) (Nat.not_le.mpr hLong)
    · exact iff_of_true hError hLong
    · rw [hError]
      exact nofun

/-- Two blanks, octets that the end of the first string divides in a letter, and a blank. -/
def accents : String :=
  String.ofList ([' ', '\t'] ++ List.replicate 127 'é' ++ ['\n'])

/-- A text of as many octets as given. -/
def letters (count : Nat) : String :=
  String.ofList (List.replicate count 'a')

theorem utf8ByteSize_letters (count : Nat) : (letters count).utf8ByteSize = count := by
  rw [← length_octetsOf, letters, String.toList_ofList]
  induction count with
  | zero => rfl
  | succ count ih =>
    rw [List.replicate_succ, octetsOf_cons, List.length_append, ih, Nat.add_comm]
    rfl

theorem head?_trimStart_letters (count : Nat) :
    (trimStart (letters (count + 1)).toList).head? = some 'a' := by
  rw [letters, String.toList_ofList, List.replicate_succ,
    trimStart_cons_of_not_isBlank (by decide)]
  rfl

theorem not_opensWithMark_letters (count : Nat) :
    ¬OpensWithMark (letters (count + 1)).toList := by
  rintro ⟨rest, hMark⟩
  have hHead := head?_trimStart_letters count
  rw [← hMark] at hHead
  cases hHead

theorem ofText_keeps_whole_limit :
    KeepsWhole accents ∧ KeepsWhole (letters 65279) ∧ KeepsWhole (letters 65280) ∧
      (ofText .txt accents).map (fun rdata => rdata.octets.drop 255) = .ok [195, 2, 169, 10] ∧
      (∃ rdata, ofText .txt (letters 65279) = .ok rdata) ∧
      ofText .txt (letters 65280) = .error .tooLong := by
  have hChars : accents.toList = [' ', '\t'] ++ List.replicate 127 'é' ++ ['\n'] :=
    String.toList_ofList
  have hStored : (ofText .txt accents).map (fun rdata => rdata.octets.drop 255) =
      .ok [195, 2, 169, 10] := by
    rw [ofText, hChars]
    decide +kernel
  have hAccents : KeepsWhole accents := by
    refine ofText_keeps_whole ?_ ?_
    · rw [hChars]
      decide +kernel
    · rw [hChars]
      decide +kernel
  have hFits : KeepsWhole (letters 65279) :=
    ofText_keeps_whole (not_opensWithMark_letters _) (by simp [head?_trimStart_letters])
  have hLong : KeepsWhole (letters 65280) :=
    ofText_keeps_whole (not_opensWithMark_letters _) (by simp [head?_trimStart_letters])
  refine ⟨hAccents, hFits, hLong, hStored, hFits.accepted_iff.mpr ?_,
    hLong.refused_iff.mpr ?_⟩
  · rw [wholeLength, utf8ByteSize_letters, Nat.ceilDiv_eq_add_pred_div]
    decide
  · rw [wholeLength, utf8ByteSize_letters, Nat.ceilDiv_eq_add_pred_div]
    decide

end Rdata

end ZoneStore
