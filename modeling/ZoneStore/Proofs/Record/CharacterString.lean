import Mathlib.Algebra.Ring.Nat
import ZoneStore.Record.CharacterString

/-!
# Character-strings on the wire

Each string stands behind an octet that is its length, so that what is
written can be told apart again. A text that is taken whole is cut into
strings of 255 octets, of which the last may be shorter.
-/

namespace ZoneStore.CharacterString

open Text

/-- Octets that hold the given strings, each behind its length, and nothing else. -/
inductive StringsForm : List (List UInt8) → List UInt8 → Prop
  | nil : StringsForm [] []
  | cons {length : UInt8} {string rest : List UInt8} {strings : List (List UInt8)} :
      string.length = length.toNat → StringsForm strings rest →
      StringsForm (string :: strings) (length :: (string ++ rest))

/-- The octets that strings take on the wire, their length octets included. -/
def wireLength (strings : List (List UInt8)) : Nat :=
  (strings.map fun string => string.length + 1).sum

theorem StringsForm.length_eq {strings : List (List UInt8)} {octets : List UInt8}
    (h : StringsForm strings octets) : octets.length = wireLength strings := by
  induction h with
  | nil => rfl
  | cons _ _ ih =>
    rw [wireLength, List.map_cons, List.sum_cons, ← wireLength, ← ih, List.length_cons,
      List.length_append]
    omega

theorem encode_cons (string : List UInt8) (strings : List (List UInt8)) :
    encode (string :: strings) = string.length.toUInt8 :: (string ++ encode strings) := by
  rw [encode, List.flatMap_cons, ← encode, List.cons_append]

theorem toNat_length {string : List UInt8} (h : string.length ≤ maxLength) :
    string.length.toUInt8.toNat = string.length :=
  UInt8.toNat_ofNat_of_lt' (Nat.lt_succ_of_le h)

theorem stringsForm_encode {strings : List (List UInt8)}
    (hLe : ∀ string ∈ strings, string.length ≤ maxLength) :
    StringsForm strings (encode strings) := by
  induction strings with
  | nil => exact .nil
  | cons string strings ih =>
    obtain ⟨hString, hMore⟩ := List.forall_mem_cons.mp hLe
    rw [encode_cons]
    exact .cons (toNat_length hString).symm (ih hMore)

theorem StringsForm.eq_encode {strings : List (List UInt8)} {octets : List UInt8}
    (h : StringsForm strings octets) : octets = encode strings := by
  induction h with
  | nil => rfl
  | cons hLength _ ih =>
    rw [encode_cons, ← ih, hLength, Nat.toUInt8, UInt8.ofNat_toNat]

theorem StringsForm.length_le {strings : List (List UInt8)} {octets : List UInt8}
    (h : StringsForm strings octets) : ∀ string ∈ strings, string.length ≤ maxLength := by
  induction h with
  | nil => exact List.forall_mem_nil _
  | @cons length _ _ _ hLength _ ih =>
    refine List.forall_mem_cons.mpr ⟨?_, ih⟩
    rw [hLength]
    exact Nat.le_of_lt_succ length.toNat_lt

theorem stringsForm_iff {strings : List (List UInt8)} {octets : List UInt8} :
    StringsForm strings octets ↔
      (∀ string ∈ strings, string.length ≤ maxLength) ∧ octets = encode strings := by
  constructor
  · exact fun h => ⟨h.length_le, h.eq_encode⟩
  · rintro ⟨hLe, rfl⟩
    exact stringsForm_encode hLe

/-! ## Texts that are taken whole -/

/-- Strings of 255 octets one behind the other, the last of which may be shorter but not empty. -/
inductive CutInto : List UInt8 → List (List UInt8) → Prop
  | nil : CutInto [] []
  | last {string : List UInt8} :
      string ≠ [] → string.length ≤ 255 → CutInto string [string]
  | full {string rest : List UInt8} {strings : List (List UInt8)} :
      string.length = 255 → CutInto rest strings → CutInto (string ++ rest) (string :: strings)

/-- Where there are no octets there is still one string, and it is empty. -/
def TakenWhole (octets : List UInt8) (strings : List (List UInt8)) : Prop :=
  (octets = [] ∧ strings = [[]]) ∨ (octets ≠ [] ∧ CutInto octets strings)

theorem cutInto_go (string : List UInt8) (hRoom : string.length < maxLength)
    (done : List (List UInt8)) (octets : List UInt8) :
    ∃ strings, cut.go string done octets = done.reverse ++ strings ∧
      CutInto (string.reverse ++ octets) strings := by
  induction octets generalizing string done with
  | nil =>
    rw [cut.go, List.append_nil]
    split
    · rename_i hEmpty
      rw [List.isEmpty_iff.mp hEmpty]
      exact ⟨[], (List.append_nil _).symm, .nil⟩
    · rename_i hSome
      refine ⟨[string.reverse], List.reverse_cons, .last (fun hNil => hSome ?_) ?_⟩
      · rw [List.reverse_eq_nil_iff.mp hNil]
        rfl
      · rw [List.length_reverse]
        exact Nat.le_of_lt hRoom
  | cons octet octets ih =>
    rw [cut.go]
    have hNext : string.reverse ++ octet :: octets = (octet :: string).reverse ++ octets := by simp
    rw [hNext]
    split
    · rename_i hFull
      obtain ⟨strings, hGo, hCut⟩ := ih [] (by decide) ((octet :: string).reverse :: done)
      refine ⟨(octet :: string).reverse :: strings, ?_, .full ?_ hCut⟩
      · rw [hGo, List.reverse_cons, List.append_assoc]
        rfl
      · rw [List.length_reverse, List.length_cons, hFull]
        rfl
    · rename_i hMore
      exact ih (octet :: string) (Nat.lt_of_le_of_ne hRoom hMore) done

theorem takenWhole_ofPlain (text : List Char) : TakenWhole (octetsOf text) (ofPlain text) := by
  cases text with
  | nil => exact .inl ⟨rfl, rfl⟩
  | cons c text =>
    obtain ⟨strings, hGo, hCut⟩ := cutInto_go [] (by decide) [] (octetsOf (c :: text))
    refine .inr ⟨octetsOf_ne_nil, ?_⟩
    change CutInto _ (cut.go [] [] (octetsOf (c :: text)))
    rw [hGo]
    exact hCut

theorem CutInto.length_le {octets : List UInt8} {strings : List (List UInt8)}
    (h : CutInto octets strings) : ∀ string ∈ strings, string.length ≤ maxLength := by
  induction h with
  | nil => exact List.forall_mem_nil _
  | last _ hLe => exact List.forall_mem_singleton.mpr hLe
  | full hFull _ ih => exact List.forall_mem_cons.mpr ⟨Nat.le_of_eq hFull, ih⟩

theorem CutInto.ne_nil {octets : List UInt8} {strings : List (List UInt8)}
    (h : CutInto octets strings) (hSome : octets ≠ []) : strings ≠ [] := by
  cases h with
  | nil => exact absurd rfl hSome
  | last _ _ => exact List.cons_ne_nil _ _
  | full _ _ => exact List.cons_ne_nil _ _

theorem TakenWhole.length_le {octets : List UInt8} {strings : List (List UInt8)}
    (h : TakenWhole octets strings) : ∀ string ∈ strings, string.length ≤ maxLength := by
  rcases h with ⟨-, rfl⟩ | ⟨-, hCut⟩
  · exact List.forall_mem_singleton.mpr (Nat.zero_le _)
  · exact hCut.length_le

theorem TakenWhole.ne_nil {octets : List UInt8} {strings : List (List UInt8)}
    (h : TakenWhole octets strings) : strings ≠ [] := by
  rcases h with ⟨-, rfl⟩ | ⟨hSome, hCut⟩
  · exact List.cons_ne_nil _ _
  · exact hCut.ne_nil hSome

end ZoneStore.CharacterString
