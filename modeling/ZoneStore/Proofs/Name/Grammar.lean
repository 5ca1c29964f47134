import Mathlib.Algebra.Ring.Nat
import ZoneStore.Name.Basic
import ZoneStore.Proofs.Name.Moves
import ZoneStore.Text.Decimal

/-!
# The grammar of names

A name is written as labels, each followed by a dot, and a label as items
of one to four characters that stand for one octet each. The same texts are
described by the moves that they spell, label after label.
-/

namespace ZoneStore.Name

open Text

inductive ItemText : UInt8 → List Char → Prop
  | plain {c : Char} : c.toNat < 128 → c ≠ '.' → c ≠ '\\' → ItemText c.toNat.toUInt8 [c]
  | decimal {a b c : Char} : a.isDigit = true → b.isDigit = true → c.isDigit = true →
      digitsValue [a, b, c] ≤ 255 →
      ItemText (digitsValue [a, b, c]).toUInt8 ['\\', a, b, c]
  | escaped {c : Char} : c.toNat < 128 → c.isDigit = false → ItemText c.toNat.toUInt8 ['\\', c]

inductive LabelText : List UInt8 → List Char → Prop
  | nil : LabelText [] []
  | cons {octet : UInt8} {octets : List UInt8} {item rest : List Char} :
      ItemText octet item → LabelText octets rest → LabelText (octet :: octets) (item ++ rest)

inductive LabelsText : List (List UInt8) → List Char → Prop
  | nil : LabelsText [] []
  | cons {octets : List UInt8} {labels : List (List UInt8)} {text rest : List Char} :
      LabelText octets text → LabelsText labels rest →
      LabelsText (octets :: labels) (text ++ '.' :: rest)

/-- Labels of one to 63 octets that take at most 255 octets, the null label included. -/
structure FitsWire (labels : List (List UInt8)) : Prop where
  length_pos : ∀ octets ∈ labels, 1 ≤ octets.length
  length_le : ∀ octets ∈ labels, octets.length ≤ 63
  sum_le : (labels.map fun octets => octets.length + 1).sum + 1 ≤ 255

/-- A text of a fully qualified name with the given labels, the null label left out. -/
def IsNameText (labels : List (List UInt8)) (text : List Char) : Prop :=
  (labels = [] ∧ text = ['.']) ∨ (labels ≠ [] ∧ LabelsText labels text ∧ FitsWire labels)

inductive Spells : List Move → List Char → Prop
  | nil : Spells [] []
  | close {moves : List Move} {rest : List Char} :
      Spells moves rest → Spells (.close :: moves) ('.' :: rest)
  | push {octet : UInt8} {moves : List Move} {item rest : List Char} :
      ItemText octet item → Spells moves rest → Spells (.push octet :: moves) (item ++ rest)

theorem spells_label {octets : List UInt8} {text : List Char} (h : LabelText octets text)
    {moves : List Move} {rest : List Char} (hRest : Spells moves rest) :
    Spells (octets.map .push ++ moves) (text ++ rest) := by
  induction h with
  | nil => exact hRest
  | cons hItem _ ih =>
    rw [List.map_cons, List.cons_append, List.append_assoc]
    exact .push hItem ih

theorem label_of_spells {octets : List UInt8} {moves : List Move} {text : List Char}
    (h : Spells (octets.map .push ++ moves) text) :
    ∃ front rest, text = front ++ rest ∧ LabelText octets front ∧ Spells moves rest := by
  induction octets generalizing text with
  | nil => exact ⟨[], text, rfl, .nil, h⟩
  | cons octet octets ih =>
    cases h with
    | push hItem hRest =>
      obtain ⟨front, rest, rfl, hLabel, hMoves⟩ := ih hRest
      exact ⟨_, rest, (List.append_assoc ..).symm, .cons hItem hLabel, hMoves⟩

theorem spells_spelling_iff {labels : List (List UInt8)} {text : List Char} :
    Spells (Move.spelling labels) text ↔ LabelsText labels text := by
  constructor
  · intro h
    induction labels generalizing text with
    | nil =>
      cases h
      exact .nil
    | cons octets labels ih =>
      rw [Move.spelling_cons] at h
      obtain ⟨front, rest, rfl, hLabel, hRest⟩ := label_of_spells h
      cases hRest with
      | close hRest => exact .cons hLabel (ih hRest)
  · intro h
    induction h with
    | nil => exact .nil
    | cons hLabel _ ih =>
      rw [Move.spelling_cons]
      exact spells_label hLabel (.close ih)

end ZoneStore.Name
