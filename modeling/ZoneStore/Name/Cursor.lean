import ZoneStore.Name.Basic

/-!
# Walking the labels of a name from both ends

A cursor is the window of labels still to come. Each end takes one label
out of the window, and an empty window stays empty.
-/

namespace ZoneStore

structure LabelCursor where
  name : Name
  front : Nat
  back : Nat
  front_le_back : front ≤ back
  back_le : back ≤ name.labelCount

namespace LabelCursor

def ofName (name : Name) : LabelCursor :=
  ⟨name, 0, name.labelCount, Nat.zero_le _, Nat.le_refl _⟩

def size (cursor : LabelCursor) : Nat :=
  cursor.back - cursor.front

def remaining (cursor : LabelCursor) : List (List UInt8) :=
  (cursor.name.labelOctets.drop cursor.front).take cursor.size

def next (cursor : LabelCursor) : Option (List UInt8) × LabelCursor :=
  if h : cursor.front < cursor.back then
    (cursor.name.label? cursor.front,
      { cursor with front := cursor.front + 1, front_le_back := h })
  else
    (none, cursor)

def nextBack (cursor : LabelCursor) : Option (List UInt8) × LabelCursor :=
  if h : cursor.front < cursor.back then
    (cursor.name.label? (cursor.back - 1),
      { cursor with
        back := cursor.back - 1
        front_le_back := by omega
        back_le := Nat.le_trans (Nat.sub_le _ _) cursor.back_le })
  else
    (none, cursor)

end LabelCursor

end ZoneStore
