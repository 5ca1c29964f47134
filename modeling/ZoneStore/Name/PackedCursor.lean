import ZoneStore.Name.Packed

/-!
# Walking the labels of stored names

A cursor of a stored name is two positions among its offsets. A label is
taken from either end of those between them, until they meet. Cursors are
told apart by numbers, and a copy of one has the next number. A label
outside the octets of the name, or a size below zero, has no result.
-/

namespace ZoneStore

open Text

/-- The end of the labels to come from which one is taken. -/
inductive LabelEnd where
  | front
  | back
deriving DecidableEq, Repr

structure PackedCursor where
  name : PackedName
  front : Nat
  back : Nat
deriving DecidableEq, Repr

def PackedName.cursor (name : PackedName) : PackedCursor :=
  ⟨name, 0, name.labelCount⟩

namespace PackedCursor

def next? (cursor : PackedCursor) : Option (Option (List UInt8) × PackedCursor) :=
  if cursor.front < cursor.back then
    match cursor.name.label? cursor.front with
    | none => none
    | some label => some (some label, { cursor with front := cursor.front + 1 })
  else
    some (none, cursor)

def nextBack? (cursor : PackedCursor) : Option (Option (List UInt8) × PackedCursor) :=
  if cursor.front < cursor.back then
    match cursor.name.label? (cursor.back - 1) with
    | none => none
    | some label => some (some label, { cursor with back := cursor.back - 1 })
  else
    some (none, cursor)

def take? (cursor : PackedCursor) : LabelEnd → Option (Option (List UInt8) × PackedCursor)
  | .front => cursor.next?
  | .back => cursor.nextBack?

/-- Bounds for the number of labels to come, of which the upper one may be left out. -/
def sizeHint? (cursor : PackedCursor) : Option (Nat × Option Nat) :=
  if cursor.front ≤ cursor.back then
    some (cursor.back - cursor.front, some (cursor.back - cursor.front))
  else
    none

/-- The number of labels to come, on which both bounds have to agree. -/
def size? (cursor : PackedCursor) : Option Nat :=
  match cursor.sizeHint? with
  | none => none
  | some (low, high) => if high = some low then some low else none

theorem lt_of_take?_eq_some {cursor shorter : PackedCursor} {side : LabelEnd} {label : List UInt8}
    (h : cursor.take? side = some (some label, shorter)) :
    shorter.back - shorter.front < cursor.back - cursor.front := by
  cases side with
  | front =>
    rw [take?, next?] at h
    split at h
    · split at h
      · cases h
      · cases h
        dsimp only
        omega
    · cases h
  | back =>
    rw [take?, nextBack?] at h
    split at h
    · split at h
      · cases h
      · cases h
        dsimp only
        omega
    · cases h

/-- The labels that come when one after the other is taken from the same end. -/
def rest? (cursor : PackedCursor) (side : LabelEnd) : Option (List (List UInt8)) :=
  match _h : cursor.take? side with
  | none => none
  | some (none, _) => some []
  | some (some label, shorter) => (shorter.rest? side).map (label :: ·)
termination_by cursor.back - cursor.front
decreasing_by exact lt_of_take?_eq_some _h

/-- Whether the labels to come agree from the back on, as far as both cursors have some. -/
def agrees? (cursor other : PackedCursor) : Option Bool :=
  match _h : cursor.take? .back with
  | none => none
  | some (none, _) => some true
  | some (some label, shorter) =>
    match other.take? .back with
    | none => none
    | some (none, _) => some true
    | some (some facing, shorterOther) =>
      if sameOctets label facing then shorter.agrees? shorterOther else some false
termination_by cursor.back - cursor.front
decreasing_by exact lt_of_take?_eq_some _h

end PackedCursor

/-- Whether the name equals `zone` or is a subdomain of it, by a walk over both from the back. -/
def PackedName.endsWith? (name zone : PackedName) : Option Bool :=
  if zone.labelCount ≤ name.labelCount then name.cursor.agrees? zone.cursor else some false

/-! ## Several cursors -/

inductive CursorCall where
  | take (number : Nat) (side : LabelEnd)
  | sizeHint (number : Nat)
  | size (number : Nat)
  | copy (number : Nat)
deriving DecidableEq, Repr

inductive CursorAnswer where
  | label (octets : Option (List UInt8))
  | sizeHint (low : Nat) (high : Option Nat)
  | size (count : Nat)
  | copied
  /-- No cursor has the number. -/
  | unknown
deriving DecidableEq, Repr

namespace CursorCall

def number : CursorCall → Nat
  | take number _ | sizeHint number | size number | copy number => number

def perform (cursors : List PackedCursor) (call : CursorCall) :
    Option (CursorAnswer × List PackedCursor) :=
  match cursors[call.number]? with
  | none => some (.unknown, cursors)
  | some cursor =>
    match call with
    | take number side =>
      (cursor.take? side).map fun (label, shorter) => (.label label, cursors.set number shorter)
    | sizeHint _ => cursor.sizeHint?.map fun (low, high) => (.sizeHint low high, cursors)
    | size _ => cursor.size?.map fun count => (.size count, cursors)
    | copy _ => some (.copied, cursors ++ [cursor])

def performAll (cursors : List PackedCursor) :
    List CursorCall → Option (List CursorAnswer × List PackedCursor)
  | [] => some ([], cursors)
  | call :: calls =>
    match call.perform cursors with
    | none => none
    | some (answer, cursors) =>
      (performAll cursors calls).map fun (answers, cursors) => (answer :: answers, cursors)

end CursorCall

end ZoneStore
