/-!
# Shared objects

A shelf keeps numbered objects, each with the number of its owners. An
object is put on the shelf with one owner, and leaves it when its last
owner gives it up.
-/

namespace ZoneStore

structure Owned (α : Type) where
  number : Nat
  value : α
  owners : Nat

abbrev Shelf (α : Type) := List (Owned α)

namespace Shelf

variable {α : Type}

def find? (shelf : Shelf α) (number : Nat) : Option α :=
  (List.find? (fun entry => entry.number == number) shelf).map Owned.value

/-- The number of owners of an object; one that is not on the shelf has none. -/
def ownersOf (shelf : Shelf α) (number : Nat) : Nat :=
  ((List.find? (fun entry => entry.number == number) shelf).map Owned.owners).getD 0

def holds (shelf : Shelf α) (number : Nat) : Bool :=
  (shelf.find? number).isSome

def put (shelf : Shelf α) (number : Nat) (value : α) : Shelf α :=
  shelf ++ [⟨number, value, 1⟩]

def share (shelf : Shelf α) (number : Nat) : Shelf α :=
  List.map (fun entry =>
    if entry.number == number then { entry with owners := entry.owners + 1 } else entry) shelf

/-- Takes an owner away; if it was the last, the object leaves the shelf and is returned. -/
def release (shelf : Shelf α) (number : Nat) : Shelf α × Option α :=
  if shelf.ownersOf number ≤ 1 then
    (List.filter (fun entry => entry.number != number) shelf, shelf.find? number)
  else
    (List.map (fun entry =>
      if entry.number == number then { entry with owners := entry.owners - 1 } else entry) shelf,
      none)

end Shelf

end ZoneStore
