import ZoneStore.Rrset.Basic

/-!
# Lists that share RRsets

A pool keeps RRsets in numbered cells, and numbered lists of references to
cells. A clone refers to the cells of its source. A list that adds to an
RRset must be the only holder of the cell: it changes its own cell in
place, and first moves to a fresh copy of a cell that others hold too.
-/

namespace ZoneStore

/-- A list's reference to the cell that holds its RRset of a type. -/
structure CellRef where
  type : RecordType
  cell : Nat
deriving DecidableEq, Repr

def CellRef.key (ref : CellRef) : Nat :=
  ref.type.code.toNat

structure RrsetPool where
  cells : List Rrset
  lists : List (List CellRef)
deriving DecidableEq

namespace RrsetPool

def empty : RrsetPool :=
  ⟨[], []⟩

def newList (pool : RrsetPool) : RrsetPool × Nat :=
  ({ pool with lists := pool.lists ++ [[]] }, pool.lists.length)

/-- The RRsets that list `number` shows. -/
def contents? (pool : RrsetPool) (number : Nat) : Option (List Rrset) :=
  pool.lists[number]?.map fun refs => refs.filterMap fun ref => pool.cells[ref.cell]?

def ref? (pool : RrsetPool) (number : Nat) (type : RecordType) : Option CellRef :=
  pool.lists[number]?.bind fun refs => (bisect CellRef.key type.code.toNat refs).found

def find? (pool : RrsetPool) (number : Nat) (type : RecordType) : Option Rrset :=
  (pool.ref? number type).bind fun ref => pool.cells[ref.cell]?

def holders (pool : RrsetPool) (cell : Nat) : Nat :=
  pool.lists.flatten.countP fun ref => ref.cell == cell

/-- Makes list `number` refer to `cell` for its RRset of a type. -/
def setRef (pool : RrsetPool) (number : Nat) (type : RecordType) (cell : Nat) : RrsetPool :=
  { pool with
    lists := pool.lists.modify number fun refs =>
      let split := bisect CellRef.key type.code.toNat refs
      split.below ++ ⟨type, cell⟩ :: split.above }

def newCell (pool : RrsetPool) (rrset : Rrset) : RrsetPool × Nat :=
  ({ pool with cells := pool.cells ++ [rrset] }, pool.cells.length)

/-- Lets list `number` be the only holder of its RRset of a type, and gives the cell. -/
def own (pool : RrsetPool) (number : Nat) (ref : CellRef) (rrset : Rrset) : RrsetPool × Nat :=
  if pool.holders ref.cell ≤ 1 then
    (pool, ref.cell)
  else
    let (copied, cell) := pool.newCell rrset
    (copied.setRef number ref.type cell, cell)

/-- Adds a record to list `number`; the RRset of its type is unshared even if nothing is added. -/
def add (pool : RrsetPool) (number : Nat) (type : RecordType) (ttl : Ttl) (rdata : Rdata) :
    RrsetPool × Except AddError Unit :=
  match pool.ref? number type, pool.find? number type with
  | some ref, some rrset =>
    let (owned, cell) := pool.own number ref rrset
    match rrset.add ttl rdata with
    | .error e => (owned, .error e)
    | .ok added => ({ owned with cells := owned.cells.set cell added }, .ok ())
  | _, _ =>
    let (grown, cell) := pool.newCell (.single type ttl rdata)
    (grown.setRef number type cell, .ok ())

/-- Clones list `number`, if there is one; the clone gets the next number. -/
def clone? (pool : RrsetPool) (number : Nat) : Option (RrsetPool × Nat) :=
  pool.lists[number]?.map fun refs =>
    ({ pool with lists := pool.lists ++ [refs] }, pool.lists.length)

/--
Hands out the RRset of a type of list `number`. Who takes it holds its cell, like a list of one
RRset, and gets the next number.
-/
def take? (pool : RrsetPool) (number : Nat) (type : RecordType) : Option (RrsetPool × Nat) :=
  (pool.ref? number type).map fun ref =>
    ({ pool with lists := pool.lists ++ [[ref]] }, pool.lists.length)

/-- Gives up all that some lists hold. Their numbers stand for empty lists from here on. -/
def giveUp (pool : RrsetPool) (numbers : List Nat) : RrsetPool :=
  { pool with
    lists := pool.lists.mapIdx fun number refs => if number ∈ numbers then [] else refs }

/-- Whether two lists hold the same cell for a type, if both have an RRset of it. -/
def shared? (pool : RrsetPool) (one other : Nat) (type : RecordType) : Option Bool :=
  match pool.ref? one type, pool.ref? other type with
  | some a, some b => some (a.cell == b.cell)
  | _, _ => none

end RrsetPool

end ZoneStore
