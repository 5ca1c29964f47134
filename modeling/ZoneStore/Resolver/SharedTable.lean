import ZoneStore.Resolver.RecordTable
import ZoneStore.Rrset.Pool

/-!
# Tables of records that share RRsets

A record table keeps the list of each owner in a pool, where it shares its
RRsets with the lists that were handed out for the name. Adding a record
adds to the owner's list in place, and resolving a name hands out a clone.
-/

namespace ZoneStore

structure SharedTable where
  /-- Each owner with the number of its list in the pool. -/
  owners : List (Name × Nat)
  ancestors : List Name
deriving DecidableEq

namespace SharedTable

def empty : SharedTable :=
  ⟨[], []⟩

/-- The numbers of the lists of all owners. -/
def numbers (table : SharedTable) : List Nat :=
  table.owners.map Prod.snd

def find? (table : SharedTable) (name : Name) : Option Nat :=
  (table.owners.find? fun (owner, _) => owner.same name).map Prod.snd

def isAncestor (table : SharedTable) (name : Name) : Bool :=
  table.ancestors.any fun ancestor => ancestor.same name

/-- The list that the records of a name are added to; an owner that is new gets a new list. -/
def enter (table : SharedTable) (pool : RrsetPool) (owner : Name) :
    SharedTable × RrsetPool × Nat :=
  match table.find? owner with
  | some number => (table, pool, number)
  | none =>
    let (pool, number) := pool.newList
    ({ owners := table.owners ++ [(owner, number)]
       ancestors := owner.properSuperdomains ++ table.ancestors }, pool, number)

def add (table : SharedTable) (pool : RrsetPool) (record : Record) :
    SharedTable × RrsetPool × Except AddError Unit :=
  let (table, pool, number) := table.enter pool record.owner
  (table, pool.add number record.type record.ttl record.rdata)

/-- The number of a list for a name, and whether the name is only matched in part. -/
def resolve (table : SharedTable) (pool : RrsetPool) (name : Name) :
    RrsetPool × Except DatabaseError (Bool × Nat) :=
  match (table.find? name).bind pool.clone? with
  | some (pool, number) => (pool, .ok (false, number))
  | none =>
    if table.isAncestor name then
      let (pool, number) := pool.newList
      (pool, .ok (true, number))
    else
      (pool, .error .notFound)

end SharedTable

end ZoneStore
