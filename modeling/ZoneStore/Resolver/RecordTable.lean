import ZoneStore.Resolver.Basic

/-!
# Tables of records

A record table keeps the RRsets of every owner and, apart from them, the
names that some owner lies below. A name of the second kind that owns
nothing itself is an empty non-terminal and resolves to a partial match
without RRsets.
-/

namespace ZoneStore

structure Record where
  owner : Name
  type : RecordType
  ttl : Ttl
  rdata : Rdata
deriving DecidableEq

structure RecordTable where
  /-- Each owner, in the case of its first record, with its RRsets. -/
  owners : List (Name × RrsetList)
  /-- The proper superdomains of the owners. -/
  ancestors : List Name

namespace RecordTable

def empty : RecordTable :=
  ⟨[], []⟩

def size (table : RecordTable) : Nat :=
  table.owners.length

def isEmpty (table : RecordTable) : Bool :=
  table.owners.isEmpty

def find? (table : RecordTable) (name : Name) : Option RrsetList :=
  (table.owners.find? fun (owner, _) => owner.same name).map Prod.snd

def isAncestor (table : RecordTable) (name : Name) : Bool :=
  table.ancestors.any fun ancestor => ancestor.same name

/-- Replaces the RRsets of every entry that a name owns. -/
def replace (table : RecordTable) (name : Name) (rrsets : RrsetList) : RecordTable :=
  { table with
    owners := table.owners.map fun (owner, old) =>
      if owner.same name then (owner, rrsets) else (owner, old) }

/-- Adds a record; one that conflicts with an earlier record is refused. -/
def add (table : RecordTable) (owner : Name) (type : RecordType) (ttl : Ttl) (rdata : Rdata) :
    Except AddError RecordTable :=
  match table.find? owner with
  | some rrsets =>
    match rrsets.add type ttl rdata with
    | .error e => .error e
    | .ok added => .ok (table.replace owner added)
  | none =>
    match RrsetList.empty.add type ttl rdata with
    | .error e => .error e
    | .ok added =>
      .ok {
        owners := table.owners ++ [(owner, added)]
        ancestors := owner.properSuperdomains ++ table.ancestors }

/-- Notes a name as an owner. A name that is new has no RRsets yet. -/
def enter (table : RecordTable) (owner : Name) : RecordTable :=
  match table.find? owner with
  | some _ => table
  | none =>
    { owners := table.owners ++ [(owner, .empty)]
      ancestors := owner.properSuperdomains ++ table.ancestors }

/-- Adds a record to a table that stays in use if the record is refused. -/
def addInPlace (table : RecordTable) (record : Record) : RecordTable × Except AddError Unit :=
  let entered := table.enter record.owner
  match ((entered.find? record.owner).getD .empty).add record.type record.ttl record.rdata with
  | .error e => (entered, .error e)
  | .ok added => (entered.replace record.owner added, .ok ())

/-- Adds records one after the other, whether or not some are refused. -/
def addAll (table : RecordTable) (records : List Record) : RecordTable :=
  records.foldl (fun table record => (table.addInPlace record).1) table

def resolve (table : RecordTable) (name : Name) : Except DatabaseError Resolution :=
  match table.find? name with
  | some rrsets => .ok (.exactMatch rrsets)
  | none =>
    if table.isAncestor name then .ok (.partialMatch .empty) else .error .notFound

def toResolver (table : RecordTable) : Resolver :=
  { resolve := table.resolve }

end RecordTable

end ZoneStore
