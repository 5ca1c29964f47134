import ZoneStore.Resolver.SharedTable

/-!
# All that holds RRsets

Callers hold lists, whether made by themselves, cloned or handed out by a
record table, and RDATA sets that they took from lists; record tables hold
the lists of their owners. The lists that nodes hold are lists of callers.
Holdings are kept in two ways: with everything in one pool, where clones and
RDATA sets share RRsets, and with a copy of every RRset for each holder.
-/

namespace ZoneStore

/-- What holds RRsets; lists, RDATA sets and tables are each counted from zero. -/
inductive Holder where
  | list (list : Nat)
  | set (set : Nat)
  | owner (table : Nat) (name : Name)
deriving DecidableEq

/-- What can be done to lists, RDATA sets and tables. -/
inductive HoldingCall where
  | newList
  | add (list : Nat) (type : RecordType) (ttl : Ttl) (rdata : Rdata)
  | clone (list : Nat)
  | dropList (list : Nat)
  /-- Takes the RRset of a type out of a list, as an RDATA set. -/
  | take (list : Nat) (type : RecordType)
  | cloneSet (set : Nat)
  | dropSet (set : Nat)
  | newTable
  | addRecord (table : Nat) (record : Record)
  | resolve (table : Nat) (name : Name)
  | dropTable (table : Nat)
deriving DecidableEq

/-- Where a call adds a record, and the type of the record. -/
def HoldingCall.target? : HoldingCall → Option (Holder × RecordType)
  | .add list type _ _ => some (.list list, type)
  | .addRecord table record => some (.owner table record.owner, record.type)
  | _ => none

inductive HoldingReply where
  /-- The list, RDATA set or table that the call made. -/
  | made (number : Nat)
  | added (result : Except AddError Unit)
  /-- The list that was handed out, with whether the match is partial. -/
  | resolved (result : Except DatabaseError (Bool × Nat))
  | nothing

structure SharedHoldings where
  pool : RrsetPool
  /-- The numbers that the lists of callers have in the pool. -/
  lists : List Nat
  sets : List Nat
  tables : List SharedTable

namespace SharedHoldings

def start : SharedHoldings :=
  ⟨.empty, [], [], []⟩

def perform (held : SharedHoldings) : HoldingCall → SharedHoldings × HoldingReply
  | .newList =>
    let (pool, number) := held.pool.newList
    ({ held with pool := pool, lists := held.lists ++ [number] }, .made held.lists.length)
  | .add list type ttl rdata =>
    match held.lists[list]? with
    | none => (held, .nothing)
    | some number =>
      let (pool, result) := held.pool.add number type ttl rdata
      ({ held with pool := pool }, .added result)
  | .clone list =>
    match held.lists[list]?.bind held.pool.clone? with
    | none => (held, .nothing)
    | some (pool, number) =>
      ({ held with pool := pool, lists := held.lists ++ [number] }, .made held.lists.length)
  | .dropList list =>
    ({ held with pool := held.pool.giveUp held.lists[list]?.toList }, .nothing)
  | .take list type =>
    match held.lists[list]?.bind fun number => held.pool.take? number type with
    | none => (held, .nothing)
    | some (pool, number) =>
      ({ held with pool := pool, sets := held.sets ++ [number] }, .made held.sets.length)
  | .cloneSet set =>
    match held.sets[set]?.bind held.pool.clone? with
    | none => (held, .nothing)
    | some (pool, number) =>
      ({ held with pool := pool, sets := held.sets ++ [number] }, .made held.sets.length)
  | .dropSet set =>
    ({ held with pool := held.pool.giveUp held.sets[set]?.toList }, .nothing)
  | .newTable => ({ held with tables := held.tables ++ [.empty] }, .made held.tables.length)
  | .addRecord table record =>
    match held.tables[table]? with
    | none => (held, .nothing)
    | some records =>
      let (records, pool, result) := records.add held.pool record
      ({ held with pool := pool, tables := held.tables.set table records }, .added result)
  | .resolve table name =>
    match held.tables[table]? with
    | none => (held, .nothing)
    | some records =>
      match records.resolve held.pool name with
      | (pool, .error cause) => ({ held with pool := pool }, .resolved (.error cause))
      | (pool, .ok (isPartial, number)) =>
        ({ held with pool := pool, lists := held.lists ++ [number] },
          .resolved (.ok (isPartial, held.lists.length)))
  | .dropTable table =>
    match held.tables[table]? with
    | none => (held, .nothing)
    | some records =>
      ({ held with
        pool := held.pool.giveUp records.numbers
        tables := held.tables.set table .empty }, .nothing)

def run (held : SharedHoldings) : List HoldingCall → SharedHoldings × List HoldingReply
  | [] => (held, [])
  | call :: calls =>
    let (next, reply) := held.perform call
    let (last, replies) := next.run calls
    (last, reply :: replies)

/-- The numbers of all lists and RDATA sets in the pool, whoever holds them. -/
def numbers (held : SharedHoldings) : List Nat :=
  held.lists ++ held.sets ++ held.tables.flatMap SharedTable.numbers

def number? (held : SharedHoldings) : Holder → Option Nat
  | .list list => held.lists[list]?
  | .set set => held.sets[set]?
  | .owner table name => held.tables[table]?.bind fun records => records.find? name

/-- The RRsets that a holder shows. -/
def shown? (held : SharedHoldings) (holder : Holder) : Option (List Rrset) :=
  (held.number? holder).bind held.pool.contents?

def find? (held : SharedHoldings) (holder : Holder) (type : RecordType) : Option Rrset :=
  (held.number? holder).bind fun number => held.pool.find? number type

/-- Whether two holders share their RRset of a type, if both have one. -/
def shared? (held : SharedHoldings) (one other : Holder) (type : RecordType) : Option Bool :=
  match held.number? one, held.number? other with
  | some a, some b => held.pool.shared? a b type
  | _, _ => none

/-- The holder that a call clones, and the holder that the clone is to be. -/
def cloned? (held : SharedHoldings) : HoldingCall → Option (Holder × Holder)
  | .clone list => some (.list list, .list held.lists.length)
  | .cloneSet set => some (.set set, .set held.sets.length)
  | .resolve table name => some (.owner table name, .list held.lists.length)
  | _ => none

end SharedHoldings

structure CopiedHoldings where
  lists : List RrsetList
  /-- The RRset of each RDATA set that was not dropped. -/
  sets : List (Option Rrset)
  tables : List RecordTable

namespace CopiedHoldings

def start : CopiedHoldings :=
  ⟨[], [], []⟩

def perform (held : CopiedHoldings) : HoldingCall → CopiedHoldings × HoldingReply
  | .newList => ({ held with lists := held.lists ++ [.empty] }, .made held.lists.length)
  | .add list type ttl rdata =>
    match held.lists[list]? with
    | none => (held, .nothing)
    | some rrsets =>
      match rrsets.add type ttl rdata with
      | .error e => (held, .added (.error e))
      | .ok added => ({ held with lists := held.lists.set list added }, .added (.ok ()))
  | .clone list =>
    match held.lists[list]? with
    | none => (held, .nothing)
    | some rrsets => ({ held with lists := held.lists ++ [rrsets] }, .made held.lists.length)
  | .dropList list => ({ held with lists := held.lists.set list .empty }, .nothing)
  | .take list type =>
    match held.lists[list]?.bind fun rrsets => rrsets.find? type with
    | none => (held, .nothing)
    | some rrset => ({ held with sets := held.sets ++ [some rrset] }, .made held.sets.length)
  | .cloneSet set =>
    match held.sets[set]? with
    | none => (held, .nothing)
    | some rrset => ({ held with sets := held.sets ++ [rrset] }, .made held.sets.length)
  | .dropSet set => ({ held with sets := held.sets.set set none }, .nothing)
  | .newTable => ({ held with tables := held.tables ++ [.empty] }, .made held.tables.length)
  | .addRecord table record =>
    match held.tables[table]? with
    | none => (held, .nothing)
    | some records =>
      let (grown, result) := records.addInPlace record
      ({ held with tables := held.tables.set table grown }, .added result)
  | .resolve table name =>
    match held.tables[table]? with
    | none => (held, .nothing)
    | some records =>
      match records.resolve name with
      | .error cause => (held, .resolved (.error cause))
      | .ok resolution =>
        ({ held with lists := held.lists ++ [resolution.rrsets] },
          .resolved (.ok (resolution.isPartial, held.lists.length)))
  | .dropTable table => ({ held with tables := held.tables.set table .empty }, .nothing)

def run (held : CopiedHoldings) : List HoldingCall → CopiedHoldings × List HoldingReply
  | [] => (held, [])
  | call :: calls =>
    let (next, reply) := held.perform call
    let (last, replies) := next.run calls
    (last, reply :: replies)

def shown? (held : CopiedHoldings) : Holder → Option (List Rrset)
  | .list list => held.lists[list]?.map RrsetList.rrsets
  | .set set => held.sets[set]?.map Option.toList
  | .owner table name =>
    (held.tables[table]?.bind fun records => records.find? name).map RrsetList.rrsets

end CopiedHoldings

end ZoneStore
