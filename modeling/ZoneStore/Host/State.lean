import ZoneStore.Database.Lookup
import ZoneStore.Host.Shelf

/-!
# The state of a host

A host keeps the implementations that are registered with it, the instances
that are bound under a name, and the resolvers, databases and nodes that
something still holds. It also keeps what happened between databases and
resolvers, in order.
-/

namespace ZoneStore

abbrev ResolverId := Nat
abbrev DatabaseId := Nat
abbrev NodeId := Nat

/-- What an implementation does when a database is created with it. -/
inductive Constructor where
  /-- Creates a database that asks the instance named by its first argument. -/
  | resolving
  | refusing
  /-- Creates a cache database without content. -/
  | stub
deriving DecidableEq, Repr

inductive Database where
  | resolving (origin : Name) (resolver : ResolverId)
  | stub (origin : Name)
deriving DecidableEq

namespace Database

def origin : Database → Name
  | resolving origin _ => origin
  | stub origin => origin

def recordClass : Database → RecordClass
  | resolving _ _ => .internet
  | stub _ => .chaos

def kind : Database → DatabaseKind
  | resolving _ _ => .zone
  | stub _ => .cache

end Database

structure Registration where
  name : String
deriving DecidableEq, Repr

structure Host where
  implementations : List (String × Constructor)
  /-- The registration that the driver made, if it still holds it. -/
  driverRegistration : Option Registration
  instances : List (String × ResolverId)
  resolvers : Shelf Resolver
  databases : Shelf Database
  nodes : Shelf Node
  events : List (ResolverId × ListEvent)
  /-- The next number for a resolver, database or node. -/
  fresh : Nat

structure Step (α : Type) where
  host : Host
  result : α
  log : Log

namespace Host

def start : Host :=
  ⟨[], none, [], [], [], [], [], 0⟩

/-- What happened between a resolver and the databases over it, in order. -/
def eventsOf (host : Host) (resolver : ResolverId) : List ListEvent :=
  host.events.filterMap fun (id, event) => if id = resolver then some event else none

/-- The number of lists that were given back to a resolver. -/
def returnedTo (host : Host) (resolver : ResolverId) : Nat :=
  ((host.eventsOf resolver).filterMap ListEvent.returned?).length

def isAlive (host : Host) (resolver : ResolverId) : Bool :=
  host.resolvers.holds resolver

def record (host : Host) (resolver : ResolverId) (events : List ListEvent) : Host :=
  { host with events := host.events ++ events.map fun event => (resolver, event) }

end Host

end ZoneStore
