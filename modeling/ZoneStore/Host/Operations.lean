import ZoneStore.Host.Calls
import ZoneStore.Host.Driver

/-!
# Everything that is done on a host

Beside looking names up, databases are created, shared and given up on a
host, implementations are registered, instances are bound, and the driver
is set up and shut down, in any order and as long as it goes on. Who has
a handle to which database can be told from the answers to these calls
alone.
-/

namespace ZoneStore

/-- A call that concerns the versions of a database. The handle of a version is with the caller. -/
inductive VersionCall where
  | current
  | new
  | attach (version : Version)
  | close (handle : Option Version) (commit : Bool)

inductive HostCall where
  | node (call : NodeCall)
  | dropNode (node : NodeId)
  | version (database : DatabaseId) (call : VersionCall)
  | auxiliary (database : DatabaseId) (call : AuxiliaryCall)
  /-- The constructor of databases over resolvers is called without the registry. -/
  | createResolving (origin : Name) (kind : DatabaseKind) (recordClass : RecordClass)
      (arguments : List String) (forOrigin : Bool)
  | create (implementation : String) (origin : Name) (kind : DatabaseKind)
      (recordClass : RecordClass) (arguments : List String) (forOrigin : Bool)
  | attach (database : DatabaseId)
  | detach (database : DatabaseId)
  | register (name : String) (constructor : Constructor)
  | unregister (registration : Registration)
  | addInstance (name : String) (resolver : Resolver)
  | destroyAll
  | setUp (read : FileReader) (name : String) (arguments : List String)
  | shutDown

/-- What a caller learns about databases and resolvers from a call and its answer. -/
inductive Change where
  | none
  | created (database : DatabaseId)
  | attached (database : DatabaseId)
  | detached (database : DatabaseId)
  | revised (resolver : ResolverId)
deriving DecidableEq

namespace Change

def ofCreation : Outcome DatabaseId → Change
  | .ok database => created database
  | .error _ => none

/-- The handles to a database after a change; without a handle nothing can be shared. -/
def handles (database : DatabaseId) (held : Nat) : Change → Nat
  | created other => if other = database then held + 1 else held
  | attached other => if other = database ∧ held ≠ 0 then held + 1 else held
  | detached other => if other = database then held - 1 else held
  | none => held
  | revised _ => held

end Change

/-- The resolver that a database asks. -/
def Database.resolver? : Database → Option ResolverId
  | resolving _ resolver => some resolver
  | stub _ => none

namespace Host

/-- The host after a call. Versions and auxiliary calls leave no trace on it. -/
def apply (host : Host) : HostCall → Host
  | .node call => host.perform call
  | .dropNode node => (host.dropNode node).1
  | .version _ _ => host
  | .auxiliary _ _ => host
  | .createResolving origin kind recordClass arguments forOrigin =>
    (host.createResolving origin kind recordClass arguments forOrigin).host
  | .create implementation origin kind recordClass arguments forOrigin =>
    (host.create implementation origin kind recordClass arguments forOrigin).host
  | .attach database => host.attach database
  | .detach database => (host.detach database).host
  | .register name constructor => (host.register name constructor).host
  | .unregister registration => (host.unregister registration).host
  | .addInstance name resolver => (host.addInstance name resolver).host
  | .destroyAll => host.destroyAll.host
  | .setUp read name arguments => (host.setUp read name arguments).host
  | .shutDown => host.shutDown.host

def applyAll (host : Host) (calls : List HostCall) : Host :=
  calls.foldl apply host

def change (host : Host) : HostCall → Change
  | .node (.revise resolver _) => .revised resolver
  | .createResolving origin kind recordClass arguments forOrigin =>
    .ofCreation (host.createResolving origin kind recordClass arguments forOrigin).result
  | .create implementation origin kind recordClass arguments forOrigin =>
    .ofCreation (host.create implementation origin kind recordClass arguments forOrigin).result
  | .attach database => .attached database
  | .detach database => .detached database
  | _ => .none

/-! ## What a run has brought about -/

/-- The handles to a database that are outstanding after some calls, counted call by call. -/
def handles (host : Host) (database : DatabaseId) (held : Nat) : List HostCall → Nat
  | [] => held
  | call :: calls =>
    (host.apply call).handles database ((host.change call).handles database held) calls

/-- What is noted of the calls of a run, in order. -/
def notes {α : Type} (note : Host → HostCall → Option α) (host : Host) : List HostCall → List α
  | [] => []
  | call :: calls => (note host call).toList ++ (host.apply call).notes note calls

def created? (host : Host) (call : HostCall) : Option DatabaseId :=
  match host.change call with
  | .created database => some database
  | _ => none

def destroyed? (host : Host) : HostCall → Option DatabaseId
  | .detach database => if (host.detach database).result then some database else none
  | _ => none

/-- A database that is created, with the resolver that it asks if it is over one. -/
def opened? (host : Host) (call : HostCall) : Option (DatabaseId × ResolverId) :=
  (host.created? call).bind fun database =>
    (((host.apply call).database? database).bind Database.resolver?).map fun resolver =>
      (database, resolver)

def isBound (host : Host) (resolver : ResolverId) : Bool :=
  host.instances.any fun (_, bound) => bound == resolver

end Host

end ZoneStore
