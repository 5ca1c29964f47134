import ZoneStore.Database.Auxiliary
import ZoneStore.Host.Instances
import ZoneStore.Host.Registry

/-!
# Open databases

A database over a resolver is an owner of it from its creation until the
last handle to the database is given up. Creation checks its preconditions
first: an instance name must be given, and the database must be a zone of
class IN.
-/

namespace ZoneStore.Host

def openDatabase (host : Host) (database : Database) : Host × DatabaseId :=
  ({ host with databases := host.databases.put host.fresh database, fresh := host.fresh + 1 },
    host.fresh)

/--
Creates a database that asks the instance named by the first argument. The database owns a copy
of its origin, for which memory can be short.
-/
def createResolving (host : Host) (origin : Name) (kind : DatabaseKind) (recordClass : RecordClass)
    (arguments : List String) (forOrigin : Bool := true) : Step (Outcome DatabaseId) :=
  match arguments with
  | [] => ⟨host, .error (.violation .noInstanceName), []⟩
  | name :: _ =>
    if kind ≠ .zone then ⟨host, .error (.violation .notZone), []⟩
    else if recordClass ≠ .internet then ⟨host, .error (.violation .notInternet), []⟩
    else
      match forOrigin, host.instance? name with
      | false, _ => ⟨host, .error (.error .noMemory), []⟩
      | true, .error cause => ⟨host, .error (.error cause), []⟩
      | true, .ok resolver =>
        let shared := { host with resolvers := host.resolvers.share resolver }
        let (opened, id) := shared.openDatabase (.resolving origin resolver)
        ⟨opened, .ok id,
          [debugLine ("Created database for " ++ origin.toText ++ " using instance " ++ name ++
            ".")]⟩

def construct (host : Host) (constructor : Constructor) (origin : Name) (kind : DatabaseKind)
    (recordClass : RecordClass) (arguments : List String) (forOrigin : Bool := true) :
    Step (Outcome DatabaseId) :=
  match constructor with
  | .resolving => host.createResolving origin kind recordClass arguments forOrigin
  | .refusing => ⟨host, .error (.error .notImplemented), []⟩
  | .stub =>
    let (opened, id) := host.openDatabase (.stub origin)
    ⟨opened, .ok id, []⟩

def create (host : Host) (implementation : String) (origin : Name) (kind : DatabaseKind)
    (recordClass : RecordClass) (arguments : List String) (forOrigin : Bool := true) :
    Step (Outcome DatabaseId) :=
  match host.implementation? implementation with
  | none => ⟨host, .error (.error .notFound), []⟩
  | some constructor => host.construct constructor origin kind recordClass arguments forOrigin

def database? (host : Host) (id : DatabaseId) : Option Database :=
  host.databases.find? id

def attach (host : Host) (id : DatabaseId) : Host :=
  { host with databases := host.databases.share id }

/-- Gives up a handle to a database, and tells whether that destroyed it. -/
def detach (host : Host) (id : DatabaseId) : Step Bool :=
  let (databases, destroyed) := host.databases.release id
  let host := { host with databases := databases }
  match destroyed with
  | none => ⟨host, false, []⟩
  | some (.stub _) => ⟨host, true, []⟩
  | some (.resolving origin resolver) =>
    ⟨host.releaseResolver resolver, true,
      [debugLine ("Destroying database for " ++ origin.toText ++ ".")]⟩

end ZoneStore.Host

namespace ZoneStore.Database

def currentVersion : Database → Version
  | resolving _ _ => .sentinel
  | stub _ => ⟨1⟩

def newVersion : Database → Except DatabaseError Version
  | resolving _ _ => .ok .sentinel
  | stub _ => .error .notImplemented

def attachVersion (version : Version) : Database → Outcome Version
  | resolving _ _ =>
    if version = .sentinel then .ok version else .error (.violation .foreignVersion)
  | stub _ => .ok version

/-- Closes the version in a handle, and gives the handle afterwards. -/
def closeVersion (handle : Option Version) (_commit : Bool) : Database → Outcome (Option Version)
  | resolving _ _ =>
    if handle = some .sentinel then .ok none else .error (.violation .foreignVersion)
  | stub _ => .ok none

def auxiliary (call : AuxiliaryCall) : Database → AuxiliaryAnswer × Log
  | resolving origin _ =>
    match call.forbidden? with
    | some operation =>
      (.refused (.unreachable operation),
        [errorLine (operation.message ++ " was called on the read-only database for " ++
          origin.toText ++ ".")])
    | none => (call.answer, [])
  | stub _ => (call.answer, [])

end ZoneStore.Database
