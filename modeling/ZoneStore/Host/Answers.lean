import ZoneStore.Host.Operations

/-!
# Answers to calls

Every call on a host is answered. The answers to calls on databases and to
their creation can report a violation; no other answer has room for one. A
caller that passes the handle of a version finds in it what was left there,
also when the call is a violation.
-/

namespace ZoneStore

/-- The violation that an outcome reports. -/
def Outcome.violation? {α : Type} : Outcome α → Option Violation
  | .error (.violation violation) => some violation
  | _ => none

inductive HostAnswer where
  | found (outcome : Outcome (FindResult × NodeId))
  | node (outcome : Outcome (Node × NodeId))
  | rdataset (outcome : Outcome Rdataset)
  | version (outcome : Outcome (Option Version))
  | auxiliary (answer : AuxiliaryAnswer)
  | created (outcome : Outcome DatabaseId)
  | detached (destroyed : Bool)
  | registered (outcome : Except DatabaseError Registration)
  | bound (outcome : Except DatabaseError Unit)
  | setUp (outcome : Except DriverError Unit)
  | done
  /-- There is no such database to be called. -/
  | absent

def HostAnswer.violation? : HostAnswer → Option Violation
  | found outcome => outcome.violation?
  | node outcome => outcome.violation?
  | rdataset outcome => outcome.violation?
  | version outcome => outcome.violation?
  | created outcome => outcome.violation?
  | _ => none

namespace Database

/-- Closes the version in a handle, where a violation leaves what there is. -/
def closeInPlace (_commit : Bool) : Database → ExceptT Failure (StateM (Option Version)) Unit
  | resolving _ _ => do
    if (← get) = some .sentinel then
      set (none : Option Version)
    else
      throw (.violation .foreignVersion)
  | stub _ => set (none : Option Version)

def answerVersion (database : Database) : VersionCall → Outcome (Option Version)
  | .current => .ok (some database.currentVersion)
  | .new => (database.newVersion.map some).mapError .error
  | .attach version => (database.attachVersion version).map some
  | .close handle commit => database.closeVersion handle commit

end Database

namespace Host

def answer (host : Host) : HostCall → HostAnswer
  | .node (.find database name version type options now memory) =>
    .found (host.find database name version type options now memory).result
  | .node (.findNode database name create memory) =>
    .node (host.findNode database name create memory).result
  | .node (.findRdataset database node version type covers now) =>
    .rdataset (host.findRdataset database node version type covers now)
  | .version database call =>
    match host.database? database with
    | some value => .version (value.answerVersion call)
    | none => .absent
  | .auxiliary database call =>
    match host.database? database with
    | some value => .auxiliary (value.auxiliary call).1
    | none => .absent
  | .createResolving origin kind recordClass arguments forOrigin =>
    .created (host.createResolving origin kind recordClass arguments forOrigin).result
  | .create implementation origin kind recordClass arguments forOrigin =>
    .created (host.create implementation origin kind recordClass arguments forOrigin).result
  | .detach database => .detached (host.detach database).result
  | .register name constructor => .registered (host.register name constructor).result
  | .addInstance name resolver => .bound (host.addInstance name resolver).result.2
  | .setUp read name arguments => .setUp (host.setUp read name arguments).result
  | _ => .done

/-- The answers to calls that are made one after the other. -/
def answers (host : Host) : List HostCall → List HostAnswer
  | [] => []
  | call :: calls => host.answer call :: (host.apply call).answers calls

end Host

end ZoneStore
