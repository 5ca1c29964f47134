import ZoneStore.Host.Databases
import ZoneStore.Resolver.RecordsFile
import ZoneStore.Settings

/-!
# The driver

The host sets the driver up once for each instance. The first set-up
registers the driver's implementation, which counts as success when it is
registered already, and each loads the records of its instance and binds
them under the instance's name. Shutting down undoes the driver's own
registration and removes every instance.
-/

namespace ZoneStore

inductive DriverError where
  | database (cause : DatabaseError)
  | settings (cause : SettingsError)
  | load (cause : LoadError)
deriving DecidableEq, Repr

namespace DriverError

def message : DriverError → String
  | database cause => "failed to set up the instance: " ++ cause.message
  | settings _ => "invalid instance arguments"
  | load _ => "failed to load the instance's records"

def causes : DriverError → List Cause
  | database _ => []
  | settings cause => [.text cause.message]
  | load cause => .text cause.message :: cause.causes

end DriverError

namespace Host

open Text

/-- The name under which the driver registers its implementation. -/
def driverName : String :=
  "dynamic-ldap"

/-- Registers the driver's implementation unless its name is taken. -/
def registerDriver (host : Host) : Host × Log :=
  let step := host.register driverName .resolving
  match step.result with
  | .ok registration => ({ step.host with driverRegistration := some registration }, step.log)
  | .error _ => (step.host, step.log)

def loadInstance (read : FileReader) (arguments : List String) :
    Except DriverError RecordTable × Log :=
  match Settings.ofArguments arguments with
  | .error e => (.error (.settings e), [])
  | .ok settings =>
    let (table, log) := RecordTable.load read settings.records settings.defaultTtl
    (table.mapError .load, log)

def setUp (host : Host) (read : FileReader) (name : String) (arguments : List String) :
    Step (Except DriverError Unit) :=
  let announced := debugLine ("Registering dynamic ldap driver for " ++ name ++ ".") ::
    arguments.map fun argument => debugLine ("Arg: " ++ argument)
  let (registered, registerLog) := host.registerDriver
  let (loaded, loadLog) := loadInstance read arguments
  match loaded with
  | .error e => ⟨registered, .error e, announced ++ registerLog ++ loadLog⟩
  | .ok table =>
    let bound := registered.addInstance name table.toResolver
    let log := announced ++ registerLog ++ loadLog ++ bound.log
    match bound.result.2 with
    | .error e => ⟨bound.host, .error (.database e), log⟩
    | .ok () =>
      ⟨bound.host, .ok (), log ++
        [infoLine ("Driver instance " ++ name ++ " is serving " ++ decimalText table.size ++
          " names.")]⟩

/-- Shuts the driver down; doing so again changes nothing. -/
def shutDown (host : Host) : Step Unit :=
  match host.driverRegistration with
  | none => host.destroyAll
  | some registration =>
    let unregistered := { host with driverRegistration := none }.unregister registration
    let destroyed := unregistered.host.destroyAll
    ⟨destroyed.host, (), unregistered.log ++ destroyed.log⟩

end Host

end ZoneStore
