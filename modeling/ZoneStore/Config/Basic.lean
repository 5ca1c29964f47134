import ZoneStore.Name.Basic
import ZoneStore.Record.Class
import ZoneStore.Settings

/-!
# Configurations

A configuration lists the instances that the driver is set up with and the
zones that they serve. A name belongs to the zone that encloses it most
closely; of several zones with one origin, to the last.
-/

namespace ZoneStore

structure InstanceEntry where
  name : String
  arguments : List String
deriving DecidableEq, Repr

structure Zone where
  origin : Name
  recordClass : RecordClass
  instanceName : String
deriving DecidableEq

namespace Zone

/-- Whether `zone` is taken instead of `later`, a zone after it that encloses the same name. -/
def isCloser (zone later : Zone) : Bool :=
  later.origin.labelCount < zone.origin.labelCount

end Zone

/-- The zone that most closely encloses a name, with its position. -/
def closestZone? (name : Name) : List Zone → Option (Nat × Zone)
  | [] => none
  | zone :: zones =>
    let later := (closestZone? name zones).map fun (index, found) => (index + 1, found)
    if !name.isWithin zone.origin then later
    else
      match later with
      | none => some (0, zone)
      | some (index, found) => if zone.isCloser found then some (0, zone) else some (index, found)

structure Config where
  instances : List InstanceEntry
  zones : List Zone
deriving DecidableEq

namespace Config

def zoneIndex? (config : Config) (name : Name) : Option Nat :=
  (closestZone? name config.zones).map Prod.fst

def zoneFor? (config : Config) (name : Name) : Option Zone :=
  (closestZone? name config.zones).map Prod.snd

/-- The records files that instances with valid arguments are set up with. -/
def recordsPaths (config : Config) : List String :=
  config.instances.filterMap fun entry =>
    match Settings.ofArguments entry.arguments with
    | .ok settings => some settings.records
    | .error _ => none

end Config

end ZoneStore
