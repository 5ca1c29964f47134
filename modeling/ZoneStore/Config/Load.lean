import ZoneStore.Cause
import ZoneStore.Config.Basic
import ZoneStore.Files.Path
import ZoneStore.Log
import ZoneStore.Name.Presentation

/-!
# Configuration files

A configuration file lists instances and zones. Every zone must be of class
IN. An argument that starts with `records` and a space names a records file
relative to the directory of the configuration file, and is changed to
name it from where the program runs.
-/

namespace ZoneStore

open Text

inductive ConfigError where
  /-- The path names no file in a directory. -/
  | noParent
  | unreadable (cause : ReadError)
  | malformed (cause : Toml.Error)
  | notInternet (zone : Zone)
deriving DecidableEq

namespace Zone

def toText (zone : Zone) : String :=
  zone.origin.toText ++ "/" ++ zone.recordClass.toText

end Zone

namespace ConfigError

def message : ConfigError → String
  | noParent => "the configuration file path has no parent"
  | unreadable _ => "failed to read the configuration file"
  | malformed _ => "failed to parse the configuration file"
  | notInternet zone =>
    "zone " ++ zone.toText ++ " is not of class IN, the only class the driver serves"

def causes : ConfigError → List Cause
  | unreadable cause => [.unreadable cause]
  | malformed cause => [.syntaxError cause]
  | _ => []

end ConfigError

open Toml (Element ElementDecoder setOnce required)

namespace InstanceEntry

structure Partial where
  name : Option String := none
  arguments : Option (List String) := none

def Partial.put (entry : Partial) : String × Toml.Value → Except Toml.Error Partial
  | ("name", value) => do return { entry with name := ← setOnce entry.name value.toText }
  | ("args", value) => do return { entry with arguments := ← setOnce entry.arguments value.toTexts }
  | _ => .error .malformed

def ofElement (element : Element) : Except Toml.Error InstanceEntry := do
  let entry ← element.visit {} Partial.put
  return ⟨← required entry.name, entry.arguments.getD []⟩

def ofValues : List Toml.Value → Except Toml.Error InstanceEntry
  | [name] => do return ⟨← name.toText, []⟩
  | [name, arguments] => do return ⟨← name.toText, ← arguments.toTexts⟩
  | _ => .error .malformed

def decoder : ElementDecoder InstanceEntry :=
  ⟨ofElement, ofValues⟩

end InstanceEntry

namespace Zone

def originOf (value : Toml.Value) : Except Toml.Error Name := do
  match Name.ofText (← value.toText) with
  | .ok name => return name
  | .error e => .error (.rejected ("invalid domain name: " ++ e.message))

def classOf (value : Toml.Value) : Except Toml.Error RecordClass := do
  match RecordClass.ofText (← value.toText) with
  | .ok recordClass => return recordClass
  | .error e => .error (.rejected ("invalid DNS class: " ++ e.message))

structure Partial where
  origin : Option Name := none
  recordClass : Option RecordClass := none
  instanceName : Option String := none

def Partial.put (zone : Partial) : String × Toml.Value → Except Toml.Error Partial
  | ("origin", value) => do return { zone with origin := ← setOnce zone.origin (originOf value) }
  | ("class", value) => do
    return { zone with recordClass := ← setOnce zone.recordClass (classOf value) }
  | ("instance", value) => do
    return { zone with instanceName := ← setOnce zone.instanceName value.toText }
  | _ => .error .malformed

def ofElement (element : Element) : Except Toml.Error Zone := do
  let zone ← element.visit {} Partial.put
  return ⟨← required zone.origin, zone.recordClass.getD .internet, ← required zone.instanceName⟩

/-- Decodes the fields in order, so that an invalid one is found before a missing or extra one. -/
def ofValues (values : List Toml.Value) : Except Toml.Error Zone := do
  let origin ← originOf (← required values[0]?)
  let recordClass ← classOf (← required values[1]?)
  let instanceName ← (← required values[2]?).toText
  if values.length = 3 then return ⟨origin, recordClass, instanceName⟩ else .error .malformed

def decoder : ElementDecoder Zone :=
  ⟨ofElement, ofValues⟩

end Zone

namespace Config

structure Partial where
  instances : Option (List InstanceEntry) := none
  zones : Option (List Zone) := none

def Partial.put (config : Partial) : String × Toml.Entry → Except Toml.Error Partial
  | ("instances", entry) => do
    return { config with
      instances := ← setOnce config.instances (InstanceEntry.decoder.list entry) }
  | ("zones", entry) => do
    return { config with zones := ← setOnce config.zones (Zone.decoder.list entry) }
  | _ => .error .malformed

def decode (text : String) : Except Toml.Error Config := do
  let config ← Toml.decodeText {} Partial.put text
  return ⟨config.instances.getD [], config.zones.getD []⟩

def ofText (text : String) : Except ConfigError Config :=
  match decode text with
  | .error e => .error (.malformed e)
  | .ok config =>
    match config.zones.find? fun zone => zone.recordClass ≠ .internet with
    | some zone => .error (.notInternet zone)
    | none => .ok config

/-- What an argument that names a records file starts with. -/
def recordsKey : List Char :=
  "records ".toList

/-- An argument of a configuration in `directory`, in which it finds a relative records file. -/
def relocateArgument (directory : List Char) (argument : String) : String :=
  let chars := argument.toList
  if recordsKey.isPrefixOf chars then
    let path := trimStart (chars.drop recordsKey.length)
    if Path.isAbsolute path then argument
    else String.ofList (recordsKey ++ Path.join directory path)
  else
    argument

/-- A configuration with the records files of its instances named from where the program runs. -/
def relocate (config : Config) (directory : List Char) : Config :=
  { config with
    instances := config.instances.map fun entry =>
      { entry with arguments := entry.arguments.map (relocateArgument directory) } }

/-- One line for each item behind a heading, or the word for an empty list. -/
def listing (heading : String) (items : List String) : String :=
  heading ++ if items.isEmpty then "none" else String.join (items.map ("\n  " ++ ·))

def summary (config : Config) : String :=
  "Configuration loaded:\n" ++
    listing "Instances: " (config.instances.map fun entry =>
      entry.name ++ " (" ++ decimalText entry.arguments.length ++ " args)") ++ "\n" ++
    listing "Zones: " (config.zones.map fun zone => zone.toText ++ " -> " ++ zone.instanceName)

def load (read : FileReader) (path : String) : Except ConfigError Config × Log :=
  match Path.parent? path.toList with
  | none => (.error .noParent, [])
  | some directory =>
    match read path with
    | .error e => (.error (.unreadable e), [])
    | .ok text =>
      match ofText text with
      | .error e => (.error e, [])
      | .ok config =>
        let relocated := config.relocate directory
        (.ok relocated, [debugLine relocated.summary])

end Config

end ZoneStore
