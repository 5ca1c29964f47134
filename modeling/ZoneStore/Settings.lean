import ZoneStore.Record.Ttl
import ZoneStore.Text.Blank

/-!
# Settings of an instance

A driver instance is set up from arguments, each of which is a key, white
space and a value. The key `records` names the records file and must occur;
`ttl` gives the time to live of records without one. Neither may repeat.
-/

namespace ZoneStore

open Text

structure Settings where
  records : String
  defaultTtl : Ttl
deriving DecidableEq

inductive SettingsError where
  | missingValue (argument : String)
  | unknownKey (key : String)
  | duplicateKey (key : String)
  | missingKey (key : String)
  | invalidTtl (cause : TtlError)
deriving DecidableEq, Repr

def SettingsError.message : SettingsError → String
  | missingValue argument => "argument " ++ argument ++ " has no value"
  | unknownKey key => "unknown argument " ++ key
  | duplicateKey key => "argument " ++ key ++ " given more than once"
  | missingKey key => "required argument " ++ key ++ " is missing"
  | invalidTtl cause => "invalid ttl: " ++ cause.message

namespace Settings

/-- The time to live when neither the record nor the settings give one: a day. -/
def standardTtl : Ttl :=
  ⟨86400, by decide⟩

inductive Argument where
  | records (path : String)
  | ttl (value : Ttl)
deriving DecidableEq

def splitBlank (text : List Char) : Option (List Char × List Char) :=
  match text.dropWhile fun c => !isBlank c with
  | [] => none
  | _ :: rest => some (text.takeWhile fun c => !isBlank c, rest)

def readArgument (text : String) : Except SettingsError Argument :=
  let trimmed := trim text.toList
  match splitBlank trimmed with
  | none => .error (.missingValue (String.ofList trimmed))
  | some (key, rest) =>
    let value := trimStart rest
    if key = "records".toList then .ok (.records (String.ofList value))
    else if key = "ttl".toList then
      match Ttl.ofChars value with
      | .ok ttl => .ok (.ttl ttl)
      | .error e => .error (.invalidTtl e)
    else .error (.unknownKey (String.ofList key))

structure Partial where
  records : Option String
  ttl : Option Ttl

def Partial.put (settings : Partial) : Argument → Except SettingsError Partial
  | .records path =>
    if settings.records.isSome then .error (.duplicateKey "records")
    else .ok { settings with records := some path }
  | .ttl value =>
    if settings.ttl.isSome then .error (.duplicateKey "ttl")
    else .ok { settings with ttl := some value }

/-- Reads the arguments that follow those in `settings`. -/
def readInto (settings : Partial) : List String → Except SettingsError Settings
  | [] =>
    match settings.records with
    | some records => .ok ⟨records, settings.ttl.getD standardTtl⟩
    | none => .error (.missingKey "records")
  | text :: texts =>
    match readArgument text with
    | .error e => .error e
    | .ok argument =>
      match settings.put argument with
      | .error e => .error e
      | .ok settings => readInto settings texts

def ofArguments (arguments : List String) : Except SettingsError Settings :=
  readInto ⟨none, none⟩ arguments

end Settings

end ZoneStore
