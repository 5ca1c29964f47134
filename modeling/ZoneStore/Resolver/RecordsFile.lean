import ZoneStore.Cause
import ZoneStore.Log
import ZoneStore.Record.Presentation
import ZoneStore.Resolver.RecordTable

/-!
# Records files

A records file lists records as entries of texts. Loading adds them to an
empty table in order, and either all of them make up the table or the first
that is invalid, or conflicts with an earlier one, is blamed.
-/

namespace ZoneStore

structure RecordEntry where
  name : String
  type : String
  /-- The time to live, a value of 32 bits. -/
  ttl : Option Nat
  data : String
deriving DecidableEq, Repr

/-- The ways in which an entry can be invalid, in the order in which they are looked for. -/
inductive RecordProblem where
  | badName (cause : NameError)
  | badType (cause : RecordTypeError)
  | metaType (type : RecordType)
  | badData (cause : RdataError)
  | conflict (cause : AddError)
deriving DecidableEq, Repr

namespace RecordProblem

def message : RecordProblem → String
  | badName _ => "invalid owner name"
  | badType cause => "invalid type: " ++ cause.message
  | metaType type => type.toText ++ " cannot appear in zone data"
  | badData _ => "invalid data"
  | conflict _ => "record conflicts with an earlier record"

def causes : RecordProblem → List Cause
  | badName cause => [.text cause.message]
  | badData cause => .text cause.message :: cause.causes.map .text
  | conflict cause => [.text cause.message]
  | badType _ => []
  | metaType _ => []

end RecordProblem

inductive LoadError where
  | unreadable (cause : ReadError)
  | malformed (cause : Toml.Error)
  /-- Entry `index`, counted from zero, is invalid; `owner` is its name as written. -/
  | record (index : Nat) (owner : String) (problem : RecordProblem)
deriving DecidableEq, Repr

namespace LoadError

def message : LoadError → String
  | unreadable _ => "failed to read the records file"
  | malformed _ => "failed to parse the records file"
  | record index owner problem =>
    "record " ++ Text.decimalText (index + 1) ++ " (owner " ++ owner ++ "): " ++ problem.message

def causes : LoadError → List Cause
  | unreadable cause => [.unreadable cause]
  | malformed cause => [.syntaxError cause]
  | record _ _ problem => problem.causes

end LoadError

namespace RecordEntry

/-- The record that an entry writes, its time to live defaulting to `defaultTtl`. -/
def toRecord (entry : RecordEntry) (defaultTtl : Ttl) :
    Except RecordProblem Record :=
  match Name.ofText entry.name with
  | .error e => .error (.badName e)
  | .ok owner =>
    match RecordType.ofText entry.type with
    | .error e => .error (.badType e)
    | .ok type =>
      if type.isMeta then .error (.metaType type)
      else
        match Rdata.ofText type entry.data with
        | .error e => .error (.badData e)
        | .ok rdata => .ok ⟨owner, type, (entry.ttl.map Ttl.ofRecord).getD defaultTtl, rdata⟩

end RecordEntry

namespace RecordTable

def addEntry (table : RecordTable) (defaultTtl : Ttl) (entry : RecordEntry) :
    Except RecordProblem RecordTable :=
  match entry.toRecord defaultTtl with
  | .error e => .error e
  | .ok record =>
    (table.add record.owner record.type record.ttl record.rdata).mapError .conflict

/-- Adds entries in order, the first of them being number `index`. -/
def addEntries (table : RecordTable) (defaultTtl : Ttl) (index : Nat) :
    List RecordEntry → Except LoadError RecordTable
  | [] => .ok table
  | entry :: entries =>
    match table.addEntry defaultTtl entry with
    | .error problem => .error (.record index entry.name problem)
    | .ok table => addEntries table defaultTtl (index + 1) entries

def ofEntries (entries : List RecordEntry) (defaultTtl : Ttl) : Except LoadError RecordTable :=
  empty.addEntries defaultTtl 0 entries

end RecordTable

namespace RecordEntry

open Toml (Pairs Element ElementDecoder setOnce required)

structure Partial where
  name : Option String := none
  type : Option String := none
  ttl : Option Nat := none
  data : Option String := none

def Partial.put (entry : Partial) : String × Toml.Value → Except Toml.Error Partial
  | ("name", value) => do return { entry with name := ← setOnce entry.name value.toText }
  | ("type", value) => do return { entry with type := ← setOnce entry.type value.toText }
  | ("ttl", value) => do return { entry with ttl := ← setOnce entry.ttl value.toWord }
  | ("data", value) => do return { entry with data := ← setOnce entry.data value.toText }
  | _ => .error .malformed

def ofElement (element : Element) : Except Toml.Error RecordEntry := do
  let entry ← element.visit {} Partial.put
  return ⟨← required entry.name, ← required entry.type, entry.ttl, ← required entry.data⟩

def ofValues : List Toml.Value → Except Toml.Error RecordEntry
  | [name, type, ttl, data] => do
    return ⟨← name.toText, ← type.toText, some (← ttl.toWord), ← data.toText⟩
  | _ => .error .malformed

def decoder : ElementDecoder RecordEntry :=
  ⟨ofElement, ofValues⟩

def listOfText (text : String) : Except Toml.Error (List RecordEntry) := do
  let entries ← Toml.decodeText none
    (fun (entries : Option (List RecordEntry)) (key, entry) =>
      if key = "records" then setOnce entries (decoder.list entry) else .error .malformed)
    text
  return entries.getD []

end RecordEntry

namespace RecordTable

def ofText (text : String) (defaultTtl : Ttl) : Except LoadError RecordTable :=
  match RecordEntry.listOfText text with
  | .error e => .error (.malformed e)
  | .ok entries => ofEntries entries defaultTtl

def load (read : FileReader) (path : String) (defaultTtl : Ttl) :
    Except LoadError RecordTable × Log :=
  match read path with
  | .error e => (.error (.unreadable e), [])
  | .ok text =>
    match ofText text defaultTtl with
    | .error e => (.error e, [])
    | .ok table =>
      (.ok table,
        [debugLine ("Loaded " ++ Text.decimalText table.size ++ " names from " ++ path ++ ".")])

end RecordTable

end ZoneStore
