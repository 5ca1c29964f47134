import ZoneStore.Name.Presentation
import ZoneStore.Record.Address
import ZoneStore.Record.CharacterString
import ZoneStore.Record.Rdata

/-!
# Record data as text

Data of every type can be written in the generic form. Addresses, names and
numbers have fields of their own, laid out type by type, and descriptive
text is a sequence of character-strings. Fields are read in order, and the
first that is missing or invalid decides the error.
-/

namespace ZoneStore

open Text

/-- What stands in one field of record data. -/
inductive RdataField where
  | shortAddress
  | longAddress
  | domainName
  | number16
  | number32
deriving DecidableEq, Repr

namespace RdataField

def bigEndian (octets value : Nat) : List UInt8 :=
  (List.range octets).reverse.map fun place => (value / Nat.pow 256 place % 256).toUInt8

def read (text : List Char) : RdataField → Except RdataError (List UInt8)
  | shortAddress =>
    match Address.ofShortText text with
    | some octets => .ok octets
    | none => .error .invalidAddress
  | longAddress =>
    match Address.ofLongText text with
    | some octets => .ok octets
    | none => .error .invalidAddress
  | domainName =>
    match Name.ofChars text with
    | .ok name => .ok name.wire
    | .error e => .error (.invalidName e)
  | number16 =>
    match readUnsigned 65535 text with
    | some value => .ok (bigEndian 2 value)
    | none => .error .invalidInteger
  | number32 =>
    match readUnsigned 4294967295 text with
    | some value => .ok (bigEndian 4 value)
    | none => .error .invalidInteger

/-- The fields of a type's data, for the types that are written in fields. -/
def layout (type : RecordType) : Option (List RdataField) :=
  if type = .a then some [shortAddress]
  else if type = .aaaa then some [longAddress]
  else if type = .ns ∨ type = .cname ∨ type = .ptr then some [domainName]
  else if type = .mx then some [number16, domainName]
  else if type = .soa then
    some [domainName, domainName, number32, number32, number32, number32, number32]
  else none

def readAll : List RdataField → List (List Char) → Except RdataError (List UInt8)
  | [], [] => .ok []
  | [], _ :: _ => .error .extraField
  | _ :: _, [] => .error .missingField
  | field :: fields, text :: texts =>
    match field.read text with
    | .error e => .error e
    | .ok octets =>
      match readAll fields texts with
      | .error e => .error e
      | .ok more => .ok (octets ++ more)

end RdataField

namespace Rdata

def checkLength (octets : List UInt8) : Except RdataError Rdata :=
  match ofOctets? octets with
  | some rdata => .ok rdata
  | none => .error .tooLong

/-- The largest length that can be written in the generic form. -/
def maxGenericLength : Nat := 18446744073709551615

def ofGeneric : List (List Char) → Except RdataError Rdata
  | [] => .error .invalidGeneric
  | length :: digits =>
    match readUnsigned maxGenericLength length, decodeHex digits.flatten with
    | some length, some octets =>
      if octets.length = length then checkLength octets else .error .invalidGeneric
    | _, _ => .error .invalidGeneric

def isGeneric (text : List Char) : Bool :=
  (trimStart text).take 2 == ['\\', '#']

def ofChars (type : RecordType) (text : List Char) : Except RdataError Rdata :=
  if isGeneric text then ofGeneric ((fields text).drop 1)
  else if type = .txt then
    match CharacterString.ofText text with
    | some strings => checkLength (CharacterString.encode strings)
    | none => .error .invalidString
  else
    match RdataField.layout type with
    | none => .error (.unsupportedType type)
    | some layout =>
      match RdataField.readAll layout (fields text) with
      | .error e => .error e
      | .ok octets => checkLength octets

def ofText (type : RecordType) (text : String) : Except RdataError Rdata :=
  ofChars type text.toList

end Rdata

end ZoneStore
