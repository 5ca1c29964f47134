import ZoneStore.Name.Error
import ZoneStore.Record.Type
import ZoneStore.Text.Hex

/-!
# Record data

The data of a record is at most 65,535 octets in wire format. It is always
written in the generic form: `\#`, the number of octets and, unless there
are none, their hexadecimal digits.
-/

namespace ZoneStore

open Text

def maxRdataLength : Nat := 65535

structure Rdata where
  octets : List UInt8
  length_le : octets.length ≤ maxRdataLength
deriving DecidableEq

inductive RdataError where
  | missingField
  | extraField
  | invalidAddress
  | invalidInteger
  | invalidGeneric
  | invalidName (cause : NameError)
  | invalidString
  | tooLong
  | unsupportedType (type : RecordType)
deriving DecidableEq, Repr

def rdataTooLong : String :=
  "RDATA is longer than 65,535 octets"

namespace RdataError

def message : RdataError → String
  | missingField => "a required field is missing"
  | extraField => "there are too many fields"
  | invalidAddress => "invalid address"
  | invalidInteger => "invalid integer"
  | invalidGeneric => "invalid RFC 3597 generic RDATA"
  | invalidName _ => "invalid domain name"
  | invalidString => "invalid character-string"
  | tooLong => rdataTooLong
  | unsupportedType type =>
    "presentation format for " ++ type.toText ++ " is not supported; use \\# syntax"

/-- The texts of the errors behind this one, nearest first. -/
def causes : RdataError → List String
  | invalidName cause => [cause.message]
  | _ => []

end RdataError

namespace Rdata

def ofOctets? (octets : List UInt8) : Option Rdata :=
  if h : octets.length ≤ maxRdataLength then some ⟨octets, h⟩ else none

def toChars (rdata : Rdata) : List Char :=
  ['\\', '#', ' '] ++ decimal rdata.octets.length ++
    if rdata.octets.isEmpty then [] else ' ' :: encodeHex rdata.octets

def toText (rdata : Rdata) : String :=
  String.ofList rdata.toChars

end Rdata

end ZoneStore
