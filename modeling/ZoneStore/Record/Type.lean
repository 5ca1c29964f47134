import ZoneStore.Text.Caseless
import ZoneStore.Text.Decimal

/-!
# Record types

A record type is a 16-bit code. The types that have a mnemonic are written
by it and every other type as `TYPE` and its code; both spellings are read
for every type, in either letter case.
-/

namespace ZoneStore

open Text

structure RecordType where
  code : UInt16
deriving DecidableEq, Repr

inductive RecordTypeError where
  | badCode
  | unknown
deriving DecidableEq, Repr

def RecordTypeError.message : RecordTypeError → String
  | badCode => "type value is not a valid unsigned 16-bit integer"
  | unknown => "unknown type"

namespace RecordType

def a : RecordType := ⟨1⟩
def ns : RecordType := ⟨2⟩
def cname : RecordType := ⟨5⟩
def soa : RecordType := ⟨6⟩
def ptr : RecordType := ⟨12⟩
def hinfo : RecordType := ⟨13⟩
def mx : RecordType := ⟨15⟩
def txt : RecordType := ⟨16⟩
def aaaa : RecordType := ⟨28⟩
def srv : RecordType := ⟨33⟩
def any : RecordType := ⟨255⟩

def mnemonics : List (RecordType × String) :=
  [(a, "A"), (ns, "NS"), (cname, "CNAME"), (soa, "SOA"), (ptr, "PTR"), (hinfo, "HINFO"),
    (mx, "MX"), (txt, "TXT"), (aaaa, "AAAA"), (srv, "SRV"), (any, "ANY")]

/-- Meta-types occur in questions and never in zone data. -/
def isMeta (type : RecordType) : Bool :=
  128 ≤ type.code && type.code ≤ 255

def ofText (text : String) : Except RecordTypeError RecordType :=
  match mnemonics.find? fun (_, mnemonic) => sameCaseless mnemonic text with
  | some (type, _) => .ok type
  | none =>
    if lower (text.toList.take 4) = lower "TYPE".toList then
      match readUnsigned 65535 (text.toList.drop 4) with
      | some code => .ok ⟨code.toUInt16⟩
      | none => .error .badCode
    else
      .error .unknown

def toText (type : RecordType) : String :=
  match mnemonics.find? fun (known, _) => known = type with
  | some (_, mnemonic) => mnemonic
  | none => "TYPE" ++ decimalText type.code.toNat

end RecordType

end ZoneStore
