import ZoneStore.Text.Caseless
import ZoneStore.Text.Decimal

/-!
# Record classes

A class is a 16-bit code, written as one of three mnemonics or as `CLASS`
and its code. Only class IN is ever served; the others can be named so that
they can be refused.
-/

namespace ZoneStore

open Text

structure RecordClass where
  code : UInt16
deriving DecidableEq, Repr

inductive RecordClassError where
  | badCode
  | unknown
deriving DecidableEq, Repr

def RecordClassError.message : RecordClassError → String
  | badCode => "class value is not a valid unsigned 16-bit integer"
  | unknown => "unknown class"

namespace RecordClass

def internet : RecordClass := ⟨1⟩

def chaos : RecordClass := ⟨3⟩

def hesiod : RecordClass := ⟨4⟩

def mnemonics : List (RecordClass × String) :=
  [(internet, "IN"), (chaos, "CH"), (hesiod, "HS")]

def ofText (text : String) : Except RecordClassError RecordClass :=
  match mnemonics.find? fun (_, mnemonic) => sameCaseless mnemonic text with
  | some (recordClass, _) => .ok recordClass
  | none =>
    if lower (text.toList.take 5) = lower "CLASS".toList then
      match readUnsigned 65535 (text.toList.drop 5) with
      | some code => .ok ⟨code.toUInt16⟩
      | none => .error .badCode
    else
      .error .unknown

def toText (recordClass : RecordClass) : String :=
  match mnemonics.find? fun (known, _) => known = recordClass with
  | some (_, mnemonic) => mnemonic
  | none => "CLASS" ++ decimalText recordClass.code.toNat

end RecordClass

end ZoneStore
