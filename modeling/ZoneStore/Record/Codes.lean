import ZoneStore.Record.Class
import ZoneStore.Record.Type
import ZoneStore.Text.Stored

/-!
# Spellings of codes

Types and classes are codes of 16 bits that are spelled alike, by a mnemonic
or by a mark and the number of the code. What they differ in is a spelling.
A stored text is cut behind the mark, at an octet position, and a cut inside
a character has no result.
-/

namespace ZoneStore

open Text

structure CodeSpelling (Coded Fault : Type) where
  mnemonics : List (Coded × String)
  mark : String
  code : Coded → UInt16
  ofCode : UInt16 → Coded
  badCode : Fault
  unknown : Fault
  ofCode_code : ∀ value, ofCode (code value) = value
  code_ofCode : ∀ number, code (ofCode number) = number
  /-- No mnemonic is another one in letters of the other case. -/
  distinct : (mnemonics.map fun entry => lower entry.2.toList).Nodup
  /-- No mnemonic starts like a number of a code. -/
  unmarked : ∀ entry ∈ mnemonics,
    lower (entry.2.toList.take mark.toList.length) ≠ lower mark.toList

namespace CodeSpelling

variable {Coded Fault : Type}

def readNumber (spelling : CodeSpelling Coded Fault) (digits : List Char) : Except Fault Coded :=
  match readUnsigned 65535 digits with
  | some number => .ok (spelling.ofCode number.toUInt16)
  | none => .error spelling.badCode

def ofText (spelling : CodeSpelling Coded Fault) (text : String) : Except Fault Coded :=
  match spelling.mnemonics.find? fun (_, mnemonic) => sameCaseless mnemonic text with
  | some (value, _) => .ok value
  | none =>
    if lower (text.toList.take spelling.mark.toList.length) = lower spelling.mark.toList then
      spelling.readNumber (text.toList.drop spelling.mark.toList.length)
    else
      .error spelling.unknown

/-- The same for a stored text, which is cut in front of the number without a look at it. -/
def ofStored (spelling : CodeSpelling Coded Fault) (text : String) :
    Option (Except Fault Coded) :=
  match spelling.mnemonics.find? fun (_, mnemonic) => sameStored mnemonic text with
  | some (value, _) => some (.ok value)
  | none =>
    match frontOf? text spelling.mark.utf8ByteSize with
    | none => some (.error spelling.unknown)
    | some front =>
      if sameStored front spelling.mark then
        match backOf? text spelling.mark.utf8ByteSize with
        | none => none
        | some digits => some (spelling.readNumber digits.toList)
      else
        some (.error spelling.unknown)

def toText [DecidableEq Coded] (spelling : CodeSpelling Coded Fault) (value : Coded) : String :=
  match spelling.mnemonics.find? fun (known, _) => known = value with
  | some (_, mnemonic) => mnemonic
  | none => spelling.mark ++ decimalText (spelling.code value).toNat

end CodeSpelling

def RecordType.spelling : CodeSpelling RecordType RecordTypeError where
  mnemonics := mnemonics
  mark := "TYPE"
  code := code
  ofCode := mk
  badCode := .badCode
  unknown := .unknown
  ofCode_code _ := rfl
  code_ofCode _ := rfl
  distinct := by decide
  unmarked := by decide

def RecordClass.spelling : CodeSpelling RecordClass RecordClassError where
  mnemonics := mnemonics
  mark := "CLASS"
  code := code
  ofCode := mk
  badCode := .badCode
  unknown := .unknown
  ofCode_code _ := rfl
  code_ofCode _ := rfl
  distinct := by decide
  unmarked := by decide

theorem RecordType.ofText_eq (text : String) : ofText text = spelling.ofText text := by
  have hMnemonics : spelling.mnemonics = mnemonics := rfl
  have hMark : spelling.mark.toList.length = 4 := rfl
  rw [ofText, CodeSpelling.ofText, CodeSpelling.readNumber, hMnemonics, hMark]
  cases mnemonics.find? fun entry => sameCaseless entry.2 text with
  | some entry => rfl
  | none => cases readUnsigned 65535 (text.toList.drop 4) <;> rfl

theorem RecordType.toText_eq (type : RecordType) : type.toText = spelling.toText type := by
  have hMnemonics : spelling.mnemonics = mnemonics := rfl
  rw [toText, CodeSpelling.toText, hMnemonics]
  cases mnemonics.find? fun entry => entry.1 = type <;> rfl

theorem RecordClass.ofText_eq (text : String) : ofText text = spelling.ofText text := by
  have hMnemonics : spelling.mnemonics = mnemonics := rfl
  have hMark : spelling.mark.toList.length = 5 := rfl
  rw [ofText, CodeSpelling.ofText, CodeSpelling.readNumber, hMnemonics, hMark]
  cases mnemonics.find? fun entry => sameCaseless entry.2 text with
  | some entry => rfl
  | none => cases readUnsigned 65535 (text.toList.drop 5) <;> rfl

theorem RecordClass.toText_eq (recordClass : RecordClass) :
    recordClass.toText = spelling.toText recordClass := by
  have hMnemonics : spelling.mnemonics = mnemonics := rfl
  rw [toText, CodeSpelling.toText, hMnemonics]
  cases mnemonics.find? fun entry => entry.1 = recordClass <;> rfl

end ZoneStore
