import ZoneStore.Text.Hex

/-!
# Hexadecimal octets, one after the other

A stored text is read octet by octet. A reader has the octets that are
complete and perhaps the high half of the next one, which waits for the low
half across white space. Octets are written half by half.
-/

namespace ZoneStore.Text

/-- Space, tab, newline, form feed and carriage return. -/
def isBlankOctet (octet : UInt8) : Bool :=
  octet == 0x20 || octet == 0x09 || octet == 0x0A || octet == 0x0C || octet == 0x0D

def nibbleOf (octet : UInt8) : Option UInt8 :=
  if 0x30 ≤ octet ∧ octet ≤ 0x39 then some (octet - 0x30)
  else if 0x41 ≤ octet ∧ octet ≤ 0x46 then some (octet - 0x41 + 10)
  else if 0x61 ≤ octet ∧ octet ≤ 0x66 then some (octet - 0x61 + 10)
  else none

structure HexReader where
  octets : List UInt8
  high : Option UInt8
deriving DecidableEq, Repr

namespace HexReader

def start : HexReader :=
  ⟨[], none⟩

def take (reader : HexReader) (nibble : UInt8) : HexReader :=
  match reader.high with
  | some high => ⟨reader.octets ++ [high <<< 4 ||| nibble], none⟩
  | none => ⟨reader.octets, some nibble⟩

def step (reader : HexReader) (octet : UInt8) : Option HexReader :=
  if isBlankOctet octet then some reader else (nibbleOf octet).map reader.take

def run (reader : HexReader) : List UInt8 → Option HexReader
  | [] => some reader
  | octet :: rest =>
    match reader.step octet with
    | none => none
    | some next => next.run rest

/-- No high half may be left over. -/
def finish (reader : HexReader) : Option (List UInt8) :=
  if reader.high.isNone then some reader.octets else none

end HexReader

def decodeStored (text : List UInt8) : Option (List UInt8) :=
  match HexReader.start.run text with
  | none => none
  | some reader => reader.finish

def writeOctet (octet : UInt8) : Except Violation (List Char) :=
  match hexDigitOf (octet >>> 4), hexDigitOf (octet &&& 0xF) with
  | .ok high, .ok low => .ok [high, low]
  | .error violation, _ => .error violation
  | .ok _, .error violation => .error violation

def writeOctets : List UInt8 → Except Violation (List Char)
  | [] => .ok []
  | octet :: rest =>
    match writeOctet octet, writeOctets rest with
    | .ok pair, .ok digits => .ok (pair ++ digits)
    | .error violation, _ => .error violation
    | .ok _, .error violation => .error violation

end ZoneStore.Text
