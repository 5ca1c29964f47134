import ZoneStore.Text.Blank
import ZoneStore.Violation

/-!
# Hexadecimal octets

Octets are written as two lower-case digits, high half first. Reading
takes digits of either case, ignores ASCII white space anywhere, and
refuses every other character and an odd number of digits.
-/

namespace ZoneStore.Text

def hexDigit (nibble : Fin 16) : Char :=
  Nat.digitChar nibble

/-- The digit of a value that the caller vouches is below sixteen. -/
def hexDigitOf (nibble : UInt8) : Except Violation Char :=
  if h : nibble.toNat < 16 then .ok (hexDigit ⟨nibble.toNat, h⟩) else .error .nibbleTooLarge

def hexValue (c : Char) : Option UInt8 :=
  if '0' ≤ c ∧ c ≤ '9' then some (c.toNat - '0'.toNat).toUInt8
  else if 'A' ≤ c ∧ c ≤ 'F' then some (c.toNat - 'A'.toNat + 10).toUInt8
  else if 'a' ≤ c ∧ c ≤ 'f' then some (c.toNat - 'a'.toNat + 10).toUInt8
  else none

def highNibble (octet : UInt8) : Fin 16 :=
  ⟨octet.toNat / 16, by have := octet.toNat_lt; omega⟩

def lowNibble (octet : UInt8) : Fin 16 :=
  ⟨octet.toNat % 16, by omega⟩

def hexPair (octet : UInt8) : List Char :=
  [hexDigit (highNibble octet), hexDigit (lowNibble octet)]

def encodeHex (octets : List UInt8) : List Char :=
  octets.flatMap hexPair

/-- Joins nibbles two by two, the first of each pair being the high half. -/
def pairNibbles (octets : List UInt8) : List UInt8 → Option (List UInt8)
  | [] => some octets.reverse
  | [_] => none
  | high :: low :: rest => pairNibbles ((16 * high + low) :: octets) rest

def decodeHex (text : List Char) : Option (List UInt8) :=
  ((text.filter fun c => !isAsciiBlank c).mapM hexValue).bind (pairNibbles [])

end ZoneStore.Text
