import ZoneStore.Text.Decimal

/-!
# Internet addresses

The text forms of 32-bit and 128-bit addresses. The first is four decimal
numbers below 256 without leading zeros, separated by dots. The second is
eight groups of one to four hexadecimal digits separated by colons, where
one double colon may stand for one or more zero groups and a 32-bit address
may stand for the last two groups.
-/

namespace ZoneStore.Address

open Text

/-- Reads the longest run of digits of a base, of at most `most` digits; no more may follow. -/
def readNumber (isDigit : Char → Bool) (valueOf : Char → Nat) (base most : Nat)
    (text : List Char) : Option (Nat × List Char) :=
  let digits := text.takeWhile isDigit
  if digits.isEmpty || most < digits.length then none
  else some (digits.foldl (fun value c => base * value + valueOf c) 0, text.dropWhile isDigit)

def readOctet (text : List Char) : Option (UInt8 × List Char) :=
  match readNumber Char.isDigit (fun c => c.toNat - '0'.toNat) 10 3 text with
  | some (value, rest) =>
    if 255 < value || (text.head? == some '0' && 1 < (text.takeWhile Char.isDigit).length) then
      none
    else
      some (value.toUInt8, rest)
  | none => none

def skip (mark : Char) : List Char → Option (List Char)
  | c :: rest => if c = mark then some rest else none
  | [] => none

def readShort (text : List Char) : Option (List UInt8 × List Char) := do
  let (a, text) ← readOctet text
  let (b, text) ← readOctet (← skip '.' text)
  let (c, text) ← readOctet (← skip '.' text)
  let (d, text) ← readOctet (← skip '.' text)
  some ([a, b, c, d], text)

def ofShortText (text : List Char) : Option (List UInt8) :=
  match readShort text with
  | some (octets, []) => some octets
  | _ => none

def isHexDigit (c : Char) : Bool :=
  c.isDigit || ('a' ≤ c && c ≤ 'f') || ('A' ≤ c && c ≤ 'F')

def hexDigitValue (c : Char) : Nat :=
  if c.isDigit then c.toNat - '0'.toNat
  else if 'a' ≤ c then c.toNat - 'a'.toNat + 10
  else c.toNat - 'A'.toNat + 10

def readGroup (text : List Char) : Option (List UInt8 × List Char) :=
  match readNumber isHexDigit hexDigitValue 16 4 text with
  | some (value, rest) => some ([(value / 256).toUInt8, (value % 256).toUInt8], rest)
  | none => none

structure Groups where
  octets : List UInt8
  count : Nat
  /-- The last two groups were written as a 32-bit address. -/
  endsShort : Bool
  rest : List Char

/-- Leaves out the colon in front of every group but the first. -/
def separated (first : Bool) (text : List Char) : Option (List Char) :=
  if first then some text else skip ':' text

/-- Reads at most `room` groups. A 32-bit address is tried wherever two groups are possible. -/
def readGroups (first : Bool) : (room : Nat) → List Char → Groups
  | 0, text => ⟨[], 0, false, text⟩
  | room + 1, text =>
    match (if 1 ≤ room then (separated first text).bind readShort else none) with
    | some (octets, rest) => ⟨octets, 2, true, rest⟩
    | none =>
      match (separated first text).bind readGroup with
      | some (octets, rest) =>
        let more := readGroups false room rest
        ⟨octets ++ more.octets, more.count + 1, more.endsShort, more.rest⟩
      | none => ⟨[], 0, false, text⟩

def readLong (text : List Char) : Option (List UInt8 × List Char) :=
  let head := readGroups true 8 text
  if head.count = 8 then some (head.octets, head.rest)
  else if head.endsShort then none
  else do
    let rest ← skip ':' (← skip ':' head.rest)
    let tail := readGroups true (7 - head.count) rest
    let zeros := List.replicate (2 * (8 - head.count - tail.count)) 0
    some (head.octets ++ zeros ++ tail.octets, tail.rest)

def ofLongText (text : List Char) : Option (List UInt8) :=
  match readLong text with
  | some (octets, []) => some octets
  | _ => none

end ZoneStore.Address
