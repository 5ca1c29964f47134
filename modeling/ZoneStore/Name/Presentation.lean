import ZoneStore.Name.Draft
import ZoneStore.Text.Decimal
import ZoneStore.Text.Octets

/-!
# Names as text

In text every label is followed by a dot, and the root is a single dot. A
dot or backslash inside a label is written behind a backslash, and an octet
that is not a visible ASCII character as a backslash and three digits. The
reader walks the octets of the text. It takes any octet below 128 but a dot
or backslash as itself, any three digits of value at most 255, and any
octet but a digit behind a backslash.
-/

namespace ZoneStore.Name

open Text

def isVisible (octet : UInt8) : Bool :=
  33 ≤ octet && octet ≤ 126

def octetText (octet : UInt8) : List Char :=
  if octet = '.'.toNat.toUInt8 then ['\\', '.']
  else if octet = '\\'.toNat.toUInt8 then ['\\', '\\']
  else if isVisible octet then [Char.ofNat octet.toNat]
  else '\\' :: threeDigits octet.toNat

def labelText (octets : List UInt8) : List Char :=
  octets.flatMap octetText ++ ['.']

def toChars (name : Name) : List Char :=
  if name.isRoot then ['.'] else name.labels.flatMap fun label => labelText label.octets

def toText (name : Name) : String :=
  String.ofList name.toChars

def dot : UInt8 := 46

def backslash : UInt8 := 92

def isDigit (octet : UInt8) : Bool :=
  48 ≤ octet && octet ≤ 57

def decimalValue (a b c : UInt8) : Nat :=
  100 * (a.toNat - 48) + 10 * (b.toNat - 48) + (c.toNat - 48)

/-- Reads the rest of a text into a draft, one item at a time; the first item that fails decides. -/
def readInto (draft : Draft) : List UInt8 → Except NameError Name
  | [] => draft.finish
  | octet :: rest =>
    if octet = backslash then
      match rest with
      | [] => .error .invalidEscape
      | a :: rest =>
        if isDigit a then
          match rest with
          | b :: c :: rest =>
            if isDigit b && isDigit c && decimalValue a b c ≤ 255 then
              match draft.push (decimalValue a b c).toUInt8 with
              | .error e => .error e
              | .ok draft => readInto draft rest
            else
              .error .invalidEscape
          | _ => .error .invalidEscape
        else
          -- The first octet of a character outside ASCII is taken here; the next one is refused.
          match draft.push a with
          | .error e => .error e
          | .ok draft => readInto draft rest
    else if octet = dot then
      match draft.close with
      | .error e => .error e
      | .ok draft => readInto draft rest
    else if octet < 128 then
      match draft.push octet with
      | .error e => .error e
      | .ok draft => readInto draft rest
    else
      .error .notAscii

def ofChars (text : List Char) : Except NameError Name :=
  if text = [] then .error .emptyText
  else if text = ['.'] then .ok root
  else readInto .empty (octetsOf text)

def ofText (text : String) : Except NameError Name :=
  ofChars text.toList

end ZoneStore.Name
