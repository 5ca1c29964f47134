import ZoneStore.Text.Blank
import ZoneStore.Text.Decimal
import ZoneStore.Text.Octets

/-!
# Character-strings

Descriptive text is a sequence of strings of at most 255 octets, each
behind its length octet. A text that opens with a double quote is a
sequence of quoted strings; any other text is taken whole and cut into
strings of 255 octets.
-/

namespace ZoneStore.CharacterString

open Text

def maxLength : Nat := 255

def encode (strings : List (List UInt8)) : List UInt8 :=
  strings.flatMap fun string => string.length.toUInt8 :: string

/-- Cuts octets into strings of `maxLength`, the last of which may be shorter but not empty. -/
def cut (octets : List UInt8) : List (List UInt8) :=
  go [] [] octets
where
  /-- The string being filled and the full strings are held in reverse. -/
  go (string : List UInt8) (done : List (List UInt8)) : List UInt8 → List (List UInt8)
    | [] => (if string.isEmpty then done else string.reverse :: done).reverse
    | octet :: rest =>
      if string.length + 1 = maxLength then go [] ((octet :: string).reverse :: done) rest
      else go (octet :: string) done rest

/-- The strings of an unquoted text; an empty text is one empty string. -/
def ofPlain (text : List Char) : List (List UInt8) :=
  if text.isEmpty then [[]] else cut (octetsOf text)

/--
Reads quoted strings, between and after which only ASCII white space may
stand. Behind a backslash three digits are a value of at most 255, and any
other character is itself. The argument `pending` is the open string, in reverse.
-/
def readQuoted (done : List (List UInt8)) (pending : Option (List UInt8)) :
    List Char → Option (List (List UInt8))
  | [] => if pending.isNone then some done.reverse else none
  | c :: rest =>
    match pending with
    | none =>
      if isAsciiBlank c then readQuoted done none rest
      else if c = '"' then readQuoted done (some []) rest
      else none
    | some string =>
      if c = '"' then
        if string.length ≤ maxLength then readQuoted (string.reverse :: done) none rest else none
      else if c = '\\' then
        match rest with
        | [] => none
        | x :: [] => readQuoted done (some ((octetsOf [x]).reverse ++ string)) []
        | x :: y :: [] => readQuoted done (some ((octetsOf [x]).reverse ++ string)) [y]
        | x :: y :: z :: rest =>
          if x.isDigit && y.isDigit && z.isDigit then
            if digitsValue [x, y, z] ≤ 255 then
              readQuoted done (some ((digitsValue [x, y, z]).toUInt8 :: string)) rest
            else
              none
          else
            readQuoted done (some ((octetsOf [x]).reverse ++ string)) (y :: z :: rest)
      else
        readQuoted done (some ((octetsOf [c]).reverse ++ string)) rest

def ofText (text : List Char) : Option (List (List UInt8)) :=
  if (trimStart text).head? = some '"' then readQuoted [] none (trimStart text)
  else some (ofPlain text)

end ZoneStore.CharacterString
