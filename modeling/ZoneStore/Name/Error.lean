/-!
# Invalid names

The ways in which a text or an octet sequence can fail to be a fully
qualified domain name, with the wording of each.
-/

namespace ZoneStore

inductive NameError where
  | extraData
  | invalidEscape
  | labelTooLong
  | nameTooLong
  /-- The last label is not the null label. -/
  | nonNullTerminal
  /-- A label other than the last is the null label. -/
  | nullNonTerminal
  | emptyText
  | notAscii
  | unexpectedEnd
deriving DecidableEq, Repr

def NameError.message : NameError → String
  | extraData => "extra data was present"
  | invalidEscape => "invalid escape sequence"
  | labelTooLong => "label is longer than 63 octets"
  | nameTooLong => "name is longer than 255 octets on the wire"
  | nonNullTerminal => "name is not fully qualified"
  | nullNonTerminal => "non-terminal label is null"
  | emptyText => "string was empty"
  | notAscii => "string was not ASCII"
  | unexpectedEnd => "unexpected end of name"

end ZoneStore
