import ZoneStore.Toml.Number

/-!
# TOML documents

A document is the pairs in front of its first header and a section for each
header, in the order in which they are written. Values keep what a reader
of settings needs: of fractional numbers and dates only that they are there.
-/

namespace ZoneStore.Toml

inductive Value where
  | text (value : String)
  | integer (value : Int)
  | fractional
  | boolean (value : Bool)
  | date
  | array (values : List Value)
  | table (pairs : List (String × Value))
  /-- A table that grew from keys with dots, which further such keys may extend. -/
  | dotted (pairs : List (String × Value))

abbrev Pairs := List (String × Value)

structure Section where
  header : List String
  isArray : Bool
  pairs : Pairs

structure Document where
  pairs : Pairs
  sections : List Section

/-- Adds a pair under a key with dots; a repeated plain key is kept as it stands. -/
def addPair : List String → Value → Pairs → Option Pairs
  | [], _, _ => none
  | [key], value, pairs => some (pairs ++ [(key, value)])
  | key :: keys, value, pairs =>
    match pairs.span fun (other, _) => other != key with
    | (before, (other, .dotted inner) :: after) =>
      (addPair keys value inner).map fun inner => before ++ (other, .dotted inner) :: after
    | (_, _ :: _) => none
    | (before, []) => (addPair keys value []).map fun inner => before ++ [(key, .dotted inner)]

def isBlank : Token → Bool
  | .blank _ => true
  | _ => false

def skipBlank (tokens : List Token) : List Token :=
  tokens.dropWhile isBlank

def skipLines (tokens : List Token) : List Token :=
  tokens.dropWhile fun token => isBlank token || token == .comment || token == .newline

/-- Leaves out the rest of a line, which may only be a comment. -/
def endLine (tokens : List Token) : Option (List Token) :=
  let tokens := skipBlank tokens
  let tokens := if tokens.head? = some .comment then tokens.drop 1 else tokens
  match tokens with
  | [] => some []
  | .newline :: rest => some rest
  | _ => none

/-- Reads a key with dots and the blanks after it; the parts read so far are held in reverse. -/
def readKey (expected : Bool) (parts : List String) : List Token → Option (List String × List Token)
  | .blank _ :: rest => readKey expected parts rest
  | .bare word :: rest =>
    if expected then readKey false (String.ofList word :: parts) rest else none
  | .text value false :: rest =>
    if expected then readKey false (value :: parts) rest else none
  | .period :: rest => if expected then none else readKey true parts rest
  | tokens => if expected then none else some (parts.reverse, tokens)

def skipWord : List Token → Option (List Token)
  | .bare _ :: rest => some rest
  | _ => none

/-- Leaves out `mark` and the word behind it, if the mark comes next. -/
def skipMarked (mark : Token) (tokens : List Token) : Option (List Token) :=
  match tokens with
  | token :: rest => if token = mark then skipWord rest else some tokens
  | [] => some []

def skipMinutes (tokens : List Token) : Option (List Token) := do
  match ← skipWord tokens with
  | .colon :: tokens =>
    let tokens ← skipMarked .period (← skipWord tokens)
    skipMarked .colon (← skipMarked .plus tokens)
  | _ => none

def skipDate (colonRead : Bool) (tokens : List Token) : Option (List Token) :=
  let tokens :=
    match tokens with
    | .blank true :: .bare _ :: rest => rest
    | tokens => tokens
  if colonRead then skipMinutes tokens
  else
    match tokens with
    | .colon :: rest => skipMinutes rest
    | tokens => some tokens

/-- Whether a hyphen stands behind the first character, and none behind an exponent's letter. -/
def looksLikeDate (word : List Char) : Bool :=
  let pairs := word.zip (word.drop 1)
  word.contains 'T' || word.contains 't' ||
    ((word.drop 1).contains '-' && !pairs.contains ('e', '-') && !pairs.contains ('E', '-'))

def readNumber (word : List Char) (tokens : List Token) : Option (Value × List Token) :=
  match word with
  | '0' :: 'x' :: digits => (readInteger 16 digits).map fun value => (.integer value, tokens)
  | '0' :: 'o' :: digits => (readInteger 8 digits).map fun value => (.integer value, tokens)
  | '0' :: 'b' :: digits => (readInteger 2 digits).map fun value => (.integer value, tokens)
  | _ =>
    if word.contains 'e' || word.contains 'E' then
      (checkFractional word none tokens).map fun tokens => (.fractional, tokens)
    else
      match tokens with
      | .period :: tokens =>
        match tokens with
        | .bare fraction :: tokens =>
          (checkFractional word (some fraction) tokens).map fun tokens => (.fractional, tokens)
        | _ => none
      | _ =>
        if ["inf", "-inf", "nan", "-nan"].contains (String.ofList word) then
          some (.fractional, tokens)
        else
          (readInteger 10 word).map fun value => (.integer value, tokens)

def readNumberOrDate (word : List Char) (tokens : List Token) : Option (Value × List Token) :=
  if looksLikeDate word then (skipDate false tokens).map fun tokens => (.date, tokens)
  else
    match tokens with
    | .colon :: tokens => (skipDate true tokens).map fun tokens => (.date, tokens)
    | _ => readNumber word tokens

def readWord (word : List Char) (tokens : List Token) : Option (Value × List Token) :=
  if word = "true".toList then some (.boolean true, tokens)
  else if word = "false".toList then some (.boolean false, tokens)
  else if word = "inf".toList || word = "nan".toList ||
      word.head?.any (fun c => c == '-' || c.isDigit) then
    readNumberOrDate word tokens
  else none

mutual

/-- Reads a value; `fuel` bounds how deep values nest and how many one holds. -/
def readValue : (fuel : Nat) → List Token → Option (Value × List Token)
  | 0, _ => none
  | fuel + 1, tokens =>
    match tokens with
    | .text value _ :: rest => some (.text value, rest)
    | .bare word :: rest => readWord word rest
    | .plus :: .bare word :: rest => readNumber word rest
    | .leftBrace :: rest =>
      match skipBlank rest with
      | .rightBrace :: rest => some (.table [], rest)
      | rest => readInline fuel [] rest
    | .leftBracket :: rest => readArray fuel [] rest
    | _ => none

/-- Reads the values of an array up to its closing bracket; those read so far are in reverse. -/
def readArray : (fuel : Nat) → List Value → List Token → Option (Value × List Token)
  | 0, _, _ => none
  | fuel + 1, values, tokens =>
    match skipLines tokens with
    | .rightBracket :: rest => some (.array values.reverse, rest)
    | tokens =>
      match readValue fuel tokens with
      | none => none
      | some (value, rest) =>
        match skipLines rest with
        | .comma :: rest => readArray fuel (value :: values) rest
        | .rightBracket :: rest => some (.array (value :: values).reverse, rest)
        | _ => none

/-- Reads the pairs of a table in braces up to its closing brace. -/
def readInline : (fuel : Nat) → Pairs → List Token → Option (Value × List Token)
  | 0, _, _ => none
  | fuel + 1, pairs, tokens =>
    match readKey true [] tokens with
    | some (keys, .equals :: rest) =>
      match readValue fuel (skipBlank rest) with
      | none => none
      | some (value, rest) =>
        match addPair keys value pairs with
        | none => none
        | some pairs =>
          match skipBlank rest with
          | .rightBrace :: rest => some (.table pairs, rest)
          | .comma :: rest => readInline fuel pairs (skipBlank rest)
          | _ => none
    | _ => none

end

/-- Leaves out the second closing bracket of a header that opened with two. -/
def closeHeader (isArray : Bool) (tokens : List Token) : Option (List Token) :=
  if !isArray then some tokens
  else if tokens.head? = some .rightBracket then some (tokens.drop 1)
  else none

/-- Reads a header behind its first bracket, up to the end of its line. -/
def readHeader (tokens : List Token) : Option (Section × List Token) :=
  let isArray := tokens.head? == some .leftBracket
  match readKey true [] (if isArray then tokens.drop 1 else tokens) with
  | some (header, .rightBracket :: rest) =>
    ((closeHeader isArray rest).bind endLine).map fun rest => (⟨header, isArray, []⟩, rest)
  | _ => none

def readPair (pairs : Pairs) (tokens : List Token) : Option (Pairs × List Token) :=
  match readKey true [] tokens with
  | some (keys, .equals :: rest) =>
    match readValue (2 * tokens.length) (skipBlank rest) with
    | none => none
    | some (value, rest) =>
      match endLine rest, addPair keys value pairs with
      | some rest, some pairs => some (pairs, rest)
      | _, _ => none
  | _ => none

/-- Reads lines into the section `current`; the sections before it are in reverse. -/
def readLines : (fuel : Nat) → List Section → Section → List Token → Option (List Section)
  | 0, _, _, _ => none
  | fuel + 1, done, current, tokens =>
    match skipLines tokens with
    | [] => some (current :: done).reverse
    | .leftBracket :: rest =>
      match readHeader rest with
      | some (next, rest) => readLines fuel (current :: done) next rest
      | none => none
    | tokens =>
      match readPair current.pairs tokens with
      | some (pairs, rest) => readLines fuel done { current with pairs := pairs } rest
      | none => none

def Document.ofText? (text : String) : Option Document :=
  match tokens text with
  | none => none
  | some tokens =>
    match readLines (tokens.length + 1) [] ⟨[], false, []⟩ tokens with
    | some (root :: sections) => some ⟨root.pairs, sections⟩
    | _ => none

end ZoneStore.Toml
