/-!
# Tokens of a TOML document

A document is read as a sequence of tokens: marks, bare words, strings,
blanks, comments and line ends. A leading byte order mark is left out, and
a carriage return in front of a line feed is part of the line end. Strings
hold their value, with escapes resolved.
-/

namespace ZoneStore.Toml

inductive Token where
  | newline
  /-- A run of spaces and tabs, with whether it is a single space. -/
  | blank (single : Bool)
  | comment
  | equals
  | period
  | comma
  | colon
  | plus
  | leftBrace
  | rightBrace
  | leftBracket
  | rightBracket
  | text (value : String) (long : Bool)
  | bare (word : List Char)
deriving DecidableEq, Repr

def isTab (c : Char) : Bool :=
  c == ' ' || c == '\t'

def isBare (c : Char) : Bool :=
  c.isAlphanum || c == '-' || c == '_'

def isCommentChar (c : Char) : Bool :=
  c == '\t' || 0x20 ≤ c.toNat

def isTextChar (c : Char) : Bool :=
  isCommentChar c && c != '\x7f'

def markOf : Char → Option Token
  | '\n' => some .newline
  | '=' => some .equals
  | '.' => some .period
  | ',' => some .comma
  | ':' => some .colon
  | '+' => some .plus
  | '{' => some .leftBrace
  | '}' => some .rightBrace
  | '[' => some .leftBracket
  | ']' => some .rightBracket
  | _ => none

def shortEscape : Char → Option Char
  | '"' => some '"'
  | '\\' => some '\\'
  | 'b' => some '\x08'
  | 'f' => some '\x0c'
  | 'n' => some '\n'
  | 'r' => some '\r'
  | 't' => some '\t'
  | _ => none

def hexDigitValue (c : Char) : Option Nat :=
  if c.isDigit then some (c.toNat - '0'.toNat)
  else if 'a' ≤ c ∧ c ≤ 'f' then some (c.toNat - 'a'.toNat + 10)
  else if 'A' ≤ c ∧ c ≤ 'F' then some (c.toNat - 'A'.toNat + 10)
  else none

def charOfHex (digits : List Char) : Option Char :=
  match digits.mapM hexDigitValue with
  | some values =>
    let code := values.foldl (fun code value => 16 * code + value) 0
    if code.isValidChar then some (Char.ofNat code) else none
  | none => none

/-- What is left out behind a backslash at the end of a line in a long string. -/
inductive Skipping where
  | nothing
  /-- Spaces and tabs up to a line end that must come. -/
  | toLineEnd
  /-- Spaces, tabs and line ends. -/
  | lines
deriving DecidableEq, Repr

/--
Reads a string up to its closing quotes; `value` is what was read so far, in
reverse. A long string ends with three quotes, and one or two more in front of
them belong to it.
-/
def readText (quote : Char) (long : Bool) (skipping : Skipping) (value : List Char) :
    List Char → Option (List Char × List Char)
  | [] => none
  | c :: rest =>
    if skipping = .toLineEnd then
      if isTab c then readText quote long .toLineEnd value rest
      else if c = '\n' then readText quote long .lines value rest
      else none
    else if skipping = .lines ∧ (isTab c ∨ c = '\n') then
      readText quote long .lines value rest
    else if c = quote then
      if long then
        match rest with
        | d :: e :: rest =>
          if d = quote ∧ e = quote then
            let extra := (rest.takeWhile (· == quote)).length.min 2
            some ((List.replicate extra quote ++ value).reverse, rest.drop extra)
          else
            readText quote long .nothing (c :: value) (d :: e :: rest)
        | rest => readText quote long .nothing (c :: value) rest
      else
        some (value.reverse, rest)
    else if c = '\\' ∧ quote = '"' then
      match rest with
      | 'u' :: h :: i :: j :: k :: rest =>
        match charOfHex [h, i, j, k] with
        | some x => readText quote long .nothing (x :: value) rest
        | none => none
      | 'U' :: h :: i :: j :: k :: l :: m :: n :: o :: rest =>
        match charOfHex [h, i, j, k, l, m, n, o] with
        | some x => readText quote long .nothing (x :: value) rest
        | none => none
      | x :: rest =>
        match shortEscape x with
        | some x => readText quote long .nothing (x :: value) rest
        | none =>
          if !long then none
          else if isTab x then readText quote long .toLineEnd value rest
          else if x = '\n' then readText quote long .lines value rest
          else none
      | [] => none
    else if c = '\n' then
      if long then readText quote long .nothing (c :: value) rest else none
    else if isTextChar c then
      readText quote long .nothing (c :: value) rest
    else
      none

/-- Leaves out a line end that directly follows the opening quotes of a long string. -/
def dropLineEnd : List Char → List Char
  | '\n' :: rest => rest
  | rest => rest

def readString (quote : Char) (text : List Char) : Option (Token × List Char) :=
  if text.take 2 = [quote, quote] then
    (readText quote true .nothing [] (dropLineEnd (text.drop 2))).map fun (value, rest) =>
      (.text (String.ofList value) true, rest)
  else
    (readText quote false .nothing [] text).map fun (value, rest) =>
      (.text (String.ofList value) false, rest)

def readToken (c : Char) (rest : List Char) : Option (Token × List Char) :=
  match markOf c with
  | some mark => some (mark, rest)
  | none =>
    if isTab c then
      some (.blank (c == ' ' && !(rest.head?.any isTab)), rest.dropWhile isTab)
    else if c = '#' then some (.comment, rest.dropWhile isCommentChar)
    else if c = '\'' ∨ c = '"' then readString c rest
    else if isBare c then some (.bare (c :: rest.takeWhile isBare), rest.dropWhile isBare)
    else none

/-- Reads at most `fuel` tokens; those read so far are held in reverse. -/
def tokensWithin : (fuel : Nat) → List Token → List Char → Option (List Token)
  | _, tokens, [] => some tokens.reverse
  | 0, _, _ :: _ => none
  | fuel + 1, tokens, c :: rest =>
    match readToken c rest with
    | some (token, rest) => tokensWithin fuel (token :: tokens) rest
    | none => none

/-- Makes every carriage return and line feed one line feed; `done` is held in reverse. -/
def joinLineEnds (done : List Char) : List Char → List Char
  | [] => done.reverse
  | '\r' :: '\n' :: rest => joinLineEnds ('\n' :: done) rest
  | c :: rest => joinLineEnds (c :: done) rest

def dropMark : List Char → List Char
  | '\uFEFF' :: rest => rest
  | text => text

def tokens (text : String) : Option (List Token) :=
  let chars := joinLineEnds [] (dropMark text.toList)
  tokensWithin chars.length [] chars

end ZoneStore.Toml
