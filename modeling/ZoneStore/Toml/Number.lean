import ZoneStore.Toml.Token

/-!
# Numbers of a TOML document

Integers are signed 64-bit numbers in base ten, sixteen, eight or two, with
single underscores between digits and, in base ten, no leading zeros.
Fractional numbers are only checked: they must be well formed and not round
to infinity in double precision.
-/

namespace ZoneStore.Toml

def digitIn (base : Nat) (c : Char) : Option Nat :=
  match hexDigitValue c with
  | some value => if value < base then some value else none
  | none => none

/-- A run of digits: an optional sign, the digits' values, and what follows them. -/
structure DigitRun where
  negative : Bool
  digits : List Nat
  rest : List Char

/-- Whether single underscores separate the digits of a run and nothing else does. -/
def separatorsOk : (afterDigit : Bool) → List Char → Bool
  | afterDigit, [] => afterDigit
  | afterDigit, c :: rest =>
    if c = '_' then afterDigit && separatorsOk false rest else separatorsOk true rest

def takeSign : List Char → Bool × List Char
  | '-' :: rest => (true, rest)
  | '+' :: rest => (false, rest)
  | rest => (false, rest)

def readDigits (base : Nat) (signed leadingZeros : Bool) (word : List Char) : Option DigitRun :=
  let (negative, body) := if signed then takeSign word else (false, word)
  let isMember := fun c => c == '_' || (digitIn base c).isSome
  let run := body.takeWhile isMember
  let digits := run.filterMap (digitIn base)
  if !separatorsOk false run then none
  else if !leadingZeros && digits.head? == some 0 && 1 < digits.length then none
  else some ⟨negative, digits, body.dropWhile isMember⟩

def valueIn (base : Nat) (digits : List Nat) : Nat :=
  digits.foldl (fun value digit => base * value + digit) 0

def readInteger (base : Nat) (word : List Char) : Option Int :=
  match readDigits base (base == 10) (base != 10) word with
  | some ⟨negative, digits, []⟩ =>
    let size : Int := valueIn base digits
    let value := if negative then -size else size
    if -9223372036854775808 ≤ value ∧ value ≤ 9223372036854775807 then some value else none
  | _ => none

/-- Whether `digits` times ten to the power `exponent` stays below the doubles' range. -/
def isFinite (digits : List Nat) (exponent : Int) : Bool :=
  let significant := digits.dropWhile (· == 0)
  let value := valueIn 10 significant
  let places : Int := significant.length + exponent
  if significant.isEmpty || places ≤ 308 then true
  else if 310 ≤ places then false
  else
    let limit := Nat.pow 2 1024 - Nat.pow 2 970
    if 0 ≤ exponent then value * Nat.pow 10 exponent.toNat < limit
    else value < limit * Nat.pow 10 (-exponent).toNat

/-- The exponent that ends a number's last word, read together with the tokens that follow it. -/
def readExponent (suffix : List Char) (tokens : List Token) : Option (Int × List Token) :=
  match suffix with
  | [] => some (0, tokens)
  | e :: word =>
    if e ≠ 'e' ∧ e ≠ 'E' then none
    else if word.isEmpty then
      let tokens := if tokens.head? = some .plus then tokens.drop 1 else tokens
      match tokens with
      | .bare word :: tokens =>
        match readDigits 10 false true word with
        | some ⟨_, digits, []⟩ => some (valueIn 10 digits, tokens)
        | _ => none
      | _ => none
    else
      match readDigits 10 true true word with
      | some ⟨negative, digits, []⟩ =>
        let size : Int := valueIn 10 digits
        some (if negative then -size else size, tokens)
      | _ => none

/-- Checks a fractional number; `fraction` is the word behind the point, if there is one. -/
def checkFractional (word : List Char) (fraction : Option (List Char)) (tokens : List Token) :
    Option (List Token) :=
  match readDigits 10 true false word with
  | none => none
  | some whole =>
    match fraction with
    | none =>
      match readExponent whole.rest tokens with
      | some (exponent, tokens) => if isFinite whole.digits exponent then some tokens else none
      | none => none
    | some fraction =>
      if !whole.rest.isEmpty then none
      else
        match readDigits 10 false true fraction with
        | none => none
        | some part =>
          match readExponent part.rest tokens with
          | some (exponent, tokens) =>
            if isFinite (whole.digits ++ part.digits) (exponent - part.digits.length) then
              some tokens
            else
              none
          | none => none

end ZoneStore.Toml
