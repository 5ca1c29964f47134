/-!
# Decimal numbers

Unsigned numbers are read with an optional leading plus sign and written
without one. A read fails on an empty digit string, on any character that
is not an ASCII digit, and on a value above the given bound.
-/

namespace ZoneStore.Text

/-- The value of a string of ASCII digits, first digit highest. -/
def digitsValue (digits : List Char) : Nat :=
  digits.foldl (fun value c => 10 * value + (c.toNat - '0'.toNat)) 0

def dropPlus : List Char → List Char
  | '+' :: digits => digits
  | digits => digits

def readUnsigned (bound : Nat) (text : List Char) : Option Nat :=
  let digits := dropPlus text
  if !digits.isEmpty && digits.all Char.isDigit && digitsValue digits ≤ bound then
    some (digitsValue digits)
  else
    none

def decimal (value : Nat) : List Char :=
  Nat.toDigits 10 value

def decimalText (value : Nat) : String :=
  String.ofList (decimal value)

/-- Exactly three digits, for values below a thousand. -/
def threeDigits (value : Nat) : List Char :=
  [Nat.digitChar (value / 100), Nat.digitChar (value / 10 % 10), Nat.digitChar (value % 10)]

theorem isDigit_digitChar_of_lt {digit : Nat} (h : digit < 10) :
    (Nat.digitChar digit).isDigit = true := by
  rw [Nat.isDigit_digitChar, decide_eq_true h]

theorem digitsValue_threeDigits {value : Nat} (h : value < 1000) :
    digitsValue (threeDigits value) = value := by
  have hZero : '0'.toNat = 48 := rfl
  simp only [digitsValue, threeDigits, List.foldl_cons, List.foldl_nil, hZero,
    Nat.add_sub_cancel_left, Nat.toNat_digitChar_of_lt_ten (show value / 100 < 10 by omega),
    Nat.toNat_digitChar_of_lt_ten (Nat.mod_lt (value / 10) (by decide)),
    Nat.toNat_digitChar_of_lt_ten (Nat.mod_lt value (by decide))]
  omega

end ZoneStore.Text
