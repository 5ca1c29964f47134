import ZoneStore.Text.Decimal

/-!
# Times to live

A time to live is a number of seconds below 2^31. A larger 32-bit value
means zero when it comes with a record, and is refused when it is written
in a setting.
-/

namespace ZoneStore

open Text

def maxTtl : Nat := 2147483647

@[ext]
structure Ttl where
  seconds : Nat
  seconds_le : seconds ≤ maxTtl
deriving DecidableEq

inductive TtlError where
  | tooLarge
  | notNumber
deriving DecidableEq, Repr

def TtlError.message : TtlError → String
  | tooLarge => "TTL is larger than 2147483647 seconds"
  | notNumber => "TTL is not a valid unsigned integer"

namespace Ttl

/-- The time to live of a record that gives `value`: zero if it is out of range. -/
def ofRecord (value : Nat) : Ttl :=
  if h : value ≤ maxTtl then ⟨value, h⟩ else ⟨0, Nat.zero_le _⟩

def maxWord : Nat := 4294967295

def ofChars (text : List Char) : Except TtlError Ttl :=
  match readUnsigned maxWord text with
  | some value => if h : value ≤ maxTtl then .ok ⟨value, h⟩ else .error .tooLarge
  | none => .error .notNumber

def ofText (text : String) : Except TtlError Ttl :=
  ofChars text.toList

def toText (ttl : Ttl) : String :=
  decimalText ttl.seconds

end Ttl

end ZoneStore
