import ZoneStore.Text.Caseless
import ZoneStore.Text.Octets

/-!
# Texts as they are stored

A stored text is compared octet by octet and cut at an octet position. A
position behind the end of the text or inside a character has no part of the
text in front of it and none behind it.
-/

namespace ZoneStore.Text

/-- Equality of the stored octets up to the case of ASCII letters. -/
def sameStored (a b : String) : Bool :=
  sameOctets (octetsOf a.toList) (octetsOf b.toList)

/-- The part of the text in front of an octet position. -/
def frontOf? (text : String) (position : Nat) : Option String :=
  (text.pos? ⟨position⟩).map fun place => (text.sliceTo place).copy

/-- The part of the text from an octet position on. -/
def backOf? (text : String) (position : Nat) : Option String :=
  (text.pos? ⟨position⟩).map fun place => (text.sliceFrom place).copy

end ZoneStore.Text
