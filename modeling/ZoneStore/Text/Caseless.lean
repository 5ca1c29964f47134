/-!
# ASCII letter case

Names, mnemonics and class texts compare without regard to the case of the
ASCII letters; every other character or octet stands for itself.
-/

namespace ZoneStore.Text

def lowerOctet (octet : UInt8) : UInt8 :=
  if 65 ≤ octet ∧ octet ≤ 90 then octet + 32 else octet

/-- Equality of octets one by one, up to the case of ASCII letters. -/
def sameOctets (a b : List UInt8) : Bool :=
  a.length == b.length && (a.zip b).all fun (a, b) => lowerOctet a == lowerOctet b

def lowerChar (c : Char) : Char :=
  if 'A' ≤ c ∧ c ≤ 'Z' then Char.ofNat (c.toNat + 32) else c

def lower (text : List Char) : List Char :=
  text.map lowerChar

theorem lower_append (front back : List Char) : lower (front ++ back) = lower front ++ lower back :=
  List.map_append

theorem length_lower (text : List Char) : (lower text).length = text.length :=
  List.length_map lowerChar

/-- Equality up to the case of ASCII letters. -/
def sameCaseless (a b : String) : Bool :=
  lower a.toList == lower b.toList

theorem sameCaseless_iff {a b : String} :
    sameCaseless a b = true ↔ lower a.toList = lower b.toList := by
  simp [sameCaseless]

theorem sameOctets_iff {a b : List UInt8} :
    sameOctets a b = true ↔ a.map lowerOctet = b.map lowerOctet := by
  induction a generalizing b with
  | nil => cases b <;> simp [sameOctets]
  | cons octet a ih =>
    cases b with
    | nil => simp [sameOctets]
    | cons other b =>
      rw [List.map_cons, List.map_cons, List.cons.injEq, ← ih]
      simp [sameOctets, and_left_comm]

end ZoneStore.Text
