import ZoneStore.Text.Caseless

/-!
# Domain names

A fully qualified domain name is the list of its non-null labels; the
terminal null label is implicit. Labels hold one to 63 octets and the
whole name at most 255 octets on the wire, and both bounds are part of the
types. The wire form, the offset of each label within it, superdomains,
equality without regard to letter case and enclosure are read off the list.
-/

namespace ZoneStore

open Text

def maxLabelLength : Nat := 63

def maxWireLength : Nat := 255

@[ext]
structure Label where
  octets : List UInt8
  ne_nil : octets ≠ []
  length_le : octets.length ≤ maxLabelLength
deriving DecidableEq

namespace Label

/-- The octets a label takes on the wire, its length octet included. -/
def wireLength (label : Label) : Nat :=
  label.octets.length + 1

def wire (label : Label) : List UInt8 :=
  label.octets.length.toUInt8 :: label.octets

theorem length_wire (label : Label) : label.wire.length = label.wireLength := rfl

end Label

/-- The octets a run of labels takes on the wire, without the terminal null label. -/
def wireLengthOf : List Label → Nat
  | [] => 0
  | label :: labels => label.wireLength + wireLengthOf labels

@[simp]
theorem wireLengthOf_nil : wireLengthOf [] = 0 := rfl

@[simp]
theorem wireLengthOf_cons (label : Label) (labels : List Label) :
    wireLengthOf (label :: labels) = label.wireLength + wireLengthOf labels := rfl

theorem wireLengthOf_append (front back : List Label) :
    wireLengthOf (front ++ back) = wireLengthOf front + wireLengthOf back := by
  induction front with
  | nil => simp
  | cons label front ih => simp [ih, Nat.add_assoc]

theorem wireLengthOf_reverse (labels : List Label) :
    wireLengthOf labels.reverse = wireLengthOf labels := by
  induction labels with
  | nil => rfl
  | cons label labels ih => simp [wireLengthOf_append, ih, Nat.add_comm]

theorem wireLengthOf_drop_le (skip : Nat) (labels : List Label) :
    wireLengthOf (labels.drop skip) ≤ wireLengthOf labels := by
  have h := wireLengthOf_append (labels.take skip) (labels.drop skip)
  rw [List.take_append_drop] at h
  omega

@[ext]
structure Name where
  labels : List Label
  wireLength_le : wireLengthOf labels + 1 ≤ maxWireLength
deriving DecidableEq

namespace Name

def root : Name :=
  ⟨[], by decide⟩

def isRoot (name : Name) : Bool :=
  name.labels.isEmpty

/-- The number of labels, the terminal null label included. -/
def labelCount (name : Name) : Nat :=
  name.labels.length + 1

/-- The octets of every label in order, the terminal null label included. -/
def labelOctets (name : Name) : List (List UInt8) :=
  name.labels.map Label.octets ++ [[]]

theorem length_labelOctets (name : Name) : name.labelOctets.length = name.labelCount := by
  simp [labelOctets, labelCount]

def label? (name : Name) (n : Nat) : Option (List UInt8) :=
  name.labelOctets[n]?

def wire (name : Name) : List UInt8 :=
  name.labels.flatMap Label.wire ++ [0]

/-- The positions of the length octets of `labels` and of the null label after them. -/
def offsetsFrom (start : Nat) : List Label → List Nat
  | [] => [start]
  | label :: labels => start :: offsetsFrom (start + label.wireLength) labels

/-- The position of each label's length octet in the wire form. -/
def offsets (name : Name) : List Nat :=
  offsetsFrom 0 name.labels

/-- The name left when the first `skip` labels are removed, if it has that many. -/
def superdomain? (name : Name) (skip : Nat) : Option Name :=
  if skip < name.labelCount then
    some ⟨name.labels.drop skip,
      Nat.le_trans (Nat.add_le_add_right (wireLengthOf_drop_le skip name.labels) 1)
        name.wireLength_le⟩
  else
    none

/-- Every name that properly encloses this one, nearest first, down to the root. -/
def properSuperdomains (name : Name) : List Name :=
  (List.range' 1 (name.labelCount - 1)).filterMap name.superdomain?

/-- The wire form with every ASCII capital letter made small. -/
def caselessWire (name : Name) : List UInt8 :=
  name.wire.map lowerOctet

/-- Equality of names, in which the case of ASCII letters does not count. -/
def same (a b : Name) : Bool :=
  a.caselessWire == b.caselessWire

/-- Equality of labels, in which the case of ASCII letters does not count. -/
def sameLabel (a b : List UInt8) : Bool :=
  a.map lowerOctet == b.map lowerOctet

/-- Whether a name equals `zone` or is a subdomain of it: their labels agree from the last on. -/
def isWithin (name zone : Name) : Bool :=
  zone.labelCount ≤ name.labelCount &&
    (name.labelOctets.reverse.zip zone.labelOctets.reverse).all fun (a, b) => sameLabel a b

end Name

end ZoneStore
