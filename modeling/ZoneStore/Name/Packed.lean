import ZoneStore.Name.Buffer
import ZoneStore.Name.Presentation

/-!
# Names as they are stored

A stored name has its wire form beside the offset of each label's length
octet, one octet each. Labels and superdomains are reached through the
offsets. An access outside the octets, or a difference of offsets below
zero, has no result.
-/

namespace ZoneStore

open Text

/-- The octets from `start` up to `stop`, if they all exist. -/
def slice? (octets : List UInt8) (start stop : Nat) : Option (List UInt8) :=
  if start ≤ stop ∧ stop ≤ octets.length then some ((octets.drop start).take (stop - start))
  else none

namespace PackedName

def root : PackedName :=
  ⟨[0], [0]⟩

def labelCount (name : PackedName) : Nat :=
  name.offsets.length

def label? (name : PackedName) (n : Nat) : Option (List UInt8) :=
  match name.offsets[n]? with
  | none => none
  | some offset =>
    match name.wire[offset.toNat]? with
    | none => none
    | some length => slice? name.wire (offset.toNat + 1) (offset.toNat + 1 + length.toNat)

/-- An offset counted from `start`, which must not lie behind it. -/
def rebase? (start offset : UInt8) : Option UInt8 :=
  if start ≤ offset then some (offset - start) else none

/-- The name left when the first `skip` labels are removed, if it has that many. -/
def superdomain? (name : PackedName) (skip : Nat) : Option (Option PackedName) :=
  match name.offsets[skip]? with
  | none => some none
  | some start =>
    match (name.offsets.drop skip).mapM (rebase? start),
      slice? name.wire start.toNat name.wire.length with
    | some offsets, some wire => some (some ⟨wire, offsets⟩)
    | _, _ => none

/-- The octets of the first labels, one after the other. -/
def labels? (name : PackedName) (count : Nat) : Option (List (List UInt8)) :=
  (List.range count).mapM name.label?

/-- Whether the name equals `zone` or is a subdomain of it. -/
def isWithin? (name zone : PackedName) : Option Bool :=
  if zone.labelCount ≤ name.labelCount then
    match name.labels? name.labelCount, zone.labels? zone.labelCount with
    | some labels, some zoneLabels =>
      some ((labels.reverse.zip zoneLabels.reverse).all fun (a, b) => Name.sameLabel a b)
    | _, _ => none
  else
    some false

/-- Equality of names, read off their whole wire forms without a look at where labels start. -/
def same (name other : PackedName) : Bool :=
  sameOctets name.wire other.wire

/-- Writes the octets of the name into a hasher, every ASCII capital letter made small. -/
def hashInto {State : Type} (write : State → UInt8 → State) (state : State)
    (name : PackedName) : State :=
  name.wire.foldl (fun state octet => write state (lowerOctet octet)) state

/-- The octets that a hasher is fed, in order. -/
def fed (name : PackedName) : List UInt8 :=
  name.hashInto (fun octets octet => octets ++ [octet]) []

/-- The text of the name. -/
def toChars? (name : PackedName) : Option (List Char) :=
  match name.labelCount with
  | 0 => none
  | 1 => some ['.']
  | count + 1 => (name.labels? count).map fun labels => labels.flatMap Name.labelText

/-- A copy of the name, if there is memory for its octets. -/
def copy? (name : PackedName) (enough : Bool) : Option PackedName :=
  if enough then some ⟨name.wire, name.offsets⟩ else none

end PackedName

namespace Buffer

def readText (buffer : Buffer) : List UInt8 → Access PackedName
  | [] => buffer.finish
  | octet :: rest =>
    if octet = Name.backslash then
      match rest with
      | [] => some (.error .invalidEscape)
      | a :: rest =>
        if Name.isDigit a then
          match rest with
          | b :: c :: rest =>
            if Name.isDigit b && Name.isDigit c && Name.decimalValue a b c ≤ 255 then
              (buffer.push (Name.decimalValue a b c).toUInt8).andThen fun next =>
                next.readText rest
            else
              some (.error .invalidEscape)
          | _ => some (.error .invalidEscape)
        else
          (buffer.push a).andThen fun next => next.readText rest
    else if octet = Name.dot then
      buffer.close.andThen fun next => next.readText rest
    else if octet < 128 then
      (buffer.push octet).andThen fun next => next.readText rest
    else
      some (.error .notAscii)

def ofText (text : String) : Access PackedName :=
  if text.toList = [] then some (.error .emptyText)
  else if text.toList = ['.'] then some (.ok .root)
  else empty.readText (octetsOf text.toList)

end Buffer

end ZoneStore
