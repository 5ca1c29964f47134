import ZoneStore.Name.Basic
import ZoneStore.Name.Error

/-!
# Names written in place

The wire form of a name is written into a buffer of 255 octets as its
labels are read, beside a buffer of 128 label offsets. The length octet of
the open label stands before its octets and is raised with each of them. A
step can refuse with an error of the name; a step that would touch a place
outside a buffer has no result at all.
-/

namespace ZoneStore

def maxLabelCount : Nat := 128

structure PackedName where
  wire : List UInt8
  offsets : List UInt8
deriving DecidableEq, Repr

def Name.packed (name : Name) : PackedName :=
  ⟨name.wire, name.offsets.map Nat.toUInt8⟩

abbrev Access (α : Type) := Option (Except NameError α)

def Access.andThen {α β : Type} (access : Access α) (next : α → Access β) : Access β :=
  match access with
  | none => none
  | some (.error e) => some (.error e)
  | some (.ok value) => next value

structure Buffer where
  wire : List UInt8
  offsets : List UInt8
  labelStart : Nat
deriving DecidableEq, Repr

namespace Buffer

def empty : Buffer :=
  ⟨[0], [0], 0⟩

def push (buffer : Buffer) (octet : UInt8) : Access Buffer :=
  match buffer.wire[buffer.labelStart]? with
  | none => none
  | some length =>
    if maxLabelLength ≤ length.toNat then some (.error .labelTooLong)
    else if maxWireLength ≤ buffer.wire.length then some (.error .nameTooLong)
    else
      some (.ok { buffer with
        wire := (buffer.wire ++ [octet]).set buffer.labelStart (length + 1) })

def pushAll (buffer : Buffer) : List UInt8 → Access Buffer
  | [] => some (.ok buffer)
  | octet :: octets => (buffer.push octet).andThen fun next => next.pushAll octets

def close (buffer : Buffer) : Access Buffer :=
  match buffer.wire[buffer.labelStart]? with
  | none => none
  | some length =>
    if length = 0 then some (.error .nullNonTerminal)
    else if maxWireLength ≤ buffer.wire.length then some (.error .nameTooLong)
    else if maxLabelCount ≤ buffer.offsets.length then some (.error .nameTooLong)
    else
      some (.ok ⟨buffer.wire ++ [0], buffer.offsets ++ [buffer.wire.length.toUInt8],
        buffer.wire.length⟩)

def finish (buffer : Buffer) : Access PackedName :=
  match buffer.wire[buffer.labelStart]? with
  | none => none
  | some length =>
    if length = 0 then some (.ok ⟨buffer.wire, buffer.offsets⟩)
    else some (.error .nonNullTerminal)

/-- Reads the labels that start at `cursor`, up to the null label at the end of `octets`. -/
def readFrom (octets : List UInt8) (buffer : Buffer) (cursor : Nat) : Access PackedName :=
  match octets[cursor]? with
  | none => some (.error .unexpectedEnd)
  | some length =>
    if maxLabelLength < length.toNat then some (.error .labelTooLong)
    else if octets.length < cursor + 1 + length.toNat then some (.error .unexpectedEnd)
    else if length = 0 then
      if cursor + 1 = octets.length then buffer.finish else some (.error .extraData)
    else
      (buffer.pushAll ((octets.drop (cursor + 1)).take length.toNat)).andThen fun filled =>
        filled.close.andThen fun next => readFrom octets next (cursor + 1 + length.toNat)
termination_by octets.length - cursor

def ofWire (octets : List UInt8) : Access PackedName :=
  readFrom octets empty 0

end Buffer

end ZoneStore
