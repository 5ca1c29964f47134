import ZoneStore.Name.Draft

/-!
# Names on the wire

Reading the uncompressed wire form: length octets of at most 63, each
followed by that many octets, and a null label that must be the last octet.
-/

namespace ZoneStore.Name

/-- Reads octets into a draft; `due` octets of the pending label are still to come. -/
def readWire (draft : Draft) (due : Nat) : List UInt8 → Except NameError Name
  | [] => .error .unexpectedEnd
  | octet :: rest =>
    match due with
    | 0 =>
      if maxLabelLength < octet.toNat then .error .labelTooLong
      else if rest.length < octet.toNat then .error .unexpectedEnd
      else if octet = 0 then
        if rest.isEmpty then draft.finish else .error .extraData
      else readWire draft octet.toNat rest
    | due + 1 =>
      match draft.push octet with
      | .error e => .error e
      | .ok draft =>
        if due = 0 then
          match draft.close with
          | .error e => .error e
          | .ok draft => readWire draft 0 rest
        else
          readWire draft due rest

/-- The name whose uncompressed wire form is all of `octets`. -/
def ofWire (octets : List UInt8) : Except NameError Name :=
  readWire .empty 0 octets

end ZoneStore.Name
