import ZoneStore.Database.Error

/-!
# Operations with a fixed answer

Beside lookups a host may ask a database for much that a read-only database
over a resolver does not do. Each such operation has one answer, whatever
it is given; three of them must never be called on a read-only database.
-/

namespace ZoneStore

inductive AuxiliaryCall where
  | beginLoad
  | endLoad
  | dump
  | findZoneCut
  | expireNode
  | createIterator
  | allRdatasets
  | addRdataset
  | subtractRdataset
  | deleteRdataset
  | originNode
  | nsec3Parameters
  | findNsec3Node
  | setSigningTime
  | signingTime
  | isSecure
  | isPersistent
  | isDnssec
  | nodeCount
  | rrsetStatistics
  | printNode
  | transferNode
  | overMemory
  | setTask
  | resigned
deriving DecidableEq, Repr

inductive AuxiliaryAnswer where
  | refused (cause : DatabaseError)
  | truth (value : Bool)
  | count (value : Nat)
  | written (octets : List UInt8)
  /-- Whether the source and the target of a transfer hold a node afterwards. -/
  | held (source target : Bool)
  | done
deriving DecidableEq, Repr

namespace AuxiliaryCall

/-- The operation that a call is, if a read-only database forbids it. -/
def forbidden? : AuxiliaryCall → Option ForbiddenOperation
  | beginLoad => some .beginLoad
  | endLoad => some .endLoad
  | dump => some .dump
  | _ => none

def answer : AuxiliaryCall → AuxiliaryAnswer
  | isSecure => .truth false
  | isPersistent => .truth false
  | isDnssec => .truth false
  | nodeCount => .count 0
  | rrsetStatistics => .truth false
  | printNode => .written []
  | transferNode => .held true false
  | overMemory => .done
  | setTask => .done
  | resigned => .done
  | _ => .refused .notImplemented

end AuxiliaryCall

end ZoneStore
