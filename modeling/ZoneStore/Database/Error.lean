import ZoneStore.Violation

/-!
# Outcomes of database operations

An operation can fail in ways that its caller is expected to handle, and
its caller can violate a precondition; otherwise it gives a value.
-/

namespace ZoneStore

/-- The operations that must never be called on a read-only database. -/
inductive ForbiddenOperation where
  | beginLoad
  | endLoad
  | dump
deriving DecidableEq, Repr

def ForbiddenOperation.message : ForbiddenOperation → String
  | beginLoad => "beginload"
  | endLoad => "endload"
  | dump => "dump"

inductive DatabaseError where
  | noMemory
  /-- The name, or the object asked for, does not exist. -/
  | notFound
  /-- The name exists but has no RRset of the type asked for. -/
  | noSuchRrset
  | notImplemented
  | alreadyExists
  | unreachable (operation : ForbiddenOperation)
deriving DecidableEq, Repr

namespace DatabaseError

def message : DatabaseError → String
  | noMemory => "out of memory"
  | notFound => "not found"
  | noSuchRrset => "no such RRset"
  | notImplemented => "not implemented"
  | alreadyExists => "already exists"
  | unreachable operation => operation.message ++ " must never be called on this database"

def isFatal : DatabaseError → Bool
  | unreachable _ => true
  | _ => false

end DatabaseError

inductive Failure where
  | error (cause : DatabaseError)
  | violation (cause : Violation)
deriving DecidableEq, Repr

abbrev Outcome (α : Type) := Except Failure α

end ZoneStore
