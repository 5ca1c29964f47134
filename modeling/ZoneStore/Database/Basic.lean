import ZoneStore.Database.Error
import ZoneStore.Record.Class
import ZoneStore.Rrset.Basic
import ZoneStore.Name.Basic

/-!
# Databases, nodes and RDATA sets

What a host asks of a database and what it gets: versions are opaque
tokens, a node is the data bound to one name, and an RDATA set is an RRset
with its class.
-/

namespace ZoneStore

inductive DatabaseKind where
  | zone
  | cache
deriving DecidableEq, Repr

def DatabaseKind.text : DatabaseKind → String
  | zone => "Zone"
  | cache => "Cache"

/-- An opaque token, which means something only to the database that issued it. -/
structure Version where
  raw : UInt32
deriving DecidableEq, Repr

/-- The only version of every database that asks a resolver. -/
def Version.sentinel : Version :=
  ⟨0x1da9db00⟩

structure FindOptions where
  glueOk : Bool := false
  noWildcard : Bool := false
  noExact : Bool := false
deriving DecidableEq, Repr

structure Node where
  owner : Name
  rrsets : RrsetList
deriving DecidableEq

structure Rdataset where
  recordClass : RecordClass
  rrset : Rrset
deriving DecidableEq

structure Found where
  node : Node
  foundName : Name
  rdataset : Rdataset
deriving DecidableEq

inductive FindResult where
  /-- The name owns an RRset of the type asked for. -/
  | success (found : Found)
  /-- The name owns a CNAME RRset instead. -/
  | cname (found : Found)
deriving DecidableEq

namespace FindResult

def found : FindResult → Found
  | success found => found
  | cname found => found

end FindResult

end ZoneStore
