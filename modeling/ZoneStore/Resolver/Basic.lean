import ZoneStore.Database.Error
import ZoneStore.Name.Basic
import ZoneStore.Rrset.Basic

/-!
# Resolvers

A resolver turns a name into the RRsets bound to it. When nothing is bound
to the name itself but something lies near it, the answer is a partial
match. The lists it hands out are given back to it when they are no longer
needed.
-/

namespace ZoneStore

inductive Resolution where
  | exactMatch (rrsets : RrsetList)
  /-- The closest RRsets, possibly none, where nothing is bound to the name. -/
  | partialMatch (rrsets : RrsetList)
deriving DecidableEq

namespace Resolution

def isPartial : Resolution → Bool
  | exactMatch _ => false
  | partialMatch _ => true

def rrsets : Resolution → RrsetList
  | exactMatch rrsets => rrsets
  | partialMatch rrsets => rrsets

end Resolution

/-- Selects the RRset of a type from a list that a resolver handed out. -/
def RrsetList.select (rrsets : RrsetList) (type : RecordType) : Except DatabaseError Rrset :=
  match rrsets.find? type with
  | some rrset => .ok rrset
  | none => .error .notFound

structure Resolver where
  resolve : Name → Except DatabaseError Resolution
  /-- The RRset of a type in a list that the resolver handed out; selected unless it says else. -/
  findType : RrsetList → RecordType → Except DatabaseError Rrset := RrsetList.select

end ZoneStore
