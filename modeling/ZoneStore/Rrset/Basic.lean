import ZoneStore.Record.Rdata
import ZoneStore.Record.Ttl
import ZoneStore.Rrset.Bisect

/-!
# RRsets

An RRset is all the data of one type at one name, with their common time to
live; it holds at least one item. A list of RRsets holds at most one of
each type, in order of type code. Adding a record extends the RRset of its
type, in which repeated data count once and no second time to live is
allowed.
-/

namespace ZoneStore

structure Rrset where
  type : RecordType
  ttl : Ttl
  rdatas : List Rdata
  rdatas_ne_nil : rdatas ≠ []
deriving DecidableEq

inductive AddError where
  | ttlMismatch
deriving DecidableEq, Repr

def AddError.message : AddError → String
  | ttlMismatch => "TTL does not match the rest of the RRset"

namespace Rrset

def key (rrset : Rrset) : Nat :=
  rrset.type.code.toNat

def single (type : RecordType) (ttl : Ttl) (rdata : Rdata) : Rrset :=
  ⟨type, ttl, [rdata], by simp⟩

def insert (rrset : Rrset) (rdata : Rdata) : Rrset :=
  if rdata ∈ rrset.rdatas then rrset
  else { rrset with rdatas := rrset.rdatas ++ [rdata], rdatas_ne_nil := by simp }

/-- Adds a record's data under its time to live, which must be the RRset's own. -/
def add (rrset : Rrset) (ttl : Ttl) (rdata : Rdata) : Except AddError Rrset :=
  if rrset.ttl = ttl then .ok (rrset.insert rdata) else .error .ttlMismatch

@[simp]
theorem type_insert (rrset : Rrset) (rdata : Rdata) : (rrset.insert rdata).type = rrset.type := by
  unfold insert
  split <;> rfl

@[simp]
theorem key_insert (rrset : Rrset) (rdata : Rdata) : (rrset.insert rdata).key = rrset.key := by
  simp [key]

theorem key_of_add {rrset added : Rrset} {ttl : Ttl} {rdata : Rdata}
    (h : rrset.add ttl rdata = .ok added) : added.key = rrset.key := by
  unfold add at h
  split at h
  · simp only [Except.ok.injEq] at h
    simp [← h]
  · simp at h

def first (rrset : Rrset) : Rdata :=
  rrset.rdatas.head rrset.rdatas_ne_nil

end Rrset

structure RrsetList where
  rrsets : List Rrset
  ordered : OrderedBy Rrset.key rrsets
deriving DecidableEq

namespace RrsetList

def empty : RrsetList :=
  ⟨[], List.Pairwise.nil⟩

def size (list : RrsetList) : Nat :=
  list.rrsets.length

def isEmpty (list : RrsetList) : Bool :=
  list.rrsets.isEmpty

def splitAt (list : RrsetList) (type : RecordType) : Split Rrset :=
  bisect Rrset.key type.code.toNat list.rrsets

def find? (list : RrsetList) (type : RecordType) : Option Rrset :=
  (list.splitAt type).found

/-- The list with the RRset of one type put in the place of what it holds for that type. -/
def put (list : RrsetList) (type : RecordType) (rrset : Rrset)
    (h : rrset.key = type.code.toNat) : RrsetList :=
  ⟨(list.splitAt type).below ++ rrset :: (list.splitAt type).above,
    orderedBy_bisect_insert list.ordered h⟩

def add (list : RrsetList) (type : RecordType) (ttl : Ttl) (rdata : Rdata) :
    Except AddError RrsetList :=
  match hFind : list.find? type with
  | none => .ok (list.put type (.single type ttl rdata) rfl)
  | some rrset =>
    match hAdd : rrset.add ttl rdata with
    | .error e => .error e
    | .ok added =>
      .ok (list.put type added ((Rrset.key_of_add hAdd).trans (key_found_bisect hFind)))

end RrsetList

end ZoneStore
