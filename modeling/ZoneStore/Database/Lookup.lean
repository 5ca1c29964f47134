import ZoneStore.Database.Basic
import ZoneStore.Log
import ZoneStore.Name.Presentation
import ZoneStore.Resolver.Basic

/-!
# Lookups over a resolver

A database that asks a resolver keeps no records: each lookup resolves the
name and wraps the list it gets in a fresh node. The node and the answer
each own a copy of the name, for which memory can be short. A reply tells,
beside the result and the log, what became of lists on the way, so that it
can be checked that none is lost.
-/

namespace ZoneStore

inductive ListEvent where
  | received (rrsets : RrsetList)
  /-- The resolver had no list for the name. -/
  | refused (cause : DatabaseError)
  /-- An empty list was started for a name that the resolver does not know. -/
  | started
  | returned (rrsets : RrsetList)
deriving DecidableEq

namespace ListEvent

/-- The list that the resolver hands out. -/
def received? : ListEvent → Option RrsetList
  | received rrsets => some rrsets
  | _ => none

/-- The list that a lookup takes charge of, whether handed out by the resolver or started. -/
def entered? : ListEvent → Option RrsetList
  | received rrsets => some rrsets
  | started => some .empty
  | _ => none

def returned? : ListEvent → Option RrsetList
  | returned rrsets => some rrsets
  | _ => none

end ListEvent

/-- The copies of the name that a lookup finds memory for. -/
structure Memory where
  forOwner : Bool
  forFoundName : Bool
deriving DecidableEq, Repr

def Memory.ample : Memory :=
  ⟨true, true⟩

structure Reply (α : Type) where
  result : Outcome α
  events : List ListEvent
  log : Log

namespace Lookup

def boolText (value : Bool) : String :=
  if value then "true" else "false"

/-- What becomes of a list that a lookup has taken charge of: a node, or it goes straight back. -/
def newNode (memory : Memory) (name : Name) (rrsets : RrsetList) :
    Except DatabaseError Node × List ListEvent :=
  if memory.forOwner then (.ok ⟨name, rrsets⟩, []) else (.error .noMemory, [.returned rrsets])

/-- The reply for a list that a node is to be made of. -/
def replyWith (memory : Memory) (name : Name) (rrsets : RrsetList) (entry : List ListEvent)
    (asked : LogLine) : Reply Node :=
  match newNode memory name rrsets with
  | (.ok node, events) => ⟨.ok node, entry ++ events, [asked, traceLine "find_node: success"]⟩
  | (.error cause, events) => ⟨.error (.error cause), entry ++ events, [asked]⟩

/--
The node for a name. With `create` a partial match is taken, and an unknown name gets an
empty node.
-/
def findNode (resolver : Resolver) (name : Name) (create : Bool) (memory : Memory := .ample) :
    Reply Node :=
  let asked := traceLine ("find_node: name=" ++ name.toText ++ ", create=" ++ boolText create)
  match resolver.resolve name with
  | .ok (.exactMatch rrsets) => replyWith memory name rrsets [.received rrsets] asked
  | .ok (.partialMatch rrsets) =>
    if create then
      replyWith memory name rrsets [.received rrsets] asked
    else
      ⟨.error (.error .notFound), [.received rrsets, .returned rrsets],
        [asked, traceLine "find_node: partial match rejected"]⟩
  | .error cause =>
    if cause = .notFound ∧ create then
      replyWith memory name .empty [.refused cause, .started] asked
    else
      ⟨.error (.error cause), [.refused cause], [asked, traceLine ("find_node: " ++ cause.message)]⟩

/-- Whether a version may be given to a lookup: none, or the only one there is. -/
def admits (version : Option Version) : Bool :=
  version.all (· == .sentinel)

/-- The RRset of a type, or else that of type CNAME, with whether it is the second. -/
def selectOrAlias (resolver : Resolver) (rrsets : RrsetList) (type : RecordType) :
    Option (Rrset × Bool) :=
  match resolver.findType rrsets type with
  | .ok rrset => some (rrset, false)
  | .error _ =>
    (rrsets.rrsets.find? fun rrset => rrset.type = .cname).map fun rrset => (rrset, true)

def answer (node : Node) (rrset : Rrset) (isAlias : Bool) : FindResult :=
  let found : Found := ⟨node, node.owner, ⟨.internet, rrset⟩⟩
  if isAlias then .cname found else .success found

/-- The RRset of a type at a name, or its alias. A partial match is served as an exact one. -/
def find (resolver : Resolver) (name : Name) (version : Option Version) (type : RecordType)
    (_options : FindOptions) (_now : UInt32) (memory : Memory := .ample) : Reply FindResult :=
  let asked := traceLine ("find: name=" ++ name.toText ++ ", type=" ++ type.toText)
  if type = .any then ⟨.error (.violation .anyLookup), [], [asked]⟩
  else if !admits version then ⟨.error (.violation .foreignVersion), [], [asked]⟩
  else
    match resolver.resolve name with
    | .error cause => ⟨.error (.error cause), [.refused cause], [asked]⟩
    | .ok resolution =>
      let rrsets := resolution.rrsets
      let served :=
        if resolution.isPartial then
          [debugLine ("Serving partial match for " ++ name.toText ++ " as an exact match.")]
        else []
      match newNode memory name rrsets with
      | (.error cause, events) =>
        ⟨.error (.error cause), .received rrsets :: events, asked :: served⟩
      | (.ok node, events) =>
        match selectOrAlias resolver rrsets type with
        | some (rrset, isAlias) =>
          if memory.forFoundName then
            ⟨.ok (answer node rrset isAlias), .received rrsets :: events,
              asked :: served ++ [traceLine (if isAlias then "find: CNAME" else "find: success")]⟩
          else
            ⟨.error (.error .noMemory), .received rrsets :: events ++ [.returned rrsets],
              asked :: served⟩
        | none =>
          ⟨.error (.error .noSuchRrset), .received rrsets :: events ++ [.returned rrsets],
            asked :: served ++
              [traceLine ("find: no RRset of type " ++ type.toText ++ " or CNAME")]⟩

/-- The RRset of a type at a node. `covers` is the type that signatures cover; none is supported. -/
def findRdataset (resolver : Resolver) (node : Node) (version : Option Version)
    (type covers : RecordType) (_now : UInt32) : Outcome Rdataset :=
  if covers.code ≠ 0 then .error (.violation .coveredType)
  else if !admits version then .error (.violation .foreignVersion)
  else
    match resolver.findType node.rrsets type with
    | .ok rrset => .ok ⟨.internet, rrset⟩
    | .error cause => .error (.error cause)

end Lookup

end ZoneStore
