import ZoneStore.Host.Nodes

/-!
# Calls on databases

A caller looks names up in databases, and shares and gives back the nodes
that it got, in any order and as long as it likes. Each lookup may run short
of memory, and from one call to the next a resolver may come to answer in
another way.
-/

namespace ZoneStore

inductive NodeCall where
  | find (database : DatabaseId) (name : Name) (version : Option Version) (type : RecordType)
      (options : FindOptions) (now : UInt32) (memory : Memory)
  | findNode (database : DatabaseId) (name : Name) (create : Bool) (memory : Memory)
  | findRdataset (database : DatabaseId) (node : NodeId) (version : Option Version)
      (type covers : RecordType) (now : UInt32)
  | attachNode (node : NodeId)
  | detachNode (database : DatabaseId) (node : NodeId)
  /-- The resolver answers like `source` from here on; no database is called. -/
  | revise (resolver : ResolverId) (source : Resolver)

namespace NodeCall

def database? : NodeCall → Option DatabaseId
  | find database _ _ _ _ _ _ => some database
  | findNode database _ _ _ => some database
  | findRdataset database _ _ _ _ _ => some database
  | attachNode _ => none
  | detachNode database _ => some database
  | revise _ _ => none

def attaches (node : NodeId) : NodeCall → Bool
  | attachNode other => other == node
  | _ => false

def detaches (node : NodeId) : NodeCall → Bool
  | detachNode _ other => other == node
  | _ => false

/-- The list that a resolver hands out to a call, if it has one and the call gets to ask. -/
def handedOut? (source : Resolver) : NodeCall → Option RrsetList
  | find _ name version type _ _ _ =>
    if type = .any ∨ !Lookup.admits version then none
    else (source.resolve name).toOption.map Resolution.rrsets
  | findNode _ name _ _ => (source.resolve name).toOption.map Resolution.rrsets
  | _ => none

/-- Whether a call starts an empty list for a name that the resolver does not know. -/
def starts (source : Resolver) : NodeCall → Bool
  | findNode _ name create _ =>
    match source.resolve name with
    | .error .notFound => create
    | _ => false
  | _ => false

/-- The database that is called, if any, asks the given resolver. -/
def IsOver (call : NodeCall) (host : Host) (resolver : ResolverId) : Prop :=
  ∀ database, call.database? = some database →
    ∃ origin, host.database? database = some (.resolving origin resolver)

end NodeCall

namespace Host

def revise (host : Host) (resolver : ResolverId) (source : Resolver) : Host :=
  { host with
    resolvers := List.map (fun entry =>
      if entry.number == resolver then { entry with value := source } else entry) host.resolvers }

def perform (host : Host) : NodeCall → Host
  | .find database name version type options now memory =>
    (host.find database name version type options now memory).host
  | .findNode database name create memory => (host.findNode database name create memory).host
  | .findRdataset _ _ _ _ _ _ => host
  | .attachNode node => host.attachNode node
  | .detachNode database node => host.detachNode database node
  | .revise resolver source => host.revise resolver source

def fails (host : Host) : NodeCall → Bool
  | .find database name version type options now memory =>
    !(host.find database name version type options now memory).result.isOk
  | .findNode database name create memory =>
    !(host.findNode database name create memory).result.isOk
  | .findRdataset database node version type covers now =>
    !(host.findRdataset database node version type covers now).isOk
  | _ => false

def run (host : Host) (calls : List NodeCall) : Host :=
  calls.foldl perform host

def handlesOf (host : Host) (node : NodeId) : Nat :=
  host.nodes.ownersOf node

/-- The number of nodes that someone has a handle to. -/
def heldNodes (host : Host) : Nat :=
  List.countP (fun entry => 1 ≤ entry.owners) host.nodes

/-! ## What becomes of lists -/

def receivedFrom (host : Host) (resolver : ResolverId) : Nat :=
  ((host.eventsOf resolver).filterMap ListEvent.received?).length

def startedFor (host : Host) (resolver : ResolverId) : Nat :=
  (host.eventsOf resolver).count .started

def newEvents (host : Host) (call : NodeCall) : List ListEvent :=
  ((host.perform call).events.drop host.events.length).map Prod.snd

def enteredBy (host : Host) (call : NodeCall) : List RrsetList :=
  (host.newEvents call).filterMap ListEvent.entered?

def returnedBy (host : Host) (call : NodeCall) : List RrsetList :=
  (host.newEvents call).filterMap ListEvent.returned?

/-- The lists that detaching a node gives back in the course of some calls. -/
def releasesOf (host : Host) (node : NodeId) : List NodeCall → List RrsetList
  | [] => []
  | call :: calls =>
    (if call.detaches node then host.returnedBy call else []) ++
      (host.perform call).releasesOf node calls

end Host

end ZoneStore
