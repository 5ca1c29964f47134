import ZoneStore.Host.Databases

/-!
# Nodes that callers hold

A lookup puts its node on the host's shelf, with the caller as the owner.
The database on which the last handle is detached gives the node's list
back to its resolver; a handle that is merely dropped gives nothing back.
-/

namespace ZoneStore.Host

def keepNode (host : Host) (node : Node) : Host × NodeId :=
  ({ host with nodes := host.nodes.put host.fresh node, fresh := host.fresh + 1 }, host.fresh)

def node? (host : Host) (id : NodeId) : Option Node :=
  host.nodes.find? id

/-- Carries out a lookup that yields a node in a database over a resolver. -/
def carryOut {α : Type} (host : Host) (resolver : ResolverId) (reply : Reply α)
    (nodeOf : α → Node) : Step (Outcome (α × NodeId)) :=
  let host := host.record resolver reply.events
  match reply.result with
  | .error failure => ⟨host, .error failure, reply.log⟩
  | .ok value =>
    let (host, id) := host.keepNode (nodeOf value)
    ⟨host, .ok (value, id), reply.log⟩

/-- Finds a node; a handle to no database, or to a stub, finds nothing. -/
def findNode (host : Host) (database : DatabaseId) (name : Name) (create : Bool)
    (memory : Memory := .ample) : Step (Outcome (Node × NodeId)) :=
  match host.database? database with
  | some (.resolving _ resolver) =>
    match host.resolvers.find? resolver with
    | some source => host.carryOut resolver (Lookup.findNode source name create memory) id
    | none => ⟨host, .error (.error .notFound), []⟩
  | _ => ⟨host, .error (.error .notFound), []⟩

def find (host : Host) (database : DatabaseId) (name : Name) (version : Option Version)
    (type : RecordType) (options : FindOptions) (now : UInt32) (memory : Memory := .ample) :
    Step (Outcome (FindResult × NodeId)) :=
  match host.database? database with
  | some (.resolving _ resolver) =>
    match host.resolvers.find? resolver with
    | some source =>
      host.carryOut resolver (Lookup.find source name version type options now memory)
        fun result => result.found.node
    | none => ⟨host, .error (.error .notFound), []⟩
  | _ => ⟨host, .error (.error .notFound), []⟩

def findRdataset (host : Host) (database : DatabaseId) (node : NodeId) (version : Option Version)
    (type covers : RecordType) (now : UInt32) : Outcome Rdataset :=
  match host.database? database, host.node? node with
  | some (.resolving _ resolver), some node =>
    match host.resolvers.find? resolver with
    | some source => Lookup.findRdataset source node version type covers now
    | none => .error (.error .notFound)
  | _, _ => .error (.error .notFound)

def attachNode (host : Host) (node : NodeId) : Host :=
  { host with nodes := host.nodes.share node }

/-- Drops a handle to a node, and gives the node if the handle was the last. -/
def dropNode (host : Host) (node : NodeId) : Host × Option Node :=
  let (nodes, last) := host.nodes.release node
  ({ host with nodes := nodes }, last)

/-- Gives a handle to a node back through a database. -/
def detachNode (host : Host) (database : DatabaseId) (node : NodeId) : Host :=
  let (host, last) := host.dropNode node
  match last, host.database? database with
  | some node, some (.resolving _ resolver) => host.record resolver [.returned node.rrsets]
  | _, _ => host

end ZoneStore.Host
