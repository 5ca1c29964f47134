import ZoneStore.Host.Calls
import ZoneStore.Proofs.Host.Shelf

/-!
# What one call does

A lookup takes charge of at most one list. If it succeeds the list is in the
node that it yields, and if it fails the list went back. A call therefore
does one of four things to the nodes of a host and to the events between a
resolver and the databases over it.
-/

namespace ZoneStore

/-! ## Lookups -/

/-- The list that a lookup took charge of is in the node it yields, or it went back. -/
inductive Settled {α : Type} (nodeOf : α → Node) : Outcome α → List ListEvent → Prop
  | kept {value : α} {events : List ListEvent} :
      events.filterMap ListEvent.entered? = [(nodeOf value).rrsets] →
      events.filterMap ListEvent.returned? = [] → Settled nodeOf (.ok value) events
  | givenBack {failure : Failure} {events : List ListEvent} :
      events.filterMap ListEvent.returned? = events.filterMap ListEvent.entered? →
      (events.filterMap ListEvent.entered?).length ≤ 1 → Settled nodeOf (.error failure) events

namespace Lookup

theorem settled_replyWith (memory : Memory) (name : Name) (rrsets : RrsetList)
    {entry : List ListEvent} (asked : LogLine)
    (hEntered : entry.filterMap ListEvent.entered? = [rrsets])
    (hReturned : entry.filterMap ListEvent.returned? = []) :
    Settled id (replyWith memory name rrsets entry asked).result
      (replyWith memory name rrsets entry asked).events := by
  unfold replyWith newNode
  cases memory.forOwner with
  | true =>
    refine .kept ?_ ?_
    · simpa [List.filterMap_append] using hEntered
    · simpa [List.filterMap_append] using hReturned
  | false =>
    refine .givenBack ?_ ?_
    · simp [List.filterMap_append, hEntered, hReturned, ListEvent.entered?, ListEvent.returned?]
    · simp [List.filterMap_append, hEntered, ListEvent.entered?]

theorem settled_findNode (resolver : Resolver) (name : Name) (create : Bool) (memory : Memory) :
    Settled id (findNode resolver name create memory).result
      (findNode resolver name create memory).events := by
  unfold findNode
  dsimp only
  cases resolver.resolve name with
  | ok resolution =>
    cases resolution with
    | exactMatch rrsets => exact settled_replyWith memory name rrsets _ rfl rfl
    | partialMatch rrsets =>
      cases create with
      | true => exact settled_replyWith memory name rrsets _ rfl rfl
      | false => exact .givenBack rfl (Nat.le_refl 1)
  | error cause =>
    dsimp only
    split
    · exact settled_replyWith memory name .empty _ rfl rfl
    · exact .givenBack rfl (Nat.zero_le 1)

theorem settled_find (resolver : Resolver) (name : Name) (version : Option Version)
    (type : RecordType) (options : FindOptions) (now : UInt32) (memory : Memory) :
    Settled (fun result => result.found.node)
      (find resolver name version type options now memory).result
      (find resolver name version type options now memory).events := by
  unfold find
  dsimp only
  split
  · exact .givenBack rfl (Nat.zero_le 1)
  split
  · exact .givenBack rfl (Nat.zero_le 1)
  cases resolver.resolve name with
  | error cause => exact .givenBack rfl (Nat.zero_le 1)
  | ok resolution =>
    obtain ⟨forOwner, forFoundName⟩ := memory
    cases forOwner with
    | false => exact .givenBack rfl (Nat.le_refl 1)
    | true =>
      dsimp only [newNode]
      cases selectOrAlias resolver resolution.rrsets type with
      | none => exact .givenBack rfl (Nat.le_refl 1)
      | some selected =>
        obtain ⟨rrset, isAlias⟩ := selected
        cases forFoundName with
        | false => exact .givenBack rfl (Nat.le_refl 1)
        | true => cases isAlias <;> exact .kept rfl rfl

theorem received_findNode (resolver : Resolver) (name : Name) (create : Bool) (memory : Memory) :
    (findNode resolver name create memory).events.filterMap ListEvent.received? =
      ((resolver.resolve name).toOption.map Resolution.rrsets).toList := by
  obtain ⟨forOwner, forFoundName⟩ := memory
  unfold findNode
  dsimp only
  cases resolver.resolve name with
  | ok resolution =>
    cases resolution with
    | exactMatch rrsets => cases forOwner <;> rfl
    | partialMatch rrsets => cases create <;> cases forOwner <;> rfl
  | error cause =>
    dsimp only
    split
    · cases forOwner <;> rfl
    · rfl

theorem started_findNode (resolver : Resolver) (database : DatabaseId) (name : Name)
    (create : Bool) (memory : Memory) :
    (findNode resolver name create memory).events.count .started =
      ((NodeCall.findNode database name create memory).starts resolver).toNat := by
  obtain ⟨forOwner, forFoundName⟩ := memory
  unfold findNode NodeCall.starts
  dsimp only
  cases resolver.resolve name with
  | ok resolution =>
    cases resolution with
    | exactMatch rrsets => cases forOwner <;> rfl
    | partialMatch rrsets => cases create <;> cases forOwner <;> rfl
  | error cause =>
    cases cause <;> cases create <;> cases forOwner <;> rfl

theorem received_find (resolver : Resolver) (database : DatabaseId) (name : Name)
    (version : Option Version) (type : RecordType) (options : FindOptions) (now : UInt32)
    (memory : Memory) :
    (find resolver name version type options now memory).events.filterMap ListEvent.received? =
      ((NodeCall.find database name version type options now memory).handedOut? resolver).toList ∧
    (find resolver name version type options now memory).events.count .started = 0 := by
  obtain ⟨forOwner, forFoundName⟩ := memory
  unfold find NodeCall.handedOut?
  dsimp only
  by_cases hType : type = .any
  · rw [if_pos hType, if_pos (.inl hType)]
    exact ⟨rfl, rfl⟩
  by_cases hVersion : (!admits version) = true
  · rw [if_neg hType, if_pos hVersion, if_pos (.inr hVersion)]
    exact ⟨rfl, rfl⟩
  rw [if_neg hType, if_neg hVersion, if_neg (not_or.mpr ⟨hType, hVersion⟩)]
  cases resolver.resolve name with
  | error cause => exact ⟨rfl, rfl⟩
  | ok resolution =>
    cases forOwner with
    | false => exact ⟨rfl, rfl⟩
    | true =>
      dsimp only [newNode]
      cases selectOrAlias resolver resolution.rrsets type with
      | none => exact ⟨rfl, rfl⟩
      | some selected => cases forFoundName <;> exact ⟨rfl, rfl⟩

end Lookup

/-! ## One call -/

namespace Host

/-- What a call can do to the nodes that are kept, with the events that it adds. -/
inductive Effect (host : Host) : NodeCall → Shelf Node → List ListEvent → Nat → Prop
  | settled {call : NodeCall} {events : List ListEvent} :
      (∀ node, call.detaches node = false) → (∀ node, call.attaches node = false) →
      (host.fails call = true ∨ events = []) →
      events.filterMap ListEvent.returned? = events.filterMap ListEvent.entered? →
      (events.filterMap ListEvent.entered?).length ≤ 1 →
      Effect host call host.nodes events host.fresh
  | found {call : NodeCall} {node : Node} {events : List ListEvent} :
      (∀ node, call.detaches node = false) → (∀ node, call.attaches node = false) →
      host.fails call = false → events.filterMap ListEvent.entered? = [node.rrsets] →
      events.filterMap ListEvent.returned? = [] →
      Effect host call (host.nodes.put host.fresh node) events (host.fresh + 1)
  | attached (node : NodeId) :
      Effect host (.attachNode node) (host.nodes.share node) [] host.fresh
  | detached (database : DatabaseId) (node : NodeId) :
      Effect host (.detachNode database node) (host.nodes.release node).1
        ((host.nodes.release node).2.toList.map fun node => .returned node.rrsets) host.fresh

theorem Effect.events_eq {host : Host} {database : DatabaseId} {node : NodeId}
    {nodes : Shelf Node} {events : List ListEvent} {fresh : Nat}
    (h : Effect host (.detachNode database node) nodes events fresh) :
    events = (host.nodes.release node).2.toList.map fun node => .returned node.rrsets := by
  cases h with
  | settled hDetaches | found hDetaches =>
    have hSelf := hDetaches node
    rw [NodeCall.detaches, beq_self_eq_true] at hSelf
    cases hSelf
  | detached => rfl

theorem effect_carryOut {α : Type} {host : Host} {call : NodeCall} {resolver : ResolverId}
    {reply : Reply α} {nodeOf : α → Node} (hDetaches : ∀ node, call.detaches node = false)
    (hAttaches : ∀ node, call.attaches node = false)
    (hFails : host.fails call = !(host.carryOut resolver reply nodeOf).result.isOk)
    (hSettled : Settled nodeOf reply.result reply.events) :
    (host.carryOut resolver reply nodeOf).host.events =
        host.events ++ reply.events.map (fun event => (resolver, event)) ∧
      Effect host call (host.carryOut resolver reply nodeOf).host.nodes reply.events
        (host.carryOut resolver reply nodeOf).host.fresh := by
  unfold carryOut at hFails ⊢
  dsimp only at hFails ⊢
  cases hResult : reply.result with
  | error failure =>
    rw [hResult] at hFails hSettled
    cases hSettled with
    | givenBack hReturned hLength =>
      exact ⟨rfl, .settled hDetaches hAttaches (.inl hFails) hReturned hLength⟩
  | ok value =>
    rw [hResult] at hFails hSettled
    cases hSettled with
    | kept hEntered hReturned =>
      exact ⟨rfl, .found hDetaches hAttaches hFails hEntered hReturned⟩

theorem effect_idle {host : Host} {call : NodeCall} (resolver : ResolverId)
    (hDetaches : ∀ node, call.detaches node = false)
    (hAttaches : ∀ node, call.attaches node = false) :
    host.events = host.events ++ ([] : List ListEvent).map (fun event => (resolver, event)) ∧
      Effect host call host.nodes [] host.fresh :=
  ⟨(List.append_nil _).symm, .settled hDetaches hAttaches (.inr rfl) rfl (Nat.zero_le 1)⟩

theorem find_eq {host : Host} {database : DatabaseId} {origin : Name} {resolver : ResolverId}
    {source : Resolver} (hDatabase : host.database? database = some (.resolving origin resolver))
    (hSource : host.resolvers.find? resolver = some source) (name : Name)
    (version : Option Version) (type : RecordType) (options : FindOptions) (now : UInt32)
    (memory : Memory) :
    host.find database name version type options now memory =
      host.carryOut resolver (Lookup.find source name version type options now memory)
        fun result => result.found.node := by
  unfold find
  rw [hDatabase]
  dsimp only
  rw [hSource]

theorem findNode_eq {host : Host} {database : DatabaseId} {origin : Name} {resolver : ResolverId}
    {source : Resolver} (hDatabase : host.database? database = some (.resolving origin resolver))
    (hSource : host.resolvers.find? resolver = some source) (name : Name) (create : Bool)
    (memory : Memory) :
    host.findNode database name create memory =
      host.carryOut resolver (Lookup.findNode source name create memory) id := by
  unfold findNode
  rw [hDatabase]
  dsimp only
  rw [hSource]

/-- Every call on a database over a resolver has one of the four effects. -/
theorem exists_effect {host : Host} {call : NodeCall} {resolver : ResolverId}
    (hOver : call.IsOver host resolver) :
    ∃ events, (host.perform call).events =
        host.events ++ events.map (fun event => (resolver, event)) ∧
      Effect host call (host.perform call).nodes events (host.perform call).fresh := by
  cases call with
  | find database name version type options now memory =>
    obtain ⟨origin, hDatabase⟩ := hOver database rfl
    cases hSource : host.resolvers.find? resolver with
    | none =>
      dsimp only [perform, find]
      rw [hDatabase]
      dsimp only
      rw [hSource]
      exact ⟨[], effect_idle resolver (fun _ => rfl) (fun _ => rfl)⟩
    | some source =>
      have hFind := find_eq hDatabase hSource name version type options now memory
      rw [perform, hFind]
      exact ⟨_, effect_carryOut (fun _ => rfl) (fun _ => rfl) (by rw [fails, hFind])
        (Lookup.settled_find source name version type options now memory)⟩
  | findNode database name create memory =>
    obtain ⟨origin, hDatabase⟩ := hOver database rfl
    cases hSource : host.resolvers.find? resolver with
    | none =>
      dsimp only [perform, findNode]
      rw [hDatabase]
      dsimp only
      rw [hSource]
      exact ⟨[], effect_idle resolver (fun _ => rfl) (fun _ => rfl)⟩
    | some source =>
      have hFind := findNode_eq hDatabase hSource name create memory
      rw [perform, hFind]
      exact ⟨_, effect_carryOut (fun _ => rfl) (fun _ => rfl) (by rw [fails, hFind])
        (Lookup.settled_findNode source name create memory)⟩
  | findRdataset database node version type covers now =>
    exact ⟨[], effect_idle resolver (fun _ => rfl) (fun _ => rfl)⟩
  | attachNode node => exact ⟨[], (List.append_nil _).symm, .attached node⟩
  | detachNode database node =>
    obtain ⟨origin, hDatabase⟩ := hOver database rfl
    refine ⟨(host.nodes.release node).2.toList.map fun node => .returned node.rrsets, ?_⟩
    have hKept : (host.dropNode node).1.database? database = host.database? database := rfl
    dsimp only [perform, detachNode]
    rw [hKept, hDatabase]
    have hLast : (host.dropNode node).2 = (host.nodes.release node).2 := rfl
    rw [hLast]
    have hDetached : Effect host (.detachNode database node) _ _ _ := .detached database node
    cases hRelease : (host.nodes.release node).2 with
    | none =>
      rw [hRelease] at hDetached
      exact ⟨(List.append_nil _).symm, hDetached⟩
    | some value =>
      rw [hRelease] at hDetached
      exact ⟨rfl, hDetached⟩
  | revise changed source =>
    exact ⟨[], (effect_idle resolver (fun _ => rfl) (fun _ => rfl) :
      _ ∧ Effect host (.revise changed source) host.nodes [] host.fresh)⟩

theorem eventsOf_append {host after : Host} {resolver : ResolverId} {events : List ListEvent}
    (h : after.events = host.events ++ events.map fun event => (resolver, event)) :
    after.eventsOf resolver = host.eventsOf resolver ++ events := by
  rw [eventsOf, h, List.filterMap_append, List.filterMap_map]
  congr 1
  simp

theorem newEvents_eq {host : Host} {call : NodeCall} {resolver : ResolverId}
    {events : List ListEvent}
    (h : (host.perform call).events = host.events ++ events.map fun event => (resolver, event)) :
    host.newEvents call = events := by
  rw [newEvents, h, List.drop_left, List.map_map]
  exact List.map_id events

theorem databases_perform (host : Host) (call : NodeCall) :
    (host.perform call).databases = host.databases := by
  cases call with
  | find database name version type options now memory =>
    dsimp only [perform, find]
    split
    · split
      · unfold carryOut
        split <;> rfl
      · rfl
    · rfl
  | findNode database name create memory =>
    dsimp only [perform, findNode]
    split
    · split
      · unfold carryOut
        split <;> rfl
      · rfl
    · rfl
  | findRdataset database node version type covers now => rfl
  | attachNode node => rfl
  | detachNode database node =>
    dsimp only [perform, detachNode]
    split <;> rfl
  | revise resolver source => rfl

theorem isOver_perform {host : Host} (call : NodeCall) {other : NodeCall} {resolver : ResolverId}
    (h : other.IsOver host resolver) : other.IsOver (host.perform call) resolver := by
  intro database hDatabase
  rw [database?, databases_perform]
  exact h database hDatabase

theorem newEvents_carryOut {α : Type} {host : Host} {call : NodeCall} {resolver : ResolverId}
    {reply : Reply α} {nodeOf : α → Node}
    (h : host.perform call = (host.carryOut resolver reply nodeOf).host) :
    host.newEvents call = reply.events := by
  have hEvents : (host.carryOut resolver reply nodeOf).host.events =
      host.events ++ reply.events.map fun event => (resolver, event) := by
    unfold carryOut
    cases reply.result <;> rfl
  exact newEvents_eq ((congrArg Host.events h).trans hEvents)

/-- A list counts as received or started exactly when the resolver's answer makes it so. -/
theorem received_newEvents {host : Host} {call : NodeCall} {resolver : ResolverId}
    {source : Resolver} (hOver : call.IsOver host resolver)
    (hSource : host.resolvers.find? resolver = some source) :
    (host.newEvents call).filterMap ListEvent.received? = (call.handedOut? source).toList ∧
      (host.newEvents call).count .started = (call.starts source).toNat := by
  cases call with
  | find database name version type options now memory =>
    obtain ⟨origin, hDatabase⟩ := hOver database rfl
    have hFind := find_eq hDatabase hSource name version type options now memory
    rw [newEvents_carryOut (by rw [perform, hFind])]
    exact Lookup.received_find source database name version type options now memory
  | findNode database name create memory =>
    obtain ⟨origin, hDatabase⟩ := hOver database rfl
    have hFind := findNode_eq hDatabase hSource name create memory
    rw [newEvents_carryOut (by rw [perform, hFind])]
    exact ⟨Lookup.received_findNode source name create memory,
      Lookup.started_findNode source database name create memory⟩
  | detachNode database node =>
    obtain ⟨events, hEvents, hEffect⟩ := exists_effect hOver
    rw [newEvents_eq hEvents, hEffect.events_eq]
    cases (host.nodes.release node).2 <;> exact ⟨rfl, rfl⟩
  | findRdataset database node version type covers now =>
    have hEvents : host.newEvents (.findRdataset database node version type covers now) = [] := by
      simp [newEvents, perform]
    rw [hEvents]
    exact ⟨rfl, rfl⟩
  | attachNode node =>
    have hEvents : host.newEvents (.attachNode node) = [] := by
      simp [newEvents, perform, attachNode]
    rw [hEvents]
    exact ⟨rfl, rfl⟩
  | revise changed revised =>
    have hEvents : host.newEvents (.revise changed revised) = [] := by
      simp [newEvents, perform, revise]
    rw [hEvents]
    exact ⟨rfl, rfl⟩

end Host

end ZoneStore
