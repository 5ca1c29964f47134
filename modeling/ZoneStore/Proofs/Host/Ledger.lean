import Mathlib.Data.List.Perm.Basic
import ZoneStore.Proofs.Host.Effects

/-!
# Lists are neither lost nor given back twice

Every list that a resolver hands out, and every empty list that is started
in its place, is given back or held by a node that someone still holds. A
lookup that fails gives its list back itself; any other list is given back
with the last handle to its node. Both follow from what one call does, by
induction on a run of calls.
-/

namespace ZoneStore.Host

/-! ## Runs -/

def entered (host : Host) (resolver : ResolverId) : List RrsetList :=
  (host.eventsOf resolver).filterMap ListEvent.entered?

def returned (host : Host) (resolver : ResolverId) : List RrsetList :=
  (host.eventsOf resolver).filterMap ListEvent.returned?

/-- Every list taken charge of is accounted for, by what was given back and what nodes hold. -/
structure Balanced (host : Host) (resolver : ResolverId) : Prop where
  kept : host.nodes.WellKept host.fresh
  conserved : (host.entered resolver).Perm
    (host.returned resolver ++ host.nodes.values.map Node.rrsets)

theorem Effect.wellKept {host : Host} {call : NodeCall} {nodes : Shelf Node}
    {events : List ListEvent} {fresh : Nat} (h : Effect host call nodes events fresh)
    (hKept : host.nodes.WellKept host.fresh) : nodes.WellKept fresh := by
  cases h with
  | settled => exact hKept
  | found => exact hKept.put _
  | attached node => exact hKept.share node
  | detached database node => exact hKept.release node

theorem Effect.le_fresh {host : Host} {call : NodeCall} {nodes : Shelf Node}
    {events : List ListEvent} {fresh : Nat} (h : Effect host call nodes events fresh) :
    host.fresh ≤ fresh := by
  cases h with
  | found => exact Nat.le_succ host.fresh
  | _ => exact Nat.le_refl host.fresh

theorem Effect.conserved {host : Host} {call : NodeCall} {nodes : Shelf Node}
    {events : List ListEvent} {fresh : Nat} (h : Effect host call nodes events fresh)
    (hKept : host.nodes.WellKept host.fresh) :
    (events.filterMap ListEvent.entered? ++ host.nodes.values.map Node.rrsets).Perm
      (events.filterMap ListEvent.returned? ++ nodes.values.map Node.rrsets) := by
  cases h with
  | settled _ _ _ hReturned _ => rw [hReturned]
  | found _ _ _ hEntered hReturned =>
    rw [hEntered, hReturned, Shelf.values_put, List.map_append]
    exact List.perm_append_comm
  | attached node =>
    rw [Shelf.values_share]
    exact .refl _
  | detached database node =>
    have hValues := (hKept.values_release node).map Node.rrsets
    rw [List.map_append] at hValues
    have hEntered : ∀ nodes : List Node,
        (nodes.map fun node => ListEvent.returned node.rrsets).filterMap ListEvent.entered? = [] :=
      fun nodes => by simp [ListEvent.entered?, List.filterMap_map, Function.comp_def]
    have hReturned : ∀ nodes : List Node,
        (nodes.map fun node => ListEvent.returned node.rrsets).filterMap ListEvent.returned? =
          nodes.map Node.rrsets :=
      fun nodes => by simp [ListEvent.returned?, List.filterMap_map, Function.comp_def]
    rw [hEntered, hReturned]
    exact hValues.symm

theorem Balanced.perform {host : Host} {call : NodeCall} {resolver : ResolverId}
    (h : host.Balanced resolver) (hOver : call.IsOver host resolver) :
    (host.perform call).Balanced resolver := by
  obtain ⟨events, hEvents, hEffect⟩ := exists_effect hOver
  have hAll := eventsOf_append hEvents
  refine ⟨hEffect.wellKept h.kept, ?_⟩
  rw [entered, returned, hAll, List.filterMap_append, List.filterMap_append, List.append_assoc]
  -- What enters with this call is set against what the nodes held before it.
  calc
    _ = host.entered resolver ++ events.filterMap ListEvent.entered? := rfl
    List.Perm _ (host.returned resolver ++ host.nodes.values.map Node.rrsets ++
        events.filterMap ListEvent.entered?) := h.conserved.append_right _
    List.Perm _ (host.returned resolver ++ (events.filterMap ListEvent.entered? ++
        host.nodes.values.map Node.rrsets)) := by
      rw [List.append_assoc]
      exact List.perm_append_comm.append_left _
    List.Perm _ _ := (hEffect.conserved h.kept).append_left _

theorem Balanced.run {host : Host} {calls : List NodeCall} {resolver : ResolverId}
    (h : host.Balanced resolver) (hOver : ∀ call ∈ calls, call.IsOver host resolver) :
    (host.run calls).Balanced resolver := by
  induction calls generalizing host with
  | nil => exact h
  | cons call calls ih =>
    obtain ⟨hCall, hCalls⟩ := List.forall_mem_cons.mp hOver
    exact ih (h.perform hCall) fun other hOther => isOver_perform call (hCalls other hOther)

/-! ## One node -/

theorem Effect.of_gone {host : Host} {call : NodeCall} {nodes : Shelf Node}
    {events : List ListEvent} {fresh : Nat} (h : Effect host call nodes events fresh)
    {node : NodeId} (hGone : host.nodes.find? node = none) (hNumber : node < host.fresh) :
    nodes.find? node = none ∧ node < fresh ∧
      (call.detaches node = true → events.filterMap ListEvent.returned? = []) := by
  cases h with
  | settled hDetaches => exact ⟨hGone, hNumber, by simp [hDetaches]⟩
  | found hDetaches =>
    refine ⟨?_, Nat.lt_succ_of_lt hNumber, by simp [hDetaches]⟩
    rw [Shelf.find?_put, hGone, if_neg (Nat.ne_of_gt hNumber)]
    rfl
  | attached other =>
    rw [Shelf.find?_share]
    exact ⟨hGone, hNumber, fun _ => rfl⟩
  | detached database other =>
    refine ⟨?_, hNumber, ?_⟩
    · rw [Shelf.find?_release]
      split
      · rfl
      · exact hGone
    · intro hDetached
      obtain rfl : other = node := beq_iff_eq.mp hDetached
      have hOwners := Shelf.ownersOf_eq_zero hGone
      rw [Shelf.release_eq, if_pos (by omega), hGone]
      rfl

/-- A node that is held leaves when its last handle is detached, and then its list goes back. -/
theorem Effect.of_held {host : Host} {call : NodeCall} {nodes : Shelf Node}
    {events : List ListEvent} {fresh : Nat} (h : Effect host call nodes events fresh)
    (hKept : host.nodes.WellKept host.fresh) {node : NodeId} {value : Node}
    (hHeld : host.nodes.find? node = some value) :
    (call.detaches node = true ∧ host.nodes.ownersOf node = 1 ∧ nodes.find? node = none ∧
        events.filterMap ListEvent.returned? = [value.rrsets]) ∨
      ((call.detaches node = true →
          host.nodes.ownersOf node ≠ 1 ∧ events.filterMap ListEvent.returned? = []) ∧
        nodes.find? node = some value ∧
        nodes.ownersOf node + (call.detaches node).toNat =
          host.nodes.ownersOf node + (call.attaches node).toNat) := by
  cases h with
  | settled hDetaches hAttaches =>
    exact .inr ⟨by simp [hDetaches], hHeld, by rw [hDetaches, hAttaches]⟩
  | found hDetaches hAttaches =>
    have hNumber := hKept.lt_of_find? hHeld
    refine .inr ⟨by simp [hDetaches], ?_, ?_⟩
    · rw [Shelf.find?_put, hHeld]
      rfl
    · rw [Shelf.ownersOf_put _ _ (by omega), hDetaches, hAttaches]
  | attached other =>
    refine .inr ⟨?_, (Shelf.find?_share _ _ _).trans hHeld, ?_⟩
    · intro hDetached
      cases hDetached
    · by_cases hOther : node = other
      · subst hOther
        rw [Shelf.ownersOf_share_self hHeld]
        simp [NodeCall.detaches, NodeCall.attaches]
      · rw [Shelf.ownersOf_share_ne _ hOther]
        simp [NodeCall.detaches, NodeCall.attaches, Ne.symm hOther]
  | detached database other =>
    by_cases hOther : node = other
    · subst hOther
      have hDetaches : (NodeCall.detachNode database node).detaches node = true :=
        beq_self_eq_true node
      obtain ⟨hLast, hGiven, hGone⟩ | ⟨hMore, hNone, hStays, hCount⟩ := hKept.release_cases hHeld
      · exact .inl ⟨hDetaches, hLast, hGone, by rw [hGiven]; rfl⟩
      · refine .inr ⟨fun _ => ⟨hMore, by rw [hNone]; rfl⟩, hStays, ?_⟩
        rw [hDetaches]
        exact hCount
    · have hDetaches : (NodeCall.detachNode database other).detaches node = false :=
        beq_eq_false_iff_ne.mpr (Ne.symm hOther)
      refine .inr ⟨?_, ?_, ?_⟩
      · rw [hDetaches]
        intro hDetached
        cases hDetached
      · rw [Shelf.find?_release, if_neg fun h => hOther h.1]
        exact hHeld
      · rw [Shelf.ownersOf_release_ne _ hOther, hDetaches]
        rfl

theorem releasesOf_cons {host : Host} {call : NodeCall} {resolver : ResolverId}
    {events : List ListEvent} (node : NodeId) (calls : List NodeCall)
    (h : (host.perform call).events = host.events ++ events.map fun event => (resolver, event)) :
    host.releasesOf node (call :: calls) =
      (if call.detaches node then events.filterMap ListEvent.returned? else []) ++
        (host.perform call).releasesOf node calls := by
  rw [releasesOf, returnedBy, newEvents_eq h]

theorem releasesOf_gone {host : Host} {resolver : ResolverId} {node : NodeId}
    {calls : List NodeCall} (hGone : host.node? node = none) (hNumber : node < host.fresh)
    (hOver : ∀ call ∈ calls, call.IsOver host resolver) :
    (host.run calls).node? node = none ∧ host.releasesOf node calls = [] := by
  induction calls generalizing host with
  | nil => exact ⟨hGone, rfl⟩
  | cons call calls ih =>
    obtain ⟨hCall, hCalls⟩ := List.forall_mem_cons.mp hOver
    obtain ⟨events, hEvents, hEffect⟩ := exists_effect hCall
    obtain ⟨hStill, hFresh, hReturned⟩ := hEffect.of_gone hGone hNumber
    have hLater := ih hStill hFresh fun other hOther => isOver_perform call (hCalls other hOther)
    refine ⟨hLater.1, ?_⟩
    rw [releasesOf_cons node calls hEvents, hLater.2, List.append_nil]
    split
    · rename_i hDetaches
      exact hReturned hDetaches
    · rfl

/--
In the course of any calls a node that is held either stays, with one handle more for each
attach and one less for each detach, or it leaves and its list goes back once.
-/
theorem releasesOf_held {host : Host} {resolver : ResolverId} {node : NodeId} {value : Node}
    {calls : List NodeCall} (hKept : host.nodes.WellKept host.fresh)
    (hHeld : host.node? node = some value) (hOver : ∀ call ∈ calls, call.IsOver host resolver) :
    ((host.run calls).node? node = some value ∧ host.releasesOf node calls = [] ∧
        (host.run calls).handlesOf node + calls.countP (·.detaches node) =
          host.handlesOf node + calls.countP (·.attaches node)) ∨
      ((host.run calls).node? node = none ∧ host.releasesOf node calls = [value.rrsets]) := by
  induction calls generalizing host with
  | nil => exact .inl ⟨hHeld, rfl, rfl⟩
  | cons call calls ih =>
    obtain ⟨hCall, hCalls⟩ := List.forall_mem_cons.mp hOver
    obtain ⟨events, hEvents, hEffect⟩ := exists_effect hCall
    have hRest : ∀ other ∈ calls, other.IsOver (host.perform call) resolver :=
      fun other hOther => isOver_perform call (hCalls other hOther)
    rw [releasesOf_cons node calls hEvents]
    obtain ⟨hDetaches, _, hGone, hReturned⟩ | ⟨hDetaches, hStays, hHandles⟩ :=
      hEffect.of_held hKept hHeld
    · have hNumber : node < (host.perform call).fresh :=
        Nat.lt_of_lt_of_le (hKept.lt_of_find? hHeld) hEffect.le_fresh
      -- This call takes the node's last handle; none of the calls behind it can bring it back.
      have hLater := releasesOf_gone hGone hNumber hRest
      refine .inr ⟨hLater.1, ?_⟩
      rw [if_pos hDetaches, hReturned, hLater.2]
      rfl
    · have hNone : (if call.detaches node then events.filterMap ListEvent.returned? else []) =
          ([] : List RrsetList) := by
        split
        · rename_i hDetached
          exact (hDetaches hDetached).2
        · rfl
      rw [hNone, List.nil_append]
      obtain ⟨hFound, hReleases, hCount⟩ | hGone := ih (hEffect.wellKept hKept) hStays hRest
      · refine .inl ⟨hFound, hReleases, ?_⟩
        have hBefore : (host.perform call).handlesOf node + (call.detaches node).toNat =
            host.handlesOf node + (call.attaches node).toNat := hHandles
        have hAll : (host.run (call :: calls)).handlesOf node =
            ((host.perform call).run calls).handlesOf node := rfl
        have hUnit : ∀ value : Bool, (if value = true then 1 else 0) = value.toNat := by decide
        rw [hAll, List.countP_cons, List.countP_cons, hUnit, hUnit]
        omega
      · exact .inr hGone

/-! ## The account as a whole -/

theorem length_entered (host : Host) (resolver : ResolverId) :
    (host.entered resolver).length = host.receivedFrom resolver + host.startedFor resolver := by
  rw [entered, receivedFrom, startedFor]
  induction host.eventsOf resolver with
  | nil => rfl
  | cons event events ih =>
    rw [List.filterMap_cons, List.filterMap_cons, List.count_cons]
    cases event with
    | received rrsets =>
      simp [ListEvent.entered?, ListEvent.received?]
      omega
    | started =>
      simp [ListEvent.entered?, ListEvent.received?]
      omega
    | refused cause => simpa [ListEvent.entered?, ListEvent.received?] using ih
    | returned rrsets => simpa [ListEvent.entered?, ListEvent.received?] using ih

theorem heldNodes_eq {host : Host} {fresh : Nat} (hKept : host.nodes.WellKept fresh) :
    host.heldNodes = host.nodes.values.length := by
  rw [heldNodes, Shelf.values, List.length_map, List.countP_eq_length]
  intro entry hEntry
  exact decide_eq_true (hKept.owned entry hEntry)

theorem Balanced.count {host : Host} {resolver : ResolverId} (h : host.Balanced resolver) :
    host.receivedFrom resolver + host.startedFor resolver =
      host.returnedTo resolver + host.heldNodes := by
  have hLength := h.conserved.length_eq
  rw [length_entered, List.length_append, List.length_map] at hLength
  rw [heldNodes_eq h.kept]
  exact hLength

/-- What becomes of the list that a call takes charge of: it went back, or a new node holds it. -/
structure Settles (host : Host) (call : NodeCall) : Prop where
  length_enteredBy_le : (host.enteredBy call).length ≤ 1
  returnedBy_eq : host.returnedBy call = if host.fails call then host.enteredBy call else []
  node?_fresh : host.fails call = false → ∀ rrsets ∈ host.enteredBy call, ∃ node,
    (host.perform call).node? host.fresh = some node ∧ node.rrsets = rrsets ∧
      (host.perform call).handlesOf host.fresh = 1

theorem Effect.settles {host : Host} {call : NodeCall} {nodes : Shelf Node}
    {events : List ListEvent} {fresh : Nat} (h : Effect host call nodes events fresh)
    (hKept : host.nodes.WellKept host.fresh) (hDetaches : ∀ node, call.detaches node = false) :
    (events.filterMap ListEvent.entered?).length ≤ 1 ∧
      events.filterMap ListEvent.returned? =
        (if host.fails call then events.filterMap ListEvent.entered? else []) ∧
      (host.fails call = false → ∀ rrsets ∈ events.filterMap ListEvent.entered?, ∃ node,
        nodes.find? host.fresh = some node ∧ node.rrsets = rrsets ∧
          nodes.ownersOf host.fresh = 1) := by
  cases h with
  | settled _ _ hOutcome hSame hLength =>
    obtain hFails | rfl := hOutcome
    · refine ⟨hLength, by rw [if_pos hFails, hSame], ?_⟩
      intro hSucceeds
      rw [hFails] at hSucceeds
      cases hSucceeds
    · exact ⟨hLength, by split <;> rfl, by simp⟩
  | @found _ node _ _ _ hFails hEntered hReturned =>
    rw [hEntered, hReturned, hFails]
    refine ⟨Nat.le_refl 1, rfl, ?_⟩
    intro _ rrsets hMem
    have hFresh := hKept.find?_eq_none (Nat.le_refl host.fresh)
    refine ⟨node, ?_, (List.mem_singleton.mp hMem).symm, Shelf.ownersOf_put_self node hFresh⟩
    rw [Shelf.find?_put, hFresh, if_pos rfl]
    rfl
  | attached node => exact ⟨Nat.zero_le 1, by split <;> rfl, by simp⟩
  | detached database node =>
    have hSelf := hDetaches node
    rw [NodeCall.detaches, beq_self_eq_true] at hSelf
    cases hSelf

theorem Balanced.settles {host : Host} {resolver : ResolverId} {call : NodeCall}
    (h : host.Balanced resolver) (hOver : call.IsOver host resolver)
    (hDetaches : ∀ node, call.detaches node = false) : host.Settles call := by
  obtain ⟨events, hEvents, hEffect⟩ := exists_effect hOver
  obtain ⟨hLength, hReturned, hFresh⟩ := hEffect.settles h.kept hDetaches
  rw [← newEvents_eq hEvents] at hLength hReturned hFresh
  exact ⟨hLength, hReturned, hFresh⟩

/-- What a node that is held stands for: its list, until its last handle is given up. -/
structure Keeps (host : Host) (resolver : ResolverId) (node : NodeId) (value : Node) : Prop where
  handled : 1 ≤ host.handlesOf node
  leaves_iff : ∀ call : NodeCall, call.IsOver host resolver →
    ((host.perform call).node? node = none ↔
      call.detaches node = true ∧ host.handlesOf node = 1)
  returnedBy_eq : ∀ call : NodeCall, call.IsOver host resolver → call.detaches node = true →
    host.returnedBy call = if host.handlesOf node = 1 then [value.rrsets] else []
  later : ∀ calls : List NodeCall, (∀ call ∈ calls, call.IsOver host resolver) →
    ((host.run calls).node? node = some value ∧ host.releasesOf node calls = [] ∧
        (host.run calls).handlesOf node + calls.countP (·.detaches node) =
          host.handlesOf node + calls.countP (·.attaches node)) ∨
      ((host.run calls).node? node = none ∧ host.releasesOf node calls = [value.rrsets])

theorem Balanced.keeps {host : Host} {resolver : ResolverId} {node : NodeId} {value : Node}
    (h : host.Balanced resolver) (hHeld : host.node? node = some value) :
    host.Keeps resolver node value where
  handled := h.kept.one_le_ownersOf hHeld
  leaves_iff := by
    intro call hOver
    obtain ⟨events, hEvents, hEffect⟩ := exists_effect hOver
    obtain ⟨hDetaches, hLast, hGone, _⟩ | ⟨hMore, hStays, _⟩ := hEffect.of_held h.kept hHeld
    · exact ⟨fun _ => ⟨hDetaches, hLast⟩, fun _ => hGone⟩
    · constructor
      · intro hNone
        have hSome : (host.perform call).node? node = some value := hStays
        rw [hSome] at hNone
        cases hNone
      · intro hDetaches
        exact absurd hDetaches.2 (hMore hDetaches.1).1
  returnedBy_eq := by
    intro call hOver hDetaches
    obtain ⟨events, hEvents, hEffect⟩ := exists_effect hOver
    rw [returnedBy, newEvents_eq hEvents]
    obtain ⟨_, hLast, _, hReturned⟩ | ⟨hMore, _, _⟩ := hEffect.of_held h.kept hHeld
    · rw [hReturned]
      exact (if_pos hLast).symm
    · rw [(hMore hDetaches).2]
      exact (if_neg (hMore hDetaches).1).symm
  later := fun _ hOver => releasesOf_held h.kept hHeld hOver

theorem balanced_of_nodes_nil {host : Host} {resolver : ResolverId} (hNodes : host.nodes = [])
    (hEvents : host.eventsOf resolver = []) : host.Balanced resolver where
  kept := by
    rw [hNodes]
    exact Shelf.wellKept_nil host.fresh
  conserved := by
    rw [entered, returned, hEvents, hNodes]
    exact .nil

/--
Wherever a run of calls on the databases over a resolver stands, the lists that came in are
those that went back and those that nodes hold. The list of a node goes back once, when its
last handle is detached, and a lookup that fails gives back the list that it took charge of.
What counts as coming in is decided by the resolver's answers.
-/
theorem lists_conserved {host : Host} {resolver : ResolverId} (hNodes : host.nodes = [])
    (hEvents : host.eventsOf resolver = []) {calls : List NodeCall}
    (hCalls : ∀ call ∈ calls, call.IsOver host resolver) :
    (host.run calls).receivedFrom resolver + (host.run calls).startedFor resolver =
        (host.run calls).returnedTo resolver + (host.run calls).heldNodes ∧
    ((host.run calls).entered resolver).Perm ((host.run calls).returned resolver ++
        (host.run calls).nodes.values.map Node.rrsets) ∧
    (∀ node value, (host.run calls).node? node = some value →
      (host.run calls).Keeps resolver node value) ∧
    (∀ call : NodeCall, call.IsOver (host.run calls) resolver →
      (∀ node, call.detaches node = false) → (host.run calls).Settles call) ∧
    ∀ (call : NodeCall) (source : Resolver), call.IsOver (host.run calls) resolver →
      (host.run calls).resolvers.find? resolver = some source →
      ((host.run calls).newEvents call).filterMap ListEvent.received? =
          (call.handedOut? source).toList ∧
        ((host.run calls).newEvents call).count .started = (call.starts source).toNat := by
  have hBalanced := (balanced_of_nodes_nil hNodes hEvents).run hCalls
  refine ⟨hBalanced.count, hBalanced.conserved, ?_, ?_, ?_⟩
  · intro node value hHeld
    exact hBalanced.keeps hHeld
  · intro call hOver hDetaches
    exact hBalanced.settles hOver hDetaches
  · intro call source hOver hSource
    exact received_newEvents hOver hSource

/-- A host with one database, over a resolver that has a list for the root only. -/
def rootHost : Host :=
  let resolver : Resolver := { resolve := fun name =>
    if name.labels = [] then .ok (.exactMatch .empty) else .error .notFound }
  ((start.addInstance "root" resolver).host.createResolving .root .zone .internet ["root"]).host

/-- A node is found and shared, a lookup fails, and one handle to the node is given up. -/
def sharedRun : List NodeCall :=
  [.findNode 1 .root false .ample, .attachNode 2, .find 1 .root none .mx {} 0 .ample,
    .detachNode 1 2]

theorem lists_conserved_sharedRun :
    (rootHost.run sharedRun).receivedFrom 0 = 2 ∧ (rootHost.run sharedRun).returnedTo 0 = 1 ∧
      (rootHost.run sharedRun).heldNodes = 1 ∧
      (rootHost.run sharedRun).releasesOf 2 [.detachNode 1 2] = [.empty] := by
  have hCalls : ∀ call ∈ sharedRun, call.IsOver rootHost 0 := by
    intro call hCall database hDatabase
    refine ⟨.root, ?_⟩
    simp only [sharedRun, List.mem_cons, List.not_mem_nil, or_false] at hCall
    obtain rfl | rfl | rfl | rfl := hCall <;> cases hDatabase <;> rfl
  obtain ⟨hCount, _, hKeeps, _⟩ := lists_conserved (rfl : rootHost.nodes = []) rfl hCalls
  have hReceived : (rootHost.run sharedRun).receivedFrom 0 = 2 := rfl
  have hHeld : (rootHost.run sharedRun).heldNodes = 1 := rfl
  have hStarted : (rootHost.run sharedRun).startedFor 0 = 0 := rfl
  have hNode := hKeeps 2 ⟨.root, .empty⟩ rfl
  have hDetach : (NodeCall.detachNode 1 2).IsOver (rootHost.run sharedRun) 0 := by
    intro database hDatabase
    cases hDatabase
    exact ⟨.root, rfl⟩
  have hReturned := hNode.returnedBy_eq _ hDetach rfl
  refine ⟨hReceived, by omega, hHeld, ?_⟩
  rw [releasesOf, hReturned]
  rfl

end ZoneStore.Host
