import ZoneStore.Proofs.Host.Ledger

/-!
# Lists given back that were never handed out

A node that is created for an unknown name holds an empty list of its own,
and that list goes to the resolver with the node's last handle like any
other. So a resolver can be given back more lists than it handed out, by as
many as were started for it and are held no longer. All of these are empty:
a list with an RRset in it comes back no more often than it was handed out.
-/

namespace ZoneStore.Host

def received (host : Host) (resolver : ResolverId) : List RrsetList :=
  (host.eventsOf resolver).filterMap ListEvent.received?

theorem receivedFrom_eq (host : Host) (resolver : ResolverId) :
    host.receivedFrom resolver = (host.received resolver).length := rfl

theorem returnedTo_eq (host : Host) (resolver : ResolverId) :
    host.returnedTo resolver = (host.returned resolver).length := rfl

/-! ## What a call adds to the account -/

theorem eventsOf_perform {host : Host} {call : NodeCall} {resolver : ResolverId}
    (hOver : call.IsOver host resolver) :
    (host.perform call).eventsOf resolver = host.eventsOf resolver ++ host.newEvents call := by
  obtain ⟨events, hEvents, _⟩ := exists_effect hOver
  rw [eventsOf_append hEvents, newEvents_eq hEvents]

theorem received_perform {host : Host} {call : NodeCall} {resolver : ResolverId}
    {source : Resolver} (hOver : call.IsOver host resolver)
    (hSource : host.resolvers.find? resolver = some source) :
    (host.perform call).received resolver =
      host.received resolver ++ (call.handedOut? source).toList := by
  rw [received, eventsOf_perform hOver, List.filterMap_append, (received_newEvents hOver hSource).1]
  rfl

theorem returned_perform {host : Host} {call : NodeCall} {resolver : ResolverId}
    (hOver : call.IsOver host resolver) :
    (host.perform call).returned resolver = host.returned resolver ++ host.returnedBy call := by
  rw [returned, eventsOf_perform hOver, List.filterMap_append]
  rfl

/-! ## Nodes for unknown names -/

theorem fails_findNode_unknown {host : Host} {database : DatabaseId} {origin name : Name}
    {resolver : ResolverId} {source : Resolver}
    (hDatabase : host.database? database = some (.resolving origin resolver))
    (hSource : host.resolvers.find? resolver = some source)
    (hUnknown : source.resolve name = .error .notFound) :
    host.fails (.findNode database name true .ample) = false ∧
      host.enteredBy (.findNode database name true .ample) = [.empty] := by
  have hFind := findNode_eq hDatabase hSource name true .ample
  have hReply : Lookup.findNode source name true .ample =
      Lookup.replyWith .ample name .empty [.refused .notFound, .started]
        (traceLine ("find_node: name=" ++ name.toText ++ ", create=" ++ Lookup.boolText true)) := by
    unfold Lookup.findNode
    rw [hUnknown]
    rfl
  constructor
  · rw [fails, hFind, hReply]
    rfl
  · rw [enteredBy, newEvents_carryOut (by rw [perform, hFind]), hReply]
    rfl

theorem resolvers_perform_findNode (host : Host) (database : DatabaseId) (name : Name)
    (create : Bool) (memory : Memory) :
    (host.perform (.findNode database name create memory)).resolvers = host.resolvers := by
  dsimp only [perform, findNode]
  split
  · split
    · unfold carryOut
      split <;> rfl
    · rfl
  · rfl

/-- Creating a node for an unknown name and giving it up releases a list out of nothing. -/
theorem Balanced.surplus_of_unknown {host : Host} {database : DatabaseId} {origin name : Name}
    {resolver : ResolverId} {source : Resolver} (h : host.Balanced resolver)
    (hDatabase : host.database? database = some (.resolving origin resolver))
    (hSource : host.resolvers.find? resolver = some source)
    (hUnknown : source.resolve name = .error .notFound) :
    (host.run [.findNode database name true .ample, .detachNode database host.fresh]).received
        resolver = host.received resolver ∧
      (host.run [.findNode database name true .ample, .detachNode database host.fresh]).returned
        resolver = host.returned resolver ++ [.empty] := by
  have hCreate : (NodeCall.findNode database name true .ample).IsOver host resolver := by
    intro called hCalled
    cases hCalled
    exact ⟨origin, hDatabase⟩
  have hDetach : (NodeCall.detachNode database host.fresh).IsOver
      (host.perform (.findNode database name true .ample)) resolver := by
    intro called hCalled
    cases hCalled
    exact ⟨origin, by rw [database?, databases_perform]; exact hDatabase⟩
  have hLater : (host.perform (.findNode database name true .ample)).resolvers.find? resolver =
      some source := by
    rw [resolvers_perform_findNode]
    exact hSource
  obtain ⟨hSucceeds, hEntered⟩ := fails_findNode_unknown hDatabase hSource hUnknown
  have hSettles := h.settles hCreate fun _ => rfl
  obtain ⟨node, hNode, hRrsets, hHandles⟩ :=
    hSettles.node?_fresh hSucceeds .empty (hEntered ▸ List.mem_singleton_self _)
  have hReturned : (host.perform (.findNode database name true .ample)).returnedBy
      (.detachNode database host.fresh) = [.empty] := by
    have hKeeps := (h.perform hCreate).keeps hNode
    rw [hKeeps.returnedBy_eq _ hDetach (beq_self_eq_true _), if_pos hHandles, hRrsets]
  have hNothing : host.returnedBy (.findNode database name true .ample) = [] := by
    rw [hSettles.returnedBy_eq, hSucceeds]
    rfl
  have hRefused : (NodeCall.findNode database name true .ample).handedOut? source = none := by
    rw [NodeCall.handedOut?, hUnknown]
    rfl
  have hRun : host.run [.findNode database name true .ample, .detachNode database host.fresh] =
      (host.perform (.findNode database name true .ample)).perform
        (.detachNode database host.fresh) := rfl
  rw [hRun]
  constructor
  · rw [received_perform hDetach hLater, received_perform hCreate hSource, hRefused]
    simp [NodeCall.handedOut?]
  · rw [returned_perform hDetach, returned_perform hCreate, hNothing, hReturned, List.append_nil]

/-! ## The account -/

theorem count_entered {host : Host} {resolver : ResolverId} {rrsets : RrsetList}
    (hFilled : rrsets ≠ .empty) :
    (host.entered resolver).count rrsets = (host.received resolver).count rrsets := by
  rw [entered, received]
  induction host.eventsOf resolver with
  | nil => rfl
  | cons event events ih =>
    cases event with
    | received other =>
      simp only [List.filterMap_cons, ListEvent.entered?, ListEvent.received?, List.count_cons, ih]
    | started =>
      simp only [List.filterMap_cons, ListEvent.entered?, ListEvent.received?, List.count_cons, ih,
        beq_iff_eq, if_neg (Ne.symm hFilled), Nat.add_zero]
    | refused cause =>
      simpa only [List.filterMap_cons, ListEvent.entered?, ListEvent.received?] using ih
    | returned other =>
      simpa only [List.filterMap_cons, ListEvent.entered?, ListEvent.received?] using ih

theorem Balanced.count_returned_le {host : Host} {resolver : ResolverId}
    (h : host.Balanced resolver) {rrsets : RrsetList} (hFilled : rrsets ≠ .empty) :
    (host.returned resolver).count rrsets ≤ (host.received resolver).count rrsets := by
  rw [← count_entered hFilled, h.conserved.count_eq, List.count_append]
  exact Nat.le_add_right _ _

/--
A resolver is given back at most the lists that it handed out and those that were started for
it, and more than it handed out exactly when more were started than nodes are held. What it is
given beyond its own lists is empty. Any unknown name is a way to give it one more.
-/
theorem returns_exceed_by_started {host : Host} {resolver : ResolverId} (hNodes : host.nodes = [])
    (hEvents : host.eventsOf resolver = []) {calls : List NodeCall}
    (hCalls : ∀ call ∈ calls, call.IsOver host resolver) :
    (host.run calls).returnedTo resolver ≤
        (host.run calls).receivedFrom resolver + (host.run calls).startedFor resolver ∧
    ((host.run calls).returnedTo resolver ≤ (host.run calls).receivedFrom resolver ↔
      (host.run calls).startedFor resolver ≤ (host.run calls).heldNodes) ∧
    (∀ rrsets, rrsets ≠ .empty → ((host.run calls).returned resolver).count rrsets ≤
      ((host.run calls).received resolver).count rrsets) ∧
    ∀ (database : DatabaseId) (origin name : Name) (source : Resolver),
      (host.run calls).database? database = some (.resolving origin resolver) →
      (host.run calls).resolvers.find? resolver = some source →
      source.resolve name = .error .notFound →
      ∃ more : List NodeCall, (∀ call ∈ more, call.IsOver (host.run calls) resolver) ∧
        ((host.run calls).run more).receivedFrom resolver =
          (host.run calls).receivedFrom resolver ∧
        ((host.run calls).run more).returnedTo resolver =
          (host.run calls).returnedTo resolver + 1 := by
  have hBalanced := (balanced_of_nodes_nil hNodes hEvents).run hCalls
  have hCount := hBalanced.count
  refine ⟨by omega, by omega, fun rrsets hFilled => hBalanced.count_returned_le hFilled, ?_⟩
  intro database origin name source hDatabase hSource hUnknown
  obtain ⟨hReceived, hReturned⟩ := hBalanced.surplus_of_unknown hDatabase hSource hUnknown
  refine ⟨[.findNode database name true .ample, .detachNode database (host.run calls).fresh],
    ?_, ?_, ?_⟩
  · intro call hCall called hCalled
    simp only [List.mem_cons, List.not_mem_nil, or_false] at hCall
    obtain rfl | rfl := hCall <;> cases hCalled <;> exact ⟨origin, hDatabase⟩
  · rw [receivedFrom_eq, hReceived, receivedFrom_eq]
  · rw [returnedTo_eq, hReturned, List.length_append, returnedTo_eq]
    rfl

/-- A name that the resolver of the host with the root does not know. -/
def strangeName : Name :=
  ⟨[⟨[120], by simp, by decide⟩], by decide⟩

/-- A node is created for an unknown name, and its only handle is given up. -/
def strayRun : List NodeCall :=
  [.findNode 1 strangeName true .ample, .detachNode 1 2]

theorem isOver_strayRun : ∀ call ∈ strayRun, call.IsOver rootHost 0 := by
  intro call hCall database hDatabase
  refine ⟨.root, ?_⟩
  simp only [strayRun, List.mem_cons, List.not_mem_nil, or_false] at hCall
  obtain rfl | rfl := hCall <;> cases hDatabase <;> rfl

theorem returns_exceed_by_started_strayRun :
    (rootHost.run strayRun).startedFor 0 = 1 ∧ (rootHost.run strayRun).heldNodes = 0 ∧
      ¬(rootHost.run strayRun).returnedTo 0 ≤ (rootHost.run strayRun).receivedFrom 0 := by
  obtain ⟨_, hExceeds, _⟩ :=
    returns_exceed_by_started (rfl : rootHost.nodes = []) rfl isOver_strayRun
  have hStarted : (rootHost.run strayRun).startedFor 0 = 1 := rfl
  have hHeld : (rootHost.run strayRun).heldNodes = 0 := rfl
  refine ⟨hStarted, hHeld, ?_⟩
  rw [hExceeds, hStarted, hHeld]
  exact Nat.not_succ_le_zero 0

theorem returns_not_bounded_by_receipts :
    ¬∀ (host : Host) (resolver : ResolverId) (calls : List NodeCall), host.nodes = [] →
      host.eventsOf resolver = [] → (∀ call ∈ calls, call.IsOver host resolver) →
      (host.run calls).returnedTo resolver ≤ (host.run calls).receivedFrom resolver := by
  intro hBounded
  have hLe := hBounded rootHost 0 strayRun rfl rfl isOver_strayRun
  have hReturned : (rootHost.run strayRun).returnedTo 0 = 1 := rfl
  have hReceived : (rootHost.run strayRun).receivedFrom 0 = 0 := rfl
  rw [hReturned, hReceived] at hLe
  exact Nat.not_succ_le_zero 0 hLe

end ZoneStore.Host
