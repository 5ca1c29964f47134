import Mathlib.Logic.Function.Basic
import ZoneStore.Proofs.Host.Serving
import ZoneStore.Proofs.Host.Turnover
import ZoneStore.Query.Run

/-!
# Visits to a host that is set up

Setting the driver up binds a table to the name of every instance. A visit
to a zone opens a database over the table of the zone's instance, looks one
name up and closes the database, and leaves all bindings as they are.
-/

namespace ZoneStore

/-- What a resolver replies when a database asks it. -/
def ListEvent.isReply : ListEvent → Bool
  | received _ => true
  | refused _ => true
  | _ => false

theorem Lookup.countP_isReply_find (resolver : Resolver) (name : Name) (version : Option Version)
    (type : RecordType) (options : FindOptions) (now : UInt32) :
    (find resolver name version type options now).events.countP ListEvent.isReply ≤ 1 := by
  unfold find
  dsimp only
  split
  · exact Nat.zero_le 1
  split
  · exact Nat.zero_le 1
  cases resolver.resolve name with
  | error cause => exact Nat.le_refl 1
  | ok resolution =>
    dsimp only [newNode, Memory.ample]
    cases selectOrAlias resolver resolution.rrsets type <;> exact Nat.le_refl 1

namespace Host

/-- The number of times that a database on the host asked its resolver. -/
def lookups (host : Host) : Nat :=
  host.events.countP fun (_, event) => event.isReply

theorem lookups_record (host : Host) (resolver : ResolverId) (events : List ListEvent) :
    (host.record resolver events).lookups = host.lookups + events.countP ListEvent.isReply := by
  rw [lookups, record, List.countP_append, List.countP_map]
  rfl

/-- The driver is registered if anything is served, and every served name has a resolver. -/
structure Serving (host : Host) (tables : String → Option RecordTable) : Prop where
  resolvers : host.resolvers.WellKept host.fresh
  databases : host.databases.WellKept host.fresh
  implementation : host.implementation? driverName = some .resolving ∨
    host.implementation? driverName = none ∧ ∀ name, tables name = none
  unbound : ∀ name, tables name = none → host.instances.lookup name = none
  bound : ∀ name table, tables name = some table →
    ∃ id, host.instances.lookup name = some id ∧ host.resolvers.find? id = some table.toResolver

theorem serving_start : start.Serving fun _ => none where
  resolvers := Shelf.wellKept_nil 0
  databases := Shelf.wellKept_nil 0
  implementation := .inr ⟨rfl, fun _ => rfl⟩
  unbound := fun _ _ => rfl
  bound := nofun

variable {host : Host} {tables : String → Option RecordTable}

/-! ## Setting up -/

theorem Serving.registerDriver (h : host.Serving tables) :
    host.registerDriver.1.Serving tables ∧
      host.registerDriver.1.implementation? driverName = some .resolving ∧
      host.registerDriver.1.events = host.events := by
  unfold Host.registerDriver register isRegistered
  obtain hSome | ⟨hNone, hTables⟩ := h.implementation
  · rw [hSome]
    exact ⟨⟨h.resolvers, h.databases, .inl hSome, h.unbound, h.bound⟩, hSome, rfl⟩
  · rw [hNone]
    have hNew : List.lookup driverName ((driverName, Constructor.resolving) ::
        host.implementations) = some .resolving := by
      rw [List.lookup_cons, beq_self_eq_true]
    exact ⟨⟨h.resolvers, h.databases, .inl hNew, h.unbound, h.bound⟩, hNew, rfl⟩

theorem Serving.addInstance (h : host.Serving tables)
    (hDriver : host.implementation? driverName = some .resolving) {name : String}
    {table : RecordTable} (hAdded : (host.addInstance name table.toResolver).result.2 = .ok ()) :
    tables name = none ∧
      (host.addInstance name table.toResolver).host.Serving
        (Function.update tables name (some table)) ∧
      (host.addInstance name table.toResolver).host.events = host.events := by
  unfold Host.addInstance newResolver at hAdded ⊢
  dsimp only at hAdded ⊢
  cases hLookup : host.instances.lookup name with
  | some id =>
    rw [hLookup] at hAdded
    cases hAdded
  | none =>
    have hUnserved : tables name = none := by
      cases hTable : tables name with
      | none => rfl
      | some served =>
        obtain ⟨id, hId, _⟩ := h.bound name served hTable
        rw [hLookup] at hId
        cases hId
    refine ⟨hUnserved, ⟨h.resolvers.put _, h.databases.mono (Nat.le_succ _), .inl hDriver, ?_, ?_⟩,
      rfl⟩
    · intro other hOther
      by_cases hSame : other = name
      · rw [hSame, Function.update_self] at hOther
        cases hOther
      · rw [Function.update_of_ne hSame] at hOther
        change List.lookup other ((name, host.fresh) :: host.instances) = none
        rw [List.lookup_cons, beq_false_of_ne hSame]
        exact h.unbound other hOther
    · intro other served hOther
      change ∃ id, List.lookup other ((name, host.fresh) :: host.instances) = some id ∧
        (host.resolvers.put host.fresh table.toResolver).find? id = some served.toResolver
      by_cases hSame : other = name
      · subst hSame
        rw [Function.update_self] at hOther
        cases hOther
        refine ⟨host.fresh, by rw [List.lookup_cons, beq_self_eq_true], ?_⟩
        rw [Shelf.find?_put, h.resolvers.find?_eq_none (Nat.le_refl _), Option.none_or, if_pos rfl]
      · rw [Function.update_of_ne hSame] at hOther
        obtain ⟨id, hId, hFind⟩ := h.bound other served hOther
        refine ⟨id, ?_, ?_⟩
        · rw [List.lookup_cons, beq_false_of_ne hSame]
          exact hId
        · rw [Shelf.find?_put, hFind, Option.some_or]

theorem Serving.setUp (h : host.Serving tables) {read : FileReader} {name : String}
    {arguments : List String} (hSetUp : (host.setUp read name arguments).result = .ok ()) :
    ∃ table, (loadInstance read arguments).1 = .ok table ∧ tables name = none ∧
      (host.setUp read name arguments).host.Serving (Function.update tables name (some table)) ∧
      (host.setUp read name arguments).host.events = host.events := by
  obtain ⟨hRegistered, hDriver, hEvents⟩ := h.registerDriver
  obtain ⟨cause, -, -, hResult⟩ | ⟨table, hLoaded, hHost, hResult⟩ :=
    host.setUp_cases read name arguments
  · rw [hSetUp] at hResult
    cases hResult
  · rw [hSetUp] at hResult
    cases hBound : (host.registerDriver.1.addInstance name table.toResolver).result.2 with
    | error e =>
      rw [hBound] at hResult
      cases hResult
    | ok _ =>
      obtain ⟨hUnserved, hServing, hSame⟩ := hRegistered.addInstance hDriver hBound
      rw [hHost]
      exact ⟨table, hLoaded, hUnserved, hServing, hSame.trans hEvents⟩

/-- The tables that some instances bring in beside those that are served. -/
def tablesWith (tables : String → Option RecordTable) (read : FileReader)
    (entries : List InstanceEntry) (name : String) : Option RecordTable :=
  (tables name).or ((entries.find? fun entry => entry.name = name).bind fun entry =>
    (loadInstance read entry.arguments).1.toOption)

theorem Serving.setUpAll {read : FileReader} {entries : List InstanceEntry}
    (h : host.Serving tables) (hSetUp : (host.setUpAll read entries).result = .ok ()) :
    (host.setUpAll read entries).host.Serving (tablesWith tables read entries) ∧
      (host.setUpAll read entries).host.events = host.events := by
  induction entries generalizing host tables with
  | nil =>
    have hTables : tablesWith tables read [] = tables := by
      funext name
      exact Option.or_none
    rw [hTables]
    exact ⟨h, rfl⟩
  | cons entry entries ih =>
    unfold Host.setUpAll at hSetUp ⊢
    dsimp only at hSetUp ⊢
    cases hFirst : (host.setUp read entry.name entry.arguments).result with
    | error e =>
      rw [hFirst] at hSetUp
      cases hSetUp
    | ok _ =>
      rw [hFirst] at hSetUp
      obtain ⟨table, hLoaded, hUnserved, hServing, hEvents⟩ := h.setUp hFirst
      obtain ⟨hRest, hSame⟩ := ih hServing hSetUp
      have hTables : tablesWith (Function.update tables entry.name (some table)) read entries =
          tablesWith tables read (entry :: entries) := by
        funext name
        unfold tablesWith
        by_cases hName : name = entry.name
        · subst hName
          rw [Function.update_self, hUnserved, List.find?_cons_of_pos (by simp), Option.bind_some,
            hLoaded]
          rfl
        · rw [Function.update_of_ne hName,
            List.find?_cons_of_neg (by simpa using fun hSame => hName hSame.symm)]
      rw [hTables] at hRest
      exact ⟨hRest, hSame.trans hEvents⟩

/-! ## Visiting -/

variable {zone : Zone}

theorem Serving.visit_unserved (h : host.Serving tables) (hTable : tables zone.instanceName = none)
    (hClass : zone.recordClass = .internet) (name : Name) (type : RecordType) :
    (host.visit zone name type).host = host ∧
      (host.visit zone name type).result = .error (.notOpened (.error .notFound)) := by
  unfold visit create
  obtain hDriver | ⟨hDriver, _⟩ := h.implementation
  · have hInstance : host.instance? zone.instanceName = .error .notFound := by
      rw [instance?, h.unbound _ hTable]
    rw [hDriver]
    dsimp only [construct, createResolving]
    rw [if_neg (not_not.mpr rfl), if_neg (not_not.mpr hClass), hInstance]
    exact ⟨rfl, rfl⟩
  · rw [hDriver]
    exact ⟨rfl, rfl⟩

/-- The host while the database of a visit is open; the database has the number `host.fresh`. -/
structure Opened (host mid : Host) (origin : Name) (id : ResolverId) : Prop where
  implementations_eq : mid.implementations = host.implementations
  instances_eq : mid.instances = host.instances
  resolvers_eq : mid.resolvers = host.resolvers.share id
  databases_eq : mid.databases = host.databases.put host.fresh (.resolving origin id)
  lt_fresh : host.fresh < mid.fresh

theorem Opened.database? {mid : Host} {origin : Name} {id : ResolverId}
    (hOpened : Opened host mid origin id) (h : host.Serving tables) :
    mid.database? host.fresh = some (.resolving origin id) := by
  rw [Host.database?, hOpened.databases_eq, Shelf.find?_put,
    h.databases.find?_eq_none (Nat.le_refl _), Option.none_or, if_pos rfl]

theorem Opened.record {mid : Host} {origin : Name} {id : ResolverId}
    (hOpened : Opened host mid origin id) (resolver : ResolverId) (events : List ListEvent) :
    Opened host (mid.record resolver events) origin id :=
  ⟨hOpened.implementations_eq, hOpened.instances_eq, hOpened.resolvers_eq, hOpened.databases_eq,
    hOpened.lt_fresh⟩

theorem Opened.keepNode {mid : Host} {origin : Name} {id : ResolverId}
    (hOpened : Opened host mid origin id) (node : Node) :
    Opened host (mid.keepNode node).1 origin id :=
  ⟨hOpened.implementations_eq, hOpened.instances_eq, hOpened.resolvers_eq, hOpened.databases_eq,
    Nat.lt_succ_of_lt hOpened.lt_fresh⟩

theorem Opened.detachNode {mid : Host} {origin : Name} {id : ResolverId}
    (hOpened : Opened host mid origin id) (database : DatabaseId) (node : NodeId) :
    Opened host (mid.detachNode database node) origin id ∧
      (mid.detachNode database node).lookups = mid.lookups := by
  unfold Host.detachNode dropNode
  dsimp only
  have hDropped : Opened host { mid with nodes := (mid.nodes.release node).1 } origin id :=
    ⟨hOpened.implementations_eq, hOpened.instances_eq, hOpened.resolvers_eq,
      hOpened.databases_eq, hOpened.lt_fresh⟩
  split
  · refine ⟨hDropped.record _ _, ?_⟩
    rw [lookups_record]
    rfl
  · exact ⟨hDropped, rfl⟩

/-- Closing the database gives its share of the resolver up again. -/
theorem Opened.detach {mid : Host} {origin : Name} {id : ResolverId} {resolver : Resolver}
    (hOpened : Opened host mid origin id) (h : host.Serving tables)
    (hFind : host.resolvers.find? id = some resolver) :
    (mid.detach host.fresh).host.Serving tables ∧
      (mid.detach host.fresh).host.events = mid.events := by
  have hNone := h.databases.find?_eq_none (Nat.le_refl host.fresh)
  have hKept : mid.databases.WellKept mid.fresh := by
    rw [hOpened.databases_eq]
    exact (h.databases.put _).mono hOpened.lt_fresh
  have hGiven : (mid.databases.release host.fresh).2 = some (.resolving origin id) := by
    obtain ⟨_, hGiven, _⟩ | ⟨hMore, _⟩ := hKept.release_cases (hOpened.database? h)
    · exact hGiven
    · rw [hOpened.databases_eq, Shelf.ownersOf_put_self _ hNone] at hMore
      exact absurd rfl hMore
  have hShared : 1 < mid.resolvers.ownersOf id := by
    rw [hOpened.resolvers_eq, Shelf.ownersOf_share_self hFind]
    exact Nat.lt_succ_of_le (h.resolvers.one_le_ownersOf hFind)
  have hSame : ∀ other,
      (mid.resolvers.release id).1.find? other = host.resolvers.find? other := by
    intro other
    rw [Shelf.find?_release, if_neg fun hLast => Nat.not_le_of_lt hShared hLast.2,
      hOpened.resolvers_eq, Shelf.find?_share]
  have hResolvers : (mid.resolvers.release id).1.WellKept mid.fresh := by
    rw [hOpened.resolvers_eq]
    exact ((h.resolvers.share id).release id).mono (Nat.le_of_lt hOpened.lt_fresh)
  unfold Host.detach
  dsimp only
  rw [hGiven]
  refine ⟨⟨hResolvers, hKept.release _, ?_, ?_, ?_⟩, rfl⟩
  · have hImplementation := h.implementation
    unfold implementation? at hImplementation ⊢
    rw [← hOpened.implementations_eq] at hImplementation
    exact hImplementation
  · intro name hTable
    exact (congrArg (List.lookup name) hOpened.instances_eq).trans (h.unbound name hTable)
  · intro name table hTable
    obtain ⟨other, hLookup, hBound⟩ := h.bound name table hTable
    exact ⟨other, (congrArg (List.lookup name) hOpened.instances_eq).trans hLookup,
      (hSame other).trans hBound⟩

theorem Serving.create_eq (h : host.Serving tables) {table : RecordTable}
    (hTable : tables zone.instanceName = some table) (hClass : zone.recordClass = .internet) :
    ∃ id opened log, host.resolvers.find? id = some table.toResolver ∧
      host.create driverName zone.origin .zone zone.recordClass [zone.instanceName] =
        ⟨opened, .ok host.fresh, log⟩ ∧
      Opened host opened zone.origin id ∧ opened.events = host.events := by
  obtain ⟨id, hId, hFind⟩ := h.bound _ table hTable
  have hDriver : host.implementation? driverName = some .resolving := by
    obtain hDriver | ⟨_, hNone⟩ := h.implementation
    · exact hDriver
    · rw [hNone] at hTable
      cases hTable
  have hInstance : host.instance? zone.instanceName = .ok id := by
    rw [instance?, hId]
  unfold create
  rw [hDriver]
  dsimp only [construct, createResolving]
  rw [if_neg (not_not.mpr rfl), if_neg (not_not.mpr hClass), hInstance]
  exact ⟨id, _, _, hFind, rfl, ⟨rfl, rfl, rfl, rfl, Nat.lt_succ_self _⟩, rfl⟩

/-- What a visit finds is what the table of the zone's instance answers. -/
theorem Serving.visit (h : host.Serving tables) {table : RecordTable}
    (hTable : tables zone.instanceName = some table) (hClass : zone.recordClass = .internet)
    (name : Name) (type : RecordType) :
    (host.visit zone name type).host.Serving tables ∧
      (host.visit zone name type).host.lookups ≤ host.lookups + 1 ∧
      (host.visit zone name type).result =
        (Lookup.find table.toResolver name none type {} 0).result.mapError .notAnswered := by
  obtain ⟨id, opened, log, hFind, hCreate, hOpened, hEvents⟩ := h.create_eq hTable hClass
  have hAsked : opened.find host.fresh name none type {} 0 =
      opened.carryOut id (Lookup.find table.toResolver name none type {} 0)
        fun result => result.found.node := by
    rw [find, hOpened.database? h]
    dsimp only
    rw [hOpened.resolvers_eq, Shelf.find?_share, hFind]
  have hReplies := Lookup.countP_isReply_find table.toResolver name none type {} 0
  have hLookups := lookups_record opened id
    (Lookup.find table.toResolver name none type {} 0).events
  have hSame : opened.lookups = host.lookups := by rw [lookups, lookups, hEvents]
  unfold Host.visit
  rw [hCreate]
  dsimp only
  rw [hAsked]
  unfold carryOut
  dsimp only
  cases (Lookup.find table.toResolver name none type {} 0).result with
  | error failure =>
    dsimp only
    obtain ⟨hServing, hClosed⟩ := (hOpened.record id _).detach h hFind
    refine ⟨hServing, ?_, rfl⟩
    rw [lookups, hClosed, ← lookups]
    omega
  | ok result =>
    dsimp only
    obtain ⟨hDetached, hCount⟩ :=
      ((hOpened.record id _).keepNode result.found.node).detachNode host.fresh _
    obtain ⟨hServing, hClosed⟩ := hDetached.detach h hFind
    refine ⟨hServing, ?_, rfl⟩
    rw [lookups, hClosed, ← lookups]
    refine Nat.le_trans (Nat.le_of_eq hCount) ?_
    change (opened.record id _).lookups ≤ _
    omega

end Host

end ZoneStore
