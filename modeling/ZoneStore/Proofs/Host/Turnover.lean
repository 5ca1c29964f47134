import ZoneStore.Host.Operations
import ZoneStore.Proofs.Host.Shelf

/-!
# What one call does to what has owners

Resolvers are owned by their binding in the table of instances and by the
databases over them, and databases by the handles to them. Every call on a
host does one of a few things to these objects. What holds of them after a
run is proved by cases on these things, and no call is looked into again.
-/

namespace ZoneStore

/-! ## Tables -/

theorem mem_of_lookup {β : Type} {entries : List (String × β)} {name : String} {value : β}
    (hLookup : entries.lookup name = some value) : (name, value) ∈ entries := by
  obtain ⟨front, back, rfl, -⟩ := List.lookup_eq_some_iff.mp hLookup
  exact List.mem_append_right _ List.mem_cons_self

theorem lookup_eq_some_iff_mem {β : Type} {entries : List (String × β)} {name : String}
    {value : β} (hNames : (entries.map Prod.fst).Nodup) :
    entries.lookup name = some value ↔ (name, value) ∈ entries := by
  constructor
  · exact mem_of_lookup
  · intro hMem
    obtain ⟨front, back, rfl⟩ := List.append_of_mem hMem
    refine List.lookup_eq_some_iff.mpr ⟨front, back, rfl, ?_⟩
    rw [List.map_append, List.nodup_append] at hNames
    intro entry hEntry
    have hNe := hNames.2.2 entry.1 (List.mem_map_of_mem hEntry) name (by simp)
    simpa using Ne.symm hNe

/-! ## One call -/

/-- What has owners on a host, and what names it. -/
structure Objects where
  instances : List (String × ResolverId)
  resolvers : Shelf Resolver
  databases : Shelf Database
  fresh : Nat

/-- What a call can do to the objects of a host. -/
inductive Objects.Turnover (objects : Objects) : Change → Objects → Prop
  | idle (later : Nat) : objects.fresh ≤ later →
      Turnover objects .none { objects with fresh := later }
  | bound (name : String) (source : Resolver) : objects.instances.lookup name = none →
      Turnover objects .none
        ⟨(name, objects.fresh) :: objects.instances, objects.resolvers.put objects.fresh source,
          objects.databases, objects.fresh + 1⟩
  | cleared :
      Turnover objects .none
        ⟨[], objects.resolvers.releaseAll (objects.instances.map Prod.snd), objects.databases,
          objects.fresh⟩
  | revised (resolver : ResolverId) (source : Resolver) :
      Turnover objects (.revised resolver)
        { objects with resolvers := objects.resolvers.replace resolver source }
  | created (database : Database) :
      (∀ resolver ∈ database.resolver?, resolver ∈ objects.instances.map Prod.snd) →
      Turnover objects (.created objects.fresh)
        ⟨objects.instances, database.resolver?.elim objects.resolvers objects.resolvers.share,
          objects.databases.put objects.fresh database, objects.fresh + 1⟩
  | attached (database : DatabaseId) :
      Turnover objects (.attached database)
        { objects with databases := objects.databases.share database }
  | detached (database : DatabaseId) :
      Turnover objects (.detached database)
        { objects with
          databases := (objects.databases.release database).1
          resolvers := ((objects.databases.release database).2.bind Database.resolver?).elim
            objects.resolvers fun resolver => (objects.resolvers.release resolver).1 }

namespace Host

def objects (host : Host) : Objects :=
  ⟨host.instances, host.resolvers, host.databases, host.fresh⟩

/-- A call that revises no resolver concerns nodes only. -/
theorem perform_cases (host : Host) (call : NodeCall) :
    (∃ resolver source, call = .revise resolver source) ∨
      host.change (.node call) = .none ∧ ∃ nodes events later, host.fresh ≤ later ∧
        host.perform call = { host with nodes := nodes, events := events, fresh := later } := by
  have hIdle : ∃ nodes events later, host.fresh ≤ later ∧
      host = { host with nodes := nodes, events := events, fresh := later } :=
    ⟨host.nodes, host.events, host.fresh, Nat.le_refl _, rfl⟩
  have hCarried : ∀ {α : Type} (resolver : ResolverId) (reply : Reply α) (nodeOf : α → Node),
      ∃ nodes events later, host.fresh ≤ later ∧ (host.carryOut resolver reply nodeOf).host =
        { host with nodes := nodes, events := events, fresh := later } := by
    intro α resolver reply nodeOf
    unfold carryOut
    cases reply.result with
    | error failure => exact ⟨_, _, _, Nat.le_refl _, rfl⟩
    | ok value => exact ⟨_, _, _, Nat.le_succ _, rfl⟩
  cases call with
  | find database name version type options now memory =>
    refine .inr ⟨rfl, ?_⟩
    dsimp only [perform, find]
    split
    · split
      · exact hCarried _ _ _
      · exact hIdle
    · exact hIdle
  | findNode database name create memory =>
    refine .inr ⟨rfl, ?_⟩
    dsimp only [perform, findNode]
    split
    · split
      · exact hCarried _ _ _
      · exact hIdle
    · exact hIdle
  | findRdataset => exact .inr ⟨rfl, hIdle⟩
  | attachNode node => exact .inr ⟨rfl, _, _, _, Nat.le_refl _, rfl⟩
  | detachNode database node =>
    refine .inr ⟨rfl, ?_⟩
    dsimp only [perform, detachNode]
    split <;> exact ⟨_, _, _, Nat.le_refl _, rfl⟩
  | revise resolver source => exact .inl ⟨resolver, source, rfl⟩

theorem turnover_node (host : Host) (call : NodeCall) :
    host.objects.Turnover (host.change (.node call)) (host.perform call).objects := by
  obtain ⟨resolver, source, rfl⟩ | ⟨hNone, nodes, events, later, hLe, hPerform⟩ :=
    host.perform_cases call
  · exact .revised resolver source
  · rw [hNone, hPerform]
    exact .idle _ hLe

theorem instance?_iff_lookup {host : Host} {name : String} {resolver : ResolverId} :
    host.instance? name = .ok resolver ↔ host.instances.lookup name = some resolver := by
  unfold instance?
  cases host.instances.lookup name <;> simp

theorem mem_instances_of_instance? {host : Host} {name : String} {resolver : ResolverId}
    (hInstance : host.instance? name = .ok resolver) :
    resolver ∈ host.instances.map Prod.snd :=
  List.mem_map_of_mem (mem_of_lookup (instance?_iff_lookup.mp hInstance))

/-- A creation fails and leaves the host alone, or opens a database with the next number. -/
inductive Creates (host : Host) : Host → Outcome DatabaseId → Prop
  | failed (failure : Failure) : Creates host host (.error failure)
  | opened (database : Database) :
      (∀ resolver ∈ database.resolver?, ∃ name, host.instance? name = .ok resolver) →
      Creates host
        { host with
          resolvers := database.resolver?.elim host.resolvers host.resolvers.share
          databases := host.databases.put host.fresh database
          fresh := host.fresh + 1 }
        (.ok host.fresh)

theorem creates_createResolving (host : Host) (origin : Name) (kind : DatabaseKind)
    (recordClass : RecordClass) (arguments : List String) (forOrigin : Bool) :
    host.Creates (host.createResolving origin kind recordClass arguments forOrigin).host
      (host.createResolving origin kind recordClass arguments forOrigin).result := by
  unfold createResolving
  cases arguments with
  | nil => exact .failed _
  | cons name arguments =>
    dsimp only
    split
    · exact .failed _
    split
    · exact .failed _
    cases forOrigin with
    | false => exact .failed _
    | true =>
      cases hInstance : host.instance? name with
      | error cause => exact .failed _
      | ok resolver =>
        refine .opened (.resolving origin resolver) ?_
        rintro _ ⟨⟩
        exact ⟨name, hInstance⟩

theorem creates_create (host : Host) (implementation : String) (origin : Name)
    (kind : DatabaseKind) (recordClass : RecordClass) (arguments : List String)
    (forOrigin : Bool) :
    host.Creates (host.create implementation origin kind recordClass arguments forOrigin).host
      (host.create implementation origin kind recordClass arguments forOrigin).result := by
  unfold create
  cases host.implementation? implementation with
  | none => exact .failed _
  | some constructor =>
    cases constructor with
    | resolving => exact creates_createResolving host origin kind recordClass arguments forOrigin
    | refusing => exact .failed _
    | stub => exact .opened (.stub origin) nofun

theorem Creates.turnover {host later : Host} {result : Outcome DatabaseId}
    (hCreates : host.Creates later result) :
    host.objects.Turnover (.ofCreation result) later.objects := by
  cases hCreates with
  | failed failure => exact .idle _ (Nat.le_refl _)
  | opened database hBound =>
    refine .created database fun resolver hResolver => ?_
    obtain ⟨name, hInstance⟩ := hBound resolver hResolver
    exact mem_instances_of_instance? hInstance

theorem Creates.host_eq {host later : Host} {failure : Failure}
    (hCreates : host.Creates later (.error failure)) : later = host := by
  cases hCreates
  rfl

theorem turnover_detach (host : Host) (database : DatabaseId) :
    host.objects.Turnover (.detached database) (host.detach database).host.objects := by
  have hTurnover : host.objects.Turnover (.detached database)
      ⟨host.instances,
        ((host.databases.release database).2.bind Database.resolver?).elim host.resolvers
          fun resolver => (host.resolvers.release resolver).1,
        (host.databases.release database).1, host.fresh⟩ := .detached database
  unfold detach
  dsimp only
  cases hRelease : (host.databases.release database).2 with
  | none =>
    rw [hRelease] at hTurnover
    exact hTurnover
  | some value =>
    rw [hRelease] at hTurnover
    cases value with
    | resolving origin resolver => exact hTurnover
    | stub origin => exact hTurnover

/-- A resolver that cannot be bound is given up at once. -/
theorem addInstance_of_bound {host : Host} (hFresh : host.resolvers.find? host.fresh = none)
    {name : String} (hBound : (host.instances.lookup name).isSome = true) (resolver : Resolver) :
    host.addInstance name resolver =
      ⟨{ host with fresh := host.fresh + 1 }, (host.fresh, .error .alreadyExists), []⟩ := by
  unfold addInstance newResolver
  dsimp only
  rw [if_pos hBound]
  unfold releaseResolver
  dsimp only
  rw [Shelf.release_put hFresh]

/-- Binding a resolver fails for a name that is bound, and for no other. -/
theorem addInstance_cases (host : Host) (name : String) (source : Resolver) :
    (host.instances.lookup name ≠ none ∧
        (host.addInstance name source).result.2 = .error .alreadyExists) ∨
      (host.instances.lookup name = none ∧ (host.addInstance name source).result.2 = .ok () ∧
        (host.addInstance name source).host.instances = (name, host.fresh) :: host.instances ∧
        (host.addInstance name source).host.resolvers =
          host.resolvers.put host.fresh source) := by
  unfold addInstance newResolver
  dsimp only
  cases host.instances.lookup name with
  | some resolver => exact .inl ⟨nofun, rfl⟩
  | none => exact .inr ⟨rfl, rfl, rfl, rfl⟩

theorem turnover_addInstance {host : Host} (hFresh : host.resolvers.find? host.fresh = none)
    (name : String) (resolver : Resolver) :
    host.objects.Turnover .none (host.addInstance name resolver).host.objects := by
  cases hLookup : host.instances.lookup name with
  | some other =>
    rw [addInstance_of_bound hFresh (by rw [hLookup]; rfl)]
    exact .idle _ (Nat.le_succ _)
  | none =>
    unfold addInstance newResolver
    dsimp only
    rw [hLookup]
    exact .bound name resolver hLookup

theorem destroyAll_eq (host : Host) :
    host.destroyAll.host =
      { host with
        instances := []
        resolvers := host.resolvers.releaseAll (host.instances.map Prod.snd) } := by
  have hFold : ∀ (bindings : List (String × ResolverId)) (host : Host),
      bindings.foldl (fun host binding => host.releaseResolver binding.2) host =
        { host with resolvers := host.resolvers.releaseAll (bindings.map Prod.snd) } := by
    intro bindings
    induction bindings with
    | nil => exact fun _ => rfl
    | cons binding bindings ih => exact fun host => ih (host.releaseResolver binding.2)
  unfold destroyAll
  dsimp only
  rw [hFold]

theorem turnover_destroyAll (host : Host) :
    host.objects.Turnover .none host.destroyAll.host.objects := by
  rw [destroyAll_eq]
  exact .cleared

theorem objects_registerDriver (host : Host) : host.registerDriver.1.objects = host.objects := by
  unfold registerDriver register
  cases host.isRegistered driverName <;> rfl

theorem instances_registerDriver (host : Host) :
    host.registerDriver.1.instances = host.instances :=
  congrArg Objects.instances host.objects_registerDriver

theorem resolvers_registerDriver (host : Host) :
    host.registerDriver.1.resolvers = host.resolvers :=
  congrArg Objects.resolvers host.objects_registerDriver

theorem databases_registerDriver (host : Host) :
    host.registerDriver.1.databases = host.databases :=
  congrArg Objects.databases host.objects_registerDriver

theorem fresh_registerDriver (host : Host) : host.registerDriver.1.fresh = host.fresh :=
  congrArg Objects.fresh host.objects_registerDriver

/-- A set-up registers the driver in any case, and binds what it could load. -/
theorem setUp_cases (host : Host) (read : FileReader) (name : String) (arguments : List String) :
    (∃ cause, (loadInstance read arguments).1 = .error cause ∧
        (host.setUp read name arguments).host = host.registerDriver.1 ∧
        (host.setUp read name arguments).result = .error cause) ∨
      ∃ table, (loadInstance read arguments).1 = .ok table ∧
        (host.setUp read name arguments).host =
          (host.registerDriver.1.addInstance name table.toResolver).host ∧
        (host.setUp read name arguments).result =
          (host.registerDriver.1.addInstance name table.toResolver).result.2.mapError .database := by
  unfold setUp
  dsimp only
  cases (loadInstance read arguments).1 with
  | error cause => exact .inl ⟨cause, rfl, rfl, rfl⟩
  | ok table =>
    refine .inr ⟨table, rfl, ?_⟩
    dsimp only
    cases (host.registerDriver.1.addInstance name table.toResolver).result.2 with
    | error cause => exact ⟨rfl, rfl⟩
    | ok _ => exact ⟨rfl, rfl⟩

theorem turnover_setUp {host : Host} (hFresh : host.resolvers.find? host.fresh = none)
    (read : FileReader) (name : String) (arguments : List String) :
    host.objects.Turnover .none (host.setUp read name arguments).host.objects := by
  obtain ⟨-, -, hHost, -⟩ | ⟨table, -, hHost, -⟩ := host.setUp_cases read name arguments
  · rw [hHost, objects_registerDriver]
    exact .idle _ (Nat.le_refl _)
  · have hRegistered :
        host.registerDriver.1.resolvers.find? host.registerDriver.1.fresh = none := by
      rw [resolvers_registerDriver, fresh_registerDriver]
      exact hFresh
    have hAdded := turnover_addInstance hRegistered name table.toResolver
    rw [objects_registerDriver] at hAdded
    rw [hHost]
    exact hAdded

theorem turnover_shutDown (host : Host) :
    host.objects.Turnover .none host.shutDown.host.objects := by
  unfold shutDown
  cases host.driverRegistration with
  | none => exact turnover_destroyAll host
  | some registration =>
    exact turnover_destroyAll
      ({ host with driverRegistration := none }.unregister registration).host

/-- Every call does one of these things. -/
theorem turnover_apply {host : Host} (hFresh : host.resolvers.find? host.fresh = none)
    (call : HostCall) : host.objects.Turnover (host.change call) (host.apply call).objects := by
  cases call with
  | node call => exact turnover_node host call
  | dropNode node => exact .idle _ (Nat.le_refl _)
  | version database call => exact .idle _ (Nat.le_refl _)
  | auxiliary database call => exact .idle _ (Nat.le_refl _)
  | createResolving origin kind recordClass arguments forOrigin =>
    exact (creates_createResolving host origin kind recordClass arguments forOrigin).turnover
  | create implementation origin kind recordClass arguments forOrigin =>
    exact (creates_create host implementation origin kind recordClass arguments forOrigin).turnover
  | attach database => exact .attached database
  | detach database => exact turnover_detach host database
  | register name constructor =>
    dsimp only [apply, register]
    split <;> exact .idle _ (Nat.le_refl _)
  | unregister registration => exact .idle _ (Nat.le_refl _)
  | addInstance name resolver => exact turnover_addInstance hFresh name resolver
  | destroyAll => exact turnover_destroyAll host
  | setUp read name arguments => exact turnover_setUp hFresh read name arguments
  | shutDown => exact turnover_shutDown host

end Host

end ZoneStore
