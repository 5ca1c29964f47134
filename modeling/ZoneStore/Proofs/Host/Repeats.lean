import ZoneStore.Proofs.Database.Paths
import ZoneStore.Proofs.Host.Lifetimes
import ZoneStore.Proofs.Host.Serving
import ZoneStore.Proofs.Resolver.Holdings

/-!
# Reads that repeat

A database stays over the resolver that it was created over as long as a
handle to it is held, whatever becomes of the name of the instance, and a
record table answers a name always alike. So a lookup that is repeated finds
the same again. The table shares its RRsets with the lists that it hands
out, and nothing that is done with those reaches its records.
-/

namespace ZoneStore

/-! ## Resolvers that are kept -/

namespace Objects

variable {objects later : Objects} {change : Change}

/-- A resolver that is not revised goes or stays what it is. -/
theorem Turnover.resolver_cases (hTurnover : objects.Turnover change later)
    {resolver : ResolverId} {source : Resolver}
    (hSource : objects.resolvers.find? resolver = some source)
    (hFixed : change ≠ .revised resolver) :
    later.resolvers.find? resolver = none ∨ later.resolvers.find? resolver = some source := by
  rw [← hSource]
  cases hTurnover with
  | idle later hLe => exact .inr rfl
  | bound name other hFree =>
    refine .inr ?_
    dsimp only
    rw [Shelf.find?_put, hSource, Option.some_or]
  | cleared => exact Shelf.find?_releaseAll_cases _ _ resolver
  | revised other value =>
    have hOther : resolver ≠ other := fun hSame => hFixed (hSame ▸ rfl)
    exact .inr (Shelf.find?_replace_ne value _ hOther)
  | created database hBound =>
    dsimp only
    cases database.resolver? with
    | none => exact .inr rfl
    | some asked => exact .inr (Shelf.find?_share _ asked resolver)
  | attached database => exact .inr rfl
  | detached database =>
    dsimp only
    cases (objects.databases.release database).2.bind Database.resolver? with
    | none => exact .inr rfl
    | some asked => exact Shelf.find?_release_cases _ asked resolver

/-- What a database asks is there. -/
theorem Accounted.exists_of_asked (h : objects.Accounted) {database : DatabaseId}
    {value : Database} {resolver : ResolverId}
    (hValue : objects.databases.find? database = some value)
    (hResolver : value.resolver? = some resolver) :
    ∃ source, objects.resolvers.find? resolver = some source := by
  obtain ⟨entry, hEntry, -, rfl⟩ := h.databases.find?_eq_some_iff.mp hValue
  refine h.exists_of_mem_holders (List.mem_append_right _ ?_)
  exact List.mem_filterMap.mpr ⟨entry.value, List.mem_map_of_mem hEntry, hResolver⟩

end Objects

namespace Host

variable {host : Host} {database : DatabaseId} {origin : Name} {resolver : ResolverId}
  {source : Resolver}

theorem change_eq_revised_iff {call : HostCall} :
    host.change call = .revised resolver ↔ ∃ source, call = .node (.revise resolver source) := by
  have hCreation : ∀ outcome, Change.ofCreation outcome ≠ .revised resolver := by
    intro outcome
    cases outcome <;> nofun
  cases call with
  | createResolving => exact ⟨fun hChange => absurd hChange (hCreation _), nofun⟩
  | create => exact ⟨fun hChange => absurd hChange (hCreation _), nofun⟩
  | node call => cases call <;> simp [change]
  | _ => simp [change]

/-- A database that is still there after some calls asks the same resolver as before. -/
theorem database_and_resolver_applyAll (h : host.objects.Accounted)
    (hDatabase : host.database? database = some (.resolving origin resolver))
    (hSource : host.resolvers.find? resolver = some source) {calls : List HostCall}
    (hFixed : ∀ source, .node (.revise resolver source) ∉ calls)
    (hHeld : (host.applyAll calls).database? database ≠ none) :
    (host.applyAll calls).database? database = some (.resolving origin resolver) ∧
      (host.applyAll calls).resolvers.find? resolver = some source := by
  induction calls generalizing host with
  | nil => exact ⟨hDatabase, hSource⟩
  | cons call calls ih =>
    have hTurnover := turnover_of_accounted h call
    have hAccounted := hTurnover.accounted h
    have hNotRevised : host.change call ≠ .revised resolver := by
      rw [Ne, change_eq_revised_iff]
      rintro ⟨other, rfl⟩
      exact hFixed other List.mem_cons_self
    have hLt : database < (host.apply call).fresh :=
      Nat.lt_of_lt_of_le (h.databases.lt_of_find? hDatabase) hTurnover.fresh_le
    have hStays : (host.apply call).database? database = some (.resolving origin resolver) := by
      obtain hGone | hSame := database?_applyAll h (h.databases.lt_of_find? hDatabase) [call]
      · -- What is gone does not come back, but the database is there in the end.
        have hNever := database?_applyAll hAccounted hLt calls
        have hNone : (host.apply call).database? database = none := hGone
        rw [hNone, or_self] at hNever
        exact absurd hNever hHeld
      · exact hSame.trans hDatabase
    obtain ⟨kept, hKept⟩ := hAccounted.exists_of_asked hStays rfl
    have hUnchanged : (host.apply call).resolvers.find? resolver = some source := by
      obtain hGone | hSame := hTurnover.resolver_cases hSource hNotRevised
      · rw [hGone] at hKept
        cases hKept
      · exact hSame
    exact ih hAccounted hStays hUnchanged
      (fun other hMem => hFixed other (List.mem_cons_of_mem _ hMem)) hHeld

end Host

/-- The version, the options and the time are not part of what is looked up. -/
theorem Lookup.result_find_congr (source : Resolver) (name : Name) (type : RecordType)
    (memory : Memory) {version other : Option Version} (hVersion : admits version = true)
    (hOther : admits other = true) (options options' : FindOptions) (now now' : UInt32) :
    (find source name version type options now memory).result =
      (find source name other type options' now' memory).result := by
  unfold find
  rw [hVersion, hOther]

/-! ## Records that are kept -/

/-- Whether a call adds to the records of a table or drops the table. -/
def HoldingCall.changes (table : Nat) : HoldingCall → Bool
  | .addRecord other _ => other == table
  | .dropTable other => other == table
  | _ => false

theorem CopiedHoldings.tables_perform {held : CopiedHoldings} {table : Nat}
    {records : RecordTable} (hTable : held.tables[table]? = some records) {call : HoldingCall}
    (hCall : call.changes table = false) : (held.perform call).1.tables[table]? = some records := by
  cases call with
  | newList => exact hTable
  | add list type ttl rdata =>
    dsimp only [perform]
    split
    · exact hTable
    · split <;> exact hTable
  | clone list =>
    dsimp only [perform]
    split <;> exact hTable
  | dropList list => exact hTable
  | take list type =>
    dsimp only [perform]
    split <;> exact hTable
  | cloneSet set =>
    dsimp only [perform]
    split <;> exact hTable
  | dropSet set => exact hTable
  | newTable =>
    obtain ⟨hLt, -⟩ := List.getElem?_eq_some_iff.mp hTable
    exact (List.getElem?_append_left hLt).trans hTable
  | addRecord other record =>
    have hOther : other ≠ table := by simpa [HoldingCall.changes] using hCall
    dsimp only [perform]
    split
    · exact hTable
    · exact (List.getElem?_set_ne hOther).trans hTable
  | resolve other name =>
    dsimp only [perform]
    split
    · exact hTable
    · split <;> exact hTable
  | dropTable other =>
    have hOther : other ≠ table := by simpa [HoldingCall.changes] using hCall
    exact (List.getElem?_set_ne hOther).trans hTable

theorem CopiedHoldings.tables_run {held : CopiedHoldings} {table : Nat} {records : RecordTable}
    (hTable : held.tables[table]? = some records) {calls : List HoldingCall}
    (hCalls : ∀ call ∈ calls, call.changes table = false) :
    (held.run calls).1.tables[table]? = some records := by
  induction calls generalizing held with
  | nil => exact hTable
  | cons call calls ih =>
    exact ih (tables_perform hTable (hCalls call List.mem_cons_self))
      fun other hOther => hCalls other (List.mem_cons_of_mem _ hOther)

/-- What is done with lists and RDATA sets does not reach the records of a table. -/
theorem Mirrors.shown?_owner_run {held : SharedHoldings} {copied : CopiedHoldings}
    {copy : Nat → RrsetList} (h : Mirrors held copied copy) {table : Nat}
    (hTable : table < held.tables.length) {calls : List HoldingCall}
    (hCalls : ∀ call ∈ calls, call.changes table = false) (name : Name) :
    (held.run calls).1.shown? (.owner table name) = held.shown? (.owner table name) := by
  obtain ⟨-, later, hMirrors⟩ := h.run calls
  have hCopied : table < copied.tables.length := by
    rw [h.length_tables]
    exact hTable
  have hRecords := List.getElem?_eq_getElem hCopied
  rw [hMirrors.shown?_eq, h.shown?_eq, CopiedHoldings.shown?, CopiedHoldings.shown?,
    CopiedHoldings.tables_run hRecords hCalls, hRecords]

namespace Host

/-! ## Lookups -/

/--
A lookup in a database over a table finds what the table answers, and finds the same again as long
as a handle to the database is held. A table is never revised, and no call on the lists and RDATA
sets that were taken from it changes its records.
-/
theorem find_repeats {before between : List HostCall} {database : DatabaseId} {origin : Name}
    {resolver : ResolverId} {table : RecordTable}
    (hDatabase : (start.applyAll before).database? database = some (.resolving origin resolver))
    (hTable : (start.applyAll before).resolvers.find? resolver = some table.toResolver)
    (hFixed : ∀ source, .node (.revise resolver source) ∉ between)
    (hHeld : start.handles database 0 (before ++ between) ≠ 0)
    {version other : Option Version} (hVersion : version = none ∨ version = some .sentinel)
    (hOther : other = none ∨ other = some .sentinel) (name : Name) (type : RecordType)
    (options options' : FindOptions) (now now' : UInt32) (memory : Memory) :
    ((start.applyAll (before ++ between)).find database name other type options' now'
        memory).result.map Prod.fst =
      ((start.applyAll before).find database name version type options now
        memory).result.map Prod.fst ∧
    ((start.applyAll before).find database name version type options now
        memory).result.map Prod.fst =
      (Lookup.find table.toResolver name none type {} 0 memory).result ∧
    ∀ (handled handling : List HoldingCall) (number : Nat),
      number < (SharedHoldings.start.run handled).1.tables.length →
      (∀ call ∈ handling, call.changes number = false) →
      ∀ owner, ((SharedHoldings.start.run handled).1.run handling).1.shown? (.owner number owner) =
        (SharedHoldings.start.run handled).1.shown? (.owner number owner) := by
  have hFirst : (start.applyAll before).Serves database table.toResolver :=
    ⟨origin, resolver, hDatabase, hTable⟩
  have hRun : start.applyAll (before ++ between) = (start.applyAll before).applyAll between :=
    List.foldl_append
  have hLater : (start.applyAll (before ++ between)).database? database ≠ none := by
    intro hGone
    have hOwners := ownersOf_applyAll accounted_start database (before ++ between)
    rw [Shelf.ownersOf_eq_zero hGone] at hOwners
    exact hHeld hOwners.symm
  rw [hRun] at hLater ⊢
  obtain ⟨hStays, hSame⟩ := database_and_resolver_applyAll
    (accounted_applyAll accounted_start before) hDatabase hTable hFixed hLater
  have hSecond : ((start.applyAll before).applyAll between).Serves database table.toResolver :=
    ⟨origin, resolver, hStays, hSame⟩
  rw [hFirst.result_find, hSecond.result_find]
  have hAdmits := Lookup.admits_iff.mpr hVersion
  refine ⟨Lookup.result_find_congr _ name type memory (Lookup.admits_iff.mpr hOther) hAdmits
    options' options now' now, Lookup.result_find_congr _ name type memory hAdmits rfl
    options {} now 0, ?_⟩
  intro handled handling number hNumber hHandling owner
  obtain ⟨-, copy, hMirrors⟩ := mirrors_start.run handled
  exact hMirrors.shown?_owner_run hNumber hHandling owner

/-- A table with one record at the root. -/
def addressTable : RecordTable :=
  RecordTable.empty.addAll [⟨.root, .a, ⟨7200, by decide⟩, ⟨[192, 0, 2, 53], by decide⟩⟩]

/-- A database over the table, which is bound as `zone`. -/
def addressRun : List HostCall :=
  [.addInstance "zone" addressTable.toResolver,
    .createResolving .root .zone .internet ["zone"] true]

/-- The name of the instance goes to an empty table, over which another database is created. -/
def rebindingRun : List HostCall :=
  [.node (.find 1 .root none .a {} 0 .ample), .attach 1, .shutDown,
    .addInstance "zone" RecordTable.empty.toResolver,
    .createResolving .root .zone .internet ["zone"] true, .auxiliary 1 .addRdataset, .detach 1]

theorem find_repeats_rebound :
    (start.applyAll (addressRun ++ rebindingRun)).instance? "zone" = .ok 3 ∧
      ((start.applyAll (addressRun ++ rebindingRun)).find 1 .root (some .sentinel) .a {} 9
          .ample).result.map Prod.fst =
        ((start.applyAll addressRun).find 1 .root none .a {} 0 .ample).result.map Prod.fst := by
  have hDatabase : (start.applyAll addressRun).database? 1 = some (.resolving .root 0) := rfl
  have hTable : (start.applyAll addressRun).resolvers.find? 0 = some addressTable.toResolver := rfl
  have hFixed : ∀ source, HostCall.node (.revise 0 source) ∉ rebindingRun := by
    intro source hMem
    simp [rebindingRun] at hMem
  have hHeld : start.handles 1 0 (addressRun ++ rebindingRun) ≠ 0 := by decide
  obtain ⟨hSame, -⟩ := find_repeats hDatabase hTable hFixed hHeld (.inl rfl) (.inr rfl) .root .a
    {} {} 0 9 .ample
  exact ⟨rfl, hSame⟩

end Host

end ZoneStore
