import ZoneStore.Proofs.Host.Ownership

/-!
# Lifetimes

A database is there from its creation until its last handle is given up,
and a resolver as long as it is bound or a database over it is there. The
databases that a run creates and destroys are counted off against those
that are there before and after it, which says that each is destroyed once
and none too early.
-/

namespace ZoneStore

namespace Objects

variable {objects later : Objects} {change : Change}

theorem Turnover.fresh_le (hTurnover : objects.Turnover change later) :
    objects.fresh ≤ later.fresh := by
  cases hTurnover with
  | idle later hLe => exact hLe
  | bound name source hFree => exact Nat.le_succ _
  | cleared => exact Nat.le_refl _
  | revised resolver source => exact Nat.le_refl _
  | created value hBound => exact Nat.le_succ _
  | attached other => exact Nat.le_refl _
  | detached other => exact Nat.le_refl _

theorem Turnover.of_created {database : DatabaseId}
    (hTurnover : objects.Turnover (.created database) later) :
    database = objects.fresh ∧ later.fresh = database + 1 := by
  cases hTurnover with
  | created value hBound => exact ⟨rfl, rfl⟩

end Objects

namespace Host

variable {host : Host} {database : DatabaseId} {resolver : ResolverId} {calls : List HostCall}

/-! ## What is noted of one call -/

theorem created?_eq_some_iff {call : HostCall} :
    host.created? call = some database ↔ host.change call = .created database := by
  unfold created?
  cases host.change call <;> simp

theorem change_eq_detached_iff {call : HostCall} :
    host.change call = .detached database ↔ call = .detach database := by
  have hCreation : ∀ outcome, Change.ofCreation outcome ≠ .detached database := by
    intro outcome
    cases outcome <;> nofun
  cases call with
  | createResolving => exact ⟨fun hChange => absurd hChange (hCreation _), nofun⟩
  | create => exact ⟨fun hChange => absurd hChange (hCreation _), nofun⟩
  | node call => cases call <;> exact ⟨nofun, nofun⟩
  | detach other => simp [change]
  | _ => exact ⟨nofun, nofun⟩

/-- Giving a handle up destroys a database if and only if it was the last. -/
theorem result_detach (h : host.objects.Accounted) :
    (host.detach database).result = true ↔ host.databases.ownersOf database = 1 := by
  have hResult : (host.detach database).result =
      (host.databases.release database).2.isSome := by
    unfold detach
    dsimp only
    cases (host.databases.release database).2 with
    | none => rfl
    | some value => cases value <;> rfl
  rw [hResult]
  have hKept : host.databases.WellKept host.fresh := h.databases
  cases hFind : host.databases.find? database with
  | none =>
    have hOwners := Shelf.ownersOf_eq_zero hFind
    rw [Shelf.release_eq, if_pos (by omega), hFind, hOwners]
    exact ⟨nofun, nofun⟩
  | some value =>
    obtain ⟨hOne, hGiven, _⟩ | ⟨hMore, hGiven, _⟩ := hKept.release_cases hFind
    · rw [hGiven]
      exact ⟨fun _ => hOne, fun _ => rfl⟩
    · rw [hGiven]
      exact ⟨nofun, fun hOne => absurd hOne hMore⟩

theorem destroyed?_eq_some_iff (h : host.objects.Accounted) {call : HostCall} :
    host.destroyed? call = some database ↔
      host.change call = .detached database ∧ host.databases.ownersOf database = 1 := by
  rw [change_eq_detached_iff]
  cases call with
  | detach other =>
    dsimp only [destroyed?]
    by_cases hLast : (host.detach other).result = true
    · rw [if_pos hLast]
      constructor
      · rintro ⟨⟩
        exact ⟨rfl, (result_detach h).mp hLast⟩
      · rintro ⟨⟨⟩, -⟩
        rfl
    · rw [if_neg hLast]
      refine ⟨nofun, ?_⟩
      rintro ⟨⟨⟩, hOne⟩
      exact absurd ((result_detach h).mpr hOne) hLast
  | _ => exact ⟨nofun, fun hDetached => nomatch hDetached.1⟩

theorem opened?_eq_some_iff {call : HostCall} :
    host.opened? call = some (database, resolver) ↔
      host.created? call = some database ∧
        ∃ value, (host.apply call).database? database = some value ∧
          value.resolver? = some resolver := by
  unfold opened?
  simp only [Option.bind_eq_some_iff, Option.map_eq_some_iff, Prod.mk.injEq]
  constructor
  · rintro ⟨_, hCreated, _, ⟨value, hValue, hResolver⟩, rfl, rfl⟩
    exact ⟨hCreated, value, hValue, hResolver⟩
  · rintro ⟨hCreated, value, hValue, hResolver⟩
    exact ⟨database, hCreated, resolver, ⟨value, hValue, hResolver⟩, rfl, rfl⟩

/-! ## Databases that come and go -/

theorem count_toList {α : Type} [DecidableEq α] (noted : Option α) (value : α) :
    noted.toList.count value = if noted = some value then 1 else 0 := by
  cases noted with
  | none => rfl
  | some other => simp [List.count_singleton]

theorem count_apply (h : host.objects.Accounted) (call : HostCall) (database : DatabaseId) :
    (host.destroyed? call).toList.count database +
        ((host.apply call).databases.holds database).toNat =
      (host.created? call).toList.count database + (host.databases.holds database).toNat := by
  rw [count_toList, count_toList]
  unfold Shelf.holds
  obtain ⟨hCreated, hBefore, value, hAfter⟩ | ⟨hDetached, hOne, hAfter⟩ |
      ⟨hNew, hLast, hSame⟩ := (turnover_of_accounted h call).database_cases h database
  · change (host.apply call).databases.find? database = some value at hAfter
    change host.databases.find? database = none at hBefore
    have hKept : host.destroyed? call ≠ some database := by
      rw [Ne, destroyed?_eq_some_iff h, hCreated]
      exact fun hDestroyed => nomatch hDestroyed.1
    rw [if_neg hKept, if_pos (created?_eq_some_iff.mpr hCreated), hBefore, hAfter]
    rfl
  · change (host.apply call).databases.find? database = none at hAfter
    have hNotNew : host.created? call ≠ some database := by
      rw [Ne, created?_eq_some_iff, hDetached]
      nofun
    have hHeld : host.databases.find? database ≠ none := fun hNone => by
      have hZero : host.objects.databases.ownersOf database = 0 := Shelf.ownersOf_eq_zero hNone
      omega
    obtain ⟨value, hValue⟩ := Option.ne_none_iff_exists'.mp hHeld
    rw [if_pos ((destroyed?_eq_some_iff h).mpr ⟨hDetached, hOne⟩), if_neg hNotNew, hAfter, hValue]
    rfl
  · change (host.apply call).databases.find? database = host.databases.find? database at hSame
    rw [if_neg (mt (destroyed?_eq_some_iff h).mp hLast), if_neg (mt created?_eq_some_iff.mp hNew),
      hSame]

/-- Over a run, what is there or created is destroyed or still there. -/
theorem count_notes (h : host.objects.Accounted) (calls : List HostCall)
    (database : DatabaseId) :
    (host.notes destroyed? calls).count database +
        ((host.applyAll calls).databases.holds database).toNat =
      (host.notes created? calls).count database + (host.databases.holds database).toNat := by
  induction calls generalizing host with
  | nil => rfl
  | cons call calls ih =>
    have hStep := count_apply h call database
    have hRest := ih ((turnover_of_accounted h call).accounted h)
    have hRun : host.applyAll (call :: calls) = (host.apply call).applyAll calls := rfl
    rw [hRun, notes, notes, List.count_append, List.count_append]
    omega

theorem le_of_mem_created (h : host.objects.Accounted)
    (hCreated : database ∈ host.notes created? calls) : host.fresh ≤ database := by
  induction calls generalizing host with
  | nil => nomatch hCreated
  | cons call calls ih =>
    have hTurnover := turnover_of_accounted h call
    rcases List.mem_append.mp hCreated with hFirst | hRest
    · rw [Option.mem_toList, created?_eq_some_iff] at hFirst
      rw [hFirst] at hTurnover
      exact Nat.le_of_eq hTurnover.of_created.1.symm
    · exact Nat.le_trans hTurnover.fresh_le (ih (hTurnover.accounted h) hRest)

theorem nodup_created (h : host.objects.Accounted) (calls : List HostCall) :
    (host.notes created? calls).Nodup := by
  induction calls generalizing host with
  | nil => exact List.nodup_nil
  | cons call calls ih =>
    have hTurnover := turnover_of_accounted h call
    have hAccounted := hTurnover.accounted h
    rw [notes, List.nodup_append]
    refine ⟨?_, ih hAccounted, ?_⟩
    · cases host.created? call <;> simp
    · rintro first hFirst other hOther rfl
      rw [Option.mem_toList, created?_eq_some_iff] at hFirst
      rw [hFirst] at hTurnover
      have hLater := le_of_mem_created hAccounted hOther
      have hFresh := hTurnover.of_created.2
      change (host.apply call).fresh = first + 1 at hFresh
      omega

theorem holds_iff (h : host.objects.Accounted) :
    host.databases.holds database = true ↔ host.databases.ownersOf database ≠ 0 := by
  rw [Shelf.holds, Option.isSome_iff_ne_none]
  exact not_congr h.databases.ownersOf_eq_zero_iff.symm

theorem nodup_destroyed (calls : List HostCall) : (start.notes destroyed? calls).Nodup := by
  rw [List.nodup_iff_count_le_one]
  intro database
  have hCount := count_notes accounted_start calls database
  have hCreated := List.nodup_iff_count_le_one.mp (nodup_created accounted_start calls) database
  have hNone : (start.databases.holds database).toNat = 0 := rfl
  omega

theorem mem_destroyed_iff (calls : List HostCall) (database : DatabaseId) :
    database ∈ start.notes destroyed? calls ↔
      database ∈ start.notes created? calls ∧
        (start.applyAll calls).databases.holds database = false := by
  have hCount := count_notes accounted_start calls database
  have hCreated := List.nodup_iff_count_le_one.mp (nodup_created accounted_start calls) database
  have hNone : (start.databases.holds database).toNat = 0 := rfl
  rw [← List.count_pos_iff, ← List.count_pos_iff]
  cases hHolds : (start.applyAll calls).databases.holds database with
  | false =>
    rw [hHolds] at hCount
    simp only [Bool.toNat_false] at hCount
    constructor
    · intro hDestroyed
      exact ⟨by omega, rfl⟩
    · rintro ⟨hPos, _⟩
      omega
  | true =>
    rw [hHolds] at hCount
    simp only [Bool.toNat_true] at hCount
    constructor
    · intro hDestroyed
      omega
    · rintro ⟨_, ⟨⟩⟩

/-! ## Databases over resolvers -/

/-- A database that is there stays what it is until it is gone. -/
theorem database?_applyAll (h : host.objects.Accounted) (hOld : database < host.fresh)
    (calls : List HostCall) :
    (host.applyAll calls).database? database = none ∨
      (host.applyAll calls).database? database = host.database? database := by
  induction calls generalizing host with
  | nil => exact .inr rfl
  | cons call calls ih =>
    have hTurnover := turnover_of_accounted h call
    have hFirst : (host.apply call).database? database = none ∨
        (host.apply call).database? database = host.database? database := by
      obtain ⟨hCreated, -⟩ | ⟨-, -, hGone⟩ | ⟨-, -, hSame⟩ := hTurnover.database_cases h database
      · rw [hCreated] at hTurnover
        exact absurd hTurnover.of_created.1 (Nat.ne_of_lt hOld)
      · exact .inl hGone
      · exact .inr hSame
    obtain hGone | hSame :=
      ih (hTurnover.accounted h) (Nat.lt_of_lt_of_le hOld hTurnover.fresh_le)
    · exact .inl hGone
    · obtain hNone | hKept := hFirst
      · exact .inl (hSame.trans hNone)
      · exact .inr (hSame.trans hKept)

theorem database?_of_mem_opened (h : host.objects.Accounted)
    (hOpened : (database, resolver) ∈ host.notes opened? calls) :
    (host.applyAll calls).database? database = none ∨
      ∃ value, (host.applyAll calls).database? database = some value ∧
        value.resolver? = some resolver := by
  induction calls generalizing host with
  | nil => nomatch hOpened
  | cons call calls ih =>
    have hAccounted := (turnover_of_accounted h call).accounted h
    rcases List.mem_append.mp hOpened with hFirst | hRest
    · rw [Option.mem_toList, opened?_eq_some_iff] at hFirst
      obtain ⟨-, value, hValue, hResolver⟩ := hFirst
      obtain hGone | hSame :=
        database?_applyAll hAccounted (hAccounted.databases.lt_of_find? hValue) calls
      · exact .inl hGone
      · exact .inr ⟨value, hSame.trans hValue, hResolver⟩
    · exact ih hAccounted hRest

theorem opened_of_database? (h : host.objects.Accounted) {value : Database}
    (hValue : (host.applyAll calls).database? database = some value)
    (hResolver : value.resolver? = some resolver) :
    host.database? database = some value ∨
      (database, resolver) ∈ host.notes opened? calls := by
  induction calls generalizing host with
  | nil => exact .inl hValue
  | cons call calls ih =>
    have hTurnover := turnover_of_accounted h call
    obtain hFirst | hRest := ih (hTurnover.accounted h) hValue
    · obtain ⟨hCreated, -⟩ | ⟨-, -, hGone⟩ | ⟨-, -, hSame⟩ := hTurnover.database_cases h database
      · refine .inr (List.mem_append_left _ ?_)
        rw [Option.mem_toList, opened?_eq_some_iff]
        exact ⟨created?_eq_some_iff.mpr hCreated, value, hFirst, hResolver⟩
      · have hNone : (host.apply call).database? database = none := hGone
        rw [hNone] at hFirst
        cases hFirst
      · have hKept : (host.apply call).database? database = host.database? database := hSame
        exact .inl (hKept.symm.trans hFirst)
    · exact .inr (List.mem_append_right _ hRest)

theorem created_of_mem_opened (hOpened : (database, resolver) ∈ host.notes opened? calls) :
    database ∈ host.notes created? calls := by
  induction calls generalizing host with
  | nil => nomatch hOpened
  | cons call calls ih =>
    rcases List.mem_append.mp hOpened with hFirst | hRest
    · rw [Option.mem_toList, opened?_eq_some_iff] at hFirst
      exact List.mem_append_left _ (Option.mem_toList.mpr hFirst.1)
    · exact List.mem_append_right _ (ih hRest)

theorem map_fst_opened_sublist (host : Host) (calls : List HostCall) :
    ((host.notes opened? calls).map Prod.fst).Sublist (host.notes created? calls) := by
  induction calls generalizing host with
  | nil => exact List.Sublist.refl _
  | cons call calls ih =>
    rw [notes, notes, List.map_append]
    refine List.Sublist.append ?_ (ih (host.apply call))
    unfold opened?
    cases hCreated : host.created? call with
    | none => exact List.Sublist.refl _
    | some created =>
      rw [Option.bind_some]
      cases ((host.apply call).database? created).bind Database.resolver? with
      | none => exact List.nil_sublist _
      | some asked => exact List.Sublist.refl _

/-- After a run from the start, a database is over a resolver if it was opened so and not closed. -/
theorem mem_opened_iff (calls : List HostCall) (database : DatabaseId) (resolver : ResolverId) :
    (database, resolver) ∈ start.notes opened? calls ∧ database ∉ start.notes destroyed? calls ↔
      ∃ value, (start.applyAll calls).database? database = some value ∧
        value.resolver? = some resolver := by
  rw [mem_destroyed_iff]
  constructor
  · rintro ⟨hOpened, hNotGone⟩
    obtain hGone | hOver := database?_of_mem_opened accounted_start hOpened
    · have hHolds : (start.applyAll calls).databases.holds database = false := by
        change ((start.applyAll calls).database? database).isSome = false
        rw [hGone]
        rfl
      exact absurd ⟨created_of_mem_opened hOpened, hHolds⟩ hNotGone
    · exact hOver
  · rintro ⟨value, hValue, hResolver⟩
    obtain hBefore | hOpened := opened_of_database? accounted_start hValue hResolver
    · cases hBefore
    · refine ⟨hOpened, ?_⟩
      rintro ⟨-, hHolds⟩
      change ((start.applyAll calls).database? database).isSome = false at hHolds
      rw [hValue] at hHolds
      cases hHolds

/-- The databases that are there and ask a resolver, with the resolver. -/
def asking (host : Host) : List (DatabaseId × ResolverId) :=
  host.databases.filterMap fun entry =>
    entry.value.resolver?.map fun resolver => (entry.number, resolver)

theorem map_snd_asking (host : Host) :
    host.asking.map Prod.snd = host.databases.values.filterMap Database.resolver? := by
  rw [asking, Shelf.values, List.map_filterMap, List.filterMap_map]
  congr 1
  funext entry
  dsimp only [Function.comp]
  cases entry.value.resolver? <;> rfl

theorem mem_asking_iff (h : host.objects.Accounted) :
    (database, resolver) ∈ host.asking ↔
      ∃ value, host.database? database = some value ∧ value.resolver? = some resolver := by
  have hFind : ∀ value, host.database? database = some value ↔
      ∃ entry ∈ host.databases, entry.number = database ∧ entry.value = value :=
    fun value => h.databases.find?_eq_some_iff
  unfold asking
  simp only [List.mem_filterMap, Option.map_eq_some_iff, Prod.mk.injEq, hFind]
  constructor
  · rintro ⟨entry, hEntry, asked, hAsked, rfl, rfl⟩
    exact ⟨entry.value, ⟨entry, hEntry, rfl, rfl⟩, hAsked⟩
  · rintro ⟨_, ⟨entry, hEntry, rfl, rfl⟩, hAsked⟩
    exact ⟨entry, hEntry, resolver, hAsked, rfl, rfl⟩

theorem nodup_asking (h : host.objects.Accounted) : host.asking.Nodup := by
  have hNumbers : ∀ shelf : Shelf Database,
      ((shelf.filterMap fun entry => entry.value.resolver?.map fun resolver =>
        (entry.number, resolver)).map Prod.fst).Sublist (List.map Owned.number shelf) := by
    intro shelf
    induction shelf with
    | nil => exact List.Sublist.refl _
    | cons entry shelf ih =>
      rw [List.filterMap_cons, List.map_cons]
      cases entry.value.resolver? with
      | none => exact ih.cons _
      | some resolver => exact ih.cons_cons _
  exact List.Nodup.of_map _ (h.databases.nodup.sublist (hNumbers _))

/-- The number of databases that were opened over a resolver and are not destroyed. -/
def openOver (calls : List HostCall) (resolver : ResolverId) : Nat :=
  (start.notes opened? calls).countP fun (database, asked) =>
    asked == resolver && !(start.notes destroyed? calls).contains database

theorem asking_perm (calls : List HostCall) :
    (start.applyAll calls).asking.Perm ((start.notes opened? calls).filter fun (database, _) =>
      !(start.notes destroyed? calls).contains database) := by
  have hAccounted := accounted_applyAll accounted_start calls
  have hOpened : (start.notes opened? calls).Nodup :=
    List.Nodup.of_map _
      ((nodup_created accounted_start calls).sublist (map_fst_opened_sublist start calls))
  refine (List.perm_ext_iff_of_nodup (nodup_asking hAccounted) (hOpened.filter _)).mpr ?_
  rintro ⟨database, resolver⟩
  rw [mem_asking_iff hAccounted, ← mem_opened_iff, List.mem_filter]
  simp

theorem count_asking (calls : List HostCall) (resolver : ResolverId) :
    ((start.applyAll calls).databases.values.filterMap Database.resolver?).count resolver =
      openOver calls resolver := by
  rw [← map_snd_asking, List.count, List.countP_map, (asking_perm calls).countP_eq,
    List.countP_filter]
  rfl

/-! ## Bindings -/

theorem isBound_iff_mem : host.isBound resolver = true ↔
    resolver ∈ host.instances.map Prod.snd := by
  simp [isBound]

theorem instance?_eq_ok_iff (h : host.objects.Accounted) {name : String} :
    host.instance? name = .ok resolver ↔ (name, resolver) ∈ host.instances := by
  have hNames : (host.instances.map Prod.fst).Nodup := h.names
  rw [instance?_iff_lookup, lookup_eq_some_iff_mem hNames]

theorem isBound_iff (h : host.objects.Accounted) :
    host.isBound resolver = true ↔ ∃ name, host.instance? name = .ok resolver := by
  simp only [isBound_iff_mem, instance?_eq_ok_iff h, List.mem_map, Prod.exists, exists_eq_right]

theorem instance?_injective (h : host.objects.Accounted) {name other : String}
    (hName : host.instance? name = .ok resolver) (hOther : host.instance? other = .ok resolver) :
    name = other := by
  rw [instance?_eq_ok_iff h] at hName hOther
  exact congrArg Prod.fst (List.inj_on_of_nodup_map h.bound hName hOther rfl)

theorem count_instances (h : host.objects.Accounted) (resolver : ResolverId) :
    (host.instances.map Prod.snd).count resolver = (host.isBound resolver).toNat := by
  have hBound : (host.instances.map Prod.snd).Nodup := h.bound
  cases hIs : host.isBound resolver with
  | true => exact List.count_eq_one_of_mem hBound (isBound_iff_mem.mp hIs)
  | false =>
    refine List.count_eq_zero.mpr fun hMem => ?_
    rw [isBound_iff_mem.mpr hMem] at hIs
    cases hIs

theorem ownersOf_resolver (calls : List HostCall) (resolver : ResolverId) :
    (start.applyAll calls).resolvers.ownersOf resolver =
      ((start.applyAll calls).isBound resolver).toNat + openOver calls resolver := by
  have hAccounted := accounted_applyAll accounted_start calls
  have hOwners := hAccounted.owners resolver
  rw [Objects.holders, List.count_append] at hOwners
  rw [← count_instances hAccounted, ← count_asking]
  exact hOwners

theorem isAlive_eq_false_iff (h : host.objects.Accounted) :
    host.isAlive resolver = false ↔ host.resolvers.ownersOf resolver = 0 := by
  rw [isAlive, Shelf.holds, Option.isSome_eq_false_iff, Option.isNone_iff_eq_none]
  exact h.resolvers.ownersOf_eq_zero_iff.symm

/-! ## Creating databases -/

theorem createResolving_of_ok {origin : Name} {kind : DatabaseKind} {recordClass : RecordClass}
    {name : String} {arguments : List String} {forOrigin : Bool}
    (hCreated : (host.createResolving origin kind recordClass (name :: arguments)
      forOrigin).result = .ok database) :
    ∃ resolver log, host.instance? name = .ok resolver ∧
      host.createResolving origin kind recordClass (name :: arguments) forOrigin =
        ⟨{ host with
            resolvers := host.resolvers.share resolver
            databases := host.databases.put host.fresh (.resolving origin resolver)
            fresh := host.fresh + 1 }, .ok host.fresh, log⟩ := by
  unfold createResolving at hCreated ⊢
  dsimp only at hCreated ⊢
  split at hCreated
  · cases hCreated
  rename_i hKind
  split at hCreated
  · cases hCreated
  rename_i hClass
  rw [if_neg hKind, if_neg hClass]
  cases forOrigin with
  | false => cases hCreated
  | true =>
    cases hInstance : host.instance? name with
    | error cause =>
      rw [hInstance] at hCreated
      cases hCreated
    | ok resolver => exact ⟨resolver, _, rfl, rfl⟩

/-- A database is created over the resolver that is bound to the name of its instance. -/
theorem opened?_createResolving (h : host.objects.Accounted) {origin : Name}
    {kind : DatabaseKind} {recordClass : RecordClass} {name : String} {arguments : List String}
    {forOrigin : Bool}
    (hCreated : (host.createResolving origin kind recordClass (name :: arguments)
      forOrigin).result = .ok database) :
    ∃ resolver, host.instance? name = .ok resolver ∧
      host.opened? (.createResolving origin kind recordClass (name :: arguments) forOrigin) =
        some (database, resolver) := by
  obtain ⟨resolver, log, hInstance, hStep⟩ := createResolving_of_ok hCreated
  rw [hStep] at hCreated
  cases hCreated
  refine ⟨resolver, hInstance, ?_⟩
  have hAbsent : host.databases.find? host.fresh = none :=
    h.databases.find?_eq_none (Nat.le_refl _)
  rw [opened?_eq_some_iff, created?_eq_some_iff]
  dsimp only [change, apply, database?]
  rw [hStep]
  refine ⟨rfl, .resolving origin resolver, ?_, rfl⟩
  rw [Shelf.find?_put, hAbsent, Option.none_or, if_pos rfl]

/-! ## Calls that are refused -/

theorem addInstance_of_error (h : host.objects.Accounted) {name : String} {source : Resolver}
    {cause : DatabaseError} (hFailed : (host.addInstance name source).result.2 = .error cause) :
    host.addInstance name source =
      ⟨{ host with fresh := host.fresh + 1 }, (host.fresh, .error .alreadyExists), []⟩ := by
  have hFresh : host.resolvers.find? host.fresh = none :=
    h.resolvers.find?_eq_none (Nat.le_refl _)
  refine addInstance_of_bound hFresh ?_ source
  unfold addInstance newResolver at hFailed
  dsimp only at hFailed
  split at hFailed
  · assumption
  · cases hFailed

/-- Nothing that has owners has come, gone or changed hands. -/
structure SameOwners (host later : Host) : Prop where
  instances : later.instances = host.instances
  resolvers : later.resolvers = host.resolvers
  databases : later.databases = host.databases

theorem sameOwners_setUp (h : host.objects.Accounted) {read : FileReader} {name : String}
    {arguments : List String} {cause : DriverError}
    (hFailed : (host.setUp read name arguments).result = .error cause) :
    host.SameOwners (host.setUp read name arguments).host := by
  have hSame : host.SameOwners host.registerDriver.1 :=
    ⟨instances_registerDriver host, resolvers_registerDriver host, databases_registerDriver host⟩
  obtain ⟨-, -, hHost, -⟩ | ⟨table, -, hHost, hResult⟩ := host.setUp_cases read name arguments
  · rw [hHost]
    exact hSame
  · have hRegistered : host.registerDriver.1.objects.Accounted := by
      rw [objects_registerDriver]
      exact h
    rw [hHost]
    cases hAdded : (host.registerDriver.1.addInstance name table.toResolver).result.2 with
    | ok _ =>
      rw [hResult, hAdded] at hFailed
      cases hFailed
    | error e =>
      rw [addInstance_of_error hRegistered hAdded]
      exact ⟨hSame.instances, hSame.resolvers, hSame.databases⟩

/-! ## After every run -/

/-- What a caller can tell of databases and resolvers after some calls from the start. -/
structure Lifetimes (calls : List HostCall) : Prop where
  /-- The owners of a database are the handles to it. -/
  handles : ∀ database, (start.applyAll calls).databases.ownersOf database =
    start.handles database 0 calls
  there : ∀ database, (start.applyAll calls).databases.holds database = true ↔
    start.handles database 0 calls ≠ 0
  created_once : (start.notes created? calls).Nodup
  destroyed_once : (start.notes destroyed? calls).Nodup
  destroyed_iff : ∀ database, database ∈ start.notes destroyed? calls ↔
    database ∈ start.notes created? calls ∧ start.handles database 0 calls = 0
  detach_iff : ∀ database, ((start.applyAll calls).detach database).result = true ↔
    start.handles database 0 calls = 1
  /-- The owners of a resolver are its binding and the databases over it. -/
  owners : ∀ resolver, (start.applyAll calls).resolvers.ownersOf resolver =
    ((start.applyAll calls).isBound resolver).toNat + openOver calls resolver
  /-- A database is over the resolver that its instance had when it was created. -/
  opened_over : ∀ origin kind recordClass name arguments forOrigin database,
    ((start.applyAll calls).createResolving origin kind recordClass (name :: arguments)
        forOrigin).result = .ok database →
      ∃ resolver, (start.applyAll calls).instance? name = .ok resolver ∧
        (start.applyAll calls).opened?
            (.createResolving origin kind recordClass (name :: arguments) forOrigin) =
          some (database, resolver)
  bound_iff : ∀ resolver, (start.applyAll calls).isBound resolver = true ↔
    ∃ name, (start.applyAll calls).instance? name = .ok resolver
  bound_once : ∀ resolver name other, (start.applyAll calls).instance? name = .ok resolver →
    (start.applyAll calls).instance? other = .ok resolver → name = other
  gone_iff : ∀ resolver, (start.applyAll calls).isAlive resolver = false ↔
    (start.applyAll calls).isBound resolver = false ∧
      ∀ database, (database, resolver) ∈ start.notes opened? calls →
        database ∈ start.notes destroyed? calls

/-- What a call that is refused leaves behind. -/
structure Refusals (host : Host) : Prop where
  createResolving : ∀ origin kind recordClass arguments forOrigin failure,
    (host.createResolving origin kind recordClass arguments forOrigin).result = .error failure →
      (host.createResolving origin kind recordClass arguments forOrigin).host = host
  create : ∀ implementation origin kind recordClass arguments forOrigin failure,
    (host.create implementation origin kind recordClass arguments forOrigin).result =
        .error failure →
      (host.create implementation origin kind recordClass arguments forOrigin).host = host
  addInstance : ∀ name source cause, (host.addInstance name source).result.2 = .error cause →
    cause = .alreadyExists ∧ host.SameOwners (host.addInstance name source).host ∧
      (host.addInstance name source).host.isAlive (host.addInstance name source).result.1 = false
  setUp : ∀ read name arguments cause, (host.setUp read name arguments).result = .error cause →
    host.SameOwners (host.setUp read name arguments).host

theorem refusals_of_accounted (h : host.objects.Accounted) : host.Refusals where
  createResolving := by
    intro origin kind recordClass arguments forOrigin failure hFailed
    have hCreates := host.creates_createResolving origin kind recordClass arguments forOrigin
    rw [hFailed] at hCreates
    exact hCreates.host_eq
  create := by
    intro implementation origin kind recordClass arguments forOrigin failure hFailed
    have hCreates := host.creates_create implementation origin kind recordClass arguments forOrigin
    rw [hFailed] at hCreates
    exact hCreates.host_eq
  addInstance := by
    intro name source cause hFailed
    have hAdded := addInstance_of_error h hFailed
    rw [hAdded] at hFailed ⊢
    cases hFailed
    refine ⟨rfl, ⟨rfl, rfl, rfl⟩, ?_⟩
    have hAbsent : host.resolvers.find? host.fresh = none :=
      h.resolvers.find?_eq_none (Nat.le_refl _)
    change (host.resolvers.find? host.fresh).isSome = false
    rw [hAbsent]
    rfl
  setUp := fun _ _ _ _ => sameOwners_setUp h

theorem openOver_eq_zero_iff (calls : List HostCall) (resolver : ResolverId) :
    openOver calls resolver = 0 ↔ ∀ database, (database, resolver) ∈ start.notes opened? calls →
      database ∈ start.notes destroyed? calls := by
  rw [openOver, List.countP_eq_zero]
  constructor
  · intro hNone database hOpened
    simpa using hNone (database, resolver) hOpened
  · rintro hAll ⟨database, asked⟩ hOpened
    simp only [Bool.and_eq_true, beq_iff_eq, Bool.not_eq_true', not_and, Bool.not_eq_false,
      List.contains_iff_mem]
    rintro rfl
    exact hAll database hOpened

/-- Databases and resolvers are there exactly as long as they have owners. -/
theorem lifetimes_exact (calls : List HostCall) :
    Lifetimes calls ∧ (start.applyAll calls).Refusals := by
  have hAccounted := accounted_applyAll accounted_start calls
  have hHandles : ∀ database, (start.applyAll calls).databases.ownersOf database =
      start.handles database 0 calls := fun database =>
    ownersOf_applyAll accounted_start database calls
  have hThere : ∀ database, (start.applyAll calls).databases.holds database = true ↔
      start.handles database 0 calls ≠ 0 := by
    intro database
    rw [holds_iff hAccounted, hHandles]
  refine ⟨⟨hHandles, hThere, nodup_created accounted_start calls, nodup_destroyed calls, ?_, ?_,
    ownersOf_resolver calls, fun _ _ _ _ _ _ _ => opened?_createResolving hAccounted,
    fun resolver => isBound_iff hAccounted,
    fun resolver name other => instance?_injective hAccounted, ?_⟩,
    refusals_of_accounted hAccounted⟩
  · intro database
    rw [mem_destroyed_iff, ← Bool.not_eq_true, hThere, not_not]
  · intro database
    rw [result_detach hAccounted, hHandles]
  · intro resolver
    rw [isAlive_eq_false_iff hAccounted, ownersOf_resolver, Nat.add_eq_zero_iff,
      openOver_eq_zero_iff, Bool.toNat_eq_zero]

/-- A resolver that is no longer bound ends with the last database over it. -/
example :
    let host := start.applyAll
      [.addInstance "zone" { resolve := fun _ => .error .notFound },
        .createResolving .root .zone .internet ["zone"] true, .attach 1, .destroyAll, .detach 1]
    host.isBound 0 = false ∧ host.isAlive 0 = true ∧
      (host.apply (.detach 1)).isAlive 0 = false :=
  ⟨rfl, rfl, rfl⟩

end Host

end ZoneStore
