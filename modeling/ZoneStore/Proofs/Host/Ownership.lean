import ZoneStore.Proofs.Host.Turnover

/-!
# Who owns resolvers

A resolver has one owner for its binding in the table of instances and one
for every database over it, and no other. This holds at the start and is
kept by everything that a call can do, so it holds after every run.
-/

namespace ZoneStore

namespace Objects

variable {objects later : Objects} {change : Change}

/-- The resolvers that are bound and those that databases ask, as often as they are. -/
def holders (objects : Objects) : List ResolverId :=
  objects.instances.map Prod.snd ++ objects.databases.values.filterMap Database.resolver?

structure Accounted (objects : Objects) : Prop where
  resolvers : objects.resolvers.WellKept objects.fresh
  databases : objects.databases.WellKept objects.fresh
  names : (objects.instances.map Prod.fst).Nodup
  bound : (objects.instances.map Prod.snd).Nodup
  owners : ∀ resolver, objects.resolvers.ownersOf resolver = objects.holders.count resolver

theorem Accounted.not_mem_holders (h : objects.Accounted) :
    objects.fresh ∉ objects.holders := by
  rw [← List.count_eq_zero, ← h.owners]
  exact Shelf.ownersOf_eq_zero (h.resolvers.find?_eq_none (Nat.le_refl _))

/-- A resolver that something holds is there. -/
theorem Accounted.exists_of_mem_holders (h : objects.Accounted) {resolver : ResolverId}
    (hHeld : resolver ∈ objects.holders) :
    ∃ value, objects.resolvers.find? resolver = some value := by
  rw [← Option.ne_none_iff_exists', Ne, ← h.resolvers.ownersOf_eq_zero_iff, h.owners,
    List.count_eq_zero]
  exact not_not.mpr hHeld

/-- What is held by the databases on a shelf from which one was released. -/
theorem Accounted.count_release (h : objects.Accounted) (database : DatabaseId)
    (resolver : ResolverId) :
    (((objects.databases.release database).2.bind Database.resolver?).toList).count resolver +
        ((objects.databases.release database).1.values.filterMap Database.resolver?).count
          resolver =
      (objects.databases.values.filterMap Database.resolver?).count resolver := by
  have hPerm := (h.databases.values_release database).filterMap Database.resolver?
  rw [List.filterMap_append] at hPerm
  rw [← hPerm.count_eq, List.count_append]
  congr 2
  cases (objects.databases.release database).2 with
  | none => rfl
  | some value => cases value <;> rfl

theorem Accounted.bind (h : objects.Accounted) {name : String}
    (hFree : objects.instances.lookup name = none) (source : Resolver) :
    Accounted ⟨(name, objects.fresh) :: objects.instances,
      objects.resolvers.put objects.fresh source, objects.databases, objects.fresh + 1⟩ where
  resolvers := h.resolvers.put source
  databases := h.databases.mono (Nat.le_succ _)
  names := by
    refine List.nodup_cons.mpr ⟨?_, h.names⟩
    intro hMem
    obtain ⟨⟨other, resolver⟩, hEntry, hName⟩ := List.mem_map.mp hMem
    have hTaken : objects.instances.lookup other = some resolver :=
      (lookup_eq_some_iff_mem h.names).mpr hEntry
    rw [show other = name from hName, hFree] at hTaken
    cases hTaken
  bound := List.nodup_cons.mpr
    ⟨fun hMem => h.not_mem_holders (List.mem_append_left _ hMem), h.bound⟩
  owners := by
    intro resolver
    change (objects.resolvers.put objects.fresh source).ownersOf resolver =
      (objects.fresh :: objects.holders).count resolver
    by_cases hNew : resolver = objects.fresh
    · rw [hNew, Shelf.ownersOf_put_self source (h.resolvers.find?_eq_none (Nat.le_refl _)),
        List.count_cons_self, List.count_eq_zero.mpr h.not_mem_holders]
    · rw [Shelf.ownersOf_put _ source hNew, h.owners, List.count_cons_of_ne (Ne.symm hNew)]

theorem Accounted.clear (h : objects.Accounted) :
    Accounted ⟨[], objects.resolvers.releaseAll (objects.instances.map Prod.snd),
      objects.databases, objects.fresh⟩ where
  resolvers := h.resolvers.releaseAll _
  databases := h.databases
  names := List.nodup_nil
  bound := List.nodup_nil
  owners := by
    intro resolver
    dsimp only
    rw [Shelf.ownersOf_releaseAll, h.owners, holders, List.count_append, Nat.add_sub_cancel_left]
    rfl

theorem Accounted.revise (h : objects.Accounted) (resolver : ResolverId) (source : Resolver) :
    Accounted { objects with resolvers := objects.resolvers.replace resolver source } where
  resolvers := h.resolvers.replace resolver source
  databases := h.databases
  names := h.names
  bound := h.bound
  owners := fun other => (Shelf.ownersOf_replace resolver source _ other).trans (h.owners other)

theorem Accounted.create (h : objects.Accounted) {database : Database}
    (hBound : ∀ resolver ∈ database.resolver?, resolver ∈ objects.instances.map Prod.snd) :
    Accounted ⟨objects.instances,
      database.resolver?.elim objects.resolvers objects.resolvers.share,
      objects.databases.put objects.fresh database, objects.fresh + 1⟩ where
  resolvers := by
    cases database.resolver? with
    | none => exact h.resolvers.mono (Nat.le_succ _)
    | some resolver => exact (h.resolvers.share resolver).mono (Nat.le_succ _)
  databases := h.databases.put database
  names := h.names
  bound := h.bound
  owners := by
    intro other
    have hHolders : ∀ resolvers : Shelf Resolver,
        holders ⟨objects.instances, resolvers, objects.databases.put objects.fresh database,
          objects.fresh + 1⟩ = objects.holders ++ database.resolver?.toList := by
      intro resolvers
      unfold holders
      dsimp only
      rw [Shelf.values_put, List.filterMap_append, List.append_assoc]
      cases database <;> rfl
    rw [hHolders, List.count_append, ← h.owners]
    cases hResolver : database.resolver? with
    | none => rfl
    | some resolver =>
      obtain ⟨value, hValue⟩ :=
        h.exists_of_mem_holders (List.mem_append_left _ (hBound resolver hResolver))
      by_cases hSame : other = resolver
      · rw [hSame]
        exact (Shelf.ownersOf_share_self hValue).trans (by simp)
      · refine (Shelf.ownersOf_share_ne _ hSame).trans ?_
        rw [Option.toList_some, List.count_cons_of_ne (Ne.symm hSame)]
        rfl

theorem Accounted.attach (h : objects.Accounted) (database : DatabaseId) :
    Accounted { objects with databases := objects.databases.share database } where
  resolvers := h.resolvers
  databases := h.databases.share database
  names := h.names
  bound := h.bound
  owners := by
    intro resolver
    unfold holders
    dsimp only
    rw [Shelf.values_share]
    exact h.owners resolver

theorem Accounted.detach (h : objects.Accounted) (database : DatabaseId) :
    Accounted { objects with
      databases := (objects.databases.release database).1
      resolvers := ((objects.databases.release database).2.bind Database.resolver?).elim
        objects.resolvers fun resolver => (objects.resolvers.release resolver).1 } where
  resolvers := by
    cases (objects.databases.release database).2.bind Database.resolver? with
    | none => exact h.resolvers
    | some resolver => exact h.resolvers.release resolver
  databases := h.databases.release database
  names := h.names
  bound := h.bound
  owners := by
    intro other
    have hCount := h.count_release database other
    have hOwners := h.owners other
    unfold holders at hOwners ⊢
    dsimp only
    rw [List.count_append] at hOwners ⊢
    cases hGiven : (objects.databases.release database).2.bind Database.resolver? with
    | none =>
      rw [hGiven] at hCount
      simp only [Option.toList_none, List.count_nil, Option.elim_none] at hCount ⊢
      omega
    | some resolver =>
      rw [hGiven] at hCount
      simp only [Option.toList_some, Option.elim_some] at hCount ⊢
      by_cases hSame : other = resolver
      · subst hSame
        rw [List.count_cons_self, List.count_nil] at hCount
        rw [Shelf.ownersOf_release_self]
        omega
      · rw [List.count_cons_of_ne (Ne.symm hSame), List.count_nil] at hCount
        rw [Shelf.ownersOf_release_ne _ hSame]
        omega

theorem Turnover.accounted (hTurnover : objects.Turnover change later) (h : objects.Accounted) :
    later.Accounted := by
  cases hTurnover with
  | idle later hLe => exact ⟨h.resolvers.mono hLe, h.databases.mono hLe, h.names, h.bound, h.owners⟩
  | bound name source hFree => exact h.bind hFree source
  | cleared => exact h.clear
  | revised resolver source => exact h.revise resolver source
  | created database hBound => exact h.create hBound
  | attached database => exact h.attach database
  | detached database => exact h.detach database

/-! ## Databases -/

/-- Every handle to a database is an owner of it. -/
theorem Turnover.ownersOf_database (hTurnover : objects.Turnover change later)
    (h : objects.Accounted) (database : DatabaseId) :
    later.databases.ownersOf database =
      change.handles database (objects.databases.ownersOf database) := by
  cases hTurnover with
  | idle later hLe => rfl
  | bound name source hFree => rfl
  | cleared => rfl
  | revised resolver source => rfl
  | created value hBound =>
    dsimp only [Change.handles]
    have hAbsent := h.databases.find?_eq_none (Nat.le_refl _)
    split
    · rename_i hNew
      rw [← hNew, Shelf.ownersOf_put_self value hAbsent, Shelf.ownersOf_eq_zero hAbsent]
    · rename_i hOther
      exact Shelf.ownersOf_put _ value (Ne.symm hOther)
  | attached other =>
    dsimp only [Change.handles]
    by_cases hOther : other = database
    · subst hOther
      cases hFind : objects.databases.find? other with
      | none =>
        have hShared : (objects.databases.share other).find? other = none := by
          rw [Shelf.find?_share, hFind]
        rw [Shelf.ownersOf_eq_zero hShared, Shelf.ownersOf_eq_zero hFind]
        exact (if_neg fun hHeld => hHeld.2 rfl).symm
      | some value =>
        have hHeld := h.databases.one_le_ownersOf hFind
        rw [Shelf.ownersOf_share_self hFind, if_pos ⟨rfl, by omega⟩]
    · rw [Shelf.ownersOf_share_ne _ (Ne.symm hOther), if_neg fun hSame => hOther hSame.1]
  | detached other =>
    dsimp only [Change.handles]
    split
    · rename_i hSame
      rw [hSame, Shelf.ownersOf_release_self]
    · rename_i hOther
      exact Shelf.ownersOf_release_ne _ (Ne.symm hOther)

/-- A database is created, or its last handle is given up, or it stays what it is. -/
theorem Turnover.database_cases (hTurnover : objects.Turnover change later)
    (h : objects.Accounted) (database : DatabaseId) :
    (change = .created database ∧ objects.databases.find? database = none ∧
        ∃ value, later.databases.find? database = some value) ∨
      (change = .detached database ∧ objects.databases.ownersOf database = 1 ∧
        later.databases.find? database = none) ∨
      (change ≠ .created database ∧
        ¬(change = .detached database ∧ objects.databases.ownersOf database = 1) ∧
        later.databases.find? database = objects.databases.find? database) := by
  cases hTurnover with
  | idle later hLe => exact .inr (.inr ⟨nofun, nofun, rfl⟩)
  | bound name source hFree => exact .inr (.inr ⟨nofun, nofun, rfl⟩)
  | cleared => exact .inr (.inr ⟨nofun, nofun, rfl⟩)
  | revised resolver source => exact .inr (.inr ⟨nofun, nofun, rfl⟩)
  | created value hBound =>
    have hAbsent := h.databases.find?_eq_none (Nat.le_refl _)
    have hFind := Shelf.find?_put objects.databases objects.fresh value database
    by_cases hNew : objects.fresh = database
    · subst hNew
      rw [hAbsent, Option.none_or, if_pos rfl] at hFind
      exact .inl ⟨rfl, hAbsent, value, hFind⟩
    · rw [if_neg hNew, Option.or_none] at hFind
      refine .inr (.inr ⟨?_, nofun, hFind⟩)
      rintro ⟨⟩
      exact hNew rfl
  | attached other => exact .inr (.inr ⟨nofun, nofun, Shelf.find?_share _ _ _⟩)
  | detached other =>
    have hFind := Shelf.find?_release objects.databases other database
    by_cases hLast : database = other ∧ objects.databases.ownersOf other = 1
    · obtain ⟨rfl, hOne⟩ := hLast
      rw [if_pos ⟨rfl, Nat.le_of_eq hOne⟩] at hFind
      exact .inr (.inl ⟨rfl, hOne, hFind⟩)
    · refine .inr (.inr ⟨nofun, ?_, ?_⟩)
      · rintro ⟨⟨⟩, hOne⟩
        exact hLast ⟨rfl, hOne⟩
      · dsimp only
        rw [hFind]
        split
        · -- Nothing was there to be given up.
          rename_i hGone
          obtain ⟨rfl, hOwners⟩ := hGone
          have hZero : objects.databases.ownersOf database = 0 := by
            have hNotOne : ¬objects.databases.ownersOf database = 1 := fun hOne =>
              hLast ⟨rfl, hOne⟩
            omega
          exact (h.databases.ownersOf_eq_zero_iff.mp hZero).symm
        · rfl

end Objects

namespace Host

theorem accounted_start : start.objects.Accounted where
  resolvers := Shelf.wellKept_nil 0
  databases := Shelf.wellKept_nil 0
  names := List.nodup_nil
  bound := List.nodup_nil
  owners := fun _ => rfl

/-- What a call does to the objects of a host that was reached from the start. -/
theorem turnover_of_accounted {host : Host} (h : host.objects.Accounted) (call : HostCall) :
    host.objects.Turnover (host.change call) (host.apply call).objects :=
  turnover_apply (h.resolvers.find?_eq_none (Nat.le_refl _)) call

theorem accounted_applyAll {host : Host} (h : host.objects.Accounted) (calls : List HostCall) :
    (host.applyAll calls).objects.Accounted := by
  induction calls generalizing host with
  | nil => exact h
  | cons call calls ih => exact ih ((turnover_of_accounted h call).accounted h)

theorem ownersOf_applyAll {host : Host} (h : host.objects.Accounted) (database : DatabaseId)
    (calls : List HostCall) :
    (host.applyAll calls).databases.ownersOf database =
      host.handles database (host.databases.ownersOf database) calls := by
  induction calls generalizing host with
  | nil => rfl
  | cons call calls ih =>
    have hTurnover := turnover_of_accounted h call
    have hOwners : (host.apply call).databases.ownersOf database =
        (host.change call).handles database (host.databases.ownersOf database) :=
      hTurnover.ownersOf_database h database
    unfold handles
    rw [← hOwners]
    exact ih (hTurnover.accounted h)

end Host

end ZoneStore
