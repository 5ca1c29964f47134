import ZoneStore.Host.Nodes
import ZoneStore.Proofs.Host.Shelf

/-!
# Databases that serve a resolver

A database over a resolver serves it as long as the host keeps both. What
a lookup in the database finds is then what the resolver answers, whatever
else the host keeps.
-/

namespace ZoneStore

namespace Host

def Serves (host : Host) (database : DatabaseId) (resolver : Resolver) : Prop :=
  ∃ origin id, host.database? database = some (.resolving origin id) ∧
    host.resolvers.find? id = some resolver

theorem result_carryOut {α : Type} (host : Host) (resolver : ResolverId) (reply : Reply α)
    (nodeOf : α → Node) :
    (host.carryOut resolver reply nodeOf).result.map Prod.fst = reply.result := by
  unfold carryOut
  cases reply.result <;> rfl

theorem Serves.result_find {host : Host} {database : DatabaseId} {resolver : Resolver}
    (h : host.Serves database resolver) (name : Name) (version : Option Version)
    (type : RecordType) (options : FindOptions) (now : UInt32) (memory : Memory) :
    (host.find database name version type options now memory).result.map Prod.fst =
      (Lookup.find resolver name version type options now memory).result := by
  obtain ⟨origin, id, hDatabase, hResolver⟩ := h
  unfold find
  rw [hDatabase]
  dsimp only
  rw [hResolver]
  exact result_carryOut host id _ _

/-- A database that is created with an instance serves the resolver bound to it. -/
theorem serves_createResolving {host : Host} {origin : Name} {kind : DatabaseKind}
    {recordClass : RecordClass} {name : String} {arguments : List String} {id : ResolverId}
    {resolver : Resolver} {database : DatabaseId}
    (hFresh : host.database? host.fresh = none) (hInstance : host.instance? name = .ok id)
    (hResolver : host.resolvers.find? id = some resolver)
    (hCreate : (host.createResolving origin kind recordClass (name :: arguments)).result =
      .ok database) :
    (host.createResolving origin kind recordClass (name :: arguments)).host.Serves database
      resolver := by
  unfold createResolving at hCreate ⊢
  dsimp only at hCreate ⊢
  split at hCreate
  · cases hCreate
  · rename_i hKind
    rw [if_neg hKind]
    split at hCreate
    · cases hCreate
    · rename_i hClass
      rw [if_neg hClass]
      rw [hInstance] at hCreate ⊢
      cases hCreate
      refine ⟨origin, id, ?_, ?_⟩
      · have hNone : host.databases.find? host.fresh = none := hFresh
        dsimp only [database?, openDatabase]
        rw [Shelf.find?_put, hNone, Option.none_or, if_pos rfl]
      · dsimp only [openDatabase]
        rw [Shelf.find?_share, hResolver]

end Host

end ZoneStore
