import ZoneStore.Proofs.Rrset.Lookup

/-!
# What a list of RRsets holds

A list holds the items that were added to it, each in the RRset of its type.
The items of one type share a time to live, and their data stand in the
order of their first occurrences. Additions preserve this, so it describes
a list after any number of them.
-/

namespace ZoneStore

structure RrsetItem where
  type : RecordType
  ttl : Ttl
  rdata : Rdata
deriving DecidableEq

def itemsOf (type : RecordType) (items : List RrsetItem) : List RrsetItem :=
  items.filter fun item => item.type = type

theorem mem_itemsOf_iff {type : RecordType} {items : List RrsetItem} {item : RrsetItem} :
    item ∈ itemsOf type items ↔ item ∈ items ∧ item.type = type := by
  rw [itemsOf, List.mem_filter, decide_eq_true_iff]

theorem itemsOf_append (type : RecordType) (items more : List RrsetItem) :
    itemsOf type (items ++ more) = itemsOf type items ++ itemsOf type more :=
  List.filter_append items more

theorem itemsOf_singleton (type : RecordType) (item : RrsetItem) :
    itemsOf type [item] = if item.type = type then [item] else [] := by
  rw [itemsOf, List.filter_cons, List.filter_nil]
  simp only [decide_eq_true_eq]

namespace Rrset

/-- An RRset holds the items of a list, each distinct data once and in order. -/
structure IsMadeOf (rrset : Rrset) (items : List RrsetItem) : Prop where
  type_eq : ∀ item ∈ items, item.type = rrset.type
  ttl_eq : ∀ item ∈ items, item.ttl = rrset.ttl
  rdatas_eq : rrset.rdatas = (items.map RrsetItem.rdata).eraseDups

theorem IsMadeOf.ne_nil {rrset : Rrset} {items : List RrsetItem} (h : rrset.IsMadeOf items) :
    items ≠ [] := by
  rintro rfl
  exact rrset.rdatas_ne_nil h.rdatas_eq

theorem isMadeOf_single (item : RrsetItem) :
    (single item.type item.ttl item.rdata).IsMadeOf [item] where
  type_eq := by
    intro other hOther
    rw [List.mem_singleton.mp hOther]
    rfl
  ttl_eq := by
    intro other hOther
    rw [List.mem_singleton.mp hOther]
    rfl
  rdatas_eq := rfl

theorem ttl_insert (rrset : Rrset) (rdata : Rdata) : (rrset.insert rdata).ttl = rrset.ttl := by
  unfold insert
  split <;> rfl

theorem rdatas_insert (rrset : Rrset) (rdata : Rdata) :
    (rrset.insert rdata).rdatas =
      if rdata ∈ rrset.rdatas then rrset.rdatas else rrset.rdatas ++ [rdata] := by
  unfold insert
  split <;> rfl

theorem eraseDups_append_singleton (rdatas : List Rdata) (rdata : Rdata) :
    (rdatas ++ [rdata]).eraseDups =
      if rdata ∈ rdatas.eraseDups then rdatas.eraseDups else rdatas.eraseDups ++ [rdata] := by
  rw [List.eraseDups_append, List.cons_removeAll]
  by_cases h : rdata ∈ rdatas
  · rw [if_pos (List.mem_eraseDups.mpr h), if_neg (by simpa using h)]
    exact List.append_nil _
  · rw [if_neg fun hMem => h (List.mem_eraseDups.mp hMem), if_pos (by simpa using h)]
    rfl

theorem IsMadeOf.insert {rrset : Rrset} {items : List RrsetItem} {item : RrsetItem}
    (h : rrset.IsMadeOf items) (hType : item.type = rrset.type) (hTtl : item.ttl = rrset.ttl) :
    (rrset.insert item.rdata).IsMadeOf (items ++ [item]) where
  type_eq := by
    intro other hOther
    rw [type_insert]
    rcases List.mem_append.mp hOther with hOld | hNew
    · exact h.type_eq other hOld
    · rw [List.mem_singleton.mp hNew, hType]
  ttl_eq := by
    intro other hOther
    rw [ttl_insert]
    rcases List.mem_append.mp hOther with hOld | hNew
    · exact h.ttl_eq other hOld
    · rw [List.mem_singleton.mp hNew, hTtl]
  rdatas_eq := by
    rw [rdatas_insert, h.rdatas_eq, List.map_append, List.map_singleton,
      eraseDups_append_singleton]

end Rrset

namespace RrsetList

/-- Every item is in the RRset of its type, and there is nothing else. -/
structure Holds (list : RrsetList) (items : List RrsetItem) : Prop where
  absent : ∀ {type}, list.find? type = none → itemsOf type items = []
  present : ∀ {type rrset}, list.find? type = some rrset → rrset.IsMadeOf (itemsOf type items)

theorem holds_empty : empty.Holds [] where
  absent := fun _ => rfl
  present := by
    intro type rrset h
    rw [find?_empty] at h
    cases h

theorem Holds.add {list added : RrsetList} {items : List RrsetItem} (h : list.Holds items)
    (item : RrsetItem) (hAdd : list.add item.type item.ttl item.rdata = .ok added) :
    added.Holds (items ++ [item]) := by
  obtain ⟨grown, hFind, hGrown⟩ := of_add hAdd
  have hMade : grown.IsMadeOf (itemsOf item.type items ++ [item]) := by
    rcases hGrown with ⟨hNone, rfl⟩ | ⟨old, hOld, hTtl, rfl⟩
    · rw [h.absent hNone]
      exact Rrset.isMadeOf_single item
    · exact (h.present hOld).insert (type_of_find? hOld).symm hTtl.symm
  constructor
  · intro type hNone
    rw [hFind] at hNone
    split at hNone
    · cases hNone
    · rename_i hOther
      rw [itemsOf_append, h.absent hNone, itemsOf_singleton,
        if_neg fun hType => hOther hType.symm]
      rfl
  · intro type rrset hSome
    rw [hFind] at hSome
    split at hSome
    · rename_i hType
      cases hSome
      rw [itemsOf_append, itemsOf_singleton, hType, if_pos rfl]
      exact hMade
    · rename_i hOther
      rw [itemsOf_append, itemsOf_singleton, if_neg fun hType => hOther hType.symm,
        List.append_nil]
      exact h.present hSome

theorem Holds.add_eq_error_iff {list : RrsetList} {items : List RrsetItem} (h : list.Holds items)
    (type : RecordType) (ttl : Ttl) (rdata : Rdata) :
    list.add type ttl rdata = .error .ttlMismatch ↔
      ∃ item ∈ items, item.type = type ∧ item.ttl ≠ ttl := by
  rw [RrsetList.add_eq_error_iff]
  constructor
  · rintro ⟨rrset, hFind, hTtl⟩
    have hMade := h.present hFind
    obtain ⟨item, hItem⟩ := List.exists_mem_of_ne_nil _ hMade.ne_nil
    obtain ⟨hMem, hType⟩ := mem_itemsOf_iff.mp hItem
    exact ⟨item, hMem, hType, hMade.ttl_eq item hItem ▸ hTtl⟩
  · rintro ⟨item, hMem, hType, hTtl⟩
    have hItem := mem_itemsOf_iff.mpr ⟨hMem, hType⟩
    cases hFind : list.find? type with
    | none =>
      rw [h.absent hFind] at hItem
      cases hItem
    | some rrset => exact ⟨rrset, rfl, (h.present hFind).ttl_eq item hItem ▸ hTtl⟩

end RrsetList

end ZoneStore
