import ZoneStore.Proofs.Name.Caseless
import ZoneStore.Proofs.Rrset.Contents
import ZoneStore.Resolver.RecordTable

/-!
# What a record table holds

A table holds the records that were added to it: at each name those that the
name owns in some case of its letters, and as ancestors the names that an
owner lies below. An owner's ancestors are only noted with its first record,
and that is enough, since they are the same in every case of letters.
-/

namespace ZoneStore

def Record.item (record : Record) : RrsetItem :=
  ⟨record.type, record.ttl, record.rdata⟩

def ownedBy (name : Name) (records : List Record) : List Record :=
  records.filter fun record => record.owner.lower = name.lower

theorem mem_ownedBy_iff {name : Name} {records : List Record} {record : Record} :
    record ∈ ownedBy name records ↔ record ∈ records ∧ record.owner.lower = name.lower := by
  rw [ownedBy, List.mem_filter, decide_eq_true_iff]

theorem ownedBy_append (name : Name) (records more : List Record) :
    ownedBy name (records ++ more) = ownedBy name records ++ ownedBy name more :=
  List.filter_append records more

theorem ownedBy_singleton (name : Name) (record : Record) :
    ownedBy name [record] = if record.owner.lower = name.lower then [record] else [] := by
  rw [ownedBy, List.filter_cons, List.filter_nil]
  simp only [decide_eq_true_eq]

namespace RecordTable

/-- The RRsets at a name, none if it owns nothing. -/
def rrsetsAt (table : RecordTable) (name : Name) : RrsetList :=
  (table.find? name).getD .empty

/-- The table in which a name owns the given RRsets. -/
def store (table : RecordTable) (name : Name) (rrsets : RrsetList) : RecordTable :=
  match table.find? name with
  | some _ => table.replace name rrsets
  | none =>
    { owners := table.owners ++ [(name, rrsets)]
      ancestors := name.properSuperdomains ++ table.ancestors }

theorem add_eq (table : RecordTable) (owner : Name) (type : RecordType) (ttl : Ttl)
    (rdata : Rdata) :
    table.add owner type ttl rdata =
      ((table.rrsetsAt owner).add type ttl rdata).map (table.store owner) := by
  unfold add rrsetsAt store
  cases table.find? owner with
  | none =>
    dsimp only [Option.getD]
    cases RrsetList.empty.add type ttl rdata <;> rfl
  | some rrsets =>
    dsimp only [Option.getD]
    cases rrsets.add type ttl rdata <;> rfl

theorem find?_eq (table : RecordTable) (name : Name) :
    table.find? name = (table.owners.find? fun entry => entry.1.same name).map Prod.snd := rfl

theorem find?_congr (table : RecordTable) {a b : Name} (h : a.lower = b.lower) :
    table.find? a = table.find? b := by
  rw [find?_eq, find?_eq]
  simp only [Name.same_eq_decide, h]

theorem find?_replace (table : RecordTable) (name : Name) (rrsets : RrsetList) (other : Name) :
    (table.replace name rrsets).find? other =
      if name.lower = other.lower then (table.find? other).map fun _ => rrsets
      else table.find? other := by
  have hOwner : ((fun entry : Name × RrsetList => entry.1.same other) ∘
      fun entry : Name × RrsetList =>
        if entry.1.same name = true then (entry.1, rrsets) else (entry.1, entry.2)) =
      fun entry => entry.1.same other := by
    funext entry
    dsimp only [Function.comp]
    split <;> rfl
  rw [find?_eq, find?_eq, replace, List.find?_map, Option.map_map, hOwner]
  cases hFind : table.owners.find? fun entry => entry.1.same other with
  | none => split <;> rfl
  | some entry =>
    have hMatch := List.find?_some hFind
    have hSame : entry.1.lower = other.lower := Name.same_iff.mp hMatch
    simp only [Option.map_some, Function.comp, Name.same_iff, hSame]
    by_cases hName : name.lower = other.lower
    · rw [if_pos hName, if_pos hName.symm]
    · rw [if_neg hName, if_neg fun h => hName h.symm]

theorem find?_store (table : RecordTable) (name : Name) (rrsets : RrsetList) (other : Name) :
    (table.store name rrsets).find? other =
      if name.lower = other.lower then some rrsets else table.find? other := by
  unfold store
  cases hFind : table.find? name with
  | some old =>
    dsimp only
    rw [find?_replace]
    split
    · rename_i hSame
      rw [← find?_congr table hSame, hFind]
      rfl
    · rfl
  | none =>
    dsimp only
    rw [find?_eq, List.find?_append, Option.map_or, ← find?_eq]
    by_cases hSame : name.lower = other.lower
    · rw [← find?_congr table hSame, hFind, Option.none_or, if_pos hSame,
        List.find?_cons_of_pos (by exact Name.same_iff.mpr hSame)]
      rfl
    · rw [List.find?_cons_of_neg (by exact fun h => hSame (Name.same_iff.mp h)), List.find?_nil,
        if_neg hSame]
      exact Option.or_none

theorem isAncestor_iff {table : RecordTable} {name : Name} :
    table.isAncestor name = true ↔ ∃ ancestor ∈ table.ancestors, ancestor.lower = name.lower := by
  rw [isAncestor, List.any_eq_true]
  simp only [Name.same_iff]

theorem isAncestor_store {table : RecordTable} {owner : Name} {rrsets : RrsetList} {name : Name} :
    (table.store owner rrsets).isAncestor name = true ↔
      (table.find? owner = none ∧ owner.IsBelow name) ∨ table.isAncestor name = true := by
  unfold store
  cases hFind : table.find? owner with
  | some old =>
    constructor
    · intro h
      exact .inr h
    · rintro (⟨h, _⟩ | h)
      · cases h
      · exact h
  | none =>
    rw [isAncestor_iff, isAncestor_iff, ← Name.exists_properSuperdomain_iff]
    simp only [List.mem_append, or_and_right, exists_or, true_and]

/--
What noting the ancestors of a new owner amounts to: an owner that the table knows has had its
ancestors noted with an earlier record.
-/
theorem ancestors_append_iff {table : RecordTable} {records : List Record} {record : Record}
    (hOwner : table.find? record.owner = none ↔ ownedBy record.owner records = [])
    (hAncestors : ∀ name,
      table.isAncestor name = true ↔ ∃ record ∈ records, record.owner.IsBelow name)
    (name : Name) :
    ((table.find? record.owner = none ∧ record.owner.IsBelow name) ∨
        table.isAncestor name = true) ↔
      ∃ other ∈ records ++ [record], other.owner.IsBelow name := by
  simp only [List.mem_append, List.mem_singleton, or_and_right, exists_or, exists_eq_left,
    ← hAncestors]
  constructor
  · rintro (⟨_, hBelow⟩ | hOld)
    · exact .inr hBelow
    · exact .inl hOld
  · rintro (hOld | hBelow)
    · exact .inr hOld
    · by_cases hNew : table.find? record.owner = none
      · exact .inl ⟨hNew, hBelow⟩
      · have hOwned := fun hNil => hNew (hOwner.mpr hNil)
        obtain ⟨other, hOther⟩ := List.exists_mem_of_ne_nil _ hOwned
        obtain ⟨hMem, hSame⟩ := mem_ownedBy_iff.mp hOther
        exact .inr ((hAncestors name).mpr
          ⟨other, hMem, (Name.isBelow_congr hSame).mpr hBelow⟩)

/-- The table holds the records of a list and no others. -/
structure Holds (table : RecordTable) (records : List Record) : Prop where
  find?_eq_none_iff : ∀ name, table.find? name = none ↔ ownedBy name records = []
  rrsetsAt_holds : ∀ name,
    (table.rrsetsAt name).Holds ((ownedBy name records).map Record.item)
  isAncestor_iff : ∀ name,
    table.isAncestor name = true ↔ ∃ record ∈ records, record.owner.IsBelow name

theorem holds_empty : empty.Holds [] where
  find?_eq_none_iff := fun _ => ⟨fun _ => rfl, fun _ => rfl⟩
  rrsetsAt_holds := fun _ => RrsetList.holds_empty
  isAncestor_iff := by
    intro name
    rw [RecordTable.isAncestor_iff]
    constructor
    · rintro ⟨_, hMem, _⟩
      cases hMem
    · rintro ⟨_, hMem, _⟩
      cases hMem

theorem Holds.add {table added : RecordTable} {records : List Record} {record : Record}
    (h : table.Holds records)
    (hAdd : table.add record.owner record.type record.ttl record.rdata = .ok added) :
    added.Holds (records ++ [record]) := by
  rw [add_eq] at hAdd
  cases hGrown : (table.rrsetsAt record.owner).add record.type record.ttl record.rdata with
  | error e =>
    rw [hGrown] at hAdd
    cases hAdd
  | ok grown =>
    rw [hGrown] at hAdd
    cases hAdd
    have hHolds := (h.rrsetsAt_holds record.owner).add record.item hGrown
    constructor
    · intro name
      rw [find?_store, ownedBy_append, ownedBy_singleton]
      split
      · simp
      · rw [List.append_nil]
        exact h.find?_eq_none_iff name
    · intro name
      rw [rrsetsAt, find?_store, ownedBy_append, ownedBy_singleton]
      split
      · rename_i hSame
        rw [List.map_append, List.map_singleton, ownedBy, ← hSame]
        exact hHolds
      · rw [List.append_nil]
        exact h.rrsetsAt_holds name
    · intro name
      rw [isAncestor_store]
      exact ancestors_append_iff (h.find?_eq_none_iff record.owner) h.isAncestor_iff name

/-- A record is refused exactly if one of its owner and type has another time to live. -/
theorem Holds.add_eq_error_iff {table : RecordTable} {records : List Record}
    (h : table.Holds records) (record : Record) :
    table.add record.owner record.type record.ttl record.rdata = .error .ttlMismatch ↔
      ∃ other ∈ records, other.owner.lower = record.owner.lower ∧ other.type = record.type ∧
        other.ttl ≠ record.ttl := by
  have hList := (h.rrsetsAt_holds record.owner).add_eq_error_iff record.type record.ttl record.rdata
  simp only [List.mem_map, exists_exists_and_eq_and] at hList
  simp only [mem_ownedBy_iff, and_assoc] at hList
  rw [add_eq]
  refine Iff.trans ?_ hList
  cases (table.rrsetsAt record.owner).add record.type record.ttl record.rdata with
  | error e => simp [Except.map]
  | ok added => exact iff_of_false nofun nofun

theorem Holds.ttl_eq {table : RecordTable} {records : List Record} (h : table.Holds records)
    {record other : Record} (hRecord : record ∈ records) (hOther : other ∈ records)
    (hOwner : record.owner.lower = other.owner.lower) (hType : record.type = other.type) :
    record.ttl = other.ttl := by
  have hHolds := h.rrsetsAt_holds other.owner
  have hItem : record.item ∈ itemsOf other.type ((ownedBy other.owner records).map Record.item) :=
    mem_itemsOf_iff.mpr ⟨List.mem_map_of_mem (mem_ownedBy_iff.mpr ⟨hRecord, hOwner⟩), hType⟩
  have hSecond : other.item ∈ itemsOf other.type ((ownedBy other.owner records).map Record.item) :=
    mem_itemsOf_iff.mpr ⟨List.mem_map_of_mem (mem_ownedBy_iff.mpr ⟨hOther, rfl⟩), rfl⟩
  cases hFind : (table.rrsetsAt other.owner).find? other.type with
  | none =>
    rw [hHolds.absent hFind] at hItem
    cases hItem
  | some rrset =>
    have hMade := hHolds.present hFind
    exact (hMade.ttl_eq _ hItem).trans (hMade.ttl_eq _ hSecond).symm

/-- The three answers that a table gives, and when it gives each. -/
theorem Holds.resolve_cases {table : RecordTable} {records : List Record} (h : table.Holds records)
    (name : Name) :
    (ownedBy name records ≠ [] ∧ table.resolve name = .ok (.exactMatch (table.rrsetsAt name))) ∨
      (ownedBy name records = [] ∧ (∃ record ∈ records, record.owner.IsBelow name) ∧
        table.resolve name = .ok (.partialMatch .empty)) ∨
      (ownedBy name records = [] ∧ (¬∃ record ∈ records, record.owner.IsBelow name) ∧
        table.resolve name = .error .notFound) := by
  rw [resolve, rrsetsAt, ne_eq, ← h.find?_eq_none_iff, ← h.isAncestor_iff]
  cases table.find? name with
  | some rrsets =>
    refine .inl ⟨?_, rfl⟩
    intro hNone
    cases hNone
  | none =>
    refine .inr ?_
    cases table.isAncestor name with
    | true => exact .inl ⟨rfl, rfl, rfl⟩
    | false => exact .inr ⟨rfl, Bool.false_ne_true, rfl⟩

end RecordTable

end ZoneStore
