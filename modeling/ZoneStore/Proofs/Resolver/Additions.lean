import Mathlib.Data.Finset.Card
import Mathlib.Data.Finset.Dedup
import ZoneStore.Proofs.Resolver.RecordTable

/-!
# Adding records one after the other

A table that records are added to answers from the records alone. The RRsets
at a name are those of its own records, added in the same order to an empty
list. A record that is refused finds its owner known with all of its
ancestors, so the table is left as it was.
-/

namespace ZoneStore

namespace RrsetList

/-- The list with a record added; a record that conflicts leaves it as it is. -/
def grow (list : RrsetList) (record : Record) : RrsetList :=
  (list.add record.type record.ttl record.rdata).toOption.getD list

def addAll (list : RrsetList) (records : List Record) : RrsetList :=
  records.foldl grow list

theorem addAll_append_singleton (list : RrsetList) (records : List Record) (record : Record) :
    list.addAll (records ++ [record]) = (list.addAll records).grow record :=
  List.foldl_append

theorem add_empty (type : RecordType) (ttl : Ttl) (rdata : Rdata) :
    ∃ added, empty.add type ttl rdata = .ok added :=
  ⟨_, rfl⟩

end RrsetList

namespace RecordTable

variable {table : RecordTable} {record : Record} {records : List Record}

/-! ## One addition -/

/-- Only an owner that the table knows can have a record refused. -/
theorem exists_find?_of_add_error {owner : Name} {type : RecordType} {ttl : Ttl} {rdata : Rdata}
    {e : AddError} (h : (table.rrsetsAt owner).add type ttl rdata = .error e) :
    ∃ rrsets, table.find? owner = some rrsets := by
  cases hFind : table.find? owner with
  | some rrsets => exact ⟨rrsets, rfl⟩
  | none =>
    obtain ⟨added, hAdd⟩ := RrsetList.add_empty type ttl rdata
    rw [rrsetsAt, hFind, Option.getD_none, hAdd] at h
    cases h

theorem find?_enter (table : RecordTable) (owner : Name) :
    ((table.enter owner).find? owner).getD .empty = table.rrsetsAt owner := by
  unfold enter rrsetsAt
  cases hFind : table.find? owner with
  | some rrsets =>
    dsimp only
    rw [hFind]
  | none =>
    dsimp only
    rw [find?_eq, List.find?_append, Option.map_or, ← find?_eq, hFind,
      List.find?_cons_of_pos (by exact Name.same_iff.mpr rfl)]
    rfl

theorem replace_enter (table : RecordTable) (owner : Name) (rrsets : RrsetList) :
    (table.enter owner).replace owner rrsets = table.store owner rrsets := by
  unfold enter store
  cases hFind : table.find? owner with
  | some old => rfl
  | none =>
    -- The owner is new, so replacing touches the entry that was just made for it and no other.
    have hOther : ∀ entry ∈ table.owners, ¬entry.1.same owner = true := by
      rw [find?_eq, Option.map_eq_none_iff, List.find?_eq_none] at hFind
      exact hFind
    have hOwner : owner.same owner = true := Name.same_iff.mpr rfl
    have hOld : table.owners.map (fun entry : Name × RrsetList =>
        if entry.1.same owner = true then (entry.1, rrsets) else (entry.1, entry.2)) =
        table.owners.map id := by
      apply List.map_congr_left
      intro entry hEntry
      rw [if_neg (hOther entry hEntry)]
      rfl
    dsimp only [replace]
    rw [List.map_append, hOld, List.map_id, List.map_singleton, if_pos hOwner]

theorem addInPlace_eq (table : RecordTable) (record : Record) :
    table.addInPlace record =
      match table.add record.owner record.type record.ttl record.rdata with
      | .error e => (table, .error e)
      | .ok added => (added, .ok ()) := by
  unfold addInPlace
  dsimp only
  rw [find?_enter, add_eq]
  cases hAdd : (table.rrsetsAt record.owner).add record.type record.ttl record.rdata with
  | ok added =>
    dsimp only [Except.map]
    rw [replace_enter]
  | error e =>
    obtain ⟨rrsets, hFind⟩ := exists_find?_of_add_error hAdd
    have hKnown : table.enter record.owner = table := by
      unfold enter
      rw [hFind]
    dsimp only [Except.map]
    rw [hKnown]

theorem addInPlace_cases (table : RecordTable) (record : Record) :
    (∃ added, (table.rrsetsAt record.owner).add record.type record.ttl record.rdata = .ok added ∧
        table.addInPlace record = (table.store record.owner added, .ok ())) ∨
      ∃ rrsets e, table.find? record.owner = some rrsets ∧
        rrsets.add record.type record.ttl record.rdata = .error e ∧
        table.addInPlace record = (table, .error e) := by
  rw [addInPlace_eq, add_eq]
  cases hAdd : (table.rrsetsAt record.owner).add record.type record.ttl record.rdata with
  | ok added => exact .inl ⟨added, rfl, rfl⟩
  | error e =>
    obtain ⟨rrsets, hFind⟩ := exists_find?_of_add_error hAdd
    rw [rrsetsAt, hFind, Option.getD_some] at hAdd
    exact .inr ⟨rrsets, e, hFind, hAdd, rfl⟩

theorem result_addInPlace (table : RecordTable) (record : Record) :
    (table.addInPlace record).2 =
      ((table.rrsetsAt record.owner).add record.type record.ttl record.rdata).map fun _ => () := by
  obtain ⟨added, hAdd, hTable⟩ | ⟨rrsets, e, hFind, hAdd, hTable⟩ := addInPlace_cases table record
  · rw [hTable, hAdd]
    rfl
  · rw [hTable, rrsetsAt, hFind, Option.getD_some, hAdd]
    rfl

theorem addInPlace_of_error {e : AddError} (h : (table.addInPlace record).2 = .error e) :
    (table.addInPlace record).1 = table := by
  obtain ⟨added, _, hTable⟩ | ⟨_, _, _, _, hTable⟩ := addInPlace_cases table record
  · rw [hTable] at h
    cases h
  · rw [hTable]

theorem find?_addInPlace (table : RecordTable) (record : Record) (name : Name) :
    (table.addInPlace record).1.find? name =
      if record.owner.lower = name.lower then some ((table.rrsetsAt record.owner).grow record)
      else table.find? name := by
  obtain ⟨added, hAdd, hTable⟩ | ⟨rrsets, e, hFind, hAdd, hTable⟩ := addInPlace_cases table record
  · have hGrow : (table.rrsetsAt record.owner).grow record = added := by
      rw [RrsetList.grow, hAdd]
      rfl
    rw [hTable, find?_store, hGrow]
  · have hGrow : (table.rrsetsAt record.owner).grow record = rrsets := by
      rw [rrsetsAt, hFind, Option.getD_some, RrsetList.grow, hAdd]
      rfl
    rw [hTable, hGrow]
    split
    · rename_i hSame
      rw [← find?_congr table hSame, hFind]
    · rfl

theorem isAncestor_addInPlace (table : RecordTable) (record : Record) (name : Name) :
    (table.addInPlace record).1.isAncestor name = true ↔
      (table.find? record.owner = none ∧ record.owner.IsBelow name) ∨
        table.isAncestor name = true := by
  obtain ⟨added, _, hTable⟩ | ⟨rrsets, e, hFind, _, hTable⟩ := addInPlace_cases table record
  · rw [hTable]
    exact isAncestor_store
  · rw [hTable, hFind]
    simp

/-- The owners of a table, written small. -/
def ownerNames (table : RecordTable) : List Name :=
  table.owners.map fun entry => entry.1.lower

theorem mem_ownerNames_iff {name : Name} :
    name.lower ∈ table.ownerNames ↔ table.find? name ≠ none := by
  rw [ownerNames, List.mem_map, find?_eq, ne_eq, Option.map_eq_none_iff, List.find?_eq_none]
  simp only [Name.same_iff, not_forall, not_not, exists_prop]

theorem find?_of_mem (h : table.ownerNames.Nodup) {owner : Name} {rrsets : RrsetList}
    (hMem : (owner, rrsets) ∈ table.owners) : table.find? owner = some rrsets := by
  rw [find?_eq]
  cases hFind : table.owners.find? fun entry => entry.1.same owner with
  | none =>
    have hOther := List.find?_eq_none.mp hFind _ hMem
    exact absurd (Name.same_iff.mpr rfl) hOther
  | some entry =>
    have hMatch := List.find?_some hFind
    have hSame : entry.1.lower = owner.lower := Name.same_iff.mp hMatch
    rw [List.inj_on_of_nodup_map h (List.mem_of_find?_eq_some hFind) hMem hSame, Option.map_some]

theorem nodup_ownerNames_append (h : table.ownerNames.Nodup) {owner : Name}
    (hNew : table.find? owner = none) : (table.ownerNames ++ [owner.lower]).Nodup := by
  rw [List.nodup_append]
  refine ⟨h, List.nodup_singleton _, ?_⟩
  intro name hName other hOther hSame
  rw [List.mem_singleton.mp hOther] at hSame
  rw [hSame, mem_ownerNames_iff] at hName
  exact hName hNew

theorem ownerNames_addInPlace (table : RecordTable) (record : Record) :
    (table.addInPlace record).1.ownerNames =
      if table.find? record.owner = none then table.ownerNames ++ [record.owner.lower]
      else table.ownerNames := by
  obtain ⟨added, _, hTable⟩ | ⟨rrsets, e, hFind, _, hTable⟩ := addInPlace_cases table record
  · rw [hTable]
    unfold store
    cases hFind : table.find? record.owner with
    | none =>
      rw [if_pos rfl, ownerNames, List.map_append]
      rfl
    | some old =>
      rw [if_neg (by simp)]
      dsimp only [ownerNames, replace]
      rw [List.map_map]
      congr 1
      funext entry
      dsimp only [Function.comp]
      split <;> rfl
  · rw [hTable, hFind, if_neg (by simp)]

/-! ## Any number of additions -/

/-- What a table keeps is what the records that were added to it leave behind. -/
structure Tracks (table : RecordTable) (records : List Record) : Prop where
  find?_eq : ∀ name, table.find? name =
    if ownedBy name records = [] then none
    else some (RrsetList.empty.addAll (ownedBy name records))
  isAncestor_iff : ∀ name,
    table.isAncestor name = true ↔ ∃ record ∈ records, record.owner.IsBelow name
  nodup : table.ownerNames.Nodup

theorem tracks_empty : empty.Tracks [] where
  find?_eq := fun _ => rfl
  isAncestor_iff := holds_empty.isAncestor_iff
  nodup := List.nodup_nil

theorem Tracks.find?_eq_none_iff (h : table.Tracks records) (name : Name) :
    table.find? name = none ↔ ownedBy name records = [] := by
  rw [h.find?_eq]
  split <;> simp_all

theorem Tracks.rrsetsAt_eq (h : table.Tracks records) (name : Name) :
    table.rrsetsAt name = RrsetList.empty.addAll (ownedBy name records) := by
  rw [rrsetsAt, h.find?_eq]
  split
  · rename_i hNil
    rw [hNil]
    rfl
  · rfl

theorem Tracks.addInPlace (h : table.Tracks records) (record : Record) :
    (table.addInPlace record).1.Tracks (records ++ [record]) where
  find?_eq := by
    intro name
    rw [find?_addInPlace, ownedBy_append, ownedBy_singleton]
    split
    · rename_i hSame
      rw [if_neg (by simp), RrsetList.addAll_append_singleton, h.rrsetsAt_eq, ownedBy, ownedBy,
        hSame]
    · rw [List.append_nil]
      exact h.find?_eq name
  isAncestor_iff := by
    intro name
    rw [isAncestor_addInPlace]
    exact ancestors_append_iff (h.find?_eq_none_iff record.owner) h.isAncestor_iff name
  nodup := by
    rw [ownerNames_addInPlace]
    split
    · rename_i hNew
      exact nodup_ownerNames_append h.nodup hNew
    · exact h.nodup

theorem Tracks.addAll (h : table.Tracks records) (more : List Record) :
    (table.addAll more).Tracks (records ++ more) := by
  induction more generalizing table records with
  | nil =>
    rw [List.append_nil]
    exact h
  | cons record more ih =>
    have hAll := ih (h.addInPlace record)
    rw [List.append_assoc] at hAll
    exact hAll

theorem tracks_addAll (records : List Record) : (empty.addAll records).Tracks records :=
  tracks_empty.addAll records

theorem Tracks.size_eq (h : table.Tracks records) :
    table.size = (records.map fun record => record.owner.lower).toFinset.card := by
  have hNames : table.ownerNames.toFinset =
      (records.map fun record => record.owner.lower).toFinset := by
    ext name
    rw [List.mem_toFinset, List.mem_toFinset, List.mem_map]
    constructor
    · intro hName
      obtain ⟨entry, _, hLower⟩ := List.mem_map.mp hName
      rw [← hLower, mem_ownerNames_iff, ne_eq, h.find?_eq_none_iff] at hName
      obtain ⟨record, hRecord⟩ := List.exists_mem_of_ne_nil _ hName
      obtain ⟨hMem, hSame⟩ := mem_ownedBy_iff.mp hRecord
      exact ⟨record, hMem, hSame.trans hLower⟩
    · rintro ⟨record, hMem, rfl⟩
      rw [mem_ownerNames_iff, ne_eq, h.find?_eq_none_iff]
      exact List.ne_nil_of_mem (mem_ownedBy_iff.mpr ⟨hMem, rfl⟩)
  rw [← hNames, List.toFinset_card_of_nodup h.nodup, ownerNames, List.length_map]
  rfl

/-! ## What a table answers -/

/-- The answer for a name that records give. -/
def resolutionOf (records : List Record) (name : Name) : Except DatabaseError Resolution :=
  if ownedBy name records ≠ [] then
    .ok (.exactMatch (RrsetList.empty.addAll (ownedBy name records)))
  else if ∃ record ∈ records, record.owner.IsBelow name then
    .ok (.partialMatch .empty)
  else
    .error .notFound

theorem Tracks.resolve_eq (h : table.Tracks records) (name : Name) :
    table.resolve name = resolutionOf records name := by
  have hAncestor := h.isAncestor_iff name
  rw [resolve, resolutionOf, h.find?_eq]
  by_cases hOwned : ownedBy name records = []
  · rw [if_pos hOwned, if_neg (not_not.mpr hOwned)]
    by_cases hBelow : ∃ record ∈ records, record.owner.IsBelow name
    · rw [if_pos hBelow, hAncestor.mpr hBelow]
      rfl
    · rw [if_neg hBelow]
      dsimp only
      rw [if_neg fun hTrue => hBelow (hAncestor.mp hTrue)]
  · rw [if_neg hOwned, if_pos hOwned]

theorem addAll_append (table : RecordTable) (records more : List Record) :
    table.addAll (records ++ more) = (table.addAll records).addAll more :=
  List.foldl_append

theorem addAll_refused {front : List Record} {record : Record} {e : AddError}
    (h : ((empty.addAll front).addInPlace record).2 = .error e) (back : List Record) :
    empty.addAll (front ++ record :: back) = empty.addAll (front ++ back) := by
  rw [addAll_append, addAll_append]
  have hSame := addInPlace_of_error h
  calc
    (empty.addAll front).addAll (record :: back) =
        ((empty.addAll front).addInPlace record).1.addAll back := rfl
    _ = (empty.addAll front).addAll back := by rw [hSame]

/--
A table that any records are added to answers for every name from the records that the name
owns, and else from the owners below it. A record is refused exactly if the list of its owner
refuses it, and then nothing has changed.
-/
theorem addAll_answers (records : List Record) :
    (∀ name, (empty.addAll records).resolve name = resolutionOf records name) ∧
    (∀ front record back, records = front ++ record :: back →
      ((empty.addAll front).addInPlace record).2 =
          ((RrsetList.empty.addAll (ownedBy record.owner front)).add record.type record.ttl
            record.rdata).map (fun _ => ()) ∧
        ∀ e, ((empty.addAll front).addInPlace record).2 = .error e → ∀ name,
          (empty.addAll records).resolve name = (empty.addAll (front ++ back)).resolve name) ∧
    (empty.addAll records).size =
      (records.map fun record => record.owner.lower).toFinset.card := by
  refine ⟨(tracks_addAll records).resolve_eq, ?_, (tracks_addAll records).size_eq⟩
  rintro front record back rfl
  refine ⟨?_, ?_⟩
  · rw [result_addInPlace, (tracks_addAll front).rrsetsAt_eq]
  · intro e hRefused name
    rw [addAll_refused hRefused]

/-- A record of a name of one label of one letter. -/
def letterRecord (letter : UInt8) (ttl : Ttl) : Record where
  owner := ⟨[⟨[letter], by simp, by simp [maxLabelLength]⟩], by
    simp [Label.wireLength, maxWireLength]⟩
  type := .a
  ttl := ttl
  rdata := ⟨[192, 0, 2, 1], by decide⟩

def smallRecord : Record :=
  letterRecord 97 ⟨3600, by decide⟩

/-- It has the owner of the small record, in the other case, but not its time to live. -/
def clashingRecord : Record :=
  letterRecord 65 ⟨60, by decide⟩

theorem addAll_answers_clash :
    ((empty.addAll [smallRecord]).addInPlace clashingRecord).2 = .error .ttlMismatch ∧
      (empty.addAll [smallRecord, clashingRecord]).size = 1 ∧
      (empty.addAll [smallRecord, clashingRecord]).resolve .root = .ok (.partialMatch .empty) ∧
      ∀ name, (empty.addAll [smallRecord, clashingRecord]).resolve name =
        (empty.addAll [smallRecord]).resolve name := by
  obtain ⟨hResolve, hAdd, hSize⟩ := addAll_answers [smallRecord, clashingRecord]
  obtain ⟨hResult, hSame⟩ := hAdd [smallRecord] clashingRecord [] rfl
  have hRefused : ((empty.addAll [smallRecord]).addInPlace clashingRecord).2 =
      .error .ttlMismatch := by
    rw [hResult]
    decide +kernel
  refine ⟨hRefused, ?_, ?_, hSame _ hRefused⟩
  · rw [hSize]
    decide +kernel
  · rw [hResolve]
    decide +kernel

end RecordTable

end ZoneStore
