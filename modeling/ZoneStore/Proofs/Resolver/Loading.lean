import Mathlib.Data.List.Forall2
import ZoneStore.Proofs.Resolver.Additions
import ZoneStore.Proofs.Resolver.RecordsFile

/-!
# Loading all entries or blaming one

A file loads exactly if every entry is valid by itself and no two of them give
one owner and type two times to live. Otherwise one entry is blamed: the first
that fails behind those before it, for the problem of it that is looked for
first. What stands behind that entry does not count.
-/

namespace ZoneStore

theorem exists_mem_of_forall₂ {α β : Type} {R : α → β → Prop} {as : List α} {bs : List β}
    (h : List.Forall₂ R as bs) {a : α} (ha : a ∈ as) : ∃ b ∈ bs, R a b := by
  induction h with
  | nil => cases ha
  | cons hHead _ ih =>
    obtain rfl | hTail := List.mem_cons.mp ha
    · exact ⟨_, List.mem_cons_self, hHead⟩
    · obtain ⟨b, hb, hR⟩ := ih hTail
      exact ⟨b, List.mem_cons_of_mem _ hb, hR⟩

/-- The place of a problem in the order in which problems are looked for. -/
def RecordProblem.rank : RecordProblem → Nat
  | badName _ => 0
  | badType _ => 1
  | metaType _ => 2
  | badData _ => 3
  | conflict _ => 4

namespace RecordEntry

variable {defaultTtl : Ttl} {earlier entries : List RecordEntry} {entry other : RecordEntry}
  {record otherRecord : Record} {problem : RecordProblem}

/-! ## What can be wrong with an entry -/

/-- The owner, type and data of an entry can be read, and the type is no meta-type. -/
structure IsValid (entry : RecordEntry) : Prop where
  owner_read : ∃ owner, Name.ofText entry.name = .ok owner
  data_read : ∃ type rdata, RecordType.ofText entry.type = .ok type ∧ type.isMeta = false ∧
    Rdata.ofText type entry.data = .ok rdata

/-- Two entries give one owner, in any case of its letters, and one type two times to live. -/
structure Clashes (defaultTtl : Ttl) (entry other : RecordEntry) : Prop where
  owner_same : ∃ owner otherOwner, Name.ofText entry.name = .ok owner ∧
    Name.ofText other.name = .ok otherOwner ∧ owner.lower = otherOwner.lower
  type_same : ∃ type, RecordType.ofText entry.type = .ok type ∧
    RecordType.ofText other.type = .ok type
  ttl_ne : entry.ttlSeconds defaultTtl ≠ other.ttlSeconds defaultTtl

def Fails (defaultTtl : Ttl) (earlier : List RecordEntry) (entry : RecordEntry) : Prop :=
  ¬entry.IsValid ∨ ∃ other ∈ earlier, entry.Clashes defaultTtl other

/-- The problems that an entry has behind earlier ones, each whether or not it has others. -/
inductive HasProblem (defaultTtl : Ttl) (earlier : List RecordEntry) (entry : RecordEntry) :
    RecordProblem → Prop
  | badName {cause : NameError} : Name.ofText entry.name = .error cause →
      HasProblem defaultTtl earlier entry (.badName cause)
  | badType {cause : RecordTypeError} : RecordType.ofText entry.type = .error cause →
      HasProblem defaultTtl earlier entry (.badType cause)
  | metaType {type : RecordType} : RecordType.ofText entry.type = .ok type →
      type.isMeta = true → HasProblem defaultTtl earlier entry (.metaType type)
  | badData {type : RecordType} {cause : RdataError} : RecordType.ofText entry.type = .ok type →
      Rdata.ofText type entry.data = .error cause →
      HasProblem defaultTtl earlier entry (.badData cause)
  | conflict {other : RecordEntry} : other ∈ earlier → entry.Clashes defaultTtl other →
      HasProblem defaultTtl earlier entry (.conflict .ttlMismatch)

/-- Of all problems of the entry, it is the one that is looked for first. -/
structure Reports (defaultTtl : Ttl) (earlier : List RecordEntry) (entry : RecordEntry)
    (problem : RecordProblem) : Prop where
  hasProblem : entry.HasProblem defaultTtl earlier problem
  rank_le : ∀ other, entry.HasProblem defaultTtl earlier other → problem.rank ≤ other.rank

theorem HasProblem.fails (h : entry.HasProblem defaultTtl earlier problem) :
    entry.Fails defaultTtl earlier := by
  cases h with
  | badName hName =>
    refine .inl fun hValid => ?_
    obtain ⟨owner, hOwner⟩ := hValid.owner_read
    cases hName.symm.trans hOwner
  | badType hType =>
    refine .inl fun hValid => ?_
    obtain ⟨type, rdata, hRead, -⟩ := hValid.data_read
    cases hType.symm.trans hRead
  | metaType hType hMeta =>
    refine .inl fun hValid => ?_
    obtain ⟨type, rdata, hRead, hNot, -⟩ := hValid.data_read
    cases hType.symm.trans hRead
    cases hMeta.symm.trans hNot
  | badData hType hData =>
    refine .inl fun hValid => ?_
    obtain ⟨type, rdata, hRead, -, hRdata⟩ := hValid.data_read
    cases hType.symm.trans hRead
    cases hData.symm.trans hRdata
  | conflict hMem hClash => exact .inr ⟨_, hMem, hClash⟩

/-- An entry has no two problems of one kind. -/
theorem HasProblem.eq_of_rank_eq {other : RecordProblem}
    (h : entry.HasProblem defaultTtl earlier problem)
    (hOther : entry.HasProblem defaultTtl earlier other) (hRank : problem.rank = other.rank) :
    problem = other := by
  cases h <;> cases hOther <;> simp_all [RecordProblem.rank]

theorem Reports.unique {other : RecordProblem} (h : entry.Reports defaultTtl earlier problem)
    (hOther : entry.Reports defaultTtl earlier other) : problem = other :=
  h.hasProblem.eq_of_rank_eq hOther.hasProblem
    (Nat.le_antisymm (h.rank_le other hOther.hasProblem) (hOther.rank_le problem h.hasProblem))

/-! ## One entry -/

theorem Writes.isValid (h : entry.Writes defaultTtl record) : entry.IsValid :=
  ⟨⟨_, h.owner_read⟩, ⟨_, _, h.type_read, h.not_meta, h.rdata_read⟩⟩

theorem Writes.clashes_iff (h : entry.Writes defaultTtl record)
    (hOther : other.Writes defaultTtl otherRecord) :
    entry.Clashes defaultTtl other ↔
      otherRecord.owner.lower = record.owner.lower ∧ otherRecord.type = record.type ∧
        otherRecord.ttl ≠ record.ttl := by
  constructor
  · rintro ⟨⟨owner, otherOwner, hOwner, hSecond, hSame⟩, ⟨type, hType, hSecondType⟩, hTtl⟩
    cases hOwner.symm.trans h.owner_read
    cases hSecond.symm.trans hOther.owner_read
    cases hType.symm.trans h.type_read
    refine ⟨hSame.symm, Except.ok.inj (hOther.type_read.symm.trans hSecondType), ?_⟩
    intro hEq
    rw [← h.ttl_read, ← hOther.ttl_read, hEq] at hTtl
    exact hTtl rfl
  · rintro ⟨hOwner, hType, hTtl⟩
    refine ⟨⟨_, _, h.owner_read, hOther.owner_read, hOwner.symm⟩,
      ⟨_, h.type_read, hType ▸ hOther.type_read⟩, ?_⟩
    rw [← h.ttl_read, ← hOther.ttl_read]
    exact fun hEq => hTtl (Ttl.ext hEq.symm)

theorem reports_of_toRecord (h : entry.toRecord defaultTtl = .error problem) :
    entry.Reports defaultTtl earlier problem := by
  -- Each reading that fails is reported, since those in front of it have excluded other problems.
  unfold toRecord at h
  split at h
  · rename_i cause hName
    cases h
    exact ⟨.badName hName, fun _ _ => Nat.zero_le _⟩
  · rename_i owner hOwner
    split at h
    · rename_i cause hType
      cases h
      refine ⟨.badType hType, fun other hOther => ?_⟩
      cases hOther <;> simp_all [RecordProblem.rank]
    · rename_i type hType
      split at h
      · rename_i hMeta
        cases h
        refine ⟨.metaType hType hMeta, fun other hOther => ?_⟩
        cases hOther <;> simp_all [RecordProblem.rank]
      · rename_i hMeta
        split at h
        · rename_i cause hData
          cases h
          refine ⟨.badData hType hData, fun other hOther => ?_⟩
          cases hOther <;> simp_all [RecordProblem.rank]
        · cases h

/-- An entry that writes a record can only clash. -/
theorem Writes.reports_conflict (h : entry.Writes defaultTtl record) (hMem : other ∈ earlier)
    (hClash : entry.Clashes defaultTtl other) :
    entry.Reports defaultTtl earlier (.conflict .ttlMismatch) where
  hasProblem := .conflict hMem hClash
  rank_le := by
    obtain ⟨hOwner, hType, hMeta, -, hRdata⟩ := h
    intro problem hProblem
    cases hProblem <;> simp_all [RecordProblem.rank]

/-! ## Entries in order -/

/-- Every entry is valid by itself, and no two clash. -/
structure AreConsistent (defaultTtl : Ttl) (entries : List RecordEntry) : Prop where
  isValid : ∀ entry ∈ entries, entry.IsValid
  not_clashes : ∀ entry ∈ entries, ∀ other ∈ entries, ¬entry.Clashes defaultTtl other

/-- No entry fails behind those before it. -/
def NoneFails (defaultTtl : Ttl) (entries : List RecordEntry) : Prop :=
  ∀ (index : Nat) (entry : RecordEntry),
    entries[index]? = some entry → ¬entry.Fails defaultTtl (entries.take index)

theorem noneFails_nil : NoneFails defaultTtl [] := by
  intro index entry hEntry
  cases hEntry

theorem NoneFails.append_singleton (h : NoneFails defaultTtl entries)
    (hEntry : ¬entry.Fails defaultTtl entries) : NoneFails defaultTtl (entries ++ [entry]) := by
  intro index other hAt
  obtain hLt | hEq | hGt := Nat.lt_trichotomy index entries.length
  · rw [List.getElem?_append_left hLt] at hAt
    rw [List.take_append_of_le_length hLt.le]
    exact h index other hAt
  · subst hEq
    rw [List.getElem?_concat_length] at hAt
    cases hAt
    rw [List.take_left]
    exact hEntry
  · have hLength : (entries ++ [entry]).length ≤ index := by simpa using hGt.nat_succ_le
    rw [List.getElem?_eq_none hLength] at hAt
    cases hAt

/-- An entry is the first that fails, and a problem the first that it has. -/
structure IsBlamed (defaultTtl : Ttl) (entries : List RecordEntry) (index : Nat)
    (entry : RecordEntry) (problem : RecordProblem) : Prop where
  getElem?_eq : entries[index]? = some entry
  noneFails : NoneFails defaultTtl (entries.take index)
  fails : entry.Fails defaultTtl (entries.take index)
  reports : entry.Reports defaultTtl (entries.take index) problem

theorem IsBlamed.index_le {index otherIndex : Nat} {otherProblem : RecordProblem}
    (h : IsBlamed defaultTtl entries index entry problem)
    (hOther : IsBlamed defaultTtl entries otherIndex other otherProblem) : index ≤ otherIndex := by
  by_contra hLt
  have hBefore := Nat.lt_of_not_le hLt
  have hAt := h.noneFails otherIndex other
  rw [List.getElem?_take_of_lt hBefore, List.take_take, Nat.min_eq_left hBefore.le] at hAt
  exact hAt hOther.getElem?_eq hOther.fails

theorem IsBlamed.not_areConsistent {index : Nat}
    (h : IsBlamed defaultTtl entries index entry problem) :
    ¬AreConsistent defaultTtl entries := by
  intro hConsistent
  have hMem := List.mem_of_getElem? h.getElem?_eq
  obtain hInvalid | ⟨other, hOther, hClash⟩ := h.fails
  · exact hInvalid (hConsistent.isValid entry hMem)
  · exact hConsistent.not_clashes entry hMem other (List.mem_of_mem_take hOther) hClash

theorem IsBlamed.unique {index otherIndex : Nat} {otherProblem : RecordProblem}
    (h : IsBlamed defaultTtl entries index entry problem)
    (hOther : IsBlamed defaultTtl entries otherIndex other otherProblem) :
    index = otherIndex ∧ entry = other ∧ problem = otherProblem := by
  have hIndex := Nat.le_antisymm (h.index_le hOther) (hOther.index_le h)
  subst hIndex
  cases h.getElem?_eq.symm.trans hOther.getElem?_eq
  exact ⟨rfl, rfl, h.reports.unique hOther.reports⟩

end RecordEntry

namespace RecordTable

variable {table : RecordTable} {defaultTtl : Ttl} {entries : List RecordEntry}
  {records : List Record}

/-- Adds records one after the other, up to the first that is refused. -/
def addEach (table : RecordTable) (records : List Record) : Except AddError RecordTable :=
  records.foldlM
    (fun table record => table.add record.owner record.type record.ttl record.rdata) table

theorem addEach_append_singleton {front : RecordTable} (h : table.addEach records = .ok front)
    (record : Record) :
    table.addEach (records ++ [record]) =
      front.add record.owner record.type record.ttl record.rdata := by
  rw [addEach] at h ⊢
  rw [List.foldlM_append, h]
  exact bind_pure (front.add record.owner record.type record.ttl record.rdata)

/-- The table comes of adding the records that the entries write. -/
structure LoadedFrom (table : RecordTable) (defaultTtl : Ttl) (entries : List RecordEntry)
    (records : List Record) : Prop where
  writes : List.Forall₂ (RecordEntry.Writes defaultTtl) entries records
  addEach_eq : empty.addEach records = .ok table
  eq_addAll : table = empty.addAll records
  holds : table.Holds records

theorem loadedFrom_empty : empty.LoadedFrom defaultTtl [] [] :=
  ⟨.nil, rfl, rfl, holds_empty⟩

theorem LoadedFrom.add {entry : RecordEntry} {record : Record} {added : RecordTable}
    (h : table.LoadedFrom defaultTtl entries records) (hWrites : entry.Writes defaultTtl record)
    (hAdd : table.add record.owner record.type record.ttl record.rdata = .ok added) :
    added.LoadedFrom defaultTtl (entries ++ [entry]) (records ++ [record]) where
  writes := List.rel_append h.writes (.cons hWrites .nil)
  addEach_eq := (addEach_append_singleton h.addEach_eq record).trans hAdd
  eq_addAll := by
    rw [addAll_append, ← h.eq_addAll]
    change added = (table.addInPlace record).1
    rw [addInPlace_eq, hAdd]
  holds := h.holds.add hAdd

theorem LoadedFrom.add_eq_error_iff {entry : RecordEntry} {record : Record}
    (h : table.LoadedFrom defaultTtl entries records) (hWrites : entry.Writes defaultTtl record) :
    table.add record.owner record.type record.ttl record.rdata = .error .ttlMismatch ↔
      ∃ other ∈ entries, entry.Clashes defaultTtl other := by
  rw [h.holds.add_eq_error_iff]
  constructor
  · rintro ⟨otherRecord, hMem, hClash⟩
    obtain ⟨other, hOther, hWritten⟩ := exists_mem_of_forall₂ h.writes.flip hMem
    exact ⟨other, hOther, (hWrites.clashes_iff hWritten).mpr hClash⟩
  · rintro ⟨other, hMem, hClash⟩
    obtain ⟨otherRecord, hOther, hWritten⟩ := exists_mem_of_forall₂ h.writes hMem
    exact ⟨otherRecord, hOther, (hWrites.clashes_iff hWritten).mp hClash⟩

/-- An entry either does not fail and writes the record that is added, or reports a problem. -/
theorem LoadedFrom.addEntry_cases (h : table.LoadedFrom defaultTtl entries records)
    (entry : RecordEntry) :
    (∃ added record, table.addEntry defaultTtl entry = .ok added ∧
        ¬entry.Fails defaultTtl entries ∧
        added.LoadedFrom defaultTtl (entries ++ [entry]) (records ++ [record])) ∨
      ∃ problem, table.addEntry defaultTtl entry = .error problem ∧
        entry.Reports defaultTtl entries problem := by
  unfold addEntry
  cases hRecord : entry.toRecord defaultTtl with
  | error problem => exact .inr ⟨problem, rfl, RecordEntry.reports_of_toRecord hRecord⟩
  | ok record =>
    have hWrites := RecordEntry.toRecord_eq_ok_iff.mp hRecord
    have hClashes := h.add_eq_error_iff hWrites
    cases hAdd : table.add record.owner record.type record.ttl record.rdata with
    | ok added =>
      refine .inl ⟨added, record, ?_, ?_, h.add hWrites hAdd⟩
      · dsimp only
        rw [hAdd, Except.mapError]
      · rintro (hInvalid | hClash)
        · exact hInvalid hWrites.isValid
        · cases hAdd.symm.trans (hClashes.mpr hClash)
    | error cause =>
      cases cause
      obtain ⟨other, hMem, hClash⟩ := hClashes.mp hAdd
      refine .inr ⟨.conflict .ttlMismatch, ?_, hWrites.reports_conflict hMem hClash⟩
      dsimp only
      rw [hAdd, Except.mapError]

theorem LoadedFrom.addEntries_cases (h : table.LoadedFrom defaultTtl entries records)
    (hNone : RecordEntry.NoneFails defaultTtl entries) (more : List RecordEntry) :
    (∃ loaded added, table.addEntries defaultTtl entries.length more = .ok loaded ∧
        loaded.LoadedFrom defaultTtl (entries ++ more) added) ∨
      ∃ index entry problem,
        table.addEntries defaultTtl entries.length more =
            .error (.record index entry.name problem) ∧
          RecordEntry.IsBlamed defaultTtl (entries ++ more) index entry problem := by
  induction more generalizing table entries records with
  | nil =>
    rw [List.append_nil]
    exact .inl ⟨table, records, rfl, h⟩
  | cons entry more ih =>
    rw [RecordTable.addEntries]
    obtain ⟨added, record, hAdded, hFine, hLoaded⟩ | ⟨problem, hError, hReports⟩ :=
      h.addEntry_cases entry
    · have hMore := ih hLoaded (hNone.append_singleton hFine)
      rw [List.length_append, List.length_singleton, List.append_assoc] at hMore
      rw [hAdded]
      exact hMore
    · -- What stands behind the entry is not looked at, so it is blamed in the whole list as well.
      refine .inr ⟨entries.length, entry, problem, by rw [hError], ?_⟩
      have hBefore : (entries ++ entry :: more).take entries.length = entries := List.take_left
      rw [← hBefore] at hNone hReports
      exact ⟨by simp, hNone, hReports.hasProblem.fails, hReports⟩

theorem ofEntries_cases (entries : List RecordEntry) (defaultTtl : Ttl) :
    (∃ table records, ofEntries entries defaultTtl = .ok table ∧
        table.LoadedFrom defaultTtl entries records) ∨
      ∃ index entry problem,
        ofEntries entries defaultTtl = .error (.record index entry.name problem) ∧
          RecordEntry.IsBlamed defaultTtl entries index entry problem :=
  loadedFrom_empty.addEntries_cases RecordEntry.noneFails_nil entries

theorem holds_ofEntries (hLoad : ofEntries entries defaultTtl = .ok table) :
    ∃ records, List.Forall₂ (RecordEntry.Writes defaultTtl) entries records ∧
      table.Holds records := by
  obtain ⟨loaded, records, hTable, hLoaded⟩ | ⟨_, _, _, hError, -⟩ :=
    ofEntries_cases entries defaultTtl
  · cases hTable.symm.trans hLoad
    exact ⟨records, hLoaded.writes, hLoaded.holds⟩
  · cases hError.symm.trans hLoad

/-! ## A table that was loaded -/

theorem LoadedFrom.areConsistent (h : table.LoadedFrom defaultTtl entries records) :
    RecordEntry.AreConsistent defaultTtl entries where
  isValid := by
    intro entry hEntry
    obtain ⟨record, -, hWrites⟩ := exists_mem_of_forall₂ h.writes hEntry
    exact hWrites.isValid
  not_clashes := by
    intro entry hEntry other hOther
    obtain ⟨record, hMem, hWrites⟩ := exists_mem_of_forall₂ h.writes hEntry
    obtain ⟨otherRecord, hOtherMem, hOtherWrites⟩ := exists_mem_of_forall₂ h.writes hOther
    rw [hWrites.clashes_iff hOtherWrites]
    rintro ⟨hOwner, hType, hTtl⟩
    exact hTtl (h.holds.ttl_eq hOtherMem hMem hOwner hType)

theorem LoadedFrom.not_meta (h : table.LoadedFrom defaultTtl entries records) {owner : Name}
    {rrsets : RrsetList} (hOwner : (owner, rrsets) ∈ table.owners) {rrset : Rrset}
    (hRrset : rrset ∈ rrsets.rrsets) : rrset.type.isMeta = false := by
  have hTracks := tracks_addAll records
  rw [← h.eq_addAll] at hTracks
  have hFind : table.rrsetsAt owner = rrsets := by
    rw [rrsetsAt, find?_of_mem hTracks.nodup hOwner, Option.getD_some]
  have hMade := (h.holds.rrsetsAt_holds owner).present
    (hFind ▸ RrsetList.find?_of_mem hRrset)
  obtain ⟨item, hItem⟩ := List.exists_mem_of_ne_nil _ hMade.ne_nil
  obtain ⟨hMem, hType⟩ := mem_itemsOf_iff.mp hItem
  obtain ⟨record, hRecord, rfl⟩ := List.mem_map.mp hMem
  obtain ⟨entry, -, hWrites⟩ :=
    exists_mem_of_forall₂ h.writes.flip (mem_ownedBy_iff.mp hRecord).1
  rw [← hType]
  exact hWrites.not_meta

/-! ## Main statement -/

/-- What loading entries gives: the table of all that they write, or the entry to blame. -/
structure LoadsOrBlames (entries : List RecordEntry) (defaultTtl : Ttl)
    (result : Except LoadError RecordTable) : Prop where
  ok_iff : (∃ table, result = .ok table) ↔ RecordEntry.AreConsistent defaultTtl entries
  of_ok : ∀ table, result = .ok table → ∃ records,
    List.Forall₂ (RecordEntry.Writes defaultTtl) entries records ∧
      empty.addEach records = .ok table ∧ table = empty.addAll records
  error_iff : ∀ e, result = .error e ↔ ∃ index entry problem,
    e = .record index entry.name problem ∧
      RecordEntry.IsBlamed defaultTtl entries index entry problem
  not_meta : ∀ table, result = .ok table → ∀ owner rrsets, (owner, rrsets) ∈ table.owners →
    ∀ rrset ∈ rrsets.rrsets, rrset.type.isMeta = false

theorem LoadedFrom.loadsOrBlames (h : table.LoadedFrom defaultTtl entries records) :
    LoadsOrBlames entries defaultTtl (.ok table) where
  ok_iff := iff_of_true ⟨table, rfl⟩ h.areConsistent
  of_ok := by
    intro loaded hLoaded
    cases hLoaded
    exact ⟨records, h.writes, h.addEach_eq, h.eq_addAll⟩
  error_iff := by
    refine fun e => iff_of_false nofun ?_
    rintro ⟨index, entry, problem, -, hBlamed⟩
    exact hBlamed.not_areConsistent h.areConsistent
  not_meta := by
    intro loaded hLoaded owner rrsets hOwner rrset
    cases hLoaded
    exact h.not_meta hOwner

theorem loadsOrBlames_of_isBlamed {index : Nat} {entry : RecordEntry} {problem : RecordProblem}
    (h : RecordEntry.IsBlamed defaultTtl entries index entry problem) :
    LoadsOrBlames entries defaultTtl (.error (.record index entry.name problem)) where
  ok_iff := iff_of_false nofun h.not_areConsistent
  of_ok := nofun
  error_iff := by
    intro e
    constructor
    · intro hError
      cases hError
      exact ⟨index, entry, problem, rfl, h⟩
    · rintro ⟨otherIndex, other, otherProblem, rfl, hOther⟩
      obtain ⟨rfl, rfl, rfl⟩ := h.unique hOther
      rfl
  not_meta := nofun

theorem loadsOrBlames_ofEntries (entries : List RecordEntry) (defaultTtl : Ttl) :
    LoadsOrBlames entries defaultTtl (ofEntries entries defaultTtl) := by
  obtain ⟨table, records, hTable, hLoaded⟩ | ⟨index, entry, problem, hError, hBlamed⟩ :=
    ofEntries_cases entries defaultTtl
  · rw [hTable]
    exact hLoaded.loadsOrBlames
  · rw [hError]
    exact loadsOrBlames_of_isBlamed hBlamed

/--
Entries load exactly if they are consistent, and the table is then the one that the records they
write make up in order, which holds no meta-type. Otherwise the first entry that fails is blamed
for the first problem that it has. A text loads what the entries in it load.
-/
theorem load_all_or_blame (entries : List RecordEntry) (defaultTtl : Ttl) :
    LoadsOrBlames entries defaultTtl (ofEntries entries defaultTtl) ∧
      ∀ text, RecordEntry.listOfText text = .ok entries →
        LoadsOrBlames entries defaultTtl (ofText text defaultTtl) := by
  refine ⟨loadsOrBlames_ofEntries entries defaultTtl, fun text hText => ?_⟩
  rw [ofText, hText]
  exact loadsOrBlames_ofEntries entries defaultTtl

/-- The second record of the owner has the default, which is what the first comes to. -/
def clashingFile : String :=
  "[[records]]\nname='a.'\ntype='TXT'\nttl=4294967295\ndata=''\n" ++
  "[[records]]\nname='A.'\ntype='TXT'\ndata=''\n" ++
  "[[records]]\nname='a.'\ntype='TXT'\nttl=60\ndata=''\n"

def clashingEntries : List RecordEntry :=
  [⟨"a.", "TXT", some 4294967295, ""⟩, ⟨"A.", "TXT", none, ""⟩, ⟨"a.", "TXT", some 60, ""⟩]

theorem load_all_or_blame_clash :
    RecordEntry.listOfText clashingFile = .ok clashingEntries ∧
      ofText clashingFile ⟨0, Nat.zero_le _⟩ =
        .error (.record 2 "a." (.conflict .ttlMismatch)) ∧
      LoadsOrBlames clashingEntries ⟨0, Nat.zero_le _⟩
        (ofText clashingFile ⟨0, Nat.zero_le _⟩) := by
  have hRead : (RecordEntry.listOfText clashingFile).toOption = some clashingEntries := by
    decide +kernel
  have hBlame : (ofEntries clashingEntries ⟨0, Nat.zero_le _⟩).map (fun _ => ()) =
      .error (.record 2 "a." (.conflict .ttlMismatch)) := by
    decide +kernel
  have hText : RecordEntry.listOfText clashingFile = .ok clashingEntries := by
    generalize RecordEntry.listOfText clashingFile = read at hRead ⊢
    cases read with
    | error _ => cases hRead
    | ok entries => exact congrArg Except.ok (Option.some.inj hRead)
  refine ⟨hText, ?_, (load_all_or_blame clashingEntries _).2 clashingFile hText⟩
  rw [ofText, hText]
  dsimp only
  generalize ofEntries clashingEntries ⟨0, Nat.zero_le _⟩ = loaded at hBlame ⊢
  cases loaded with
  | error e => exact congrArg Except.error (Except.error.inj hBlame)
  | ok _ => cases hBlame

end RecordTable

end ZoneStore
