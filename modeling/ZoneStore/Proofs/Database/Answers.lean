import ZoneStore.Proofs.Database.Paths
import ZoneStore.Proofs.Host.Serving
import ZoneStore.Proofs.Resolver.Loading

/-!
# Answers from loaded records

What a lookup answers is said here in terms of the records alone: those that
the name owns up to letter case, of the type asked for or else of type
CNAME, and those whose owners lie below the name. A database over a loaded
table gives these answers and no others.
-/

namespace ZoneStore

/-- The records of one type that a name owns, up to letter case. -/
def recordsOf (name : Name) (type : RecordType) (records : List Record) : List Record :=
  (ownedBy name records).filter fun record => record.type = type

theorem itemsOf_ownedBy (name : Name) (type : RecordType) (records : List Record) :
    itemsOf type ((ownedBy name records).map Record.item) =
      (recordsOf name type records).map Record.item := by
  rw [itemsOf, List.filter_map]
  rfl

/-- What is found is named as asked for, letter by letter, and made of the given records. -/
structure Found.Shows (found : Found) (name : Name) (type : RecordType) (records : List Record) :
    Prop where
  foundName_eq : found.foundName = name
  owner_eq : found.node.owner = name
  recordClass_eq : found.rdataset.recordClass = .internet
  type_eq : found.rdataset.rrset.type = type
  isMadeOf : found.rdataset.rrset.IsMadeOf (records.map Record.item)

/-- The answers to a lookup, each with the condition under which it is given. -/
inductive Answers (records : List Record) (name : Name) (type : RecordType) :
    Outcome FindResult → Prop
  | success {found : Found} :
      recordsOf name type records ≠ [] →
      found.Shows name type (recordsOf name type records) →
      Answers records name type (.ok (.success found))
  | cname {found : Found} :
      recordsOf name type records = [] →
      recordsOf name .cname records ≠ [] →
      found.Shows name .cname (recordsOf name .cname records) →
      Answers records name type (.ok (.cname found))
  | noSuchRrset :
      recordsOf name type records = [] →
      recordsOf name .cname records = [] →
      (ownedBy name records ≠ [] ∨ ∃ record ∈ records, record.owner.IsBelow name) →
      Answers records name type (.error (.error .noSuchRrset))
  | notFound :
      ownedBy name records = [] →
      (¬∃ record ∈ records, record.owner.IsBelow name) →
      Answers records name type (.error (.error .notFound))

namespace Lookup

theorem answers_of_rrsets {resolver : Resolver} (hSelect : resolver.findType = RrsetList.select)
    {records : List Record} {name : Name} {type : RecordType} {rrsets : RrsetList}
    (hHolds : rrsets.Holds ((ownedBy name records).map Record.item))
    (hExists : ownedBy name records ≠ [] ∨ ∃ record ∈ records, record.owner.IsBelow name) :
    Answers records name type
      (match selectOrAlias resolver rrsets type with
        | some (rrset, isAlias) => .ok (answer ⟨name, rrsets⟩ rrset isAlias)
        | none => .error (.error .noSuchRrset)) := by
  rw [selectOrAlias_eq hSelect]
  cases hFind : rrsets.find? type with
  | some rrset =>
    have hMade := hHolds.present hFind
    rw [itemsOf_ownedBy] at hMade
    refine .success ?_ ⟨rfl, rfl, rfl, RrsetList.type_of_find? hFind, hMade⟩
    exact fun hNil => hMade.ne_nil (List.map_eq_nil_iff.mpr hNil)
  | none =>
    have hNone := hHolds.absent hFind
    rw [itemsOf_ownedBy, List.map_eq_nil_iff] at hNone
    cases hAlias : rrsets.find? .cname with
    | some rrset =>
      have hMade := hHolds.present hAlias
      rw [itemsOf_ownedBy] at hMade
      refine .cname hNone ?_ ⟨rfl, rfl, rfl, RrsetList.type_of_find? hAlias, hMade⟩
      exact fun hNil => hMade.ne_nil (List.map_eq_nil_iff.mpr hNil)
    | none =>
      have hNoAlias := hHolds.absent hAlias
      rw [itemsOf_ownedBy, List.map_eq_nil_iff] at hNoAlias
      exact .noSuchRrset hNone hNoAlias hExists

theorem answers_find {table : RecordTable} {records : List Record} (hHolds : table.Holds records)
    {name : Name} {version : Option Version} {type : RecordType} {options : FindOptions}
    {now : UInt32} (hType : type ≠ .any) (hVersion : admits version = true) :
    Answers records name type (find table.toResolver name version type options now).result := by
  have hSelect : table.toResolver.findType = RrsetList.select := rfl
  have hSame : table.toResolver.resolve name = table.resolve name := rfl
  rw [result_find hType hVersion, hSame]
  rcases hHolds.resolve_cases name with
    ⟨hOwned, hResolve⟩ | ⟨hOwned, hBelow, hResolve⟩ | ⟨hOwned, hBelow, hResolve⟩
  · rw [hResolve]
    exact answers_of_rrsets hSelect (hHolds.rrsetsAt_holds name) (.inl hOwned)
  · rw [hResolve]
    have hEmpty : RrsetList.empty.Holds ((ownedBy name records).map Record.item) := by
      rw [hOwned]
      exact RrsetList.holds_empty
    exact answers_of_rrsets hSelect hEmpty (.inr hBelow)
  · rw [hResolve]
    exact .notFound hOwned hBelow

end Lookup

/-- A database over a table that was loaded answers every lookup from the records of its file. -/
theorem Host.find_answers_loaded_records {entries : List RecordEntry} {defaultTtl : Ttl}
    {table : RecordTable} {host : Host} {database : DatabaseId}
    (hLoad : RecordTable.ofEntries entries defaultTtl = .ok table)
    (hServes : host.Serves database table.toResolver) :
    ∃ records, List.Forall₂ (RecordEntry.Writes defaultTtl) entries records ∧
      ∀ (name : Name) (type : RecordType) (version : Option Version) (options : FindOptions)
        (now : UInt32), type ≠ .any → (version = none ∨ version = some .sentinel) →
        Answers records name type
          ((host.find database name version type options now).result.map Prod.fst) := by
  obtain ⟨records, hWrites, hHolds⟩ := RecordTable.holds_ofEntries hLoad
  refine ⟨records, hWrites, ?_⟩
  intro name type version options now hType hVersion
  have hAdmits : Lookup.admits version = true := by
    rcases hVersion with rfl | rfl
    · rfl
    · rfl
  rw [hServes.result_find]
  exact Lookup.answers_find hHolds hType hAdmits

/-- Records of one owner in two spellings, one of which has its time to live out of range. -/
def mixedEntries : List RecordEntry :=
  [⟨"www.example.", "A", some 4294967295, "192.0.2.1"⟩,
    ⟨"WWW.Example.", "a", some 0, "192.0.2.2"⟩,
    ⟨"alias.example.", "CNAME", none, "www.example."⟩]

def mixedTable : RecordTable :=
  (RecordTable.ofEntries mixedEntries ⟨300, by decide⟩).toOption.getD .empty

theorem ofEntries_mixedEntries :
    RecordTable.ofEntries mixedEntries ⟨300, by decide⟩ = .ok mixedTable := by
  have hOk : (RecordTable.ofEntries mixedEntries ⟨300, by decide⟩).isOk = true := by
    decide +kernel
  unfold mixedTable
  cases hLoad : RecordTable.ofEntries mixedEntries ⟨300, by decide⟩ with
  | error e =>
    rw [hLoad] at hOk
    cases hOk
  | ok table => rfl

/-- A host with one database over the table of `mixedEntries`. -/
def mixedHost : Host :=
  ((Host.start.addInstance "mixed" mixedTable.toResolver).host.createResolving .root .zone
    .internet ["mixed"]).host

theorem find_answers_mixedEntries :
    ∃ records, List.Forall₂ (RecordEntry.Writes ⟨300, by decide⟩) mixedEntries records ∧
      ∀ (name : Name) (type : RecordType) (version : Option Version) (options : FindOptions)
        (now : UInt32), type ≠ .any → (version = none ∨ version = some .sentinel) →
        Answers records name type
          ((mixedHost.find 1 name version type options now).result.map Prod.fst) :=
  Host.find_answers_loaded_records ofEntries_mixedEntries
    (Host.serves_createResolving rfl rfl rfl rfl)

end ZoneStore
