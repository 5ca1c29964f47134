import ZoneStore.Proofs.Database.Paths
import ZoneStore.Proofs.Name.Presentation
import ZoneStore.Proofs.Record.Presentation
import ZoneStore.Proofs.Resolver.Additions
import ZoneStore.Proofs.Rrset.Distinct
import ZoneStore.Query.Walk

/-!
# Printed answers that are read back

Each line of an answer has five fields, and they are read as the parts of
the record that was found. No part of a record is written with a tab or a
newline, so that the fields and the lines are told apart. The records of all
lines make up the RRset again, since the data of an RRset are distinct.
-/

namespace ZoneStore

open Text

/-! ## Lines -/

/-- A line has exactly five fields between tabs, and they are read as a class and a record. -/
def ReadsAs (line : String) (recordClass : RecordClass) (record : Record) : Prop :=
  ∃ owner ttl className type rdata : String,
    line.toList.splitOn '\t' = [owner, ttl, className, type, rdata].map String.toList ∧
      Name.ofText owner = .ok record.owner ∧
      Ttl.ofText ttl = .ok record.ttl ∧
      RecordClass.ofText className = .ok recordClass ∧
      RecordType.ofText type = .ok record.type ∧
      Rdata.ofText record.type rdata = .ok record.rdata

namespace Found

def recordOf (found : Found) (rdata : Rdata) : Record :=
  ⟨found.foundName, found.rdataset.rrset.type, found.rdataset.rrset.ttl, rdata⟩

/-- The records that an answer is made of, in order. -/
def records (found : Found) : List Record :=
  found.rdataset.rrset.rdatas.map found.recordOf

def parts (found : Found) (rdata : Rdata) : List String :=
  [found.foundName.toText, found.rdataset.rrset.ttl.toText, found.rdataset.recordClass.toText,
    found.rdataset.rrset.type.toText, rdata.toText]

theorem toList_line (found : Found) (rdata : Rdata) :
    (found.line rdata).toList = ['\t'].intercalate ((found.parts rdata).map String.toList) := by
  rw [line, String.toList_intercalate]
  rfl

theorem isGraphic_or_space_of_mem_parts {found : Found} {rdata : Rdata} {part : String}
    (hPart : part ∈ found.parts rdata) : ∀ c ∈ part.toList, IsGraphic c ∨ c = ' ' := by
  simp only [parts, List.mem_cons, List.not_mem_nil, or_false] at hPart
  rcases hPart with rfl | rfl | rfl | rfl | rfl
  · exact fun c hc => .inl (found.foundName.isGraphic_toText c hc)
  · exact fun c hc => .inl (found.rdataset.rrset.ttl.isGraphic_toText c hc)
  · exact fun c hc => .inl (found.rdataset.recordClass.isGraphic_toText c hc)
  · exact fun c hc => .inl (found.rdataset.rrset.type.isGraphic_toText c hc)
  · exact rdata.isGraphic_or_space

theorem not_mem_parts {found : Found} {rdata : Rdata} {c : Char} (hGraphic : ¬IsGraphic c)
    (hSpace : c ≠ ' ') : ∀ part ∈ (found.parts rdata).map String.toList, c ∉ part := by
  rw [List.forall_mem_map]
  intro part hPart hc
  rcases isGraphic_or_space_of_mem_parts hPart c hc with h | h
  · exact hGraphic h
  · exact hSpace h

theorem splitOn_line (found : Found) (rdata : Rdata) :
    (found.line rdata).toList.splitOn '\t' = (found.parts rdata).map String.toList := by
  rw [toList_line]
  exact List.splitOn_intercalate _ (not_mem_parts (by decide) (by decide)) (List.cons_ne_nil _ _)

theorem newline_not_mem_line (found : Found) (rdata : Rdata) :
    '\n' ∉ (found.line rdata).toList := by
  rw [toList_line]
  exact not_mem_intercalate (by decide) (not_mem_parts (by decide) (by decide))

theorem readsAs_line (found : Found) (rdata : Rdata) :
    ReadsAs (found.line rdata) found.rdataset.recordClass (found.recordOf rdata) :=
  ⟨_, _, _, _, _, found.splitOn_line rdata, Name.ofText_toText _, Ttl.ofText_toText _,
    RecordClass.ofText_toText _, RecordType.ofText_toText _, Rdata.ofText_toText _ _⟩

end Found

/-! ## What is found -/

namespace RrsetList

theorem IsDistinct.grow {list : RrsetList} (h : list.IsDistinct) (record : Record) :
    (list.grow record).IsDistinct := by
  unfold RrsetList.grow
  cases hAdd : list.add record.type record.ttl record.rdata with
  | error e => exact h
  | ok added => exact h.add hAdd

theorem IsDistinct.addAll {list : RrsetList} (h : list.IsDistinct) (records : List Record) :
    (list.addAll records).IsDistinct := by
  induction records generalizing list with
  | nil => exact h
  | cons record records ih => exact ih (h.grow record)

end RrsetList

/-- What a table answers for a name is distinct, whatever records were added to it. -/
theorem RecordTable.isDistinct_resolve {records : List Record} {name : Name}
    {resolution : Resolution} (h : (empty.addAll records).resolve name = .ok resolution) :
    resolution.rrsets.IsDistinct := by
  rw [(tracks_addAll records).resolve_eq, resolutionOf] at h
  split at h
  · cases h
    exact RrsetList.isDistinct_empty.addAll _
  · split at h
    · cases h
      exact RrsetList.isDistinct_empty
    · cases h

namespace Lookup

variable {resolver : Resolver} {name : Name} {version : Option Version} {type : RecordType}
  {options : FindOptions} {now : UInt32} {memory : Memory}

theorem find?_of_selectOrAlias (hSelect : resolver.findType = RrsetList.select)
    {rrsets : RrsetList} {rrset : Rrset} {isAlias : Bool}
    (h : selectOrAlias resolver rrsets type = some (rrset, isAlias)) :
    ∃ selected, rrsets.find? selected = some rrset := by
  rw [selectOrAlias_eq hSelect, Option.or_eq_some_iff, Option.map_eq_some_iff] at h
  rcases h with ⟨_, hFind, hPair⟩ | ⟨_, h⟩
  · cases hPair
    exact ⟨type, hFind⟩
  · obtain ⟨_, hFind, hPair⟩ := Option.map_eq_some_iff.mp h
    cases hPair
    exact ⟨.cname, hFind⟩

/-- What is found is an RRset of the list that the resolver gave for the name. -/
theorem of_result_find (hSelect : resolver.findType = RrsetList.select) {result : FindResult}
    (h : (find resolver name version type options now memory).result = .ok result) :
    ∃ resolution selected rrset, resolver.resolve name = .ok resolution ∧
      resolution.rrsets.find? selected = some rrset ∧
      result.found = ⟨⟨name, resolution.rrsets⟩, name, ⟨.internet, rrset⟩⟩ := by
  -- Each way in which a lookup can end early gives an error.
  obtain ⟨forOwner, forFoundName⟩ := memory
  unfold find newNode at h
  dsimp only at h
  split at h
  · cases h
  · split at h
    · cases h
    · cases hResolve : resolver.resolve name with
      | error cause =>
        rw [hResolve] at h
        cases h
      | ok resolution =>
        rw [hResolve] at h
        dsimp only at h
        cases hSelected : selectOrAlias resolver resolution.rrsets type with
        | none =>
          rw [hSelected] at h
          cases forOwner <;> cases h
        | some selection =>
          obtain ⟨rrset, isAlias⟩ := selection
          obtain ⟨selected, hFind⟩ := find?_of_selectOrAlias hSelect hSelected
          rw [hSelected] at h
          refine ⟨resolution, selected, rrset, rfl, hFind, ?_⟩
          cases forOwner with
          | false => cases h
          | true =>
            cases forFoundName with
            | false => cases h
            | true => cases isAlias <;> cases h <;> rfl

end Lookup

/-! ## Reading an answer back -/

/-- Adds records one after the other; the first that conflicts ends it. -/
def RrsetList.addEach (list : RrsetList) (records : List Record) : Except AddError RrsetList :=
  records.foldlM (fun list record => list.add record.type record.ttl record.rdata) list

namespace Found

theorem addEach_records {found : Found} (h : found.rdataset.rrset.rdatas.Nodup) :
    RrsetList.empty.addEach found.records = .ok (.single found.rdataset.rrset) := by
  rw [RrsetList.addEach, records, List.foldlM_map]
  exact RrsetList.foldlM_add_empty h

/--
Each line of an answer from a table is read as a record of what was found, in class IN, and
these records in order make up the RRset that was found.
-/
theorem lines_read_back {table : List Record} {name : Name} {version : Option Version}
    {type : RecordType} {options : FindOptions} {now : UInt32} {memory : Memory}
    {result : FindResult}
    (h : (Lookup.find (RecordTable.empty.addAll table).toResolver name version type options now
      memory).result = .ok result) :
    (∀ line ∈ result.found.lines, '\n' ∉ line.toList) ∧
    List.Forall₂ (fun line record => ReadsAs line .internet record) result.found.lines
      result.found.records ∧
    RrsetList.empty.addEach result.found.records = .ok (.single result.found.rdataset.rrset) := by
  obtain ⟨resolution, selected, rrset, hResolve, hFind, hFound⟩ := Lookup.of_result_find rfl h
  refine ⟨?_, ?_, ?_⟩
  · rw [lines, List.forall_mem_map]
    exact fun rdata _ => result.found.newline_not_mem_line rdata
  · have hClass : result.found.rdataset.recordClass = .internet := by rw [hFound]
    rw [lines, records, List.forall₂_map_left_iff, List.forall₂_map_right_iff, List.forall₂_same,
      ← hClass]
    exact fun rdata _ => result.found.readsAs_line rdata
  · apply addEach_records
    rw [hFound]
    exact RecordTable.isDistinct_resolve hResolve selected rrset hFind

/-- A name whose label holds a tab, a dot, a backslash and a digit. -/
def tabbedName : Name :=
  ⟨[⟨[9, 46, 92, 48], by simp, by decide⟩], by decide⟩

/-- A record of a type that has no mnemonic, with the largest time to live. -/
def tabbedRecord (octets : List UInt8) (h : octets.length ≤ maxRdataLength) : Record :=
  ⟨tabbedName, ⟨65280⟩, ⟨maxTtl, Nat.le_refl _⟩, ⟨octets, h⟩⟩

def tabbedRecords : List Record :=
  [tabbedRecord [] (by decide), tabbedRecord [0, 255] (by decide), tabbedRecord [] (by decide)]

def tabbedFound : Found :=
  let rrset : Rrset := ⟨⟨65280⟩, ⟨maxTtl, Nat.le_refl _⟩,
    [⟨[], by decide⟩, ⟨[0, 255], by decide⟩], by simp⟩
  ⟨⟨tabbedName, .single rrset⟩, tabbedName, ⟨.internet, rrset⟩⟩

theorem lines_read_back_tabbed :
    (Lookup.find (RecordTable.empty.addAll tabbedRecords).toResolver tabbedName none ⟨65280⟩ {}
        0).result = .ok (.success tabbedFound) ∧
      tabbedFound.lines = ["\\009\\.\\\\0.\t2147483647\tIN\tTYPE65280\t\\# 0",
        "\\009\\.\\\\0.\t2147483647\tIN\tTYPE65280\t\\# 2 00ff"] ∧
      List.Forall₂ (fun line record => ReadsAs line .internet record) tabbedFound.lines
        tabbedFound.records ∧
      RrsetList.empty.addEach tabbedFound.records =
        .ok (.single tabbedFound.rdataset.rrset) := by
  have hFound : (Lookup.find (RecordTable.empty.addAll tabbedRecords).toResolver tabbedName none
      ⟨65280⟩ {} 0).result = .ok (.success tabbedFound) := rfl
  exact ⟨hFound, by decide +kernel, (lines_read_back hFound).2⟩

end Found

end ZoneStore
