import ZoneStore.Proofs.Resolver.Additions
import ZoneStore.Proofs.Rrset.Pool
import ZoneStore.Resolver.Holdings

/-!
# Sharing RRsets is invisible

Holders that share RRsets show at all times what they would show if every
clone and every list that is handed out were a copy. The pool is related to
the copies by what each number in it stands for; a call changes this for one
number at most, or gives a new number a meaning.
-/

namespace ZoneStore

/-- Where the members differ for one place only, so do their images. -/
theorem map_eq_set_map {α β : Type} {f g : α → β} {members : List α} {i : Nat} {a : α}
    (hAt : members[i]? = some a)
    (hElse : ∀ j b, j ≠ i → members[j]? = some b → g b = f b) :
    members.map g = (members.map f).set i (g a) := by
  apply List.ext_getElem?
  intro j
  rw [List.getElem?_set, List.getElem?_map, List.getElem?_map, List.length_map]
  by_cases hj : i = j
  · subst hj
    rw [if_pos rfl, if_pos (List.getElem?_eq_some_iff.mp hAt).1, hAt]
    rfl
  · rw [if_neg hj]
    cases hMember : members[j]? with
    | none => rfl
    | some b => rw [Option.map_some, Option.map_some, hElse j b (Ne.symm hj) hMember]

theorem set_of_getElem? {α : Type} {members : List α} {i : Nat} {a : α}
    (h : members[i]? = some a) : members.set i a = members := by
  obtain ⟨hLt, rfl⟩ := List.getElem?_eq_some_iff.mp h
  exact List.set_getElem_self hLt

/-- In a list without repetitions each member comes from one place. -/
theorem eq_of_nodup_flatMap {α β : Type} [DecidableEq β] {f : α → List β} {members : List α}
    (hNodup : (members.flatMap f).Nodup) {i j : Nat} {a b : α} {x : β}
    (hi : members[i]? = some a) (hj : members[j]? = some b) (ha : x ∈ f a) (hb : x ∈ f b) :
    i = j := by
  by_contra hNe
  have hBoth := RrsetPool.countP_add_countP_le (· == x) (members.map f) hNe
    (by rw [List.getElem?_map, hi]; rfl) (by rw [List.getElem?_map, hj]; rfl)
  have hOne := List.nodup_iff_count_le_one.mp hNodup x
  have hCount := List.count_pos_iff.mpr ha
  have hCount' := List.count_pos_iff.mpr hb
  rw [List.flatMap_def, List.count] at hOne
  rw [List.count] at hCount hCount'
  omega

namespace SharedTable

/-- The table in which every owner has a list of its own, with what its number stands for. -/
def copied (copy : Nat → RrsetList) (table : SharedTable) : RecordTable where
  owners := table.owners.map fun (owner, number) => (owner, copy number)
  ancestors := table.ancestors

/-- The owners of a table, written small. -/
def ownerNames (table : SharedTable) : List Name :=
  table.owners.map fun entry => entry.1.lower

variable {copy copy' : Nat → RrsetList} {table : SharedTable} {owner name : Name} {number : Nat}

theorem find?_copied (copy : Nat → RrsetList) (table : SharedTable) (name : Name) :
    (table.copied copy).find? name = (table.find? name).map copy := by
  rw [RecordTable.find?, find?, copied, List.find?_map, Option.map_map, Option.map_map]
  rfl

theorem find?_append (records : SharedTable) (owner : Name) (number : Nat) (ancestors : List Name)
    (name : Name) :
    find? ⟨records.owners ++ [(owner, number)], ancestors⟩ name =
      (records.find? name).or (if owner.same name then some number else none) := by
  rw [find?, find?, List.find?_append, Option.map_or]
  congr 1
  by_cases hSame : owner.same name
  · simp [hSame]
  · simp [hSame]

theorem copied_append (copy : Nat → RrsetList) (records : SharedTable) (owner : Name)
    (number : Nat) (ancestors : List Name) :
    copied copy ⟨records.owners ++ [(owner, number)], ancestors⟩ =
      ⟨(records.copied copy).owners ++ [(owner, copy number)], ancestors⟩ := by
  rw [copied, List.map_append]
  rfl

theorem ownerNames_copied (copy : Nat → RrsetList) (table : SharedTable) :
    (table.copied copy).ownerNames = table.ownerNames := by
  rw [RecordTable.ownerNames, copied, List.map_map]
  rfl

theorem copied_congr (h : ∀ number ∈ table.numbers, copy' number = copy number) :
    table.copied copy' = table.copied copy := by
  rw [copied, copied, RecordTable.mk.injEq]
  refine ⟨List.map_congr_left fun entry hEntry => ?_, rfl⟩
  dsimp only
  rw [h entry.2 (List.mem_map_of_mem hEntry)]

theorem exists_entry_of_find? (h : table.find? name = some number) :
    ∃ owner, (owner, number) ∈ table.owners ∧ owner.lower = name.lower := by
  rw [find?, Option.map_eq_some_iff] at h
  obtain ⟨⟨owner, _⟩, hFind, rfl⟩ := h
  have hSame := List.find?_some hFind
  exact ⟨owner, List.mem_of_find?_eq_some hFind, Name.same_iff.mp hSame⟩

theorem mem_numbers_of_find? (h : table.find? name = some number) : number ∈ table.numbers := by
  obtain ⟨owner, hEntry, _⟩ := exists_entry_of_find? h
  exact List.mem_map_of_mem hEntry

theorem copied_update (copy : Nat → RrsetList) (hNumbers : table.numbers.Nodup)
    (hOwners : table.ownerNames.Nodup) (h : table.find? name = some number)
    (rrsets : RrsetList) :
    table.copied (Function.update copy number rrsets) =
      (table.copied copy).replace name rrsets := by
  obtain ⟨owner, hEntry, hSame⟩ := exists_entry_of_find? h
  rw [RecordTable.replace, copied, copied, RecordTable.mk.injEq, List.map_map]
  refine ⟨List.map_congr_left fun entry hMem => ?_, rfl⟩
  -- The entry of the number is the entry of the name, since neither occurs in two entries.
  have hIff : entry.2 = number ↔ entry.1.lower = name.lower := by
    constructor
    · intro hNumber
      rw [List.inj_on_of_nodup_map hNumbers hMem hEntry hNumber, hSame]
    · intro hName
      rw [List.inj_on_of_nodup_map hOwners hMem hEntry (hName.trans hSame.symm)]
  dsimp only [Function.comp]
  by_cases hNumber : entry.2 = number
  · rw [if_pos (Name.same_iff.mpr (hIff.mp hNumber)), hNumber, Function.update_self]
  · rw [if_neg fun hTrue => hNumber (hIff.mpr (Name.same_iff.mp hTrue)),
      Function.update_of_ne hNumber]

end SharedTable

namespace SharedHoldings

variable {held : SharedHoldings} {number : Nat}

theorem mem_numbers_iff :
    number ∈ held.numbers ↔ number ∈ held.lists ∨ number ∈ held.sets ∨
      ∃ table ∈ held.tables, number ∈ table.numbers := by
  rw [numbers, List.mem_append, List.mem_append, List.mem_flatMap, or_assoc]

/-- No number occurs twice among the lists, the RDATA sets or the tables, or in two of them. -/
theorem nodup_numbers_iff :
    held.numbers.Nodup ↔
      held.lists.Nodup ∧ held.sets.Nodup ∧ (held.tables.flatMap SharedTable.numbers).Nodup ∧
        (∀ number ∈ held.lists, number ∉ held.sets) ∧
        ∀ number, number ∈ held.lists ∨ number ∈ held.sets →
          ∀ table ∈ held.tables, number ∉ table.numbers := by
  rw [numbers, List.nodup_append', List.nodup_append']
  simp only [List.disjoint_left, List.mem_append, List.mem_flatMap, not_exists, not_and]
  tauto

/-- The numbers apart from those of one table, whatever becomes of the table. -/
theorem exists_rest {i : Nat} {records : SharedTable} (h : held.tables[i]? = some records) :
    ∃ rest, held.numbers.Perm (records.numbers ++ rest) ∧ ∀ pool new,
      (numbers { held with pool := pool, tables := held.tables.set i new }).Perm
        (new.numbers ++ rest) := by
  obtain ⟨hLt, hTable⟩ := List.getElem?_eq_some_iff.mp h
  have hParts : ∀ new : SharedTable, (held.lists ++ held.sets ++
      (held.tables.take i ++ new :: held.tables.drop (i + 1)).flatMap SharedTable.numbers).Perm
      (new.numbers ++ (held.lists ++ held.sets ++
        (held.tables.take i ++ held.tables.drop (i + 1)).flatMap SharedTable.numbers)) := by
    intro new
    rw [List.perm_iff_count]
    intro number
    simp only [List.flatMap_append, List.flatMap_cons, List.count_append]
    omega
  refine ⟨held.lists ++ held.sets ++
    (held.tables.take i ++ held.tables.drop (i + 1)).flatMap SharedTable.numbers, ?_,
    fun pool new => ?_⟩
  · have hSame := hParts records
    rw [← hTable, ← List.drop_eq_getElem_cons hLt, List.take_append_drop, hTable] at hSame
    exact hSame
  · dsimp only [numbers]
    rw [List.set_eq_take_append_cons_drop, if_pos hLt]
    exact hParts new

theorem mem_numbers_of_number? {holder : Holder} (h : held.number? holder = some number) :
    number ∈ held.numbers := by
  rw [mem_numbers_iff]
  cases holder with
  | list list => exact .inl (List.mem_of_getElem? h)
  | set set => exact .inr (.inl (List.mem_of_getElem? h))
  | owner table name =>
    obtain ⟨records, hTable, hFind⟩ := Option.bind_eq_some_iff.mp h
    exact .inr (.inr ⟨records, List.mem_of_getElem? hTable,
      SharedTable.mem_numbers_of_find? hFind⟩)

end SharedHoldings

/-! ## Shared holdings and their copies -/

/-- The copies hold what the numbers of the pool stand for, and every number has one holder. -/
structure Mirrors (held : SharedHoldings) (copied : CopiedHoldings) (copy : Nat → RrsetList) :
    Prop where
  shows : held.pool.Shows copy
  nodup : held.numbers.Nodup
  lt_length : ∀ number ∈ held.numbers, number < held.pool.lists.length
  lists_eq : copied.lists = held.lists.map copy
  sets_eq : copied.sets.map Option.toList = held.sets.map fun number => (copy number).rrsets
  tables_eq : copied.tables = held.tables.map (SharedTable.copied copy)
  distinct : ∀ table ∈ held.tables, table.ownerNames.Nodup

theorem mirrors_start : Mirrors .start .start fun _ => .empty where
  shows := RrsetPool.shows_empty
  nodup := List.nodup_nil
  lt_length := by simp [SharedHoldings.start, SharedHoldings.numbers]
  lists_eq := rfl
  sets_eq := rfl
  tables_eq := rfl
  distinct := by simp [SharedHoldings.start]

namespace Mirrors

variable {held : SharedHoldings} {copied : CopiedHoldings} {copy : Nat → RrsetList}
  {number : Nat} {holder : Holder}

theorem lt_length_of_number? (h : Mirrors held copied copy) (holder : Holder)
    (hHolder : held.number? holder = some number) :
    number < held.pool.lists.length :=
  h.lt_length number (SharedHoldings.mem_numbers_of_number? hHolder)

theorem shown?_of_number? (h : Mirrors held copied copy)
    (holder : Holder) :
    held.shown? holder = (held.number? holder).map fun number => (copy number).rrsets := by
  rw [SharedHoldings.shown?]
  cases hNumber : held.number? holder with
  | none => rfl
  | some number => exact h.shows.contents?_eq (h.lt_length_of_number? holder hNumber)

theorem shown?_eq (h : Mirrors held copied copy) (holder : Holder) :
    held.shown? holder = copied.shown? holder := by
  rw [h.shown?_of_number?]
  cases holder with
  | list list =>
    rw [CopiedHoldings.shown?, h.lists_eq, List.getElem?_map, Option.map_map]
    rfl
  | set set =>
    rw [CopiedHoldings.shown?, ← List.getElem?_map, h.sets_eq, List.getElem?_map]
    rfl
  | owner table name =>
    rw [CopiedHoldings.shown?, h.tables_eq, List.getElem?_map, SharedHoldings.number?]
    cases held.tables[table]? with
    | none => rfl
    | some records =>
      dsimp only [Option.bind_some, Option.map_some]
      rw [SharedTable.find?_copied, Option.map_map]
      rfl

theorem lists_getElem? (h : Mirrors held copied copy) (list : Nat) :
    copied.lists[list]? = held.lists[list]?.map copy := by
  rw [h.lists_eq, List.getElem?_map]

theorem tables_getElem? (h : Mirrors held copied copy) (table : Nat) :
    copied.tables[table]? = held.tables[table]?.map (SharedTable.copied copy) := by
  rw [h.tables_eq, List.getElem?_map]

theorem length_lists (h : Mirrors held copied copy) : copied.lists.length = held.lists.length := by
  rw [h.lists_eq, List.length_map]

theorem length_sets (h : Mirrors held copied copy) : copied.sets.length = held.sets.length := by
  simpa using congrArg List.length h.sets_eq

theorem length_tables (h : Mirrors held copied copy) :
    copied.tables.length = held.tables.length := by
  rw [h.tables_eq, List.length_map]

/-! ## A number gets another meaning -/

section Change

variable {copy' : Nat → RrsetList} {pool : RrsetPool} {i : Nat}

theorem lists_congr (h : Mirrors held copied copy)
    (hCopy : ∀ number ∈ held.lists, copy' number = copy number) :
    copied.lists = held.lists.map copy' :=
  h.lists_eq.trans (List.map_congr_left fun number hMem => (hCopy number hMem).symm)

theorem sets_congr (h : Mirrors held copied copy)
    (hCopy : ∀ number ∈ held.sets, copy' number = copy number) :
    copied.sets.map Option.toList = held.sets.map fun number => (copy' number).rrsets :=
  h.sets_eq.trans (List.map_congr_left fun number hMem => by rw [hCopy number hMem])

theorem tables_congr (h : Mirrors held copied copy)
    (hCopy : ∀ table ∈ held.tables, ∀ number ∈ table.numbers, copy' number = copy number) :
    copied.tables = held.tables.map (SharedTable.copied copy') :=
  h.tables_eq.trans
    (List.map_congr_left fun table hMem => (SharedTable.copied_congr (hCopy table hMem)).symm)

/-- A list of a caller gets other contents; no one else holds its number. -/
theorem setList (h : Mirrors held copied copy) (hAt : held.lists[i]? = some number)
    (hShows : pool.Shows copy') (hElse : ∀ other ≠ number, copy' other = copy other)
    (hLength : pool.lists.length = held.pool.lists.length) :
    Mirrors { held with pool := pool }
      { copied with lists := copied.lists.set i (copy' number) } copy' := by
  obtain ⟨hLists, _, _, hSets, hTables⟩ := SharedHoldings.nodup_numbers_iff.mp h.nodup
  have hMem := List.mem_of_getElem? hAt
  refine ⟨hShows, h.nodup, hLength ▸ h.lt_length, ?_, ?_, ?_, h.distinct⟩
  · dsimp only
    rw [h.lists_eq]
    refine (map_eq_set_map hAt fun j other hj hOther => hElse other fun hSame => hj ?_).symm
    exact (List.getElem?_inj (List.getElem?_eq_some_iff.mp hOther).1 hLists).mp
      (by rw [hOther, hAt, hSame])
  · exact h.sets_congr fun other hOther => hElse other fun hSame =>
      hSets number hMem (hSame ▸ hOther)
  · exact h.tables_congr fun table hTable other hOther => hElse other fun hSame =>
      hTables number (.inl hMem) table hTable (hSame ▸ hOther)

theorem setSet (h : Mirrors held copied copy) {set : Option Rrset}
    (hAt : held.sets[i]? = some number) (hShows : pool.Shows copy')
    (hElse : ∀ other ≠ number, copy' other = copy other)
    (hSet : (copy' number).rrsets = set.toList)
    (hLength : pool.lists.length = held.pool.lists.length) :
    Mirrors { held with pool := pool } { copied with sets := copied.sets.set i set } copy' := by
  obtain ⟨_, hSets, _, hLists, hTables⟩ := SharedHoldings.nodup_numbers_iff.mp h.nodup
  have hMem := List.mem_of_getElem? hAt
  refine ⟨hShows, h.nodup, hLength ▸ h.lt_length, ?_, ?_, ?_, h.distinct⟩
  · exact h.lists_congr fun other hOther => hElse other fun hSame =>
      hLists other hOther (hSame ▸ hMem)
  · dsimp only
    rw [List.map_set, h.sets_eq, ← hSet]
    refine (map_eq_set_map (f := fun number => (copy number).rrsets)
      (g := fun number => (copy' number).rrsets) hAt fun j other hj hOther => ?_).symm
    rw [hElse other fun hSame => hj ?_]
    exact (List.getElem?_inj (List.getElem?_eq_some_iff.mp hOther).1 hSets).mp
      (by rw [hOther, hAt, hSame])
  · exact h.tables_congr fun table hTable other hOther => hElse other fun hSame =>
      hTables number (.inr hMem) table hTable (hSame ▸ hOther)

/-- A table changes, and what the numbers of its owners stand for. -/
theorem setTable (h : Mirrors held copied copy) {records : SharedTable} (new : SharedTable)
    (hAt : held.tables[i]? = some records)
    (hShows : pool.Shows copy')
    (hElse : ∀ number ∈ held.numbers, number ∉ records.numbers → copy' number = copy number)
    (hNodup : (SharedHoldings.numbers
      { held with pool := pool, tables := held.tables.set i new }).Nodup)
    (hLt : ∀ number ∈ SharedHoldings.numbers
      { held with pool := pool, tables := held.tables.set i new }, number < pool.lists.length)
    (hDistinct : new.ownerNames.Nodup) :
    Mirrors { held with pool := pool, tables := held.tables.set i new }
      { copied with tables := copied.tables.set i (new.copied copy') } copy' := by
  obtain ⟨_, _, hTables, _, hOthers⟩ := SharedHoldings.nodup_numbers_iff.mp h.nodup
  have hMem := List.mem_of_getElem? hAt
  refine ⟨hShows, hNodup, hLt, ?_, ?_, ?_, ?_⟩
  · exact h.lists_congr fun number hNumber =>
      hElse number (SharedHoldings.mem_numbers_iff.mpr (.inl hNumber))
        (hOthers number (.inl hNumber) records hMem)
  · exact h.sets_congr fun number hNumber =>
      hElse number (SharedHoldings.mem_numbers_iff.mpr (.inr (.inl hNumber)))
        (hOthers number (.inr hNumber) records hMem)
  · have hSame : ∀ j table, j ≠ i → held.tables[j]? = some table →
        table.copied copy' = table.copied copy := by
      intro j table hj hTable
      refine SharedTable.copied_congr fun number hNumber => ?_
      refine hElse number (SharedHoldings.mem_numbers_iff.mpr
        (.inr (.inr ⟨table, List.mem_of_getElem? hTable, hNumber⟩))) fun hOwn => hj ?_
      exact eq_of_nodup_flatMap hTables hTable hAt hNumber hOwn
    dsimp only
    rw [h.tables_eq, List.map_set, map_eq_set_map hAt hSame, List.set_set]
  · intro table hTable
    obtain hOld | rfl := List.mem_or_eq_of_mem_set hTable
    · exact h.distinct table hOld
    · exact hDistinct

/-! ## A new number gets a meaning -/

theorem fresh (h : Mirrors held copied copy) (rrsets : RrsetList) :
    ∀ number ∈ held.numbers,
      Function.update copy held.pool.lists.length rrsets number = copy number := by
  intro number hNumber
  exact Function.update_of_ne (Nat.ne_of_lt (h.lt_length number hNumber)) _ _

theorem fresh_numbers (h : Mirrors held copied copy) (after : SharedHoldings)
    (hPerm : after.numbers.Perm (held.pool.lists.length :: held.numbers))
    (hLength : after.pool.lists.length = held.pool.lists.length + 1) :
    after.numbers.Nodup ∧ ∀ number ∈ after.numbers, number < after.pool.lists.length := by
  constructor
  · rw [hPerm.nodup_iff, List.nodup_cons]
    exact ⟨fun hMem => Nat.lt_irrefl _ (h.lt_length _ hMem), h.nodup⟩
  · intro number hNumber
    rw [hPerm.mem_iff, List.mem_cons] at hNumber
    rw [hLength]
    rcases hNumber with rfl | hOld
    · exact Nat.lt_succ_self _
    · exact Nat.lt_succ_of_lt (h.lt_length number hOld)

theorem pushList (h : Mirrors held copied copy) {refs : List CellRef} {rrsets : RrsetList}
    (hRefs : RrsetPool.Refers held.pool.cells refs rrsets.rrsets) :
    Mirrors
      { held with
        pool := ⟨held.pool.cells, held.pool.lists ++ [refs]⟩
        lists := held.lists ++ [held.pool.lists.length] }
      { copied with lists := copied.lists ++ [rrsets] }
      (Function.update copy held.pool.lists.length rrsets) := by
  have hCopy := h.fresh rrsets
  simp only [SharedHoldings.mem_numbers_iff] at hCopy
  obtain ⟨hNodup, hLt⟩ := h.fresh_numbers { held with
    pool := ⟨held.pool.cells, held.pool.lists ++ [refs]⟩
    lists := held.lists ++ [held.pool.lists.length] }
    (by simp [SharedHoldings.numbers]) (by simp)
  refine ⟨h.shows.append hRefs, hNodup, hLt, ?_, ?_, ?_, h.distinct⟩
  · dsimp only
    rw [List.map_append, ← h.lists_congr fun number hNumber => hCopy number (.inl hNumber),
      List.map_singleton, Function.update_self]
  · exact h.sets_congr fun number hNumber => hCopy number (.inr (.inl hNumber))
  · exact h.tables_congr fun table hTable number hNumber =>
      hCopy number (.inr (.inr ⟨table, hTable, hNumber⟩))

theorem pushSet (h : Mirrors held copied copy) {refs : List CellRef} (rrsets : RrsetList)
    {set : Option Rrset} (hSet : rrsets.rrsets = set.toList)
    (hRefs : RrsetPool.Refers held.pool.cells refs rrsets.rrsets) :
    Mirrors
      { held with
        pool := ⟨held.pool.cells, held.pool.lists ++ [refs]⟩
        sets := held.sets ++ [held.pool.lists.length] }
      { copied with sets := copied.sets ++ [set] }
      (Function.update copy held.pool.lists.length rrsets) := by
  have hCopy := h.fresh rrsets
  simp only [SharedHoldings.mem_numbers_iff] at hCopy
  have hPerm : List.Perm (held.lists ++ (held.sets ++ [held.pool.lists.length]) ++
      held.tables.flatMap SharedTable.numbers) (held.pool.lists.length :: held.numbers) := by
    rw [← List.append_assoc, List.append_assoc _ [_]]
    exact List.perm_middle
  obtain ⟨hNodup, hLt⟩ := h.fresh_numbers { held with
    pool := ⟨held.pool.cells, held.pool.lists ++ [refs]⟩
    sets := held.sets ++ [held.pool.lists.length] } hPerm (by simp)
  refine ⟨h.shows.append hRefs, hNodup, hLt, ?_, ?_, ?_, h.distinct⟩
  · exact h.lists_congr fun number hNumber => hCopy number (.inl hNumber)
  · dsimp only
    rw [List.map_append, h.sets_congr fun number hNumber => hCopy number (.inr (.inl hNumber)),
      List.map_append, List.map_singleton, List.map_singleton, Function.update_self, hSet]
  · exact h.tables_congr fun table hTable number hNumber =>
      hCopy number (.inr (.inr ⟨table, hTable, hNumber⟩))

theorem pushTable (h : Mirrors held copied copy) :
    Mirrors { held with tables := held.tables ++ [.empty] }
      { copied with tables := copied.tables ++ [.empty] } copy := by
  have hNumbers : SharedHoldings.numbers { held with tables := held.tables ++ [.empty] } =
      held.numbers := by
    simp [SharedHoldings.numbers, SharedTable.numbers, SharedTable.empty]
  refine ⟨h.shows, hNumbers ▸ h.nodup, hNumbers ▸ h.lt_length, h.lists_eq, h.sets_eq, ?_, ?_⟩
  · dsimp only
    rw [h.tables_eq, List.map_append]
    rfl
  · intro table hTable
    rcases List.mem_append.mp hTable with hOld | hNew
    · exact h.distinct table hOld
    · rw [List.mem_singleton.mp hNew]
      exact List.nodup_nil

end Change

/-! ## Steps -/

/-- After a call the copies again hold what the numbers stand for, and the replies are the same. -/
def Follows (held : SharedHoldings) (copied : CopiedHoldings) (call : HoldingCall) : Prop :=
  (held.perform call).2 = (copied.perform call).2 ∧
    ∃ copy, Mirrors (held.perform call).1 (copied.perform call).1 copy

theorem follows_newList (h : Mirrors held copied copy) : Follows held copied .newList := by
  refine ⟨?_, _, h.pushList .nil⟩
  rw [SharedHoldings.perform, CopiedHoldings.perform, h.length_lists]

/-- A clone refers to what its source refers to. -/
theorem exists_clone (h : Mirrors held copied copy) (holder : Holder)
    (hHolder : held.number? holder = some number) :
    ∃ refs, held.pool.clone? number =
        some (⟨held.pool.cells, held.pool.lists ++ [refs]⟩, held.pool.lists.length) ∧
      RrsetPool.Refers held.pool.cells refs (copy number).rrsets := by
  refine ⟨held.pool.refs number, ?_, h.shows number⟩
  have hLt := h.lt_length_of_number? holder hHolder
  rw [RrsetPool.clone?, RrsetPool.refs, List.getElem?_eq_getElem hLt]
  rfl

theorem follows_clone (h : Mirrors held copied copy) (list : Nat) :
    Follows held copied (.clone list) := by
  unfold Follows
  dsimp only [SharedHoldings.perform, CopiedHoldings.perform]
  rw [h.lists_getElem? list]
  cases hList : held.lists[list]? with
  | none => exact ⟨rfl, copy, h⟩
  | some number =>
    obtain ⟨refs, hClone, hRefs⟩ := h.exists_clone (.list list) hList
    rw [Option.bind_some, hClone]
    exact ⟨congrArg HoldingReply.made h.length_lists.symm, _, h.pushList hRefs⟩

theorem follows_cloneSet (h : Mirrors held copied copy) (set : Nat) :
    Follows held copied (.cloneSet set) := by
  unfold Follows
  dsimp only [SharedHoldings.perform, CopiedHoldings.perform]
  have hCopied := congrArg (fun sets => sets[set]?) h.sets_eq
  simp only [List.getElem?_map] at hCopied
  cases hList : held.sets[set]? with
  | none =>
    rw [hList, Option.map_none, Option.map_eq_none_iff] at hCopied
    rw [hCopied]
    exact ⟨rfl, copy, h⟩
  | some number =>
    rw [hList, Option.map_some, Option.map_eq_some_iff] at hCopied
    obtain ⟨rrset, hRrset, hSame⟩ := hCopied
    obtain ⟨refs, hClone, hRefs⟩ := h.exists_clone (.set set) hList
    rw [Option.bind_some, hClone, hRrset]
    exact ⟨congrArg HoldingReply.made h.length_sets.symm, _, h.pushSet _ hSame.symm hRefs⟩

theorem follows_take (h : Mirrors held copied copy) (list : Nat) (type : RecordType) :
    Follows held copied (.take list type) := by
  unfold Follows
  dsimp only [SharedHoldings.perform, CopiedHoldings.perform]
  rw [h.lists_getElem? list]
  cases hList : held.lists[list]? with
  | none => exact ⟨rfl, copy, h⟩
  | some number =>
    have hRel := h.shows.ref?_rel number type
    rw [Option.bind_some, Option.map_some, Option.bind_some, RrsetPool.take?]
    generalize held.pool.ref? number type = ref? at hRel ⊢
    generalize (copy number).find? type = rrset? at hRel ⊢
    cases hRel with
    | none => exact ⟨rfl, copy, h⟩
    | @some ref rrset hAt =>
      refine ⟨congrArg HoldingReply.made h.length_sets.symm, _,
        h.pushSet ⟨[rrset], List.pairwise_singleton _ _⟩ rfl (.cons hAt .nil)⟩

theorem follows_dropList (h : Mirrors held copied copy) (list : Nat) :
    Follows held copied (.dropList list) := by
  unfold Follows
  dsimp only [SharedHoldings.perform, CopiedHoldings.perform]
  refine ⟨rfl, ?_⟩
  cases hList : held.lists[list]? with
  | none =>
    have hLength : copied.lists.length ≤ list := by
      rw [h.length_lists]
      exact List.getElem?_eq_none_iff.mp hList
    rw [List.set_eq_of_length_le hLength, Option.toList_none, RrsetPool.giveUp_nil]
    exact ⟨copy, h⟩
  | some number =>
    have hSet := h.setList hList (h.shows.giveUp [number])
      (fun other hOther => if_neg (by simpa using hOther)) (RrsetPool.length_giveUp _ _)
    rw [if_pos (List.mem_singleton_self number)] at hSet
    exact ⟨_, hSet⟩

theorem follows_dropSet (h : Mirrors held copied copy) (set : Nat) :
    Follows held copied (.dropSet set) := by
  unfold Follows
  dsimp only [SharedHoldings.perform, CopiedHoldings.perform]
  refine ⟨rfl, ?_⟩
  cases hList : held.sets[set]? with
  | none =>
    have hLength : copied.sets.length ≤ set := by
      rw [h.length_sets]
      exact List.getElem?_eq_none_iff.mp hList
    rw [List.set_eq_of_length_le hLength, Option.toList_none, RrsetPool.giveUp_nil]
    exact ⟨copy, h⟩
  | some number =>
    exact ⟨_, h.setSet hList (h.shows.giveUp [number])
      (fun other hOther => if_neg (by simpa using hOther))
      (by rw [if_pos (List.mem_singleton_self number)]; rfl) (RrsetPool.length_giveUp _ _)⟩

theorem follows_newTable (h : Mirrors held copied copy) : Follows held copied .newTable := by
  refine ⟨?_, copy, h.pushTable⟩
  rw [SharedHoldings.perform, CopiedHoldings.perform, h.length_tables]

theorem follows_add (h : Mirrors held copied copy) (list : Nat) (type : RecordType) (ttl : Ttl)
    (rdata : Rdata) : Follows held copied (.add list type ttl rdata) := by
  unfold Follows
  dsimp only [SharedHoldings.perform, CopiedHoldings.perform]
  rw [h.lists_getElem? list]
  cases hList : held.lists[list]? with
  | none => exact ⟨rfl, copy, h⟩
  | some number =>
    have hLt := h.lt_length_of_number? (.list list) hList
    have hSet := h.setList hList (h.shows.add hLt type ttl rdata)
      (fun other hOther => Function.update_of_ne hOther _ _)
      (h.shows.length_add number type ttl rdata)
    rw [Function.update_self] at hSet
    obtain ⟨hResult, _⟩ := h.shows.add_places number type ttl rdata
    dsimp only [Option.map_some]
    rw [hResult]
    unfold RrsetList.grown at hSet
    cases hAdd : (copy number).add type ttl rdata with
    | error e =>
      have hCopied := h.lists_getElem? list
      rw [hList, Option.map_some] at hCopied
      rw [hAdd, Except.toOption, Option.getD_none, set_of_getElem? hCopied] at hSet
      exact ⟨rfl, _, hSet⟩
    | ok added =>
      rw [hAdd] at hSet
      exact ⟨rfl, _, hSet⟩

theorem enterNew (h : Mirrors held copied copy) {i : Nat} {records : SharedTable}
    (hAt : held.tables[i]? = some records) {owner : Name} (hFind : records.find? owner = none)
    (ancestors : List Name) :
    Mirrors
      { held with
        pool := held.pool.newList.1
        tables := held.tables.set i
          ⟨records.owners ++ [(owner, held.pool.lists.length)], ancestors⟩ }
      { copied with
        tables := copied.tables.set i
          ⟨(records.copied copy).owners ++ [(owner, .empty)], ancestors⟩ } copy := by
  -- The number of the new list is none of the numbers that are held.
  obtain ⟨rest, hOld, hRest⟩ := SharedHoldings.exists_rest hAt
  obtain ⟨hNodup, hLt⟩ := h.fresh_numbers { held with
    pool := ⟨held.pool.cells, held.pool.lists ++ [[]]⟩
    tables := held.tables.set i
      ⟨records.owners ++ [(owner, held.pool.lists.length)], ancestors⟩ } (by
      refine (hRest _ _).trans (.trans ?_ (hOld.symm.cons _))
      simp only [SharedTable.numbers, List.map_append, List.map_singleton, List.append_assoc,
        List.singleton_append]
      exact List.perm_middle) (by simp)
  have hDistinct : (records.ownerNames ++ [owner.lower]).Nodup := by
    rw [← SharedTable.ownerNames_copied copy]
    refine RecordTable.nodup_ownerNames_append ?_ ?_
    · rw [SharedTable.ownerNames_copied]
      exact h.distinct records (List.mem_of_getElem? hAt)
    · rw [SharedTable.find?_copied, hFind, Option.map_none]
  have hTable := h.setTable _ hAt h.shows.newList (fun _ _ _ => rfl) hNodup hLt (by
    rw [SharedTable.ownerNames, List.map_append]
    exact hDistinct)
  rw [SharedTable.copied_append, h.shows.eq_empty (Nat.le_refl _)] at hTable
  exact hTable

/-- What the records of a table are added to, in its copy too. -/
theorem enter (h : Mirrors held copied copy) {i : Nat} {records : SharedTable}
    (hAt : held.tables[i]? = some records) (owner : Name) :
    Mirrors
        { held with
          pool := (records.enter held.pool owner).2.1
          tables := held.tables.set i (records.enter held.pool owner).1 }
        { copied with tables := copied.tables.set i ((records.copied copy).enter owner) } copy ∧
      (records.enter held.pool owner).1.find? owner = some (records.enter held.pool owner).2.2 ∧
      (records.enter held.pool owner).1.copied copy = (records.copied copy).enter owner := by
  have hFindCopied := SharedTable.find?_copied copy records owner
  unfold SharedTable.enter RecordTable.enter
  cases hFind : records.find? owner with
  | some number =>
    have hCopied := h.tables_getElem? i
    rw [hAt, Option.map_some] at hCopied
    rw [hFind, Option.map_some] at hFindCopied
    dsimp only
    rw [hFindCopied, set_of_getElem? hAt]
    dsimp only
    rw [set_of_getElem? hCopied]
    exact ⟨h, hFind, rfl⟩
  | none =>
    rw [hFind, Option.map_none] at hFindCopied
    rw [hFindCopied]
    refine ⟨h.enterNew hAt hFind _, ?_, ?_⟩
    · dsimp only [RrsetPool.newList]
      rw [SharedTable.find?_append, hFind, Option.none_or, if_pos (Name.same_iff.mpr rfl)]
    · dsimp only [RrsetPool.newList]
      rw [SharedTable.copied_append, h.shows.eq_empty (Nat.le_refl _)]
      rfl

theorem copied_replace (h : Mirrors held copied copy) {i : Nat} {records : SharedTable}
    (hAt : held.tables[i]? = some records) {owner : Name}
    (hFind : records.find? owner = some number)
    (rrsets : RrsetList) :
    records.copied (Function.update copy number rrsets) =
      (records.copied copy).replace owner rrsets := by
  obtain ⟨_, _, hTables, _, _⟩ := SharedHoldings.nodup_numbers_iff.mp h.nodup
  have hMem := List.mem_of_getElem? hAt
  exact SharedTable.copied_update copy ((List.nodup_flatMap.mp hTables).1 records hMem)
    (h.distinct records hMem) hFind rrsets

/-- An owner gets other RRsets; no one else holds its number. -/
theorem setOwner (h : Mirrors held copied copy) {i : Nat} {records : SharedTable}
    (hAt : held.tables[i]? = some records) {owner : Name}
    (hFind : records.find? owner = some number)
    {pool : RrsetPool} {rrsets : RrsetList}
    (hShows : pool.Shows (Function.update copy number rrsets))
    (hLength : pool.lists.length = held.pool.lists.length) :
    Mirrors { held with pool := pool }
      { copied with tables := copied.tables.set i ((records.copied copy).replace owner rrsets) }
      (Function.update copy number rrsets) := by
  have hElse : ∀ other ∈ held.numbers, other ∉ records.numbers →
      Function.update copy number rrsets other = copy other := by
    intro other _ hOther
    refine Function.update_of_ne (fun hSame => hOther ?_) _ _
    rw [hSame]
    exact SharedTable.mem_numbers_of_find? hFind
  have hTable := h.setTable records hAt hShows hElse
  rw [set_of_getElem? hAt, h.copied_replace hAt hFind] at hTable
  exact hTable h.nodup (hLength ▸ h.lt_length) (h.distinct records (List.mem_of_getElem? hAt))

theorem follows_addRecord (h : Mirrors held copied copy) (table : Nat) (record : Record) :
    Follows held copied (.addRecord table record) := by
  unfold Follows
  dsimp only [SharedHoldings.perform, CopiedHoldings.perform]
  rw [h.tables_getElem? table]
  cases hTable : held.tables[table]? with
  | none => exact ⟨rfl, copy, h⟩
  | some records =>
    obtain ⟨hEntered, hFind, hCopied⟩ := h.enter hTable record.owner
    have hNumber := SharedTable.find?_copied copy (records.enter held.pool record.owner).1
      record.owner
    rw [hCopied, hFind, Option.map_some] at hNumber
    have hAt : (held.tables.set table (records.enter held.pool record.owner).1)[table]? =
        some (records.enter held.pool record.owner).1 :=
      List.getElem?_set_self (List.getElem?_eq_some_iff.mp hTable).1
    have hLt := hEntered.lt_length_of_number? (.owner table record.owner) (by
      rw [SharedHoldings.number?, hAt, Option.bind_some, hFind])
    have hOwner := hEntered.setOwner hAt hFind
      (hEntered.shows.add hLt record.type record.ttl record.rdata)
      (hEntered.shows.length_add _ record.type record.ttl record.rdata)
    obtain ⟨hResult, _⟩ := hEntered.shows.add_places (records.enter held.pool record.owner).2.2
      record.type record.ttl record.rdata
    dsimp only [Option.map_some, SharedTable.add, RecordTable.addInPlace]
    rw [hResult, hNumber, Option.getD_some]
    cases hAdd : (copy (records.enter held.pool record.owner).2.2).add record.type record.ttl
        record.rdata with
    | error e =>
      rw [RrsetList.grown, hAdd, Except.toOption, Option.getD_none,
        ← hEntered.copied_replace hAt hFind, Function.update_eq_self, hCopied, List.set_set]
        at hOwner
      exact ⟨rfl, _, hOwner⟩
    | ok added =>
      rw [RrsetList.grown, hAdd, Except.toOption, Option.getD_some, hCopied, List.set_set]
        at hOwner
      exact ⟨rfl, _, hOwner⟩

theorem follows_resolve (h : Mirrors held copied copy) (table : Nat) (name : Name) :
    Follows held copied (.resolve table name) := by
  unfold Follows
  dsimp only [SharedHoldings.perform, CopiedHoldings.perform]
  rw [h.tables_getElem? table]
  cases hTable : held.tables[table]? with
  | none => exact ⟨rfl, copy, h⟩
  | some records =>
    have hFindCopied := SharedTable.find?_copied copy records name
    have hAncestor : (records.copied copy).isAncestor name = records.isAncestor name := rfl
    dsimp only [Option.map_some, SharedTable.resolve, RecordTable.resolve]
    rw [hFindCopied, hAncestor]
    cases hFind : records.find? name with
    | some number =>
      have hNumber : held.number? (.owner table name) = some number := by
        rw [SharedHoldings.number?, hTable, Option.bind_some, hFind]
      obtain ⟨refs, hClone, hRefs⟩ := h.exists_clone (.owner table name) hNumber
      rw [Option.bind_some, hClone]
      refine ⟨?_, _, h.pushList hRefs⟩
      rw [h.length_lists]
      rfl
    | none =>
      cases records.isAncestor name with
      | true =>
        refine ⟨?_, _, h.pushList .nil⟩
        rw [h.length_lists]
        rfl
      | false => exact ⟨rfl, copy, h⟩

theorem follows_dropTable (h : Mirrors held copied copy) (table : Nat) :
    Follows held copied (.dropTable table) := by
  unfold Follows
  dsimp only [SharedHoldings.perform, CopiedHoldings.perform]
  cases hTable : held.tables[table]? with
  | none =>
    have hLength : copied.tables.length ≤ table := by
      rw [h.length_tables]
      exact List.getElem?_eq_none_iff.mp hTable
    rw [List.set_eq_of_length_le hLength]
    exact ⟨rfl, copy, h⟩
  | some records =>
    obtain ⟨rest, hOld, hRest⟩ := SharedHoldings.exists_rest hTable
    refine ⟨rfl, _, h.setTable .empty hTable (h.shows.giveUp records.numbers)
      (fun number _ hNumber => if_neg hNumber) ?_ ?_ List.nodup_nil⟩
    · exact (hRest _ _).nodup_iff.mpr (List.nodup_append.mp (hOld.nodup_iff.mp h.nodup)).2.1
    · intro number hNumber
      rw [RrsetPool.length_giveUp]
      have hMem := (hRest _ _).mem_iff.mp hNumber
      exact h.lt_length number (hOld.mem_iff.mpr (List.mem_append_right _ hMem))

theorem follows (h : Mirrors held copied copy) (call : HoldingCall) :
    Follows held copied call := by
  cases call with
  | newList => exact h.follows_newList
  | add list type ttl rdata => exact h.follows_add list type ttl rdata
  | clone list => exact h.follows_clone list
  | dropList list => exact h.follows_dropList list
  | take list type => exact h.follows_take list type
  | cloneSet set => exact h.follows_cloneSet set
  | dropSet set => exact h.follows_dropSet set
  | newTable => exact h.follows_newTable
  | addRecord table record => exact h.follows_addRecord table record
  | resolve table name => exact h.follows_resolve table name
  | dropTable table => exact h.follows_dropTable table

theorem run (h : Mirrors held copied copy) (calls : List HoldingCall) :
    (held.run calls).2 = (copied.run calls).2 ∧
      ∃ copy, Mirrors (held.run calls).1 (copied.run calls).1 copy := by
  induction calls generalizing held copied copy with
  | nil => exact ⟨rfl, copy, h⟩
  | cons call calls ih =>
    obtain ⟨hReply, next, hNext⟩ := h.follows call
    obtain ⟨hReplies, hLast⟩ := ih hNext
    exact ⟨congrArg₂ List.cons hReply hReplies, hLast⟩

end Mirrors

end ZoneStore
