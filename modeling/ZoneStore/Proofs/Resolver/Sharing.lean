import ZoneStore.Proofs.Resolver.Holdings

/-!
# Who shares RRsets with whom

A clone shares every RRset with its source. An addition ends all sharing of
the RRset that it adds to, even if it adds nothing, and changes no other
sharing. Together with what holders show this makes sharing invisible.
-/

namespace ZoneStore

namespace SharedHoldings

/-- What a holder refers to for its RRset of a type. -/
def ref? (held : SharedHoldings) (holder : Holder) (type : RecordType) : Option CellRef :=
  (held.number? holder).bind fun number => held.pool.ref? number type

variable {held : SharedHoldings} {one other : Holder} {type : RecordType}

theorem shared?_eq (held : SharedHoldings) (one other : Holder) (type : RecordType) :
    held.shared? one other type =
      match held.ref? one type, held.ref? other type with
      | some a, some b => some (a.cell == b.cell)
      | _, _ => none := by
  rw [shared?, ref?, ref?]
  cases held.number? one with
  | none => rfl
  | some a =>
    cases held.number? other with
    | none => simp
    | some b => rfl

/-- The laws of sharing, for every holder and every call. -/
structure SharesByLaw (held : SharedHoldings) : Prop where
  /-- No two holders have one number. -/
  nodup : held.numbers.Nodup
  equal : ∀ one other type, held.shared? one other type = some true →
    held.find? one type = held.find? other type
  cloned : ∀ call source made rrsets, held.cloned? call = some (source, made) →
    held.shown? source = some rrsets →
      (held.perform call).1.shown? made = some rrsets ∧
        ∀ rrset ∈ rrsets, (held.perform call).1.shared? source made rrset.type = some true
  /-- An addition changes what its target shows, and unshares the RRset of the type. -/
  unshared : ∀ call target type, call.target? = some (target, type) → ∀ holder,
    (held.perform call).1.number? holder ≠ (held.perform call).1.number? target →
      (held.perform call).1.shown? holder = held.shown? holder ∧
        (held.perform call).1.shared? target holder type ≠ some true
  kept : ∀ call target type, call.target? = some (target, type) → ∀ one other type',
    (type' = type →
      (held.perform call).1.number? one ≠ (held.perform call).1.number? target ∧
        (held.perform call).1.number? other ≠ (held.perform call).1.number? target) →
      (held.perform call).1.shared? one other type' = held.shared? one other type'

theorem find?_eq_of_shared (h : held.shared? one other type = some true) :
    held.find? one type = held.find? other type := by
  rw [shared?] at h
  rw [find?, find?]
  split at h
  · rename_i a b hOne hOther
    rw [hOne, hOther]
    exact RrsetPool.find?_eq_of_shared h
  · cases h

end SharedHoldings

namespace Mirrors

variable {held : SharedHoldings} {copied : CopiedHoldings} {copy : Nat → RrsetList}
  {number : Nat} {holder : Holder}

/-! ## Clones -/

theorem clone_shares (h : Mirrors held copied copy) {source made : Holder} {rrsets : List Rrset}
    {call : HoldingCall} (hCall : held.cloned? call = some (source, made))
    (hShown : held.shown? source = some rrsets) :
    (held.perform call).1.shown? made = some rrsets ∧
      ∀ rrset ∈ rrsets, (held.perform call).1.shared? source made rrset.type = some true := by
  rw [h.shown?_of_number?, Option.map_eq_some_iff] at hShown
  obtain ⟨number, hNumber, rfl⟩ := hShown
  obtain ⟨refs, hClone, _⟩ := h.exists_clone source hNumber
  obtain ⟨hContents, hShared⟩ := h.shows.clone hClone
  -- It is enough to know which numbers the two holders have after the call.
  suffices hNumbers : (held.perform call).1.pool = ⟨held.pool.cells, held.pool.lists ++ [refs]⟩ ∧
      (held.perform call).1.number? source = some number ∧
        (held.perform call).1.number? made = some held.pool.lists.length by
    obtain ⟨hPool, hSource, hMade⟩ := hNumbers
    rw [SharedHoldings.shown?, hMade, Option.bind_some, hPool]
    refine ⟨hContents, fun rrset hMem => ?_⟩
    rw [SharedHoldings.shared?, hSource, hMade, hPool]
    exact hShared rrset hMem
  cases call with
  | clone list =>
    cases hCall
    have hList : held.lists[list]? = some number := hNumber
    dsimp only [SharedHoldings.perform]
    rw [hList, Option.bind_some, hClone]
    exact ⟨rfl, (List.getElem?_append_left (List.getElem?_eq_some_iff.mp hList).1).trans hList,
      List.getElem?_concat_length⟩
  | cloneSet set =>
    cases hCall
    have hSet : held.sets[set]? = some number := hNumber
    dsimp only [SharedHoldings.perform]
    rw [hSet, Option.bind_some, hClone]
    exact ⟨rfl, (List.getElem?_append_left (List.getElem?_eq_some_iff.mp hSet).1).trans hSet,
      List.getElem?_concat_length⟩
  | resolve table name =>
    cases hCall
    obtain ⟨records, hTable, hFind⟩ := Option.bind_eq_some_iff.mp hNumber
    dsimp only [SharedHoldings.perform]
    rw [hTable]
    dsimp only [SharedTable.resolve]
    rw [hFind, Option.bind_some, hClone]
    exact ⟨rfl, hNumber, List.getElem?_concat_length⟩
  | _ => cases hCall

/-! ## Additions -/

/-- A holding with a new, empty list for an owner, if the owner needs one, is as it was before. -/
structure Prepares (held prepared : SharedHoldings) (target : Holder) (number : Nat) : Prop where
  number?_target : prepared.number? target = some number
  shown?_eq : ∀ holder, prepared.number? holder ≠ some number →
    prepared.shown? holder = held.shown? holder
  ref?_eq : ∀ holder type, prepared.ref? holder type = held.ref? holder type

theorem prepares_self {target : Holder} (hNumber : held.number? target = some number) :
    Prepares held held target number where
  number?_target := hNumber
  shown?_eq := fun _ _ => rfl
  ref?_eq := fun _ _ => rfl

theorem number?_append {table : Nat} {records : SharedTable}
    (hTable : held.tables[table]? = some records) (pool : RrsetPool) (owner : Name) (number : Nat)
    (ancestors : List Name) (holder : Holder) :
    SharedHoldings.number? { held with
        pool := pool
        tables := held.tables.set table ⟨records.owners ++ [(owner, number)], ancestors⟩ } holder =
      held.number? holder ∨
    held.number? holder = none ∧ SharedHoldings.number? { held with
        pool := pool
        tables := held.tables.set table ⟨records.owners ++ [(owner, number)], ancestors⟩ } holder =
      some number := by
  cases holder with
  | list list => exact .inl rfl
  | set set => exact .inl rfl
  | owner other name =>
    dsimp only [SharedHoldings.number?]
    rw [List.getElem?_set]
    by_cases hOther : table = other
    · subst hOther
      rw [if_pos rfl, if_pos (List.getElem?_eq_some_iff.mp hTable).1, hTable, Option.bind_some,
        Option.bind_some, SharedTable.find?_append]
      cases records.find? name with
      | some other => exact .inl rfl
      | none =>
        by_cases hSame : owner.same name
        · exact .inr ⟨rfl, if_pos hSame⟩
        · exact .inl (if_neg hSame)
    · rw [if_neg hOther]
      exact .inl rfl

theorem prepares_enter (h : Mirrors held copied copy) {table : Nat} {records : SharedTable}
    (hTable : held.tables[table]? = some records) (owner : Name) :
    Prepares held
      { held with
        pool := (records.enter held.pool owner).2.1
        tables := held.tables.set table (records.enter held.pool owner).1 }
      (.owner table owner) (records.enter held.pool owner).2.2 := by
  have hTarget := (h.enter hTable owner).2.1
  unfold SharedTable.enter at hTarget ⊢
  cases hFind : records.find? owner with
  | some number =>
    dsimp only
    rw [set_of_getElem? hTable]
    refine prepares_self ?_
    rw [SharedHoldings.number?, hTable, Option.bind_some, hFind]
  | none =>
    have hNumber := number?_append hTable held.pool.newList.1 owner held.pool.lists.length
      (owner.properSuperdomains ++ records.ancestors)
    rw [hFind] at hTarget
    refine ⟨?_, fun holder hNe => ?_, fun holder type => ?_⟩
    · dsimp only [SharedHoldings.number?]
      rw [List.getElem?_set_self (List.getElem?_eq_some_iff.mp hTable).1]
      exact hTarget
    · have hSame := (hNumber holder).resolve_right fun hNew => hNe hNew.2
      rw [SharedHoldings.shown?, SharedHoldings.shown?]
      refine (congrArg (Option.bind · _) hSame).trans ?_
      cases hOld : held.number? holder with
      | none => rfl
      | some number =>
        have hLt := h.lt_length_of_number? holder hOld
        exact RrsetPool.contents?_append _ _ _ (Nat.ne_of_lt hLt)
    · rw [SharedHoldings.ref?, SharedHoldings.ref?]
      simp only [RrsetPool.ref?_newList]
      obtain hSame | ⟨hNone, hNew⟩ := hNumber holder
      · exact congrArg (Option.bind · _) hSame
      · rw [hNone]
        refine (congrArg (Option.bind · _) hNew).trans ?_
        rw [Option.bind_some, RrsetPool.ref?, List.getElem?_eq_none (Nat.le_refl _)]
        rfl

/-- An addition that has a target adds to one list of the pool. -/
theorem exists_addition (h : Mirrors held copied copy) {call : HoldingCall} {target : Holder}
    {type : RecordType} (hTarget : call.target? = some (target, type)) :
    ((held.perform call).1 = held ∧ held.number? target = none) ∨
      ∃ prepared number ttl rdata, Prepares held prepared target number ∧
        prepared.pool.Shows copy ∧ number < prepared.pool.lists.length ∧
        (held.perform call).1 =
          { prepared with pool := (prepared.pool.add number type ttl rdata).1 } := by
  cases call with
  | add list type' ttl rdata =>
    cases hTarget
    dsimp only [SharedHoldings.perform]
    cases hList : held.lists[list]? with
    | none => exact .inl ⟨rfl, hList⟩
    | some number =>
      exact .inr ⟨held, number, ttl, rdata, prepares_self hList, h.shows,
        h.lt_length_of_number? (.list list) hList, rfl⟩
  | addRecord table record =>
    cases hTarget
    dsimp only [SharedHoldings.perform]
    cases hTable : held.tables[table]? with
    | none => exact .inl ⟨rfl, by rw [SharedHoldings.number?, hTable, Option.bind_none]⟩
    | some records =>
      have hPrepares := h.prepares_enter hTable record.owner
      obtain ⟨hEntered, _⟩ := h.enter hTable record.owner
      exact .inr ⟨_, _, record.ttl, record.rdata, hPrepares, hEntered.shows,
        hEntered.lt_length_of_number? _ hPrepares.number?_target, rfl⟩
  | _ => cases hTarget

theorem addition_unshares (h : Mirrors held copied copy) {call : HoldingCall} {target : Holder}
    {type : RecordType} (hTarget : call.target? = some (target, type)) (holder : Holder)
    (hOther : (held.perform call).1.number? holder ≠ (held.perform call).1.number? target) :
    (held.perform call).1.shown? holder = held.shown? holder ∧
      (held.perform call).1.shared? target holder type ≠ some true := by
  obtain ⟨hSame, hNone⟩ | ⟨prepared, number, ttl, rdata, hPrepares, hShows, hLt, hAfter⟩ :=
    h.exists_addition hTarget
  · rw [hSame, SharedHoldings.shared?, hNone]
    exact ⟨rfl, by simp⟩
  · obtain ⟨_, _, _, _, _, hPlaces⟩ := hShows.add_places number type ttl rdata
    have hTargetNumber := hPrepares.number?_target
    rw [hAfter] at hOther ⊢
    have hNe : prepared.number? holder ≠ some number := hTargetNumber ▸ hOther
    constructor
    · rw [← hPrepares.shown?_eq holder hNe, SharedHoldings.shown?, SharedHoldings.shown?]
      change (prepared.number? holder).bind _ = _
      cases hHolder : prepared.number? holder with
      | none => rfl
      | some other =>
        exact hShows.contents?_add hLt type ttl rdata fun hSame => hNe (hSame ▸ hHolder)
    · have hNumber : ∀ other, SharedHoldings.number?
          { prepared with pool := (prepared.pool.add number type ttl rdata).1 } other =
            prepared.number? other := fun _ => rfl
      rw [SharedHoldings.shared?, hNumber, hNumber, hTargetNumber]
      cases hHolder : prepared.number? holder with
      | none => simp
      | some other => exact hPlaces.not_shared hLt hShows fun hSame => hNe (hSame ▸ hHolder)

theorem ref?_addition (h : Mirrors held copied copy) {call : HoldingCall} {target : Holder}
    {type : RecordType} (hTarget : call.target? = some (target, type)) {holder : Holder}
    {type' : RecordType} (hElse : type' = type →
      (held.perform call).1.number? holder ≠ (held.perform call).1.number? target) :
    (held.perform call).1.ref? holder type' = held.ref? holder type' := by
  obtain ⟨hSame, _⟩ | ⟨prepared, number, ttl, rdata, hPrepares, hShows, hLt, hAfter⟩ :=
    h.exists_addition hTarget
  · rw [hSame]
  · obtain ⟨_, cell, _, _, _, hPlaces⟩ := hShows.add_places number type ttl rdata
    rw [hAfter] at hElse ⊢
    rw [← hPrepares.ref?_eq, SharedHoldings.ref?, SharedHoldings.ref?]
    change (prepared.number? holder).bind _ = _
    cases hHolder : prepared.number? holder with
    | none => rfl
    | some other =>
      refine (hPlaces.ref?_eq hLt hShows other type').trans (if_neg ?_)
      rintro ⟨rfl, hType⟩
      exact hElse hType (hHolder.trans hPrepares.number?_target.symm)

theorem sharesByLaw (h : Mirrors held copied copy) : held.SharesByLaw where
  nodup := h.nodup
  equal := fun _ _ _ hShared => SharedHoldings.find?_eq_of_shared hShared
  cloned := fun _ _ _ _ hCall hShown => h.clone_shares hCall hShown
  unshared := fun _ _ _ hTarget holder hOther => h.addition_unshares hTarget holder hOther
  kept := by
    intro call target type hTarget one other type' hElse
    rw [SharedHoldings.shared?_eq, SharedHoldings.shared?_eq,
      h.ref?_addition hTarget fun hType => (hElse hType).1,
      h.ref?_addition hTarget fun hType => (hElse hType).2]

end Mirrors

/--
Whatever is done to lists, RDATA sets and tables, every holder shows at all times what it would
show if nothing were shared, and every call answers the same; and sharing obeys its laws.
-/
theorem sharing_invisible (calls : List HoldingCall) :
    (SharedHoldings.start.run calls).2 = (CopiedHoldings.start.run calls).2 ∧
      (∀ holder, (SharedHoldings.start.run calls).1.shown? holder =
        (CopiedHoldings.start.run calls).1.shown? holder) ∧
      (SharedHoldings.start.run calls).1.SharesByLaw := by
  obtain ⟨hReplies, copy, hMirrors⟩ := mirrors_start.run calls
  exact ⟨hReplies, hMirrors.shown?_eq, hMirrors.sharesByLaw⟩

example : let calls := [.newList, .add 0 .a ⟨60, by decide⟩ ⟨[192, 0, 2, 1], by decide⟩, .clone 0]
    (SharedHoldings.start.run calls).1.shared? (.list 0) (.list 1) .a = some true ∧
      (SharedHoldings.start.run (calls ++ [.add 1 .a ⟨3600, by decide⟩ ⟨[], by decide⟩])).1.shared?
        (.list 0) (.list 1) .a = some false := by
  decide +kernel

end ZoneStore
