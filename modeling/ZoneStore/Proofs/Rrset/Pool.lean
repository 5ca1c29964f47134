import Mathlib.Data.List.Forall2
import Mathlib.Logic.Function.Basic
import ZoneStore.Proofs.Rrset.Lookup
import ZoneStore.Rrset.Pool

/-!
# Lists that share RRsets show what lists of their own would

A pool shows, number by number, the contents of lists that share nothing.
An addition to a list moves the list to a cell that no other list refers to
and leaves every other reference and its cell as they are. So what the other
lists show stays the same, and so does what they share.
-/

namespace ZoneStore

section Search

variable {α β : Type} {R : α → β → Prop} {key : α → Nat} {key' : β → Nat}

/-- The searches in two lists whose members agree in their keys give the same split. -/
theorem forall₂_bisectWithin (hKey : ∀ a b, R a b → key a = key' b) {wanted fuel : Nat}
    {as : List α} {bs : List β} (h : List.Forall₂ R as bs) :
    List.Forall₂ R (bisectWithin key wanted fuel as).below
        (bisectWithin key' wanted fuel bs).below ∧
      Option.Rel R (bisectWithin key wanted fuel as).found
        (bisectWithin key' wanted fuel bs).found ∧
      List.Forall₂ R (bisectWithin key wanted fuel as).above
        (bisectWithin key' wanted fuel bs).above := by
  induction fuel generalizing as bs with
  | zero => exact ⟨h, .none, .nil⟩
  | succ fuel ih =>
    have hBelow := List.forall₂_take (as.length / 2) h
    have hRest := List.forall₂_drop (as.length / 2) h
    rw [bisectWithin, bisectWithin, ← h.length_eq]
    generalize as.drop (as.length / 2) = rest at hRest ⊢
    generalize bs.drop (as.length / 2) = rest' at hRest ⊢
    cases hRest with
    | nil => exact ⟨.nil, .none, .nil⟩
    | @cons a b above above' hMiddle hAbove =>
      dsimp only
      rw [← hKey a b hMiddle]
      split
      · exact ⟨hBelow, .some hMiddle, hAbove⟩
      · split
        · obtain ⟨hLow, hFound, hHigh⟩ := ih hAbove
          exact ⟨List.rel_append hBelow (.cons hMiddle hLow), hFound, hHigh⟩
        · obtain ⟨hLow, hFound, hHigh⟩ := ih hBelow
          exact ⟨hLow, hFound, List.rel_append hHigh (.cons hMiddle hAbove)⟩

theorem forall₂_bisect (hKey : ∀ a b, R a b → key a = key' b) (wanted : Nat)
    {as : List α} {bs : List β} (h : List.Forall₂ R as bs) :
    List.Forall₂ R (bisect key wanted as).below (bisect key' wanted bs).below ∧
      Option.Rel R (bisect key wanted as).found (bisect key' wanted bs).found ∧
      List.Forall₂ R (bisect key wanted as).above (bisect key' wanted bs).above := by
  rw [bisect, bisect, ← h.length_eq]
  exact forall₂_bisectWithin hKey h

theorem orderedBy_of_forall₂ (hKey : ∀ a b, R a b → key a = key' b) {as : List α} {bs : List β}
    (h : List.Forall₂ R as bs) (hOrder : OrderedBy key' bs) : OrderedBy key as := by
  have hKeys : as.map key = bs.map key' := by
    induction h with
    | nil => rfl
    | cons hHead _ ih => rw [List.map_cons, List.map_cons, hKey _ _ hHead, ih hOrder.of_cons]
  rw [OrderedBy, ← List.pairwise_map (R := (· < ·)), hKeys, List.pairwise_map]
  exact hOrder

end Search

namespace RrsetList

/-- The list with a record added; one that is refused leaves it as it is. -/
def grown (list : RrsetList) (type : RecordType) (ttl : Ttl) (rdata : Rdata) : RrsetList :=
  (list.add type ttl rdata).toOption.getD list

theorem put_found {list : RrsetList} {type : RecordType} {rrset : Rrset}
    (h : list.find? type = some rrset) : list.put type rrset (key_found_bisect h) = list := by
  have hMembers := members_bisect Rrset.key type.code.toNat list.rrsets
  have hFound : (bisect Rrset.key type.code.toNat list.rrsets).found = some rrset := h
  rw [Split.members, hFound] at hMembers
  have hRrsets : (list.put type rrset (key_found_bisect h)).rrsets = list.rrsets := by
    simpa [put, splitAt] using hMembers
  generalize list.put type rrset (key_found_bisect h) = same at hRrsets
  cases same
  cases list
  simpa using hRrsets

/-- An addition puts one RRset into the list: a new one, or the old one with its data extended. -/
theorem add_cases (list : RrsetList) (type : RecordType) (ttl : Ttl) (rdata : Rdata) :
    (list.find? type = none ∧
        list.add type ttl rdata = .ok (list.put type (.single type ttl rdata) rfl)) ∨
      ∃ rrset, list.find? type = some rrset ∧
        ((∃ e, rrset.add ttl rdata = .error e ∧ list.add type ttl rdata = .error e) ∨
          ∃ added hKey, rrset.add ttl rdata = .ok added ∧
            list.add type ttl rdata = .ok (list.put type added hKey)) := by
  unfold add
  split
  · rename_i hFind
    exact .inl ⟨hFind, rfl⟩
  · rename_i rrset hFind
    refine .inr ⟨rrset, hFind, ?_⟩
    split
    · rename_i e hAdd
      exact .inl ⟨e, hAdd, rfl⟩
    · rename_i added hAdd
      exact .inr ⟨added, (Rrset.key_of_add hAdd).trans (key_found_bisect hFind), hAdd, rfl⟩

end RrsetList

namespace RrsetPool

/-! ## What references show -/

def IsAt (cells : List Rrset) (ref : CellRef) (rrset : Rrset) : Prop :=
  cells[ref.cell]? = some rrset ∧ rrset.type = ref.type

theorem key_eq_of_isAt (cells : List Rrset) (ref : CellRef) (rrset : Rrset)
    (h : IsAt cells ref rrset) : ref.key = rrset.key := by
  rw [CellRef.key, Rrset.key, h.2]

/-- References show RRsets, each the one in its cell. -/
def Refers (cells : List Rrset) (refs : List CellRef) (rrsets : List Rrset) : Prop :=
  List.Forall₂ (IsAt cells) refs rrsets

section Refers

variable {cells : List Rrset} {refs : List CellRef} {rrsets : List Rrset}

theorem Refers.filterMap_eq (h : Refers cells refs rrsets) :
    (refs.filterMap fun ref => cells[ref.cell]?) = rrsets := by
  induction h with
  | nil => rfl
  | cons hRef _ ih => rw [List.filterMap_cons, hRef.1, ih]

theorem Refers.lt_length (h : Refers cells refs rrsets) :
    ∀ ref ∈ refs, ref.cell < cells.length := by
  induction h with
  | nil => simp
  | cons hRef _ ih =>
    rw [List.forall_mem_cons]
    exact ⟨(List.getElem?_eq_some_iff.mp hRef.1).1, ih⟩

theorem Refers.congr {cells' : List Rrset} (h : Refers cells refs rrsets)
    (hCells : ∀ ref ∈ refs, cells'[ref.cell]? = cells[ref.cell]?) : Refers cells' refs rrsets := by
  induction h with
  | nil => exact .nil
  | cons hRef _ ih =>
    rw [List.forall_mem_cons] at hCells
    exact .cons ⟨hCells.1.trans hRef.1, hRef.2⟩ (ih hCells.2)

end Refers

/-! ## The references of a number -/

/-- The references of list `number`, none if there is no such list. -/
def refs (pool : RrsetPool) (number : Nat) : List CellRef :=
  pool.lists[number]?.getD []

variable {pool after : RrsetPool} {number other : Nat} {type : RecordType}

theorem ref?_eq (pool : RrsetPool) (number : Nat) (type : RecordType) :
    pool.ref? number type = (bisect CellRef.key type.code.toNat (pool.refs number)).found := by
  rw [ref?, refs]
  cases pool.lists[number]? <;> rfl

theorem mem_refs_of_ref? {ref : CellRef} (h : pool.ref? number type = some ref) :
    ref ∈ pool.refs number ∧ ref.type = type := by
  rw [ref?_eq] at h
  have hMembers := members_bisect CellRef.key type.code.toNat (pool.refs number)
  constructor
  · rw [← hMembers, Split.members, h]
    simp
  · have hKey : ref.key = type.code.toNat := key_found_bisect h
    exact RecordType.code_toNat_inj.mp hKey

theorem refs_append (cells : List Rrset) (lists : List (List CellRef)) (more : List CellRef)
    (number : Nat) :
    (mk cells (lists ++ [more])).refs number =
      if number = lists.length then more else (mk cells lists).refs number := by
  rw [refs, refs]
  split
  · rename_i hNumber
    rw [hNumber, List.getElem?_concat_length, Option.getD_some]
  · rename_i hNumber
    by_cases hOld : number < lists.length
    · rw [List.getElem?_append_left hOld]
    · rw [List.getElem?_eq_none (by simp; omega), List.getElem?_eq_none (by simp; omega)]

theorem refs_giveUp (pool : RrsetPool) (numbers : List Nat) (number : Nat) :
    (pool.giveUp numbers).refs number = if number ∈ numbers then [] else pool.refs number := by
  rw [refs, refs, giveUp, List.getElem?_mapIdx]
  cases pool.lists[number]? <;> simp

theorem refs_setRef (hNumber : number < pool.lists.length) (type : RecordType) (cell other : Nat) :
    (pool.setRef number type cell).refs other =
      if other = number then
        (bisect CellRef.key type.code.toNat (pool.refs number)).below ++
          ⟨type, cell⟩ :: (bisect CellRef.key type.code.toNat (pool.refs number)).above
      else pool.refs other := by
  rw [refs, refs, refs, setRef, List.getElem?_modify]
  by_cases hOther : other = number
  · subst hOther
    rw [List.getElem?_eq_getElem hNumber]
    simp
  · rw [if_neg hOther]
    cases pool.lists[other]? with
    | none => rfl
    | some list => simp [Ne.symm hOther]

/-! ## What a pool shows -/

/-- Every number shows the contents of a list that shares nothing. -/
def Shows (pool : RrsetPool) (copy : Nat → RrsetList) : Prop :=
  ∀ number, Refers pool.cells (pool.refs number) (copy number).rrsets

variable {copy : Nat → RrsetList}

theorem shows_empty : empty.Shows fun _ => .empty :=
  fun _ => .nil

theorem Shows.contents?_eq (h : pool.Shows copy) (hNumber : number < pool.lists.length) :
    pool.contents? number = some (copy number).rrsets := by
  rw [contents?, List.getElem?_eq_getElem hNumber, Option.map_some, ← (h number).filterMap_eq,
    refs, List.getElem?_eq_getElem hNumber, Option.getD_some]

theorem Shows.ref?_rel (h : pool.Shows copy) (number : Nat) (type : RecordType) :
    Option.Rel (IsAt pool.cells) (pool.ref? number type) ((copy number).find? type) := by
  rw [ref?_eq]
  exact (forall₂_bisect (key_eq_of_isAt pool.cells) type.code.toNat (h number)).2.1

theorem Shows.find?_eq (h : pool.Shows copy) (number : Nat) (type : RecordType) :
    pool.find? number type = (copy number).find? type := by
  have hRel := h.ref?_rel number type
  rw [find?]
  generalize pool.ref? number type = ref? at hRel ⊢
  generalize (copy number).find? type = rrset? at hRel ⊢
  cases hRel with
  | none => rfl
  | some hRef => exact hRef.1

theorem Shows.orderedBy (h : pool.Shows copy) (number : Nat) :
    OrderedBy CellRef.key (pool.refs number) :=
  orderedBy_of_forall₂ (key_eq_of_isAt pool.cells) (h number) (copy number).ordered

theorem Shows.eq_empty (h : pool.Shows copy) (hNumber : pool.lists.length ≤ number) :
    copy number = .empty := by
  have hRefers := h number
  rw [refs, List.getElem?_eq_none hNumber, Option.getD_none] at hRefers
  cases hCopy : copy number with
  | mk rrsets ordered =>
    rw [hCopy] at hRefers
    cases hRefers
    rfl

/-! ## A cell with one holder -/

theorem countP_add_countP_le {α : Type} (p : α → Bool) (lists : List (List α)) {i j : Nat}
    {as bs : List α} (hNe : i ≠ j) (hi : lists[i]? = some as) (hj : lists[j]? = some bs) :
    as.countP p + bs.countP p ≤ lists.flatten.countP p := by
  induction lists generalizing i j with
  | nil => simp at hi
  | cons list lists ih =>
    rw [List.flatten_cons, List.countP_append]
    have hTail : ∀ {k : Nat} {cs : List α}, lists[k]? = some cs →
        cs.countP p ≤ lists.flatten.countP p :=
      fun hk => (List.sublist_flatten_of_mem (List.mem_of_getElem? hk)).countP_le
    cases i with
    | zero =>
      cases j with
      | zero => exact absurd rfl hNe
      | succ j =>
        cases hi
        exact Nat.add_le_add_left (hTail hj) _
    | succ i =>
      cases j with
      | zero =>
        cases hj
        rw [Nat.add_comm]
        exact Nat.add_le_add_left (hTail hi) _
      | succ j =>
        have hBoth := ih (fun h => hNe (congrArg Nat.succ h)) hi hj
        omega

theorem exists_list_of_mem_refs {ref : CellRef} (h : ref ∈ pool.refs number) :
    pool.lists[number]? = some (pool.refs number) := by
  rw [refs] at h ⊢
  cases hList : pool.lists[number]? with
  | none =>
    rw [hList] at h
    cases h
  | some list => rfl

/-- A cell with at most one holder is referred to from one place. -/
theorem eq_of_holders_le_one {ref ref' : CellRef} (hHolders : pool.holders ref.cell ≤ 1)
    (hRef : ref ∈ pool.refs number) (hRef' : ref' ∈ pool.refs other)
    (hCell : ref'.cell = ref.cell) : other = number ∧ ref' = ref := by
  have hList := exists_list_of_mem_refs hRef
  have hList' := exists_list_of_mem_refs hRef'
  have hPos : 0 < (pool.refs number).countP fun r => r.cell == ref.cell :=
    List.countP_pos_iff.mpr ⟨ref, hRef, beq_self_eq_true _⟩
  have hPos' : 0 < (pool.refs other).countP fun r => r.cell == ref.cell :=
    List.countP_pos_iff.mpr ⟨ref', hRef', by simpa using hCell⟩
  have hNumber : other = number := by
    by_contra hNe
    have hBoth := countP_add_countP_le (fun r => r.cell == ref.cell) _ hNe hList' hList
    rw [holders] at hHolders
    omega
  subst hNumber
  refine ⟨rfl, ?_⟩
  have hCount : (pool.refs other).countP (fun r => r.cell == ref.cell) ≤ 1 :=
    Nat.le_trans (List.sublist_flatten_of_mem (List.mem_of_getElem? hList)).countP_le hHolders
  rw [List.countP_eq_length_filter] at hCount
  have hMem : ref ∈ (pool.refs other).filter fun r => r.cell == ref.cell :=
    List.mem_filter.mpr ⟨hRef, beq_self_eq_true _⟩
  have hMem' : ref' ∈ (pool.refs other).filter fun r => r.cell == ref.cell :=
    List.mem_filter.mpr ⟨hRef', by simpa using hCell⟩
  obtain ⟨i, hi, hAt⟩ := List.mem_iff_getElem.mp hMem
  obtain ⟨j, hj, hAt'⟩ := List.mem_iff_getElem.mp hMem'
  have hSame : i = j := by omega
  subst hSame
  exact hAt'.symm.trans hAt

/-! ## Additions -/

/--
List `number` has gone over to a cell for its RRset of a type. No other reference is to that
cell, and the cells of the other references are as they were.
-/
structure Places (pool after : RrsetPool) (number : Nat) (type : RecordType) (cell : Nat)
    (rrset : Rrset) : Prop where
  lists_eq : after.lists = (pool.setRef number type cell).lists
  placed : after.cells[cell]? = some rrset
  apart : ∀ other, ∀ ref ∈ pool.refs other, (other = number → ref.type ≠ type) → ref.cell ≠ cell
  kept : ∀ other, ∀ ref ∈ pool.refs other, ref.cell ≠ cell →
    after.cells[ref.cell]? = pool.cells[ref.cell]?

variable {cell : Nat} {rrset : Rrset}

theorem Places.set (h : pool.Places after number type cell rrset) (new : Rrset) :
    pool.Places { after with cells := after.cells.set cell new } number type cell new where
  lists_eq := h.lists_eq
  placed := by
    obtain ⟨hLt, _⟩ := List.getElem?_eq_some_iff.mp h.placed
    rw [List.getElem?_set_self hLt]
  apart := h.apart
  kept := by
    intro other ref hRef hCell
    rw [List.getElem?_set_ne (Ne.symm hCell)]
    exact h.kept other ref hRef hCell

theorem Shows.places_newCell (h : pool.Shows copy) (number : Nat) (type : RecordType)
    (rrset : Rrset) :
    pool.Places ((pool.newCell rrset).1.setRef number type (pool.newCell rrset).2) number type
      (pool.newCell rrset).2 rrset where
  lists_eq := rfl
  placed := List.getElem?_concat_length
  apart := by
    intro other ref hRef _
    exact Nat.ne_of_lt ((h other).lt_length ref hRef)
  kept := by
    intro other ref hRef _
    exact List.getElem?_append_left ((h other).lt_length ref hRef)

theorem setRef_self {ref : CellRef} (h : pool.ref? number type = some ref) :
    (pool.setRef number type ref.cell).lists = pool.lists := by
  obtain ⟨hMem, rfl⟩ := mem_refs_of_ref? h
  have hList := exists_list_of_mem_refs hMem
  have hMembers := members_bisect CellRef.key ref.type.code.toNat (pool.refs number)
  rw [ref?_eq] at h
  rw [Split.members, h, List.append_assoc] at hMembers
  apply List.ext_getElem?
  intro other
  rw [setRef, List.getElem?_modify]
  by_cases hOther : number = other
  · subst hOther
    rw [hList]
    simpa using hMembers
  · cases pool.lists[other]? <;> simp [hOther]

/-- A list that owns a cell is the only one to refer to it, and the cell holds the RRset. -/
theorem Shows.places_own (h : pool.Shows copy) {ref : CellRef}
    (hRef : pool.ref? number type = some ref) (hCell : pool.cells[ref.cell]? = some rrset) :
    pool.Places (pool.own number ref rrset).1 number type (pool.own number ref rrset).2 rrset := by
  obtain ⟨hMem, hType⟩ := mem_refs_of_ref? hRef
  unfold own
  split
  · rename_i hHolders
    refine ⟨(setRef_self hRef).symm, hCell, ?_, fun _ _ _ _ => rfl⟩
    intro other ref' hMem' hOther hSame
    obtain ⟨hNumber, rfl⟩ := eq_of_holders_le_one hHolders hMem hMem' hSame
    exact hOther hNumber hType
  · rw [hType]
    exact h.places_newCell number type rrset

/-- An addition puts into its place what the same addition puts into an unshared list. -/
theorem Shows.add_places (h : pool.Shows copy) (number : Nat) (type : RecordType) (ttl : Ttl)
    (rdata : Rdata) :
    (pool.add number type ttl rdata).2 =
        ((copy number).add type ttl rdata).map (fun _ => ()) ∧
      ∃ cell rrset, ∃ hKey : rrset.key = type.code.toNat,
        (copy number).grown type ttl rdata = (copy number).put type rrset hKey ∧
          pool.Places (pool.add number type ttl rdata).1 number type cell rrset := by
  have hFind := h.find?_eq number type
  have hRel := h.ref?_rel number type
  unfold RrsetList.grown
  obtain ⟨hNone, hAdd⟩ | ⟨old, hOld, hResult⟩ := (copy number).add_cases type ttl rdata
  · rw [hNone] at hFind hRel
    generalize hRef : pool.ref? number type = ref? at hRel
    cases hRel
    rw [add, hRef, hFind, hAdd]
    exact ⟨rfl, _, _, rfl, rfl, h.places_newCell number type _⟩
  · rw [hOld] at hFind hRel
    generalize hRef : pool.ref? number type = ref? at hRel
    cases hRel with
    | @some ref _ hAt =>
      have hOwn := h.places_own hRef hAt.1
      rw [add, hRef, hFind]
      dsimp only
      obtain ⟨e, hRefused, hAdd⟩ | ⟨added, hKey, hAdded, hAdd⟩ := hResult
      · rw [hRefused, hAdd]
        exact ⟨rfl, _, old, key_found_bisect hOld, (RrsetList.put_found hOld).symm, hOwn⟩
      · rw [hAdded, hAdd]
        exact ⟨rfl, _, added, hKey, rfl, hOwn.set added⟩

section Places

variable (hNumber : number < pool.lists.length)
include hNumber

theorem Places.refs_eq (hPlaces : pool.Places after number type cell rrset) (other : Nat) :
    after.refs other =
      if other = number then
        (bisect CellRef.key type.code.toNat (pool.refs number)).below ++
          ⟨type, cell⟩ :: (bisect CellRef.key type.code.toNat (pool.refs number)).above
      else pool.refs other := by
  rw [← refs_setRef hNumber type cell other, refs, hPlaces.lists_eq]
  rfl

theorem Places.shows (hPlaces : pool.Places after number type cell rrset) (h : pool.Shows copy)
    (hKey : rrset.key = type.code.toNat) :
    after.Shows (Function.update copy number ((copy number).put type rrset hKey)) := by
  intro other
  rw [hPlaces.refs_eq hNumber]
  by_cases hOther : other = number
  · subst hOther
    obtain ⟨hBelow, _, hAbove⟩ :=
      forall₂_bisect (key_eq_of_isAt pool.cells) type.code.toNat (h other)
    have hMembers := members_bisect CellRef.key type.code.toNat (pool.refs other)
    have hKept : ∀ ref ∈ pool.refs other, ref.key ≠ type.code.toNat →
        after.cells[ref.cell]? = pool.cells[ref.cell]? := by
      intro ref hRef hNe
      refine hPlaces.kept other ref hRef (hPlaces.apart other ref hRef fun _ hType => hNe ?_)
      rw [← hType, CellRef.key]
    rw [if_pos rfl, Function.update_self, RrsetList.put]
    refine List.rel_append (Refers.congr hBelow fun ref hRef => ?_)
      (.cons ⟨hPlaces.placed, Rrset.key_eq_iff.mp hKey⟩
        (Refers.congr hAbove fun ref hRef => ?_))
    · refine hKept ref (hMembers ▸ by simp [Split.members, hRef]) ?_
      exact Nat.ne_of_lt (lt_of_mem_below (h.orderedBy other) hRef)
    · refine hKept ref (hMembers ▸ by simp [Split.members, hRef]) ?_
      exact Nat.ne_of_gt (lt_of_mem_above (h.orderedBy other) hRef)
  · rw [if_neg hOther, Function.update_of_ne hOther]
    refine (h other).congr fun ref hRef => hPlaces.kept other ref hRef ?_
    exact hPlaces.apart other ref hRef fun hSame => absurd hSame hOther

theorem Places.ref?_eq (hPlaces : pool.Places after number type cell rrset) (h : pool.Shows copy)
    (other : Nat) (type' : RecordType) :
    after.ref? other type' =
      if other = number ∧ type' = type then some ⟨type, cell⟩ else pool.ref? other type' := by
  rw [RrsetPool.ref?_eq, RrsetPool.ref?_eq, hPlaces.refs_eq hNumber]
  by_cases hOther : other = number
  · subst hOther
    have hKey : CellRef.key ⟨type, cell⟩ = type.code.toNat := rfl
    rw [if_pos rfl, found_bisect_insert (h.orderedBy other) hKey]
    simp only [RecordType.code_toNat_inj, true_and]
  · rw [if_neg hOther, if_neg fun hBoth => hOther hBoth.1]

/-- The RRset that was added to is shared with no other list. -/
theorem Places.not_shared (hPlaces : pool.Places after number type cell rrset)
    (h : pool.Shows copy) {other : Nat} (hOther : other ≠ number) :
    after.shared? number other type ≠ some true := by
  rw [shared?, hPlaces.ref?_eq hNumber h, hPlaces.ref?_eq hNumber h, if_pos ⟨rfl, rfl⟩,
    if_neg fun hBoth => hOther hBoth.1]
  cases hRef : pool.ref? other type with
  | none => simp
  | some ref =>
    have hApart := hPlaces.apart other ref (mem_refs_of_ref? hRef).1
      fun hSame => absurd hSame hOther
    simpa using Ne.symm hApart

end Places

theorem Shows.length_add (h : pool.Shows copy) (number : Nat) (type : RecordType) (ttl : Ttl)
    (rdata : Rdata) :
    (pool.add number type ttl rdata).1.lists.length = pool.lists.length := by
  obtain ⟨_, _, _, _, _, hPlaces⟩ := h.add_places number type ttl rdata
  rw [hPlaces.lists_eq, setRef, List.length_modify]

/-- A list that records are added to shows what an unshared one would; no other list changes. -/
theorem Shows.add (h : pool.Shows copy) (hNumber : number < pool.lists.length)
    (type : RecordType) (ttl : Ttl) (rdata : Rdata) :
    (pool.add number type ttl rdata).1.Shows
      (Function.update copy number ((copy number).grown type ttl rdata)) := by
  obtain ⟨_, _, _, hKey, hGrown, hPlaces⟩ := h.add_places number type ttl rdata
  rw [hGrown]
  exact hPlaces.shows hNumber h hKey

theorem Shows.contents?_add (h : pool.Shows copy) (hNumber : number < pool.lists.length)
    (type : RecordType) (ttl : Ttl) (rdata : Rdata) (hOther : other ≠ number) :
    (pool.add number type ttl rdata).1.contents? other = pool.contents? other := by
  have hLength := h.length_add number type ttl rdata
  by_cases hLt : other < pool.lists.length
  · rw [(h.add hNumber type ttl rdata).contents?_eq (hLength ▸ hLt), h.contents?_eq hLt,
      Function.update_of_ne hOther]
  · rw [contents?, contents?, List.getElem?_eq_none (by omega), List.getElem?_eq_none (by omega)]
    rfl

/-- Lists that share the RRset of a type show the same RRset of it. -/
theorem find?_eq_of_shared {one : Nat} (h : pool.shared? one other type = some true) :
    pool.find? one type = pool.find? other type := by
  rw [shared?] at h
  rw [find?, find?]
  split at h
  · rename_i a b hOne hOther
    have hCell : a.cell = b.cell := by simpa using h
    rw [hOne, hOther, Option.bind_some, Option.bind_some, hCell]
  · cases h

/-! ## New lists, clones and RDATA sets -/

theorem Shows.append (h : pool.Shows copy) {refs : List CellRef} {rrsets : RrsetList}
    (hRefs : Refers pool.cells refs rrsets.rrsets) :
    (mk pool.cells (pool.lists ++ [refs])).Shows
      (Function.update copy pool.lists.length rrsets) := by
  intro number
  rw [refs_append]
  by_cases hNumber : number = pool.lists.length
  · subst hNumber
    rw [if_pos rfl, Function.update_self]
    exact hRefs
  · rw [if_neg hNumber, Function.update_of_ne hNumber]
    exact h number

theorem Shows.newList (h : pool.Shows copy) : pool.newList.1.Shows copy := by
  have hEmpty : Function.update copy pool.lists.length .empty = copy := by
    rw [← h.eq_empty (Nat.le_refl _), Function.update_eq_self]
  rw [← hEmpty]
  exact h.append .nil

theorem giveUp_nil (pool : RrsetPool) : pool.giveUp [] = pool := by
  have hLists : pool.lists.mapIdx (fun _ refs => refs) = pool.lists := by
    apply List.ext_getElem?
    simp
  simp only [RrsetPool.giveUp, List.not_mem_nil, if_false, hLists]

theorem length_giveUp (pool : RrsetPool) (numbers : List Nat) :
    (pool.giveUp numbers).lists.length = pool.lists.length :=
  List.length_mapIdx

theorem Shows.giveUp (h : pool.Shows copy) (numbers : List Nat) :
    (pool.giveUp numbers).Shows fun number =>
      if number ∈ numbers then .empty else copy number := by
  intro number
  rw [refs_giveUp]
  by_cases hNumber : number ∈ numbers
  · simp only [if_pos hNumber]
    exact .nil
  · simp only [if_neg hNumber]
    exact h number

theorem ref?_newList (pool : RrsetPool) (number : Nat) (type : RecordType) :
    pool.newList.1.ref? number type = pool.ref? number type := by
  have hRefs : pool.newList.1.refs number = pool.refs number := by
    rw [newList, refs_append]
    split
    · rename_i hNumber
      rw [refs, hNumber, List.getElem?_eq_none (Nat.le_refl _), Option.getD_none]
    · rfl
  rw [ref?_eq, ref?_eq, hRefs]

theorem contents?_append (cells : List Rrset) (lists : List (List CellRef))
    (more : List CellRef) (hNumber : number ≠ lists.length) :
    (mk cells (lists ++ [more])).contents? number = (mk cells lists).contents? number := by
  rw [contents?, contents?]
  by_cases hOld : number < lists.length
  · rw [List.getElem?_append_left hOld]
  · rw [List.getElem?_eq_none (by simp; omega), List.getElem?_eq_none (by simp; omega)]

theorem shared?_clone {fresh : Nat} (h : pool.clone? number = some (after, fresh))
    (type : RecordType) :
    after.shared? number fresh type = (pool.ref? number type).map fun _ => true := by
  rw [clone?, Option.map_eq_some_iff] at h
  obtain ⟨refs, hRefs, hClone⟩ := h
  cases hClone
  have hLt := (List.getElem?_eq_some_iff.mp hRefs).1
  have hNumber : pool.refs number = refs := by rw [RrsetPool.refs, hRefs, Option.getD_some]
  rw [shared?, ref?_eq, ref?_eq, ref?_eq, refs_append, refs_append, if_neg (Nat.ne_of_lt hLt),
    if_pos rfl, hNumber]
  cases (bisect CellRef.key type.code.toNat refs).found <;> simp

/-- A clone shows what its source shows, and shares all of it. -/
theorem Shows.clone (h : pool.Shows copy) {fresh : Nat}
    (hClone : pool.clone? number = some (after, fresh)) :
    after.contents? fresh = some (copy number).rrsets ∧
      ∀ rrset ∈ (copy number).rrsets, after.shared? number fresh rrset.type = some true := by
  constructor
  · rw [clone?, Option.map_eq_some_iff] at hClone
    obtain ⟨refs, hRefs, hAfter⟩ := hClone
    cases hAfter
    rw [contents?, List.getElem?_concat_length, ← (h number).filterMap_eq, RrsetPool.refs, hRefs]
    rfl
  · intro rrset hMem
    rw [shared?_clone hClone]
    have hRel := h.ref?_rel number rrset.type
    have hFind : (copy number).find? rrset.type ≠ none := by
      rw [RrsetList.find?_eq, ne_eq, List.find?_eq_none]
      exact fun hNone => hNone rrset hMem (by simp)
    generalize pool.ref? number rrset.type = ref? at hRel ⊢
    generalize (copy number).find? rrset.type = rrset? at hRel hFind
    cases hRel with
    | none => exact absurd rfl hFind
    | some _ => rfl

end RrsetPool

end ZoneStore
