import ZoneStore.Proofs.Rrset.Distinct
import ZoneStore.Proofs.Rrset.Pool

/-!
# Items added one after the other

What a list shows after any items were added to it is told by the items
alone. The first item of a type sets the time to live that all later ones of
the type must have. Those that have it are taken, and the others leave what
the list shows as it was, although an RRset that is shared moves to a cell of
its own even then.
-/

namespace ZoneStore

namespace RrsetList

variable {list : RrsetList} {items taken : List RrsetItem} {type : RecordType}

/-! ## One more item -/

/-- A list of the items that were taken, the first of each type being the first of all items. -/
structure FilledBy (list : RrsetList) (items taken : List RrsetItem) : Prop where
  holds : list.Holds taken
  head?_eq : ∀ type, (itemsOf type taken).head? = (itemsOf type items).head?

theorem filledBy_empty : empty.FilledBy [] [] where
  holds := holds_empty
  head?_eq := fun _ => rfl

theorem FilledBy.head?_of_find? (h : list.FilledBy items taken) {rrset : Rrset}
    (hFind : list.find? type = some rrset) :
    ∃ first, (itemsOf type items).head? = some first ∧ first.ttl = rrset.ttl := by
  have hMade := h.holds.present hFind
  obtain ⟨first, rest, hItems⟩ := List.exists_cons_of_ne_nil hMade.ne_nil
  refine ⟨first, ?_, hMade.ttl_eq first (by simp [hItems])⟩
  rw [← h.head?_eq, hItems, List.head?_cons]

theorem FilledBy.find?_eq_none_iff (h : list.FilledBy items taken) :
    list.find? type = none ↔ itemsOf type items = [] := by
  rw [← List.head?_eq_none_iff]
  constructor
  · intro hNone
    rw [← h.head?_eq, h.holds.absent hNone, List.head?_nil]
  · intro hNil
    cases hFind : list.find? type with
    | none => rfl
    | some rrset =>
      obtain ⟨first, hFirst, -⟩ := h.head?_of_find? hFind
      rw [hNil] at hFirst
      cases hFirst

/-- Only the first item of a type counts for whether a list refuses another. -/
theorem FilledBy.add_eq_error_iff (h : list.FilledBy items taken) (ttl : Ttl) (rdata : Rdata) :
    list.add type ttl rdata = .error .ttlMismatch ↔
      ∃ first, (itemsOf type items).head? = some first ∧ first.ttl ≠ ttl := by
  rw [list.add_eq_error_iff]
  constructor
  · rintro ⟨rrset, hFind, hTtl⟩
    obtain ⟨first, hFirst, hSame⟩ := h.head?_of_find? hFind
    exact ⟨first, hFirst, hSame ▸ hTtl⟩
  · rintro ⟨first, hFirst, hTtl⟩
    cases hFind : list.find? type with
    | none =>
      rw [h.find?_eq_none_iff.mp hFind] at hFirst
      cases hFirst
    | some rrset =>
      obtain ⟨other, hOther, hSame⟩ := h.head?_of_find? hFind
      cases hFirst.symm.trans hOther
      exact ⟨rrset, rfl, hSame ▸ hTtl⟩

theorem FilledBy.add (h : list.FilledBy items taken) {item : RrsetItem} {added : RrsetList}
    (hAdd : list.add item.type item.ttl item.rdata = .ok added) :
    added.FilledBy (items ++ [item]) (taken ++ [item]) where
  holds := h.holds.add item hAdd
  head?_eq := by
    intro type
    rw [itemsOf_append, itemsOf_append, List.head?_append, List.head?_append, h.head?_eq]

/-- What was refused is of a type that an earlier item has. -/
theorem FilledBy.refuse (h : list.FilledBy items taken) {item : RrsetItem}
    (hAdd : list.add item.type item.ttl item.rdata = .error .ttlMismatch) :
    list.FilledBy (items ++ [item]) taken where
  holds := h.holds
  head?_eq := by
    intro type
    rw [itemsOf_append, List.head?_append, h.head?_eq, itemsOf_singleton]
    split
    · rename_i hType
      obtain ⟨first, hFirst, -⟩ := (h.add_eq_error_iff item.ttl item.rdata).mp hAdd
      rw [← hType, hFirst, Option.some_or]
    · rw [List.head?_nil, Option.or_none]

end RrsetList

namespace RrsetPool

variable {pool : RrsetPool} {copy : Nat → RrsetList} {number : Nat}
  {items taken : List RrsetItem} {item : RrsetItem}

/-- An item is taken or refused as by the list that is shown; what is refused leaves it so. -/
theorem Shows.add_item_cases (h : pool.Shows copy) (hNumber : number < pool.lists.length)
    (item : RrsetItem) :
    (∃ added, (copy number).add item.type item.ttl item.rdata = .ok added ∧
        (pool.add number item.type item.ttl item.rdata).2 = .ok () ∧
        (pool.add number item.type item.ttl item.rdata).1.Shows
          (Function.update copy number added)) ∨
      ((copy number).add item.type item.ttl item.rdata = .error .ttlMismatch ∧
        (pool.add number item.type item.ttl item.rdata).2 = .error .ttlMismatch ∧
        (pool.add number item.type item.ttl item.rdata).1.Shows copy) := by
  have hResult := (h.add_places number item.type item.ttl item.rdata).1
  have hShows := h.add hNumber item.type item.ttl item.rdata
  rw [RrsetList.grown] at hShows
  cases hList : (copy number).add item.type item.ttl item.rdata with
  | ok added =>
    rw [hList] at hResult hShows
    exact .inl ⟨added, rfl, hResult, hShows⟩
  | error cause =>
    cases cause
    rw [hList] at hResult hShows
    refine .inr ⟨rfl, hResult, ?_⟩
    rwa [← Function.update_eq_self number copy]

/-- The pools that come about by what is done to lists. -/
inductive IsReached : RrsetPool → Prop
  | empty : IsReached .empty
  | newList {pool : RrsetPool} : IsReached pool → IsReached pool.newList.1
  | add {pool : RrsetPool} {number : Nat} (item : RrsetItem) :
      IsReached pool → number < pool.lists.length →
      IsReached (pool.add number item.type item.ttl item.rdata).1
  | clone {pool after : RrsetPool} {number fresh : Nat} :
      IsReached pool → pool.clone? number = some (after, fresh) → IsReached after
  | take {pool after : RrsetPool} {number fresh : Nat} {type : RecordType} :
      IsReached pool → pool.take? number type = some (after, fresh) → IsReached after
  | giveUp {pool : RrsetPool} (numbers : List Nat) :
      IsReached pool → IsReached (pool.giveUp numbers)

theorem IsReached.exists_shows (h : pool.IsReached) : ∃ copy, pool.Shows copy := by
  induction h with
  | empty => exact ⟨_, shows_empty⟩
  | newList _ ih =>
    obtain ⟨copy, hShows⟩ := ih
    exact ⟨copy, hShows.newList⟩
  | add item _ hNumber ih =>
    obtain ⟨copy, hShows⟩ := ih
    exact ⟨_, hShows.add hNumber item.type item.ttl item.rdata⟩
  | @clone pool _ number _ _ hClone ih =>
    obtain ⟨copy, hShows⟩ := ih
    rw [clone?, Option.map_eq_some_iff] at hClone
    obtain ⟨refs, hRefs, hAfter⟩ := hClone
    cases hAfter
    have hSource := hShows number
    rw [RrsetPool.refs, hRefs, Option.getD_some] at hSource
    exact ⟨_, hShows.append hSource⟩
  | @take pool _ number _ type _ hTake ih =>
    obtain ⟨copy, hShows⟩ := ih
    rw [take?, Option.map_eq_some_iff] at hTake
    obtain ⟨ref, hRef, hAfter⟩ := hTake
    cases hAfter
    have hRel := hShows.ref?_rel number type
    rw [hRef] at hRel
    generalize (copy number).find? type = rrset? at hRel
    cases hRel with
    | @some _ rrset hAt =>
      have hOne : Refers pool.cells [ref] (RrsetList.single rrset).rrsets := .cons hAt .nil
      exact ⟨_, hShows.append hOne⟩
  | giveUp numbers _ ih =>
    obtain ⟨copy, hShows⟩ := ih
    exact ⟨_, hShows.giveUp numbers⟩

/-! ## Any number of items -/

/-- Adds items to list `number` in order. With the pool come the items that were taken. -/
def addEach (pool : RrsetPool) (number : Nat) : List RrsetItem → RrsetPool × List RrsetItem
  | [] => (pool, [])
  | item :: items =>
    match pool.add number item.type item.ttl item.rdata with
    | (next, .error _) => next.addEach number items
    | (next, .ok ()) =>
      let (last, taken) := next.addEach number items
      (last, item :: taken)

/-- List `number` is there, and what it shows is filled by the items. -/
def Fills (pool : RrsetPool) (number : Nat) (items taken : List RrsetItem) : Prop :=
  ∃ copy, pool.Shows copy ∧ number < pool.lists.length ∧ (copy number).FilledBy items taken

theorem Shows.fills_newList (h : pool.Shows copy) : pool.newList.1.Fills pool.newList.2 [] [] := by
  refine ⟨copy, h.newList, by simp [RrsetPool.newList], ?_⟩
  rw [RrsetPool.newList, h.eq_empty (Nat.le_refl _)]
  exact RrsetList.filledBy_empty

theorem Fills.add_item_cases (h : pool.Fills number items taken) (item : RrsetItem) :
    ((pool.add number item.type item.ttl item.rdata).2 = .ok () ∧
        (pool.add number item.type item.ttl item.rdata).1.Fills number (items ++ [item])
          (taken ++ [item])) ∨
      ((pool.add number item.type item.ttl item.rdata).2 = .error .ttlMismatch ∧
        (pool.add number item.type item.ttl item.rdata).1.Fills number (items ++ [item])
          taken) := by
  obtain ⟨copy, hShows, hNumber, hFilled⟩ := h
  have hThere := hShows.length_add number item.type item.ttl item.rdata ▸ hNumber
  obtain ⟨added, hList, hOk, hNext⟩ | ⟨hList, hError, hNext⟩ :=
    hShows.add_item_cases hNumber item
  · refine .inl ⟨hOk, _, hNext, hThere, ?_⟩
    rw [Function.update_self]
    exact hFilled.add hList
  · exact .inr ⟨hError, copy, hNext, hThere, hFilled.refuse hList⟩

theorem Fills.addEach (h : pool.Fills number items taken) (more : List RrsetItem) :
    (pool.addEach number more).1.Fills number (items ++ more)
      (taken ++ (pool.addEach number more).2) := by
  induction more generalizing pool items taken with
  | nil => simpa [RrsetPool.addEach] using h
  | cons item more ih =>
    rw [RrsetPool.addEach]
    have hCases := h.add_item_cases item
    generalize pool.add number item.type item.ttl item.rdata = outcome at hCases
    obtain ⟨next, result⟩ := outcome
    obtain ⟨rfl, hNext⟩ | ⟨rfl, hNext⟩ := hCases
    · have hMore := ih hNext
      rwa [List.append_assoc, List.append_assoc] at hMore
    · have hMore := ih hNext
      rwa [List.append_assoc] at hMore

theorem Fills.find?_eq_none_iff (h : pool.Fills number items taken) (type : RecordType) :
    pool.find? number type = none ↔ ∀ item ∈ items, item.type ≠ type := by
  obtain ⟨copy, hShows, -, hFilled⟩ := h
  rw [hShows.find?_eq, hFilled.find?_eq_none_iff]
  simp [itemsOf]

theorem Fills.add_eq_error_iff (h : pool.Fills number items taken) (item : RrsetItem) :
    (pool.add number item.type item.ttl item.rdata).2 = .error .ttlMismatch ↔
      ∃ first, (itemsOf item.type items).head? = some first ∧ first.ttl ≠ item.ttl := by
  obtain ⟨copy, hShows, -, hFilled⟩ := h
  rw [(hShows.add_places number item.type item.ttl item.rdata).1,
    ← hFilled.add_eq_error_iff item.ttl item.rdata]
  cases (copy number).add item.type item.ttl item.rdata with
  | ok _ => exact iff_of_false nofun nofun
  | error cause =>
    cases cause
    exact iff_of_true rfl rfl

theorem Fills.contents?_of_error (h : pool.Fills number items taken) {e : AddError}
    (hError : (pool.add number item.type item.ttl item.rdata).2 = .error e) :
    (pool.add number item.type item.ttl item.rdata).1.contents? number =
      pool.contents? number := by
  obtain ⟨copy, hShows, hNumber, -⟩ := h
  obtain ⟨_, -, hOk, -⟩ | ⟨-, -, hNext⟩ := hShows.add_item_cases hNumber item
  · cases hOk.symm.trans hError
  · have hThere := hShows.length_add number item.type item.ttl item.rdata ▸ hNumber
    rw [hNext.contents?_eq hThere, hShows.contents?_eq hNumber]

/-! ## Main statement -/

/-- The RRsets of items: one of each type, by the first item of it and those that were taken. -/
structure RrsetsOf (items taken : List RrsetItem) (rrsets : List Rrset) : Prop where
  ordered : OrderedBy Rrset.key rrsets
  exists_type_iff : ∀ type,
    (∃ rrset ∈ rrsets, rrset.type = type) ↔ ∃ item ∈ items, item.type = type
  ttl_eq : ∀ rrset ∈ rrsets, ∃ first,
    (itemsOf rrset.type items).head? = some first ∧ rrset.ttl = first.ttl
  rdatas_eq : ∀ rrset ∈ rrsets,
    rrset.rdatas = ((itemsOf rrset.type taken).map RrsetItem.rdata).eraseDups

theorem Fills.exists_rrsetsOf (h : pool.Fills number items taken) :
    ∃ rrsets, pool.contents? number = some rrsets ∧ RrsetsOf items taken rrsets ∧
      ∀ type, pool.find? number type = rrsets.find? fun rrset => rrset.type = type := by
  have hNone := h.find?_eq_none_iff
  obtain ⟨copy, hShows, hNumber, hFilled⟩ := h
  simp only [hShows.find?_eq, RrsetList.find?_eq] at hNone ⊢
  refine ⟨_, hShows.contents?_eq hNumber, ⟨(copy number).ordered, ?_, ?_, ?_⟩, fun _ => rfl⟩
  · intro type
    have hType := not_congr (hNone type)
    rw [List.find?_eq_none] at hType
    simpa using hType
  · intro rrset hMem
    obtain ⟨first, hFirst, hTtl⟩ := hFilled.head?_of_find? (RrsetList.find?_of_mem hMem)
    exact ⟨first, hFirst, hTtl.symm⟩
  · intro rrset hMem
    exact (hFilled.holds.present (RrsetList.find?_of_mem hMem)).rdatas_eq

/-- What a list shows after items were added to it, and what comes of one more. -/
structure ListsItems (pool : RrsetPool) (number : Nat) (items taken : List RrsetItem) : Prop where
  add_eq_error_iff : ∀ item : RrsetItem,
    (pool.add number item.type item.ttl item.rdata).2 = .error .ttlMismatch ↔
      ∃ first, (itemsOf item.type items).head? = some first ∧ first.ttl ≠ item.ttl
  contents?_of_error : ∀ item : RrsetItem,
    (pool.add number item.type item.ttl item.rdata).2 = .error .ttlMismatch →
      (pool.add number item.type item.ttl item.rdata).1.contents? number = pool.contents? number
  exists_rrsetsOf : ∃ rrsets, pool.contents? number = some rrsets ∧ RrsetsOf items taken rrsets ∧
    ∀ type, pool.find? number type = rrsets.find? fun rrset => rrset.type = type
  find?_eq_none_iff : ∀ type,
    pool.find? number type = none ↔ ∀ item ∈ items, item.type ≠ type

/--
In any pool that came about, a new list that items are added to shows an RRset for each of their
types, in order, and a search by halves finds what a search one by one finds. An item is refused
exactly if the first of its type has another time to live, and then the list shows what it did.
-/
theorem newList_lists_items {pool : RrsetPool} (hReached : pool.IsReached)
    (items : List RrsetItem) :
    (pool.newList.1.addEach pool.newList.2 items).1.ListsItems pool.newList.2 items
      (pool.newList.1.addEach pool.newList.2 items).2 := by
  obtain ⟨copy, hShows⟩ := hReached.exists_shows
  have hFills := hShows.fills_newList.addEach items
  rw [List.nil_append, List.nil_append] at hFills
  exact ⟨hFills.add_eq_error_iff, fun _ => hFills.contents?_of_error, hFills.exists_rrsetsOf,
    hFills.find?_eq_none_iff⟩

def hourly : Ttl :=
  .ofRecord 3600

def daily : Ttl :=
  .ofRecord 86400

def address (last : UInt8) : Rdata :=
  ⟨[192, 0, 2, last], by simp [maxRdataLength]⟩

/-- A string of one octet. -/
def oneOctet (octet : UInt8) : Rdata :=
  ⟨[1, octet], by simp [maxRdataLength]⟩

/-- Data of two types, in which one item is refused and one is repeated. -/
def mixedItems : List RrsetItem :=
  [⟨.txt, daily, oneOctet 97⟩, ⟨.a, hourly, address 1⟩, ⟨.txt, hourly, oneOctet 98⟩,
    ⟨.a, hourly, address 2⟩, ⟨.a, hourly, address 1⟩]

/-- A pool with a list and its clone, which share an RRset. -/
def clonedPool : RrsetPool :=
  let pool := (empty.newList.1.add 0 .a hourly (address 1)).1
  { pool with lists := pool.lists ++ pool.lists }

theorem newList_lists_items_mixed :
    clonedPool.IsReached ∧
      ((clonedPool.newList.1.addEach 2 mixedItems).1.contents? 2).map (List.map Rrset.rdatas) =
        some [[address 1, address 2], [oneOctet 97]] ∧
      (clonedPool.newList.1.addEach 2 mixedItems).1.ListsItems 2 mixedItems
        (clonedPool.newList.1.addEach 2 mixedItems).2 := by
  have hAdded : (empty.newList.1.add 0 .a hourly (address 1)).1.IsReached :=
    .add ⟨.a, hourly, address 1⟩ (.newList .empty) (by decide)
  have hClone : (empty.newList.1.add 0 .a hourly (address 1)).1.clone? 0 =
      some (clonedPool, 1) := rfl
  have hCloned : clonedPool.IsReached := .clone hAdded hClone
  exact ⟨hCloned, by decide +kernel, newList_lists_items hCloned mixedItems⟩

end RrsetPool

end ZoneStore
