import Mathlib.Data.List.Count
import Mathlib.Data.List.Nodup
import ZoneStore.Host.Shelf

/-!
# Keeping shared objects

On a well kept shelf the numbers are distinct and smaller than the next
number to be given out, and every object has an owner. Putting, sharing,
replacing and releasing objects keep it so. Releasing takes exactly the
object off the shelf whose last owner gives it up, and leaves all others as
they are.
-/

namespace ZoneStore.Shelf

variable {α : Type} {shelf : Shelf α} {number other fresh : Nat} {value : α}

/-- Changes the entry of a number. -/
def edit (number : Nat) (change : Owned α → Owned α) (shelf : Shelf α) : Shelf α :=
  List.map (fun entry => if entry.number == number then change entry else entry) shelf

def adjust (number : Nat) (change : Nat → Nat) (shelf : Shelf α) : Shelf α :=
  List.map (fun entry =>
    if entry.number == number then { entry with owners := change entry.owners } else entry) shelf

def remove (number : Nat) (shelf : Shelf α) : Shelf α :=
  List.filter (fun entry => entry.number != number) shelf

theorem release_eq (shelf : Shelf α) (number : Nat) :
    shelf.release number =
      if shelf.ownersOf number ≤ 1 then (remove number shelf, shelf.find? number)
      else (adjust number (· - 1) shelf, none) := rfl

/-! ## Looking up -/

theorem entry_edit {change : Owned α → Owned α}
    (hNumber : ∀ entry, (change entry).number = entry.number) (number : Nat) (shelf : Shelf α)
    (other : Nat) :
    List.find? (fun entry => entry.number == other) (edit number change shelf) =
      (List.find? (fun entry => entry.number == other) shelf).map fun entry =>
        if entry.number == number then change entry else entry := by
  rw [edit, List.find?_map]
  congr 2
  funext entry
  dsimp only [Function.comp]
  split
  · rw [hNumber]
  · rfl

theorem numbers_edit {change : Owned α → Owned α}
    (hNumber : ∀ entry, (change entry).number = entry.number) (number : Nat) (shelf : Shelf α) :
    List.map Owned.number (edit number change shelf) = List.map Owned.number shelf := by
  rw [edit, List.map_map]
  congr 1
  funext entry
  dsimp only [Function.comp]
  split
  · exact hNumber entry
  · rfl

theorem entry_adjust (number : Nat) (change : Nat → Nat) (shelf : Shelf α) (other : Nat) :
    List.find? (fun entry => entry.number == other) (adjust number change shelf) =
      (List.find? (fun entry => entry.number == other) shelf).map fun entry =>
        if entry.number == number then { entry with owners := change entry.owners } else entry :=
  entry_edit (fun _ => by rfl) number shelf other

theorem entry_remove (number : Nat) (shelf : Shelf α) (other : Nat) :
    List.find? (fun entry => entry.number == other) (remove number shelf) =
      if other = number then none else List.find? (fun entry => entry.number == other) shelf := by
  rw [remove, List.find?_filter]
  by_cases hOther : other = number
  · rw [if_pos hOther, List.find?_eq_none]
    intro entry _ hMatch
    simp only [Bool.decide_and, Bool.and_eq_true, bne_iff_ne, beq_iff_eq,
      decide_eq_true_eq] at hMatch
    exact hMatch.1 (hMatch.2.trans hOther)
  · rw [if_neg hOther]
    congr 1
    funext entry
    rw [Bool.eq_iff_iff]
    simp only [Bool.decide_and, Bool.and_eq_true, bne_iff_ne, beq_iff_eq, decide_eq_true_eq]
    constructor
    · exact And.right
    · rintro rfl
      exact ⟨hOther, rfl⟩

theorem find?_put (shelf : Shelf α) (number : Nat) (value : α) (other : Nat) :
    (shelf.put number value).find? other =
      (shelf.find? other).or (if number = other then some value else none) := by
  unfold find? put
  rw [List.find?_append, Option.map_or]
  by_cases hOther : number = other
  · rw [if_pos hOther, List.find?_cons_of_pos (by simpa using hOther)]
    rfl
  · rw [if_neg hOther, List.find?_cons_of_neg (by simpa using hOther)]
    rfl

theorem find?_adjust (number : Nat) (change : Nat → Nat) (shelf : Shelf α) (other : Nat) :
    (adjust number change shelf).find? other = shelf.find? other := by
  unfold find?
  rw [entry_adjust, Option.map_map]
  congr 1
  funext entry
  dsimp only [Function.comp]
  split <;> rfl

theorem find?_share (shelf : Shelf α) (number other : Nat) :
    (shelf.share number).find? other = shelf.find? other :=
  find?_adjust number (· + 1) shelf other

theorem find?_remove (number : Nat) (shelf : Shelf α) (other : Nat) :
    (remove number shelf).find? other = if other = number then none else shelf.find? other := by
  unfold find?
  rw [entry_remove]
  split <;> rfl

theorem ownersOf_adjust_ne (change : Nat → Nat) (shelf : Shelf α) (hOther : other ≠ number) :
    (adjust number change shelf).ownersOf other = shelf.ownersOf other := by
  unfold ownersOf
  rw [entry_adjust, Option.map_map]
  cases hEntry : List.find? (fun entry => entry.number == other) shelf with
  | none => rfl
  | some entry =>
    have hNumber : entry.number = other := by simpa using List.find?_some hEntry
    have hNe : ¬(entry.number == number) = true := by
      rw [beq_iff_eq, hNumber]
      exact hOther
    simp only [Option.map_some, Function.comp, Option.getD_some]
    rw [if_neg hNe]

theorem ownersOf_adjust_self (change : Nat → Nat) (h : shelf.find? number = some value) :
    (adjust number change shelf).ownersOf number = change (shelf.ownersOf number) := by
  unfold find? at h
  unfold ownersOf
  rw [entry_adjust]
  obtain ⟨entry, hEntry, _⟩ := Option.map_eq_some_iff.mp h
  have hNumber := List.find?_some hEntry
  rw [hEntry]
  simp only [Option.map_some, Option.getD_some]
  rw [if_pos hNumber]

theorem ownersOf_remove (number : Nat) (shelf : Shelf α) (other : Nat) :
    (remove number shelf).ownersOf other = if other = number then 0 else shelf.ownersOf other := by
  unfold ownersOf
  rw [entry_remove]
  split <;> rfl

theorem ownersOf_eq_zero (h : shelf.find? number = none) : shelf.ownersOf number = 0 := by
  unfold find? at h
  unfold ownersOf
  rw [Option.map_eq_none_iff.mp h]
  rfl

theorem find?_release (shelf : Shelf α) (number other : Nat) :
    (shelf.release number).1.find? other =
      if other = number ∧ shelf.ownersOf number ≤ 1 then none else shelf.find? other := by
  rw [release_eq]
  by_cases hOwners : shelf.ownersOf number ≤ 1
  · rw [if_pos hOwners, find?_remove]
    simp [hOwners]
  · rw [if_neg hOwners, find?_adjust, if_neg fun h => hOwners h.2]

theorem ownersOf_put_self (value : α) (h : shelf.find? number = none) :
    (shelf.put number value).ownersOf number = 1 := by
  unfold find? at h
  unfold ownersOf put
  rw [List.find?_append, Option.map_eq_none_iff.mp h, Option.none_or,
    List.find?_cons_of_pos (by simp)]
  rfl

theorem ownersOf_put (shelf : Shelf α) (value : α) (hNumber : other ≠ number) :
    (shelf.put number value).ownersOf other = shelf.ownersOf other := by
  unfold ownersOf put
  have hLast : List.find? (fun entry : Owned α => entry.number == other) [⟨number, value, 1⟩] =
      none :=
    List.find?_cons_of_neg fun h => hNumber (beq_iff_eq.mp h).symm
  rw [List.find?_append, hLast, Option.or_none]

theorem ownersOf_share_self (h : shelf.find? number = some value) :
    (shelf.share number).ownersOf number = shelf.ownersOf number + 1 :=
  ownersOf_adjust_self (· + 1) h

theorem ownersOf_share_ne (shelf : Shelf α) (hOther : other ≠ number) :
    (shelf.share number).ownersOf other = shelf.ownersOf other :=
  ownersOf_adjust_ne (· + 1) shelf hOther

theorem ownersOf_release_self (shelf : Shelf α) (number : Nat) :
    (shelf.release number).1.ownersOf number = shelf.ownersOf number - 1 := by
  rw [release_eq]
  by_cases hOwners : shelf.ownersOf number ≤ 1
  · rw [if_pos hOwners, ownersOf_remove, if_pos rfl]
    omega
  · rw [if_neg hOwners]
    cases hFind : shelf.find? number with
    | none =>
      rw [ownersOf_eq_zero hFind] at hOwners
      exact absurd (Nat.zero_le 1) hOwners
    | some value => exact ownersOf_adjust_self (· - 1) hFind

theorem ownersOf_release_ne (shelf : Shelf α) (hOther : other ≠ number) :
    (shelf.release number).1.ownersOf other = shelf.ownersOf other := by
  rw [release_eq]
  split
  · rw [ownersOf_remove, if_neg hOther]
  · exact ownersOf_adjust_ne (· - 1) shelf hOther

/-! ## Well kept shelves -/

structure WellKept (shelf : Shelf α) (fresh : Nat) : Prop where
  nodup : (List.map Owned.number shelf).Nodup
  lt_fresh : ∀ entry ∈ shelf, entry.number < fresh
  owned : ∀ entry ∈ shelf, 1 ≤ entry.owners

theorem wellKept_nil (fresh : Nat) : WellKept ([] : Shelf α) fresh where
  nodup := List.nodup_nil
  lt_fresh := by simp
  owned := by simp

theorem WellKept.mono {later : Nat} (h : shelf.WellKept fresh) (hLe : fresh ≤ later) :
    shelf.WellKept later where
  nodup := h.nodup
  lt_fresh := fun entry hEntry => Nat.lt_of_lt_of_le (h.lt_fresh entry hEntry) hLe
  owned := h.owned

theorem WellKept.find?_eq_none (h : shelf.WellKept fresh) (hNumber : fresh ≤ number) :
    shelf.find? number = none := by
  unfold find?
  rw [Option.map_eq_none_iff, List.find?_eq_none]
  intro entry hEntry hMatch
  have hLt := h.lt_fresh entry hEntry
  rw [beq_iff_eq] at hMatch
  omega

theorem WellKept.lt_of_find? (h : shelf.WellKept fresh) (hFind : shelf.find? number = some value) :
    number < fresh := by
  by_contra hLe
  rw [h.find?_eq_none (Nat.not_lt.mp hLe)] at hFind
  cases hFind

theorem WellKept.one_le_ownersOf (h : shelf.WellKept fresh)
    (hFind : shelf.find? number = some value) : 1 ≤ shelf.ownersOf number := by
  unfold find? at hFind
  obtain ⟨entry, hEntry, _⟩ := Option.map_eq_some_iff.mp hFind
  unfold ownersOf
  rw [hEntry]
  exact h.owned entry (List.mem_of_find?_eq_some hEntry)

/-- The last owner of a value takes it off the shelf, and any other leaves it there. -/
theorem WellKept.release_cases (h : shelf.WellKept fresh)
    (hFind : shelf.find? number = some value) :
    (shelf.ownersOf number = 1 ∧ (shelf.release number).2 = some value ∧
        (shelf.release number).1.find? number = none) ∨
      (shelf.ownersOf number ≠ 1 ∧ (shelf.release number).2 = none ∧
        (shelf.release number).1.find? number = some value ∧
        (shelf.release number).1.ownersOf number + 1 = shelf.ownersOf number) := by
  have hPos := h.one_le_ownersOf hFind
  by_cases hLast : shelf.ownersOf number = 1
  · have hLe : shelf.ownersOf number ≤ 1 := Nat.le_of_eq hLast
    refine .inl ⟨hLast, ?_, ?_⟩
    · rw [release_eq, if_pos hLe]
      exact hFind
    · rw [find?_release, if_pos ⟨rfl, hLe⟩]
  · have hMore : ¬shelf.ownersOf number ≤ 1 := by omega
    refine .inr ⟨hLast, ?_, ?_, ?_⟩
    · rw [release_eq, if_neg hMore]
    · rw [find?_release, if_neg fun hOwners => hMore hOwners.2]
      exact hFind
    · rw [ownersOf_release_self]
      omega

theorem WellKept.put (h : shelf.WellKept fresh) (value : α) :
    (shelf.put fresh value).WellKept (fresh + 1) where
  nodup := by
    rw [Shelf.put, List.map_append, List.nodup_append]
    refine ⟨h.nodup, by simp, ?_⟩
    intro number hNumber last hLast
    obtain ⟨entry, hEntry, rfl⟩ := List.mem_map.mp hNumber
    have hLt := h.lt_fresh entry hEntry
    simp only [List.map_cons, List.map_nil, List.mem_singleton] at hLast
    omega
  lt_fresh := by
    intro entry hEntry
    rcases List.mem_append.mp hEntry with hOld | hNew
    · have hLt := h.lt_fresh entry hOld
      omega
    · rw [List.mem_singleton.mp hNew]
      exact Nat.lt_succ_self fresh
  owned := by
    intro entry hEntry
    rcases List.mem_append.mp hEntry with hOld | hNew
    · exact h.owned entry hOld
    · obtain rfl := List.mem_singleton.mp hNew
      exact Nat.le_refl 1

theorem WellKept.adjust {change : Nat → Nat} (h : shelf.WellKept fresh)
    (hChange : ∀ entry ∈ shelf, entry.number = number → 1 ≤ change entry.owners) :
    (Shelf.adjust number change shelf).WellKept fresh where
  nodup := by
    have hNumbers : List.map Owned.number (Shelf.adjust number change shelf) =
        List.map Owned.number shelf := numbers_edit (fun _ => by rfl) number shelf
    rw [hNumbers]
    exact h.nodup
  lt_fresh := by
    intro entry hEntry
    obtain ⟨old, hOld, rfl⟩ := List.mem_map.mp hEntry
    have hLt := h.lt_fresh old hOld
    split <;> exact hLt
  owned := by
    intro entry hEntry
    obtain ⟨old, hOld, rfl⟩ := List.mem_map.mp hEntry
    split
    · rename_i hNumber
      exact hChange old hOld (by simpa using hNumber)
    · exact h.owned old hOld

theorem WellKept.share (h : shelf.WellKept fresh) (number : Nat) :
    (shelf.share number).WellKept fresh :=
  h.adjust fun _ _ _ => Nat.le_add_left 1 _

theorem WellKept.remove (h : shelf.WellKept fresh) (number : Nat) :
    (Shelf.remove number shelf).WellKept fresh where
  nodup := h.nodup.sublist (List.filter_sublist.map _)
  lt_fresh := fun entry hEntry => h.lt_fresh entry (List.mem_of_mem_filter hEntry)
  owned := fun entry hEntry => h.owned entry (List.mem_of_mem_filter hEntry)

/-- On a well kept shelf the entry of a number is the only one with that number. -/
theorem WellKept.entry_eq (h : shelf.WellKept fresh) {entry : Owned α} (hEntry : entry ∈ shelf) :
    List.find? (fun candidate => candidate.number == entry.number) shelf = some entry := by
  rw [List.find?_eq_some_iff_append]
  obtain ⟨front, back, hShelf⟩ := List.append_of_mem hEntry
  refine ⟨by simp, front, back, hShelf, ?_⟩
  intro candidate hCandidate
  have hNodup := h.nodup
  rw [hShelf, List.map_append, List.nodup_append] at hNodup
  have hNe := hNodup.2.2 candidate.number (List.mem_map_of_mem hCandidate) entry.number (by simp)
  simpa using hNe

theorem WellKept.owners_eq (h : shelf.WellKept fresh) {entry : Owned α} (hEntry : entry ∈ shelf) :
    shelf.ownersOf entry.number = entry.owners := by
  rw [ownersOf, h.entry_eq hEntry]
  rfl

theorem WellKept.find?_eq_some_iff (h : shelf.WellKept fresh) :
    shelf.find? number = some value ↔
      ∃ entry ∈ shelf, entry.number = number ∧ entry.value = value := by
  unfold find?
  rw [Option.map_eq_some_iff]
  constructor
  · rintro ⟨entry, hEntry, hValue⟩
    exact ⟨entry, List.mem_of_find?_eq_some hEntry, by simpa using List.find?_some hEntry, hValue⟩
  · rintro ⟨entry, hEntry, rfl, hValue⟩
    exact ⟨entry, h.entry_eq hEntry, hValue⟩

theorem WellKept.release (h : shelf.WellKept fresh) (number : Nat) :
    (shelf.release number).1.WellKept fresh := by
  rw [release_eq]
  split
  · exact h.remove number
  · rename_i hOwners
    change (Shelf.adjust number (· - 1) shelf).WellKept fresh
    apply h.adjust
    rintro entry hEntry rfl
    rw [h.owners_eq hEntry] at hOwners
    omega

/-! ## The objects on a shelf -/

def values (shelf : Shelf α) : List α :=
  List.map Owned.value shelf

theorem values_put (shelf : Shelf α) (number : Nat) (value : α) :
    (shelf.put number value).values = shelf.values ++ [value] := by
  simp [values, put]

theorem values_adjust (number : Nat) (change : Nat → Nat) (shelf : Shelf α) :
    (adjust number change shelf).values = shelf.values := by
  rw [values, adjust, List.map_map, values]
  congr 1
  funext entry
  dsimp only [Function.comp]
  split <;> rfl

theorem values_share (shelf : Shelf α) (number : Nat) :
    (shelf.share number).values = shelf.values :=
  values_adjust number (· + 1) shelf

theorem values_remove (hNodup : (List.map Owned.number shelf).Nodup) (number : Nat) :
    ((shelf.find? number).toList ++ (remove number shelf).values).Perm shelf.values := by
  induction shelf with
  | nil => exact .nil
  | cons entry shelf ih =>
    rw [List.map_cons, List.nodup_cons] at hNodup
    have hRest := ih hNodup.2
    unfold find? remove values at hRest ⊢
    by_cases hNumber : entry.number = number
    · subst hNumber
      -- The numbers are distinct, so nothing behind this entry goes with it.
      have hAbsent : List.filter (fun other => other.number != entry.number) shelf = shelf := by
        rw [List.filter_eq_self]
        intro other hOther
        have hNe : other.number ≠ entry.number := fun hSame =>
          hNodup.1 (hSame ▸ List.mem_map_of_mem hOther)
        simpa using hNe
      rw [List.find?_cons_of_pos (by simp), List.filter_cons_of_neg (by simp), hAbsent]
      exact .refl _
    · rw [List.find?_cons_of_neg (by simpa using hNumber),
        List.filter_cons_of_pos (by simpa using hNumber), List.map_cons, List.map_cons]
      exact List.perm_middle.trans (hRest.cons _)

/-- An object that leaves the shelf is the one that is returned. -/
theorem WellKept.values_release (h : shelf.WellKept fresh) (number : Nat) :
    ((shelf.release number).2.toList ++ (shelf.release number).1.values).Perm shelf.values := by
  rw [release_eq]
  split
  · exact values_remove h.nodup number
  · rw [values_adjust]
    exact .refl _

/-! ## Giving up many owners -/

/-- What is put on the shelf and given up at once leaves nothing behind. -/
theorem release_put (hAbsent : shelf.find? number = none) (value : α) :
    ((shelf.put number value).release number).1 = shelf := by
  have hOwners : (shelf.put number value).ownersOf number ≤ 1 :=
    Nat.le_of_eq (ownersOf_put_self value hAbsent)
  unfold find? at hAbsent
  rw [Option.map_eq_none_iff, List.find?_eq_none] at hAbsent
  rw [release_eq, if_pos hOwners]
  change List.filter _ (shelf ++ [_]) = shelf
  rw [List.filter_append, List.filter_eq_self.mpr fun entry hEntry => by
      simpa using hAbsent entry hEntry]
  simp

def releaseAll (numbers : List Nat) (shelf : Shelf α) : Shelf α :=
  numbers.foldl (fun shelf number => (shelf.release number).1) shelf

theorem WellKept.releaseAll (h : shelf.WellKept fresh) (numbers : List Nat) :
    (Shelf.releaseAll numbers shelf).WellKept fresh := by
  induction numbers generalizing shelf with
  | nil => exact h
  | cons number numbers ih => exact ih (h.release number)

theorem ownersOf_releaseAll (numbers : List Nat) (shelf : Shelf α) (number : Nat) :
    (releaseAll numbers shelf).ownersOf number = shelf.ownersOf number - numbers.count number := by
  induction numbers generalizing shelf with
  | nil => rfl
  | cons first numbers ih =>
    have hRest : releaseAll (first :: numbers) shelf =
        releaseAll numbers (shelf.release first).1 := rfl
    rw [hRest, ih]
    by_cases hFirst : first = number
    · subst hFirst
      rw [ownersOf_release_self, List.count_cons_self]
      omega
    · rw [ownersOf_release_ne _ (Ne.symm hFirst), List.count_cons_of_ne hFirst]

theorem find?_release_cases (shelf : Shelf α) (number other : Nat) :
    (shelf.release number).1.find? other = none ∨
      (shelf.release number).1.find? other = shelf.find? other := by
  rw [find?_release]
  split
  · exact .inl rfl
  · exact .inr rfl

theorem find?_releaseAll_cases (numbers : List Nat) (shelf : Shelf α) (other : Nat) :
    (releaseAll numbers shelf).find? other = none ∨
      (releaseAll numbers shelf).find? other = shelf.find? other := by
  induction numbers generalizing shelf with
  | nil => exact .inr rfl
  | cons number numbers ih =>
    have hRest : releaseAll (number :: numbers) shelf =
        releaseAll numbers (shelf.release number).1 := rfl
    rw [hRest]
    obtain hNone | hSame := ih (shelf.release number).1
    · exact .inl hNone
    · rw [hSame]
      exact find?_release_cases shelf number other

theorem WellKept.ownersOf_eq_zero_iff (h : shelf.WellKept fresh) :
    shelf.ownersOf number = 0 ↔ shelf.find? number = none := by
  constructor
  · intro hOwners
    cases hFind : shelf.find? number with
    | none => rfl
    | some value =>
      have hPos := h.one_le_ownersOf hFind
      omega
  · exact ownersOf_eq_zero

/-! ## Objects that come to act in another way -/

/-- Puts another value in the place of an object, for the same owners. -/
def replace (number : Nat) (value : α) (shelf : Shelf α) : Shelf α :=
  edit number (fun entry => { entry with value := value }) shelf

theorem entry_replace (number : Nat) (value : α) (shelf : Shelf α) (other : Nat) :
    List.find? (fun entry => entry.number == other) (replace number value shelf) =
      (List.find? (fun entry => entry.number == other) shelf).map fun entry =>
        if entry.number == number then { entry with value := value } else entry :=
  entry_edit (fun _ => by rfl) number shelf other

theorem ownersOf_replace (number : Nat) (value : α) (shelf : Shelf α) (other : Nat) :
    (replace number value shelf).ownersOf other = shelf.ownersOf other := by
  unfold ownersOf
  rw [entry_replace, Option.map_map]
  congr 2
  funext entry
  dsimp only [Function.comp]
  split <;> rfl

theorem find?_replace_ne (value : α) (shelf : Shelf α) (hOther : other ≠ number) :
    (replace number value shelf).find? other = shelf.find? other := by
  unfold find?
  rw [entry_replace, Option.map_map]
  cases hEntry : List.find? (fun entry => entry.number == other) shelf with
  | none => rfl
  | some entry =>
    have hNumber : entry.number = other := by simpa using List.find?_some hEntry
    have hNe : ¬(entry.number == number) = true := by
      rw [beq_iff_eq, hNumber]
      exact hOther
    simp only [Option.map_some, Function.comp]
    rw [if_neg hNe]

theorem WellKept.replace (h : shelf.WellKept fresh) (number : Nat) (value : α) :
    (Shelf.replace number value shelf).WellKept fresh where
  nodup := by
    have hNumbers : List.map Owned.number (Shelf.replace number value shelf) =
        List.map Owned.number shelf := numbers_edit (fun _ => by rfl) number shelf
    rw [hNumbers]
    exact h.nodup
  lt_fresh := by
    intro entry hEntry
    obtain ⟨old, hOld, rfl⟩ := List.mem_map.mp hEntry
    have hLt := h.lt_fresh old hOld
    split <;> exact hLt
  owned := by
    intro entry hEntry
    obtain ⟨old, hOld, rfl⟩ := List.mem_map.mp hEntry
    have hOwned := h.owned old hOld
    split <;> exact hOwned

end ZoneStore.Shelf
