/-!
# Binary search in an ordered list

Halving a list that is ordered by a key splits it at a wanted key into the
members below it, the member that has it, if any, and the members above
it. The three parts always make up the list again.
-/

namespace ZoneStore

structure Split (α : Type) where
  below : List α
  found : Option α
  above : List α

def Split.members {α : Type} (split : Split α) : List α :=
  split.below ++ split.found.toList ++ split.above

/-- Members in strictly increasing order of their keys. -/
def OrderedBy {α : Type} (key : α → Nat) (members : List α) : Prop :=
  members.Pairwise fun a b => key a < key b

def bisectWithin {α : Type} (key : α → Nat) (wanted : Nat) : Nat → List α → Split α
  | 0, members => ⟨members, none, []⟩
  | fuel + 1, members =>
    match members.drop (members.length / 2) with
    | [] => ⟨[], none, []⟩
    | middle :: above =>
      let below := members.take (members.length / 2)
      if key middle = wanted then
        ⟨below, some middle, above⟩
      else if key middle < wanted then
        let split := bisectWithin key wanted fuel above
        ⟨below ++ middle :: split.below, split.found, split.above⟩
      else
        let split := bisectWithin key wanted fuel below
        ⟨split.below, split.found, split.above ++ middle :: above⟩

def bisect {α : Type} (key : α → Nat) (wanted : Nat) (members : List α) : Split α :=
  bisectWithin key wanted members.length members

theorem members_bisectWithin {α : Type} (key : α → Nat) (wanted fuel : Nat) (members : List α) :
    (bisectWithin key wanted fuel members).members = members := by
  induction fuel generalizing members with
  | zero => simp [bisectWithin, Split.members]
  | succ fuel ih =>
    have hParts := List.take_append_drop (members.length / 2) members
    rw [bisectWithin]
    split
    · rename_i hDrop
      have hLength := congrArg List.length hDrop
      simp only [List.length_drop, List.length_nil] at hLength
      have hNil : members = [] := List.eq_nil_of_length_eq_zero (by omega)
      simp [Split.members, hNil]
    · rename_i middle above hDrop
      rw [hDrop] at hParts
      dsimp only
      split
      · simpa [Split.members] using hParts
      · split
        · have hAbove := ih above
          simp only [Split.members, List.append_assoc, List.cons_append] at hAbove ⊢
          rw [hAbove, hParts]
        · have hBelow := ih (members.take (members.length / 2))
          simp only [Split.members] at hBelow ⊢
          rw [← List.append_assoc, hBelow, hParts]

theorem members_bisect {α : Type} (key : α → Nat) (wanted : Nat) (members : List α) :
    (bisect key wanted members).members = members :=
  members_bisectWithin key wanted members.length members

theorem key_found_bisectWithin {α : Type} {key : α → Nat} {wanted fuel : Nat} {members : List α}
    {a : α} (h : (bisectWithin key wanted fuel members).found = some a) : key a = wanted := by
  induction fuel generalizing members with
  | zero => simp [bisectWithin] at h
  | succ fuel ih =>
    rw [bisectWithin] at h
    split at h
    · simp at h
    · dsimp only at h
      split at h
      · simp only [Option.some.injEq] at h
        subst h
        assumption
      · split at h
        · exact ih h
        · exact ih h

theorem key_found_bisect {α : Type} {key : α → Nat} {wanted : Nat} {members : List α} {a : α}
    (h : (bisect key wanted members).found = some a) : key a = wanted :=
  key_found_bisectWithin h

/-- The parts beside the wanted key hold smaller and greater keys only. -/
theorem sides_bisectWithin {α : Type} {key : α → Nat} {wanted fuel : Nat} {members : List α}
    (hOrder : OrderedBy key members) (hFuel : members.length ≤ fuel) :
    (∀ a ∈ (bisectWithin key wanted fuel members).below, key a < wanted) ∧
      ∀ a ∈ (bisectWithin key wanted fuel members).above, wanted < key a := by
  induction fuel generalizing members with
  | zero =>
    have hNil : members = [] := List.eq_nil_of_length_eq_zero (by omega)
    simp [bisectWithin, hNil]
  | succ fuel ih =>
    have hParts := List.take_append_drop (members.length / 2) members
    rw [bisectWithin]
    split
    · simp
    · rename_i middle above hDrop
      rw [hDrop] at hParts
      have hLength := congrArg List.length hDrop
      simp only [List.length_drop, List.length_cons] at hLength
      have hOrder' := hOrder
      rw [OrderedBy, ← hParts, List.pairwise_append, List.pairwise_cons] at hOrder'
      obtain ⟨hBelow, ⟨hMiddle, hAbove⟩, hCross⟩ := hOrder'
      dsimp only
      split
      · rename_i hKey
        refine ⟨fun a ha => ?_, fun a ha => ?_⟩
        · have := hCross a ha middle (by simp)
          omega
        · have := hMiddle a ha
          omega
      · split
        · rename_i hKey
          obtain ⟨hLow, hHigh⟩ := ih hAbove (by omega)
          refine ⟨fun a ha => ?_, hHigh⟩
          simp only [List.mem_append, List.mem_cons] at ha
          rcases ha with ha | rfl | ha
          · have := hCross a ha middle (by simp)
            omega
          · exact hKey
          · exact hLow a ha
        · rename_i hNe hKey
          obtain ⟨hLow, hHigh⟩ := ih hBelow (by simp only [List.length_take]; omega)
          refine ⟨hLow, fun a ha => ?_⟩
          simp only [List.mem_append, List.mem_cons] at ha
          rcases ha with ha | rfl | ha
          · exact hHigh a ha
          · omega
          · have := hMiddle a ha
            omega

theorem lt_of_mem_below {α : Type} {key : α → Nat} {wanted : Nat} {members : List α}
    (hOrder : OrderedBy key members) {a : α} (ha : a ∈ (bisect key wanted members).below) :
    key a < wanted :=
  (sides_bisectWithin hOrder (Nat.le_refl _)).1 a ha

theorem lt_of_mem_above {α : Type} {key : α → Nat} {wanted : Nat} {members : List α}
    (hOrder : OrderedBy key members) {a : α} (ha : a ∈ (bisect key wanted members).above) :
    wanted < key a :=
  (sides_bisectWithin hOrder (Nat.le_refl _)).2 a ha

/-- A member with the wanted key can stand at the place of the split. -/
theorem orderedBy_bisect_insert {α : Type} {key : α → Nat} {wanted : Nat} {members : List α}
    (hOrder : OrderedBy key members) {a : α} (ha : key a = wanted) :
    OrderedBy key
      ((bisect key wanted members).below ++ a :: (bisect key wanted members).above) := by
  have hParts := members_bisect key wanted members
  have hOrder' := hOrder
  rw [OrderedBy, ← hParts, Split.members, List.append_assoc, List.pairwise_append,
    List.pairwise_append] at hOrder'
  obtain ⟨hBelow, ⟨_, hAbove, _⟩, hCross⟩ := hOrder'
  rw [OrderedBy, List.pairwise_append, List.pairwise_cons]
  refine ⟨hBelow, ⟨fun b hb => ?_, hAbove⟩, fun b hb c hc => ?_⟩
  · have := lt_of_mem_above hOrder hb
    omega
  · rcases List.mem_cons.mp hc with rfl | hc
    · have := lt_of_mem_below hOrder hb
      omega
    · exact hCross b hb c (by simp [hc])

end ZoneStore
