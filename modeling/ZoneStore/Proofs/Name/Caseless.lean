import ZoneStore.Proofs.Name.Wire

/-!
# Names up to letter case

Names are compared by their whole wire forms. Length octets are no letters,
so the comparison amounts to equality of the names whose labels are written
small. Enclosure is read off the same names: what is below a zone has the
labels of the zone behind labels of its own.
-/

namespace ZoneStore

open Text

theorem lowerOctet_of_lt {octet : UInt8} (h : octet < 65) : lowerOctet octet = octet := by
  rw [lowerOctet, if_neg fun hLetter => absurd h (UInt8.not_lt.mpr hLetter.1)]

def Label.lower (label : Label) : Label where
  octets := label.octets.map lowerOctet
  ne_nil := fun h => label.ne_nil (List.map_eq_nil_iff.mp h)
  length_le := by
    rw [List.length_map]
    exact label.length_le

theorem Label.wireLength_lower (label : Label) : label.lower.wireLength = label.wireLength := by
  rw [wireLength, lower, List.length_map, wireLength]

theorem Label.wire_lower (label : Label) : label.lower.wire = label.wire.map lowerOctet := by
  have hLength : label.octets.length.toUInt8 < 65 := by
    rw [UInt8.lt_iff_toNat_lt, Nat.toUInt8,
      UInt8.toNat_ofNat_of_lt' (Nat.lt_of_le_of_lt label.length_le (by decide))]
    exact Nat.lt_of_le_of_lt label.length_le (by decide)
  rw [wire, lower, List.length_map, wire, List.map_cons, lowerOctet_of_lt hLength]

theorem wireLengthOf_map_lower (labels : List Label) :
    wireLengthOf (labels.map Label.lower) = wireLengthOf labels := by
  induction labels with
  | nil => rfl
  | cons label labels ih =>
    rw [List.map_cons, wireLengthOf_cons, wireLengthOf_cons, ih, Label.wireLength_lower]

namespace Name

/-- The name with every ASCII capital letter made small. -/
def lower (name : Name) : Name where
  labels := name.labels.map Label.lower
  wireLength_le := by
    rw [wireLengthOf_map_lower]
    exact name.wireLength_le

theorem labels_lower (name : Name) : name.lower.labels = name.labels.map Label.lower := rfl

theorem flatMap_wire_lower (labels : List Label) :
    (labels.map Label.lower).flatMap Label.wire = (labels.flatMap Label.wire).map lowerOctet := by
  induction labels with
  | nil => rfl
  | cons label labels ih =>
    rw [List.map_cons, List.flatMap_cons, ih, Label.wire_lower, List.flatMap_cons, List.map_append]

theorem wire_lower (name : Name) : name.lower.wire = name.caselessWire := by
  rw [wire, labels_lower, flatMap_wire_lower, caselessWire, wire, List.map_append]
  rfl

theorem same_iff {a b : Name} : a.same b = true ↔ a.lower = b.lower := by
  rw [same, beq_iff_eq, ← wire_lower, ← wire_lower]
  constructor
  · intro h
    exact wire_injective h
  · intro h
    rw [h]

theorem same_eq_decide (a b : Name) : a.same b = decide (a.lower = b.lower) := by
  rw [Bool.eq_iff_iff, same_iff, decide_eq_true_iff]

/-! ## Superdomains -/

/-- A proper subdomain has the labels of the zone, up to letter case, behind labels of its own. -/
def IsBelow (name zone : Name) : Prop :=
  ∃ front, front ≠ [] ∧ name.lower.labels = front ++ zone.lower.labels

theorem isBelow_congr {name other zone : Name} (h : name.lower = other.lower) :
    name.IsBelow zone ↔ other.IsBelow zone := by
  rw [IsBelow, IsBelow, h]

theorem isBelow_iff {name zone : Name} :
    name.IsBelow zone ↔
      zone.lower.labels ≠ name.lower.labels ∧ zone.lower.labels <:+ name.lower.labels := by
  constructor
  · rintro ⟨front, hFront, hLabels⟩
    refine ⟨?_, front, hLabels.symm⟩
    intro hSame
    rw [hSame, List.self_eq_append_left] at hLabels
    exact hFront hLabels
  · rintro ⟨hNe, front, hLabels⟩
    refine ⟨front, ?_, hLabels.symm⟩
    rintro rfl
    exact hNe hLabels

instance (name zone : Name) : Decidable (name.IsBelow zone) :=
  decidable_of_iff _ isBelow_iff.symm

theorem superdomain?_eq_some_iff {name zone : Name} {skip : Nat} :
    name.superdomain? skip = some zone ↔
      skip < name.labelCount ∧ zone.labels = name.labels.drop skip := by
  unfold superdomain?
  split
  · rename_i hSkip
    rw [Option.some.injEq]
    constructor
    · rintro rfl
      exact ⟨hSkip, rfl⟩
    · rintro ⟨_, hLabels⟩
      exact Name.ext hLabels.symm
  · rename_i hSkip
    constructor
    · intro h
      cases h
    · rintro ⟨h, _⟩
      exact absurd h hSkip

theorem mem_properSuperdomains_iff {name zone : Name} :
    zone ∈ name.properSuperdomains ↔
      ∃ front, front ≠ [] ∧ name.labels = front ++ zone.labels := by
  rw [properSuperdomains, List.mem_filterMap]
  constructor
  · rintro ⟨skip, hSkip, hZone⟩
    obtain ⟨hCount, hLabels⟩ := superdomain?_eq_some_iff.mp hZone
    rw [List.mem_range'_1] at hSkip
    rw [labelCount] at hCount
    refine ⟨name.labels.take skip, ?_, by rw [hLabels, List.take_append_drop]⟩
    apply List.ne_nil_of_length_pos
    rw [List.length_take]
    omega
  · rintro ⟨front, hFront, hLabels⟩
    have hPos := List.length_pos_iff.mpr hFront
    have hLength := congrArg List.length hLabels
    rw [List.length_append] at hLength
    refine ⟨front.length, ?_, superdomain?_eq_some_iff.mpr ⟨?_, ?_⟩⟩
    · rw [List.mem_range'_1, labelCount]
      omega
    · rw [labelCount]
      omega
    · rw [hLabels, List.drop_left]

/-- Some proper superdomain is a given name, up to letter case, exactly below that name. -/
theorem exists_properSuperdomain_iff {name zone : Name} :
    (∃ ancestor ∈ name.properSuperdomains, ancestor.lower = zone.lower) ↔ name.IsBelow zone := by
  constructor
  · rintro ⟨ancestor, hAncestor, hLower⟩
    obtain ⟨front, hFront, hLabels⟩ := mem_properSuperdomains_iff.mp hAncestor
    refine ⟨front.map Label.lower, fun h => hFront (List.map_eq_nil_iff.mp h), ?_⟩
    rw [← hLower, labels_lower, hLabels, List.map_append, labels_lower]
  · rintro ⟨front, hFront, hLower⟩
    obtain ⟨own, rest, hLabels, rfl, hRest⟩ := List.map_eq_append_iff.mp hLower
    have hWire := name.wireLength_le
    rw [hLabels, wireLengthOf_append] at hWire
    refine ⟨⟨rest, by omega⟩, mem_properSuperdomains_iff.mpr ⟨own, ?_, hLabels⟩, Name.ext hRest⟩
    rintro rfl
    exact hFront rfl

end Name

end ZoneStore
