import ZoneStore.Name.Packed
import ZoneStore.Proofs.Name.Buffer
import ZoneStore.Proofs.Name.Caseless

/-!
# Labels and superdomains of packed names

The offset of a label is the number of octets in front of it. In the packed
form of a name every label is therefore found within the octets, and the
differences of offsets that a superdomain is made of are not below zero.
-/

namespace ZoneStore

/-! ## Offsets and octets from a label on -/

namespace Name

theorem head?_offsetsFrom (start : Nat) (labels : List Label) :
    (offsetsFrom start labels).head? = some start := by
  cases labels <;> rfl

theorem drop_offsetsFrom {skip : Nat} {labels : List Label} (start : Nat)
    (h : skip ≤ labels.length) :
    (offsetsFrom start labels).drop skip =
      offsetsFrom (start + wireLengthOf (labels.take skip)) (labels.drop skip) := by
  induction skip generalizing start labels with
  | zero => rfl
  | succ skip ih =>
    cases labels with
    | nil => cases h
    | cons label labels =>
      rw [offsetsFrom, List.drop_succ_cons, ih _ (Nat.le_of_succ_le_succ h), List.take_succ_cons,
        List.drop_succ_cons, wireLengthOf_cons, Nat.add_assoc]

theorem drop_flatMap_wire (labels : List Label) (skip : Nat) :
    (labels.flatMap Label.wire ++ [0]).drop (wireLengthOf (labels.take skip)) =
      (labels.drop skip).flatMap Label.wire ++ [0] := by
  have hSplit : labels.flatMap Label.wire =
      (labels.take skip).flatMap Label.wire ++ (labels.drop skip).flatMap Label.wire := by
    rw [← List.flatMap_append, List.take_append_drop]
  rw [hSplit, List.append_assoc]
  exact List.drop_left' (length_flatMap_wire (labels.take skip))

theorem drop_labelOctets {name : Name} {skip : Nat} (h : skip ≤ name.labels.length) :
    name.labelOctets.drop skip = (name.labels.drop skip).map Label.octets ++ [[]] := by
  rw [labelOctets, List.drop_append_of_le_length (by rwa [List.length_map]), List.map_drop]

/-- The number of octets in front of a label, which is where its length octet is. -/
def offsetOf (name : Name) (n : Nat) : Nat :=
  wireLengthOf (name.labels.take n)

theorem offsetOf_add (name : Name) (n : Nat) :
    name.offsetOf n + wireLengthOf (name.labels.drop n) = wireLengthOf name.labels := by
  rw [offsetOf, ← wireLengthOf_append, List.take_append_drop]

theorem offsetOf_lt (name : Name) (n : Nat) : name.offsetOf n < 255 := by
  have hAdd := name.offsetOf_add n
  have hWire := name.wireLength_le
  rw [maxWireLength] at hWire
  omega

theorem toNat_offsetOf (name : Name) (n : Nat) :
    (name.offsetOf n).toUInt8.toNat = name.offsetOf n :=
  UInt8.toNat_ofNat_of_lt' (Nat.lt_trans (name.offsetOf_lt n) (by decide))

theorem drop_offsets_packed {name : Name} {skip : Nat} (h : skip ≤ name.labels.length) :
    name.packed.offsets.drop skip =
      (offsetsFrom (name.offsetOf skip) (name.labels.drop skip)).map Nat.toUInt8 := by
  rw [packed, ← List.map_drop, offsets, drop_offsetsFrom 0 h, Nat.zero_add, offsetOf]

theorem length_offsets_packed (name : Name) : name.packed.offsets.length = name.labelCount := by
  rw [packed, List.length_map, offsets, length_offsetsFrom, labelCount]

theorem offsets_packed_getElem? {name : Name} {n : Nat} (h : n ≤ name.labels.length) :
    name.packed.offsets[n]? = some (name.offsetOf n).toUInt8 := by
  rw [← List.head?_drop, drop_offsets_packed h, List.head?_map, head?_offsetsFrom]
  rfl

theorem offsets_packed_getElem?_eq_none {name : Name} {n : Nat} (h : name.labels.length < n) :
    name.packed.offsets[n]? = none := by
  rw [List.getElem?_eq_none_iff, length_offsets_packed]
  exact h

theorem drop_wire_packed (name : Name) (n : Nat) :
    name.packed.wire.drop (name.offsetOf n) = (name.labels.drop n).flatMap Label.wire ++ [0] :=
  drop_flatMap_wire name.labels n

theorem length_wire_packed (name : Name) :
    name.packed.wire.length = wireLengthOf name.labels + 1 :=
  name.length_wire

theorem head_wire_packed (name : Name) (n : Nat) :
    name.packed.wire[name.offsetOf n]? =
      ((name.labels.drop n).flatMap Label.wire ++ [0]).head? := by
  rw [← List.head?_drop, drop_wire_packed]

end Name

/-! ## Labels and superdomains -/

theorem slice?_of_le {octets : List UInt8} {start count : Nat}
    (h : start + count ≤ octets.length) :
    slice? octets start (start + count) = some ((octets.drop start).take count) := by
  rw [slice?, if_pos ⟨Nat.le_add_right start count, h⟩, Nat.add_sub_cancel_left]

theorem Label.toNat_length (label : Label) :
    label.octets.length.toUInt8.toNat = label.octets.length :=
  UInt8.toNat_ofNat_of_lt' (Nat.lt_of_le_of_lt label.length_le (by decide))

namespace Name

theorem label?_packed (name : Name) (n : Nat) : name.packed.label? n = name.label? n := by
  unfold PackedName.label?
  by_cases hCount : n ≤ name.labels.length
  · have hAdd := name.offsetOf_add n
    have hOctets : name.label? n = ((name.labels.drop n).map Label.octets ++ [[]]).head? := by
      rw [label?, ← List.head?_drop, drop_labelOctets hCount]
    have hWire := name.drop_wire_packed n
    have hLength := name.length_wire_packed
    rw [offsets_packed_getElem? hCount]
    dsimp only
    rw [toNat_offsetOf, head_wire_packed, hOctets]
    cases hRest : name.labels.drop n with
    | nil =>
      rw [hRest, wireLengthOf_nil] at hAdd
      exact slice?_of_le (by simp; omega)
    | cons label rest =>
      rw [hRest, wireLengthOf_cons, Label.wireLength] at hAdd
      rw [hRest] at hWire
      have hFrom : name.packed.wire.drop (name.offsetOf n + 1) =
          label.octets ++ (rest.flatMap Label.wire ++ [0]) := by
        rw [← List.drop_drop, hWire, List.flatMap_cons, List.append_assoc]
        rfl
      have hSlice : slice? name.packed.wire (name.offsetOf n + 1)
          (name.offsetOf n + 1 + label.octets.length) = some label.octets := by
        rw [slice?_of_le (by omega), hFrom, List.take_left]
      rw [← Label.toNat_length] at hSlice
      exact hSlice
  · rw [offsets_packed_getElem?_eq_none (Nat.not_le.mp hCount)]
    symm
    rw [label?, List.getElem?_eq_none_iff, length_labelOctets, labelCount]
    omega

theorem rebase?_toUInt8 {start extra : Nat} (h : start + extra < 256) :
    PackedName.rebase? start.toUInt8 (start + extra).toUInt8 = some extra.toUInt8 := by
  have hStart : start.toUInt8.toNat = start :=
    UInt8.toNat_ofNat_of_lt' (Nat.lt_of_le_of_lt (Nat.le_add_right start extra) h)
  have hExtra : extra.toUInt8.toNat = extra :=
    UInt8.toNat_ofNat_of_lt' (Nat.lt_of_le_of_lt (Nat.le_add_left extra start) h)
  have hSum : (start + extra).toUInt8.toNat = start + extra := UInt8.toNat_ofNat_of_lt' h
  have hLe : start.toUInt8 ≤ (start + extra).toUInt8 := by
    rw [UInt8.le_iff_toNat_le, hStart, hSum]
    exact Nat.le_add_right start extra
  rw [PackedName.rebase?, if_pos hLe, Option.some.injEq, ← UInt8.toNat_inj,
    UInt8.toNat_sub_of_le _ _ hLe, hSum, hStart, hExtra]
  exact Nat.add_sub_cancel_left start extra

theorem mapM_rebase? {start extra : Nat} {labels : List Label}
    (h : start + extra + wireLengthOf labels < 256) :
    ((offsetsFrom (start + extra) labels).map Nat.toUInt8).mapM
        (PackedName.rebase? start.toUInt8) =
      some ((offsetsFrom extra labels).map Nat.toUInt8) := by
  induction labels generalizing extra with
  | nil =>
    rw [wireLengthOf_nil, Nat.add_zero] at h
    rw [offsetsFrom, List.map_singleton, List.mapM_cons, rebase?_toUInt8 h]
    rfl
  | cons label labels ih =>
    -- Rebasing the first offset leaves the others counted from the same start.
    rw [wireLengthOf_cons] at h
    have hRest := ih (by omega : start + (extra + label.wireLength) + wireLengthOf labels < 256)
    rw [offsetsFrom, List.map_cons, List.mapM_cons, rebase?_toUInt8 (by omega), Nat.add_assoc,
      hRest]
    rfl

theorem superdomain?_packed (name : Name) (skip : Nat) :
    name.packed.superdomain? skip = some ((name.superdomain? skip).map packed) := by
  unfold PackedName.superdomain?
  by_cases hCount : skip ≤ name.labels.length
  · have hAdd := name.offsetOf_add skip
    have hLength := name.length_wire_packed
    have hWire := name.wireLength_le
    rw [maxWireLength] at hWire
    have hOffsets : (name.packed.offsets.drop skip).mapM
        (PackedName.rebase? (name.offsetOf skip).toUInt8) =
        some ((offsetsFrom 0 (name.labels.drop skip)).map Nat.toUInt8) := by
      rw [drop_offsets_packed hCount]
      have hFits : name.offsetOf skip + 0 + wireLengthOf (name.labels.drop skip) < 256 := by omega
      exact mapM_rebase? hFits
    have hSlice : slice? name.packed.wire (name.offsetOf skip) name.packed.wire.length =
        some ((name.labels.drop skip).flatMap Label.wire ++ [0]) := by
      rw [slice?, if_pos ⟨by omega, Nat.le_refl _⟩, drop_wire_packed, List.take_of_length_le]
      rw [List.length_append, length_flatMap_wire, List.length_singleton]
      omega
    rw [offsets_packed_getElem? hCount]
    dsimp only
    rw [hOffsets, toNat_offsetOf, hSlice, superdomain?,
      if_pos (by rw [labelCount]; omega)]
    rfl
  · rw [offsets_packed_getElem?_eq_none (Nat.not_le.mp hCount), superdomain?,
      if_neg (by rw [labelCount]; omega)]
    rfl

end Name

/-! ## Walks over the labels -/

namespace Name

theorem labels?_packed {name : Name} {count : Nat} (h : count ≤ name.labelCount) :
    name.packed.labels? count = some (name.labelOctets.take count) := by
  rw [← length_labelOctets] at h
  induction count with
  | zero => rfl
  | succ count ih =>
    have hLabel : name.packed.label? count = some name.labelOctets[count] := by
      rw [label?_packed, label?, List.getElem?_eq_getElem h]
    rw [PackedName.labels?] at ih ⊢
    rw [List.range_succ, List.mapM_append, ih (Nat.le_of_succ_le h), List.mapM_cons, hLabel,
      List.take_succ_eq_append_getElem h]
    rfl

theorem isWithin?_packed (name zone : Name) :
    name.packed.isWithin? zone.packed = some (name.isWithin zone) := by
  have hAll : ∀ name : Name,
      name.packed.labels? name.labelCount = some name.labelOctets := by
    intro name
    rw [labels?_packed (Nat.le_refl _), ← length_labelOctets, List.take_length]
  rw [PackedName.isWithin?, PackedName.labelCount, PackedName.labelCount, length_offsets_packed,
    length_offsets_packed, hAll, hAll, isWithin]
  split
  · rename_i hCount
    rw [decide_eq_true hCount, Bool.true_and]
  · rename_i hCount
    rw [decide_eq_false hCount, Bool.false_and]

theorem toChars?_packed (name : Name) : name.packed.toChars? = some name.toChars := by
  have hLabels := name.labels?_packed (Nat.le_succ name.labels.length)
  rw [labelOctets, List.take_left' (List.length_map _)] at hLabels
  rw [PackedName.toChars?, PackedName.labelCount, length_offsets_packed, labelCount, toChars,
    isRoot]
  cases hName : name.labels with
  | nil => rfl
  | cons label labels =>
    rw [hName] at hLabels
    change (name.packed.labels? (label :: labels).length).map _ = _
    rw [hLabels, Option.map_some, List.flatMap_map]
    rfl

end Name

/-! ## Accesses in bounds -/

namespace Name

/-- The accesses to a stored name have results, the ones that its labels give. -/
structure InBounds (name : Name) : Prop where
  label : ∀ n < name.labelCount, ∃ octets,
    name.packed.label? n = some octets ∧ name.label? n = some octets
  superdomain : ∀ skip,
    name.packed.superdomain? skip = some ((name.superdomain? skip).map packed)
  enclosure : ∀ zone, name.packed.isWithin? zone.packed = some (name.isWithin zone)
  text : name.packed.toChars? = some name.toChars

theorem inBounds (name : Name) : name.InBounds where
  label := by
    intro n hCount
    rw [← length_labelOctets] at hCount
    rw [label?_packed, label?, List.getElem?_eq_getElem hCount]
    exact ⟨_, rfl, rfl⟩
  superdomain := name.superdomain?_packed
  enclosure := name.isWithin?_packed
  text := name.toChars?_packed

end Name

/-! ## Superdomains of superdomains -/

namespace Name

theorem label?_superdomain? {name zone : Name} {skip : Nat}
    (h : name.superdomain? skip = some zone) (n : Nat) :
    zone.label? n = name.label? (skip + n) := by
  obtain ⟨hSkip, hLabels⟩ := superdomain?_eq_some_iff.mp h
  rw [label?, label?, ← List.getElem?_drop, drop_labelOctets (Nat.le_of_lt_succ hSkip),
    labelOctets, hLabels]

theorem labelCount_superdomain? {name zone : Name} {skip : Nat}
    (h : name.superdomain? skip = some zone) : zone.labelCount + skip = name.labelCount := by
  obtain ⟨hSkip, hLabels⟩ := superdomain?_eq_some_iff.mp h
  rw [labelCount] at hSkip
  rw [labelCount, labelCount, hLabels, List.length_drop]
  omega

theorem superdomain?_superdomain? {name zone : Name} {skip : Nat}
    (h : name.superdomain? skip = some zone) (more : Nat) :
    zone.superdomain? more = name.superdomain? (skip + more) := by
  obtain ⟨_, hLabels⟩ := superdomain?_eq_some_iff.mp h
  have hCount := labelCount_superdomain? h
  have hMore : more < zone.labelCount ↔ skip + more < name.labelCount := by omega
  apply Option.ext
  intro other
  rw [superdomain?_eq_some_iff, superdomain?_eq_some_iff, hMore, hLabels, List.drop_drop]

end Name

end ZoneStore
