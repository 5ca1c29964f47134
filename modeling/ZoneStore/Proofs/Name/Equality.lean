import ZoneStore.Proofs.Name.Reliable

/-!
# Equality and hashing of stored names

Stored names are compared as octets, without a look at where their labels
start, and a hasher is fed these octets in small letters. No length octet is
a letter and each says where the next one stands, so names are equal exactly
if their labels are, one by one, and none is the beginning of another. The
hasher is fed the same octets for equal names only.
-/

namespace ZoneStore

open Text

/-- No wire form is the beginning of another: both end where the null label stands. -/
theorem WireForm.eq_of_isPrefix {labels others : List (List UInt8)} {octets more : List UInt8}
    (h : WireForm labels octets) (hMore : WireForm others more) (hPrefix : octets <+: more) :
    octets = more := by
  induction h generalizing others more with
  | root =>
    cases hMore with
    | root => rfl
    | label hPos _ _ _ =>
      rw [← (List.cons_prefix_cons.mp hPrefix).1] at hPos
      cases hPos
  | label hPos _ hLength _ ih =>
    cases hMore with
    | root =>
      rw [(List.cons_prefix_cons.mp hPrefix).1] at hPos
      cases hPos
    | label _ _ hOther hRest =>
      obtain ⟨rfl, behind, hOctets⟩ := List.cons_prefix_cons.mp hPrefix
      rw [List.append_assoc] at hOctets
      obtain ⟨rfl, rfl⟩ := List.append_inj hOctets (hLength.trans hOther.symm)
      rw [← ih hRest (List.prefix_append _ _)]

/-! ## Names -/

namespace Name

theorem labelOctets_lower (name : Name) :
    name.lower.labelOctets = name.labelOctets.map (List.map lowerOctet) := by
  simp only [labelOctets, labels_lower, List.map_append, List.map_map]
  rfl

theorem labelOctets_injective {a b : Name} (h : a.labelOctets = b.labelOctets) : a = b := by
  rw [labelOctets, labelOctets, List.append_left_inj] at h
  exact Name.ext ((List.map_inj_right fun _ _ => Label.ext).mp h)

theorem same_iff_labelOctets {a b : Name} :
    a.same b = true ↔
      a.labelOctets.map (List.map lowerOctet) = b.labelOctets.map (List.map lowerOctet) := by
  rw [same_iff, ← labelOctets_lower, ← labelOctets_lower]
  exact ⟨fun h => h ▸ rfl, labelOctets_injective⟩

theorem same_iff_label? {a b : Name} :
    a.same b = true ↔
      a.labelCount = b.labelCount ∧ ∀ n < a.labelCount, ∃ label facing,
        a.label? n = some label ∧ b.label? n = some facing ∧
          label.length = facing.length ∧ sameLabel label facing = true := by
  rw [same_iff_labelOctets, ← length_labelOctets, ← length_labelOctets]
  constructor
  · intro h
    have hLength : a.labelOctets.length = b.labelOctets.length := by
      simpa using congrArg List.length h
    refine ⟨hLength, fun n hn => ?_⟩
    have hLabel : a.labelOctets[n].map lowerOctet = b.labelOctets[n].map lowerOctet := by
      have hAt := congrArg (fun labels => labels[n]?) h
      simpa [hn, hLength ▸ hn] using hAt
    refine ⟨_, _, List.getElem?_eq_getElem hn, List.getElem?_eq_getElem (hLength ▸ hn), ?_,
      beq_iff_eq.mpr hLabel⟩
    simpa using congrArg List.length hLabel
  · rintro ⟨hLength, hLabels⟩
    apply List.ext_getElem?
    intro n
    rw [List.getElem?_map, List.getElem?_map]
    by_cases hn : n < a.labelOctets.length
    · obtain ⟨label, facing, hLabel, hFacing, -, hSame⟩ := hLabels n hn
      rw [label?] at hLabel hFacing
      rw [hLabel, hFacing, Option.map_some, Option.map_some, beq_iff_eq.mp hSame]
    · rw [List.getElem?_eq_none (Nat.not_lt.mp hn),
        List.getElem?_eq_none (hLength ▸ Nat.not_lt.mp hn)]

theorem offsetsFrom_map_lower (start : Nat) (labels : List Label) :
    offsetsFrom start (labels.map Label.lower) = offsetsFrom start labels := by
  induction labels generalizing start with
  | nil => rfl
  | cons label labels ih =>
    rw [List.map_cons, offsetsFrom, offsetsFrom, ih, Label.wireLength_lower]

theorem offsets_lower (name : Name) : name.lower.offsets = name.offsets :=
  offsetsFrom_map_lower 0 name.labels

theorem same_packed (a b : Name) : a.packed.same b.packed = a.same b := by
  rw [Bool.eq_iff_iff, PackedName.same, sameOctets_iff, same, beq_iff_eq]
  rfl

end Name

/-! ## Stored names -/

namespace PackedName

theorem fed_eq (name : PackedName) : name.fed = name.wire.map lowerOctet := by
  rw [fed, hashInto, List.foldl_append_eq_append, List.nil_append, ← List.flatMap_def]
  exact List.map_eq_flatMap.symm

theorem hashInto_eq {State : Type} (write : State → UInt8 → State) (state : State)
    (name : PackedName) : name.hashInto write state = name.fed.foldl write state := by
  rw [fed_eq, List.foldl_map, hashInto]

theorem fed_packed (name : Name) : name.packed.fed = name.lower.wire := by
  rw [fed_eq, Name.wire_lower]
  rfl

theorem same_iff_fed {name other : PackedName} :
    name.same other = true ↔ name.fed = other.fed := by
  rw [same, sameOctets_iff, fed_eq, fed_eq]

theorem fed_eq_of_isPrefix {a b : Name} (h : a.packed.fed <+: b.packed.fed) :
    a.packed.fed = b.packed.fed := by
  rw [fed_packed, fed_packed] at h ⊢
  exact (Name.wireForm_wire a.lower).eq_of_isPrefix (Name.wireForm_wire b.lower) h

theorem offsets_eq_of_same {a b : Name} (h : a.same b = true) :
    a.packed.offsets = b.packed.offsets := by
  rw [Name.packed, Name.packed, ← Name.offsets_lower a, Name.same_iff.mp h, Name.offsets_lower]

/-- What equality of two names amounts to, and what any hasher makes of the names. -/
structure ComparesByLabels (name other : PackedName) : Prop where
  same_iff : name.same other = true ↔
    name.labelCount = other.labelCount ∧ ∀ n < name.labelCount, ∃ label facing,
      name.label? n = some label ∧ other.label? n = some facing ∧
        label.length = facing.length ∧ Name.sameLabel label facing = true
  offsets_eq : name.same other = true → name.offsets = other.offsets
  same_iff_fed : name.same other = true ↔ name.fed = other.fed
  hashInto_eq : name.same other = true → ∀ (State : Type) (write : State → UInt8 → State) state,
    name.hashInto write state = other.hashInto write state
  fed_eq_of_isPrefix : name.fed <+: other.fed → name.fed = other.fed

/--
Names that come about by reading, cutting and copying are equal exactly if their labels are, and
a hasher is fed the same octets for equal names only, never a part of those of another name.
Every comparison of names is one of names that come about so.
-/
theorem built_names_compare_by_labels :
    (∀ name other : PackedName, name.IsBuilt → other.IsBuilt → ComparesByLabels name other) ∧
      ∀ a b : Name, a.packed.IsBuilt ∧ a.same b = a.packed.same b.packed := by
  refine ⟨?_, fun a b => ⟨isBuilt_iff.mpr ⟨a, rfl⟩, (Name.same_packed a b).symm⟩⟩
  intro name other hName hOther
  obtain ⟨a, rfl⟩ := isBuilt_iff.mp hName
  obtain ⟨b, rfl⟩ := isBuilt_iff.mp hOther
  constructor
  · simp only [Name.same_packed, labelCount_packed, Name.label?_packed]
    exact Name.same_iff_label?
  · rw [Name.same_packed]
    exact offsets_eq_of_same
  · exact same_iff_fed
  · intro hSame State write state
    rw [hashInto_eq, hashInto_eq, same_iff_fed.mp hSame]
  · exact fed_eq_of_isPrefix

def lowerLetters : PackedName :=
  ⟨[2, 97, 98, 1, 99, 0], [0, 3, 5]⟩

def mixedLetters : PackedName :=
  ⟨[2, 65, 98, 1, 67, 0], [0, 3, 5]⟩

/-- The octets in front of its null label are those of `lowerLetters`, the length octets apart. -/
def joinedLetters : PackedName :=
  ⟨[4, 97, 98, 1, 99, 0], [0, 5]⟩

theorem built_names_compare_by_labels_letters :
    lowerLetters.IsBuilt ∧ mixedLetters.IsBuilt ∧ joinedLetters.IsBuilt ∧
      ComparesByLabels lowerLetters mixedLetters ∧ ComparesByLabels lowerLetters joinedLetters ∧
      lowerLetters.same mixedLetters = true ∧ lowerLetters.same joinedLetters = false := by
  have hText : Buffer.ofText "ab.c." = some (.ok lowerLetters) := by
    rw [Buffer.ofText_eq]
    decide +kernel
  have hWire : Buffer.ofWire [2, 65, 98, 1, 67, 0] = some (.ok mixedLetters) := by
    rw [Buffer.ofWire_eq]
    rfl
  have hEscaped : Buffer.ofText "ab\\001c." = some (.ok joinedLetters) := by
    rw [Buffer.ofText_eq]
    decide +kernel
  have hLower : lowerLetters.IsBuilt := .ofText hText
  have hMixed : mixedLetters.IsBuilt := .ofWire hWire
  have hJoined : joinedLetters.IsBuilt := .ofText hEscaped
  obtain ⟨hCompare, -⟩ := built_names_compare_by_labels
  exact ⟨hLower, hMixed, hJoined, hCompare _ _ hLower hMixed, hCompare _ _ hLower hJoined,
    by decide, by decide⟩

end PackedName

end ZoneStore
