import ZoneStore.Proofs.Name.Cursor
import ZoneStore.Proofs.Name.Equality

/-!
# Enclosure as the order of superdomains

A name is within a zone exactly if one of its superdomains equals the zone,
and the difference of their label counts says which. The labels of the zone,
up to letter case, are then the last ones of the name, so enclosure is an
order, and the zones that enclose one name form a chain.
-/

namespace ZoneStore

open Text

/-- Labels agree from the front on, as far as the shorter list reaches, exactly in a prefix. -/
theorem all_zip_iff_isPrefix {f : List UInt8 → List UInt8} {xs ys : List (List UInt8)}
    (h : ys.length ≤ xs.length) :
    ((xs.zip ys).all fun (x, y) => f x == f y) = true ↔ ys.map f <+: xs.map f := by
  induction ys generalizing xs with
  | nil => simp
  | cons y ys ih =>
    cases xs with
    | nil => cases h
    | cons x xs =>
      rw [List.zip_cons_cons, List.all_cons, Bool.and_eq_true, ih (Nat.le_of_succ_le_succ h),
        List.map_cons, List.map_cons, List.cons_prefix_cons, beq_iff_eq]
      exact and_congr_left' eq_comm

theorem all_zip_reverse_iff_isSuffix {f : List UInt8 → List UInt8} {xs ys : List (List UInt8)}
    (h : ys.length ≤ xs.length) :
    ((xs.reverse.zip ys.reverse).all fun (x, y) => f x == f y) = true ↔
      ys.map f <:+ xs.map f := by
  rw [all_zip_iff_isPrefix (by simpa using h), List.map_reverse, List.map_reverse,
    List.reverse_prefix]

/-! ## The walk from the back -/

theorem sameLabel_eq_sameOctets (label facing : List UInt8) :
    Name.sameLabel label facing = sameOctets label facing := by
  rw [Bool.eq_iff_iff, sameOctets_iff, Name.sameLabel, beq_iff_eq]

theorem LabelCursor.agrees?_packed (cursor other : LabelCursor) :
    cursor.packed.agrees? other.packed =
      some ((cursor.remaining.reverse.zip other.remaining.reverse).all fun (label, facing) =>
        Name.sameLabel label facing) := by
  induction cursor using take_induction .back generalizing other with
  | ended cursor hNone hTake =>
    rw [PackedCursor.agrees?, take?_packed, hTake, hNone]
    rfl
  | taken cursor label shorter hTake hRest ih =>
    have hLast : cursor.remaining.reverse = label :: shorter.remaining.reverse := by
      rw [hRest]
      exact LabelEnd.arrange_put .back label shorter.remaining
    rw [PackedCursor.agrees?, take?_packed, hTake, take?_packed, hLast]
    dsimp only
    obtain ⟨hNone, hOther⟩ | ⟨facing, shorterOther, hOther, -, hFacing⟩ := other.take_cases .back
    · rw [hOther, hNone]
      rfl
    · have hOtherLast : other.remaining.reverse = facing :: shorterOther.remaining.reverse := by
        rw [hFacing]
        exact LabelEnd.arrange_put .back facing shorterOther.remaining
      rw [hOther, hOtherLast, List.zip_cons_cons, List.all_cons]
      dsimp only
      rw [← sameLabel_eq_sameOctets]
      cases Name.sameLabel label facing with
      | false => rfl
      | true => exact ih shorterOther

namespace Name

variable {a b c : Name}

theorem endsWith?_packed (name zone : Name) :
    name.packed.endsWith? zone.packed = some (name.isWithin zone) := by
  rw [PackedName.endsWith?, PackedName.labelCount_packed, PackedName.labelCount_packed, isWithin,
    ← LabelCursor.packed_ofName, ← LabelCursor.packed_ofName, LabelCursor.agrees?_packed,
    LabelCursor.remaining_ofName, LabelCursor.remaining_ofName]
  by_cases hCount : zone.labelCount ≤ name.labelCount
  · rw [if_pos hCount, decide_eq_true hCount, Bool.true_and]
  · rw [if_neg hCount, decide_eq_false hCount, Bool.false_and]

/-! ## Enclosure through the last labels -/

theorem isWithin_iff_isSuffix :
    a.isWithin b = true ↔ b.lower.labelOctets <:+ a.lower.labelOctets := by
  rw [isWithin, Bool.and_eq_true, decide_eq_true_iff, labelOctets_lower, labelOctets_lower,
    ← length_labelOctets, ← length_labelOctets]
  constructor
  · rintro ⟨hCount, hAll⟩
    exact (all_zip_reverse_iff_isSuffix hCount).mp hAll
  · intro hSuffix
    have hCount : b.labelOctets.length ≤ a.labelOctets.length := by
      simpa using hSuffix.length_le
    exact ⟨hCount, (all_zip_reverse_iff_isSuffix hCount).mpr hSuffix⟩

theorem length_labelOctets_lower (name : Name) :
    name.lower.labelOctets.length = name.labelCount := by
  rw [labelOctets_lower, List.length_map, length_labelOctets]

theorem same_iff_labelOctets_lower :
    a.same b = true ↔ a.lower.labelOctets = b.lower.labelOctets := by
  rw [same_iff_labelOctets, labelOctets_lower, labelOctets_lower]

theorem labelOctets_superdomain? {name cut : Name} {skip : Nat}
    (h : name.superdomain? skip = some cut) :
    cut.lower.labelOctets = name.lower.labelOctets.drop skip := by
  obtain ⟨hSkip, hLabels⟩ := superdomain?_eq_some_iff.mp h
  rw [labelOctets_lower, labelOctets_lower, ← List.map_drop,
    drop_labelOctets (Nat.le_of_lt_succ hSkip), labelOctets, hLabels]

theorem isWithin_iff_superdomain? :
    a.isWithin b = true ↔ ∃ skip cut, a.superdomain? skip = some cut ∧ cut.same b = true := by
  rw [isWithin_iff_isSuffix]
  constructor
  · intro hSuffix
    rw [List.suffix_iff_eq_drop, length_labelOctets_lower, length_labelOctets_lower] at hSuffix
    have hSkip : a.labelCount - b.labelCount < a.labelCount := by
      simp only [labelCount]
      omega
    obtain ⟨cut, hCut⟩ : ∃ cut, a.superdomain? (a.labelCount - b.labelCount) = some cut :=
      ⟨_, if_pos hSkip⟩
    refine ⟨_, cut, hCut, same_iff_labelOctets_lower.mpr ?_⟩
    rw [labelOctets_superdomain? hCut, ← hSuffix]
  · rintro ⟨skip, cut, hCut, hSame⟩
    rw [← same_iff_labelOctets_lower.mp hSame, labelOctets_superdomain? hCut]
    exact List.drop_suffix skip _

theorem same_symm (h : a.same b = true) : b.same a = true :=
  same_iff.mpr (same_iff.mp h).symm

theorem labelCount_eq_of_same (h : a.same b = true) : a.labelCount = b.labelCount := by
  rw [← length_labelOctets_lower, same_iff_labelOctets_lower.mp h, length_labelOctets_lower]

theorem skip_eq_of_same {skip : Nat} {cut : Name} (hCut : a.superdomain? skip = some cut)
    (hSame : cut.same b = true) :
    b.labelCount ≤ a.labelCount ∧ skip = a.labelCount - b.labelCount := by
  have hCount := labelCount_superdomain? hCut
  rw [labelCount_eq_of_same hSame] at hCount
  omega

theorem isWithin_refl (a : Name) : a.isWithin a = true :=
  isWithin_iff_isSuffix.mpr (List.suffix_refl _)

theorem isWithin_root (a : Name) : a.isWithin root = true := by
  rw [isWithin_iff_isSuffix]
  exact ⟨a.lower.labels.map Label.octets, rfl⟩

theorem isWithin_trans (h : a.isWithin b = true) (hMore : b.isWithin c = true) :
    a.isWithin c = true := by
  rw [isWithin_iff_isSuffix] at h hMore ⊢
  exact hMore.trans h

theorem isWithin_congr_left (h : a.same b = true) (zone : Name) :
    a.isWithin zone = b.isWithin zone := by
  rw [Bool.eq_iff_iff, isWithin_iff_isSuffix, isWithin_iff_isSuffix,
    same_iff_labelOctets_lower.mp h]

theorem isWithin_congr_right (h : a.same b = true) (name : Name) :
    name.isWithin a = name.isWithin b := by
  rw [Bool.eq_iff_iff, isWithin_iff_isSuffix, isWithin_iff_isSuffix,
    same_iff_labelOctets_lower.mp h]

/-- Of two zones around one name, the one with more labels lies within the other. -/
theorem isWithin_of_labelCount_le (hFirst : a.isWithin b = true) (hSecond : a.isWithin c = true)
    (hCount : c.labelCount ≤ b.labelCount) : b.isWithin c = true := by
  rw [isWithin_iff_isSuffix] at hFirst hSecond ⊢
  rw [← length_labelOctets_lower, ← length_labelOctets_lower] at hCount
  exact List.suffix_of_suffix_length_le hSecond hFirst hCount

theorem labelCount_le_of_isWithin (h : a.isWithin b = true) : b.labelCount ≤ a.labelCount := by
  rw [← length_labelOctets_lower, ← length_labelOctets_lower]
  exact (isWithin_iff_isSuffix.mp h).length_le

theorem same_of_labelCount_eq (h : a.isWithin b = true) (hCount : a.labelCount = b.labelCount) :
    a.same b = true := by
  rw [same_iff_labelOctets_lower, eq_comm]
  refine (isWithin_iff_isSuffix.mp h).eq_of_length ?_
  rw [length_labelOctets_lower, length_labelOctets_lower, hCount]

theorem same_of_isWithin (h : a.isWithin b = true) (hBack : b.isWithin a = true) :
    a.same b = true :=
  same_of_labelCount_eq h
    (Nat.le_antisymm (labelCount_le_of_isWithin hBack) (labelCount_le_of_isWithin h))

end Name

/-! ## Stored names -/

namespace PackedName

/-- The walk over both names finds the labels of the zone at the end of the name. -/
def EndsWith (name zone : PackedName) : Prop :=
  name.endsWith? zone = some true

/-- The walk ends for any two names, and finds what cutting labels off the front finds. -/
structure EndsBySuperdomain (name zone : PackedName) : Prop where
  decided : ∃ answer, name.endsWith? zone = some answer
  endsWith_iff : name.EndsWith zone ↔
    ∃ skip cut, name.superdomain? skip = some (some cut) ∧ cut.same zone = true
  skip_eq : ∀ skip cut, name.superdomain? skip = some (some cut) → cut.same zone = true →
    zone.labelCount ≤ name.labelCount ∧ skip = name.labelCount - zone.labelCount

/-- The laws of an order, for three names, in which those above one name form a chain. -/
structure OrderedByEnd (a b c : PackedName) : Prop where
  refl : a.EndsWith a
  root : a.EndsWith .root
  trans : a.EndsWith b → b.EndsWith c → a.EndsWith c
  antisymm : a.EndsWith b → b.EndsWith a → a.same b = true
  caseless : a.same b = true → (a.EndsWith c ↔ b.EndsWith c) ∧ (c.EndsWith a ↔ c.EndsWith b)
  chain : a.EndsWith b → a.EndsWith c → c.labelCount ≤ b.labelCount → b.EndsWith c
  same_of_count : a.EndsWith b → a.EndsWith c → b.labelCount = c.labelCount → b.same c = true

theorem endsWith_packed_iff {name zone : Name} :
    name.packed.EndsWith zone.packed ↔ name.isWithin zone = true := by
  rw [EndsWith, Name.endsWith?_packed, Option.some.injEq]

theorem superdomain?_packed_eq_iff {name : Name} {skip : Nat} {cut : PackedName} :
    name.packed.superdomain? skip = some (some cut) ↔
      ∃ plain, name.superdomain? skip = some plain ∧ plain.packed = cut := by
  rw [Name.superdomain?_packed, Option.some.injEq, Option.map_eq_some_iff]

theorem endsBySuperdomain_packed (name zone : Name) :
    EndsBySuperdomain name.packed zone.packed where
  decided := ⟨_, name.endsWith?_packed zone⟩
  endsWith_iff := by
    rw [endsWith_packed_iff, Name.isWithin_iff_superdomain?]
    constructor
    · rintro ⟨skip, cut, hCut, hSame⟩
      exact ⟨skip, cut.packed, superdomain?_packed_eq_iff.mpr ⟨cut, hCut, rfl⟩,
        (Name.same_packed cut zone).trans hSame⟩
    · rintro ⟨skip, _, hCut, hSame⟩
      obtain ⟨cut, hPlain, rfl⟩ := superdomain?_packed_eq_iff.mp hCut
      exact ⟨skip, cut, hPlain, (Name.same_packed cut zone).symm.trans hSame⟩
  skip_eq := by
    intro skip cut hCut hSame
    obtain ⟨plain, hPlain, rfl⟩ := superdomain?_packed_eq_iff.mp hCut
    rw [Name.same_packed] at hSame
    rw [labelCount_packed, labelCount_packed]
    exact Name.skip_eq_of_same hPlain hSame

theorem orderedByEnd_packed (a b c : Name) : OrderedByEnd a.packed b.packed c.packed where
  refl := endsWith_packed_iff.mpr a.isWithin_refl
  root := endsWith_packed_iff.mpr a.isWithin_root
  trans := by
    simp only [endsWith_packed_iff]
    exact Name.isWithin_trans
  antisymm := by
    simp only [endsWith_packed_iff, Name.same_packed]
    exact Name.same_of_isWithin
  caseless := by
    simp only [endsWith_packed_iff, Name.same_packed]
    intro hSame
    rw [Name.isWithin_congr_left hSame, Name.isWithin_congr_right hSame]
    exact ⟨Iff.rfl, Iff.rfl⟩
  chain := by
    simp only [endsWith_packed_iff, labelCount_packed]
    exact Name.isWithin_of_labelCount_le
  same_of_count := by
    simp only [endsWith_packed_iff, labelCount_packed, Name.same_packed]
    intro hFirst hSecond hCount
    exact Name.same_of_labelCount_eq
      (Name.isWithin_of_labelCount_le hFirst hSecond (Nat.le_of_eq hCount.symm)) hCount

/--
Names that come about by reading, cutting and copying are ordered by enclosure: a walk over both
names from the back finds exactly the zones that cutting labels off the front of the name leads
to. Every comparison of names by enclosure is one of names that come about so.
-/
theorem built_names_ordered_by_superdomains :
    (∀ name zone : PackedName, name.IsBuilt → zone.IsBuilt → EndsBySuperdomain name zone) ∧
    (∀ a b c : PackedName, a.IsBuilt → b.IsBuilt → c.IsBuilt → OrderedByEnd a b c) ∧
    ∀ name zone : Name, name.packed.IsBuilt ∧
      name.packed.endsWith? zone.packed = some (name.isWithin zone) := by
  refine ⟨?_, ?_, fun name zone => ⟨isBuilt_iff.mpr ⟨name, rfl⟩, name.endsWith?_packed zone⟩⟩
  · intro name zone hName hZone
    obtain ⟨name, rfl⟩ := isBuilt_iff.mp hName
    obtain ⟨zone, rfl⟩ := isBuilt_iff.mp hZone
    exact endsBySuperdomain_packed name zone
  · intro a b c hA hB hC
    obtain ⟨a, rfl⟩ := isBuilt_iff.mp hA
    obtain ⟨b, rfl⟩ := isBuilt_iff.mp hB
    obtain ⟨c, rfl⟩ := isBuilt_iff.mp hC
    exact orderedByEnd_packed a b c

def mixedHost : PackedName :=
  ⟨[1, 119, 2, 69, 120, 1, 99, 0], [0, 2, 5, 7]⟩

def lowerZone : PackedName :=
  ⟨[2, 101, 120, 1, 99, 0], [0, 3, 5]⟩

def topZone : PackedName :=
  ⟨[1, 67, 0], [0, 2]⟩

theorem built_names_ordered_by_superdomains_mixedHost :
    mixedHost.IsBuilt ∧ lowerZone.IsBuilt ∧ topZone.IsBuilt ∧
      EndsBySuperdomain mixedHost lowerZone ∧ OrderedByEnd mixedHost lowerZone topZone ∧
      mixedHost.EndsWith lowerZone ∧ lowerZone.EndsWith topZone ∧ mixedHost.EndsWith topZone ∧
      ¬lowerZone.EndsWith mixedHost := by
  have hHost : Buffer.ofText "w.Ex.c." = some (.ok mixedHost) := by
    rw [Buffer.ofText_eq]
    decide +kernel
  have hZone : Buffer.ofText "ex.c." = some (.ok lowerZone) := by
    rw [Buffer.ofText_eq]
    decide +kernel
  have hTop : Buffer.ofText "C." = some (.ok topZone) := by
    rw [Buffer.ofText_eq]
    decide +kernel
  obtain ⟨hEnds, hOrdered, -⟩ := built_names_ordered_by_superdomains
  have hFirst := hEnds mixedHost lowerZone (.ofText hHost) (.ofText hZone)
  have hSecond := hEnds lowerZone topZone (.ofText hZone) (.ofText hTop)
  have hOrder := hOrdered mixedHost lowerZone topZone (.ofText hHost) (.ofText hZone) (.ofText hTop)
  have hIn : mixedHost.EndsWith lowerZone := hFirst.endsWith_iff.mpr ⟨1, _, rfl, by decide⟩
  have hAbove : lowerZone.EndsWith topZone := hSecond.endsWith_iff.mpr ⟨1, _, rfl, by decide⟩
  exact ⟨.ofText hHost, .ofText hZone, .ofText hTop, hFirst, hOrder, hIn, hAbove,
    hOrder.trans hIn hAbove, nofun⟩

end PackedName

end ZoneStore
