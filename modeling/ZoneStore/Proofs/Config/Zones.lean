import Mathlib.Data.List.Perm.Basic
import ZoneStore.Config.Basic
import ZoneStore.Proofs.Name.Enclosure

/-!
# The zone that encloses a name most closely

The zone of a name is the last of those with the most labels among the zones
that enclose it. These form a chain, so the zone lies within all others of
them, and its origin is the same for every order of the zones and for every
case of the letters.
-/

namespace ZoneStore

/-- The zone is the name or an ancestor of it: it is left when labels are cut off the front. -/
def Name.Encloses (zone name : Name) : Prop :=
  ∃ skip cut, name.superdomain? skip = some cut ∧ cut.same zone = true

theorem Name.encloses_iff {zone name : Name} :
    zone.Encloses name ↔ name.isWithin zone = true :=
  isWithin_iff_superdomain?.symm

/-! ## The last of the deepest zones -/

/-- No zone around the name has more labels, and none of as many stands behind it. -/
structure IsDeepest (name : Name) (zones : List Zone) (index : Nat) (zone : Zone) : Prop where
  listed : zones[index]? = some zone
  isWithin : name.isWithin zone.origin = true
  le : ∀ other ∈ zones, name.isWithin other.origin = true →
    other.origin.labelCount ≤ zone.origin.labelCount
  lt : ∀ (later : Nat) (other : Zone), index < later → zones[later]? = some other →
    name.isWithin other.origin = true → other.origin.labelCount < zone.origin.labelCount

variable {name : Name} {zones : List Zone} {index : Nat} {first zone : Zone}

theorem isDeepest_head (hWithin : name.isWithin first.origin = true)
    (hLater : ∀ other ∈ zones, name.isWithin other.origin = true →
      other.origin.labelCount < first.origin.labelCount) :
    IsDeepest name (first :: zones) 0 first where
  listed := rfl
  isWithin := hWithin
  le := List.forall_mem_cons.mpr ⟨fun _ => Nat.le_refl _, fun other hOther hIn =>
    Nat.le_of_lt (hLater other hOther hIn)⟩
  lt := by
    intro later other hBehind hListed
    obtain ⟨later, rfl⟩ := Nat.exists_eq_succ_of_ne_zero (Nat.ne_of_gt hBehind)
    exact hLater other (List.mem_of_getElem? hListed)

theorem IsDeepest.cons (h : IsDeepest name zones index zone)
    (hFirst : name.isWithin first.origin = true →
      first.origin.labelCount ≤ zone.origin.labelCount) :
    IsDeepest name (first :: zones) (index + 1) zone where
  listed := h.listed
  isWithin := h.isWithin
  le := List.forall_mem_cons.mpr ⟨hFirst, h.le⟩
  lt := by
    intro later other hBehind hListed
    obtain ⟨later, rfl⟩ := Nat.exists_eq_succ_of_ne_zero (Nat.ne_zero_of_lt hBehind)
    exact h.lt later other (Nat.lt_of_succ_lt_succ hBehind) hListed

theorem IsDeepest.index_le {otherIndex : Nat} {other : Zone}
    (h : IsDeepest name zones index zone) (hOther : IsDeepest name zones otherIndex other) :
    otherIndex ≤ index := by
  by_contra hBehind
  have hLess := h.lt otherIndex other (Nat.lt_of_not_le hBehind) hOther.listed hOther.isWithin
  have hMost := hOther.le zone (List.mem_of_getElem? h.listed) h.isWithin
  omega

theorem IsDeepest.unique {otherIndex : Nat} {other : Zone}
    (h : IsDeepest name zones index zone) (hOther : IsDeepest name zones otherIndex other) :
    index = otherIndex ∧ zone = other := by
  have hIndex := Nat.le_antisymm (hOther.index_le h) (h.index_le hOther)
  subst hIndex
  exact ⟨rfl, Option.some.inj (h.listed.symm.trans hOther.listed)⟩

theorem closestZone?_eq_none_iff :
    closestZone? name zones = none ↔ ∀ zone ∈ zones, name.isWithin zone.origin = false := by
  induction zones with
  | nil => simp [closestZone?]
  | cons zone zones ih =>
    rw [closestZone?, List.forall_mem_cons, ← ih]
    cases hWithin : name.isWithin zone.origin with
    | false => simp
    | true =>
      cases closestZone? name zones with
      | none => simp
      | some later =>
        dsimp only [Option.map_some]
        cases zone.isCloser later.2 <;> simp

/-- By induction on the zones, of which the first only counts if none behind it is as deep. -/
theorem isDeepest_of_closestZone? (h : closestZone? name zones = some (index, zone)) :
    IsDeepest name zones index zone := by
  induction zones generalizing index zone with
  | nil => cases h
  | cons first zones ih =>
    rw [closestZone?] at h
    cases hWithin : name.isWithin first.origin with
    | false =>
      rw [hWithin] at h
      obtain ⟨⟨later, found⟩, hFound, hPair⟩ := Option.map_eq_some_iff.mp h
      cases hPair
      exact (ih hFound).cons fun hIn => by rw [hWithin] at hIn; cases hIn
    | true =>
      rw [hWithin] at h
      cases hFound : closestZone? name zones with
      | none =>
        rw [hFound] at h
        cases h
        refine isDeepest_head hWithin fun other hOther hIn => ?_
        rw [closestZone?_eq_none_iff.mp hFound other hOther] at hIn
        cases hIn
      | some entry =>
        obtain ⟨later, found⟩ := entry
        have hDeepest := ih hFound
        rw [hFound] at h
        change (if first.isCloser found then _ else _) = _ at h
        split at h
        · rename_i hCloser
          cases h
          refine isDeepest_head hWithin fun other hOther hIn => ?_
          exact Nat.lt_of_le_of_lt (hDeepest.le other hOther hIn) (of_decide_eq_true hCloser)
        · rename_i hCloser
          cases h
          refine hDeepest.cons fun _ => Nat.not_lt.mp ?_
          simpa [Zone.isCloser] using hCloser

theorem closestZone?_eq_some_iff :
    closestZone? name zones = some (index, zone) ↔ IsDeepest name zones index zone := by
  refine ⟨isDeepest_of_closestZone?, fun hDeepest => ?_⟩
  cases hFound : closestZone? name zones with
  | none =>
    have hOutside := closestZone?_eq_none_iff.mp hFound zone (List.mem_of_getElem? hDeepest.listed)
    rw [hDeepest.isWithin] at hOutside
    cases hOutside
  | some entry =>
    obtain ⟨rfl, rfl⟩ := (isDeepest_of_closestZone? hFound).unique hDeepest
    rfl

/-! ## The closest zone -/

/-- The zone lies within all that enclose the name, and is the last with its origin. -/
structure IsClosest (name : Name) (zones : List Zone) (index : Nat) (zone : Zone) : Prop where
  listed : zones[index]? = some zone
  encloses : zone.origin.Encloses name
  innermost : ∀ other ∈ zones, other.origin.Encloses name → other.origin.Encloses zone.origin
  last : ∀ (later : Nat) (other : Zone), zones[later]? = some other →
    other.origin.same zone.origin = true → later ≤ index

theorem isClosest_iff_isDeepest :
    IsClosest name zones index zone ↔ IsDeepest name zones index zone := by
  constructor
  · rintro ⟨hListed, hEncloses, hInnermost, hLast⟩
    have hInside : ∀ other ∈ zones, name.isWithin other.origin = true →
        zone.origin.isWithin other.origin = true := by
      simpa only [Name.encloses_iff] using hInnermost
    refine ⟨hListed, Name.encloses_iff.mp hEncloses, ?_, ?_⟩
    · intro other hOther hIn
      exact Name.labelCount_le_of_isWithin (hInside other hOther hIn)
    · intro later other hBehind hOther hIn
      have hZone := hInside other (List.mem_of_getElem? hOther) hIn
      refine Nat.lt_of_le_of_ne (Name.labelCount_le_of_isWithin hZone) fun hCount => ?_
      have hSame := Name.same_of_labelCount_eq hZone hCount.symm
      exact Nat.not_le.mpr hBehind (hLast later other hOther (Name.same_symm hSame))
  · intro h
    refine ⟨h.listed, Name.encloses_iff.mpr h.isWithin, ?_, ?_⟩
    · intro other hOther hEncloses
      rw [Name.encloses_iff] at hEncloses ⊢
      exact Name.isWithin_of_labelCount_le h.isWithin hEncloses (h.le other hOther hEncloses)
    · intro later other hOther hSame
      by_contra hBehind
      have hIn := (Name.isWithin_congr_right hSame name).trans h.isWithin
      have hLess := h.lt later other (Nat.lt_of_not_le hBehind) hOther hIn
      rw [Name.labelCount_eq_of_same hSame] at hLess
      exact Nat.lt_irrefl _ hLess

/-! ## Other orders and other letters -/

/-- The zones come about by putting the others in another order and changing the case of letters. -/
def SameOrigins (zones others : List Zone) : Prop :=
  ∃ reordered, reordered.Perm zones ∧
    List.Forall₂ (fun zone other => zone.origin.same other.origin = true) reordered others

variable {others : List Zone} {spelled : Name}

theorem SameOrigins.symm (h : SameOrigins zones others) : SameOrigins others zones := by
  obtain ⟨reordered, hPerm, hSame⟩ := h
  obtain ⟨facing, hFacing, hOthers⟩ := List.perm_comp_forall₂ hPerm.symm hSame
  exact ⟨facing, hOthers, hFacing.flip.imp fun _ _ hOrigin => Name.same_symm hOrigin⟩

theorem SameOrigins.exists_zone {other : Zone} (h : SameOrigins zones others)
    (hOther : other ∈ others) : ∃ zone ∈ zones, zone.origin.same other.origin = true := by
  obtain ⟨reordered, hPerm, hSame⟩ := h
  obtain ⟨n, hn⟩ := List.mem_iff_getElem?.mp hOther
  obtain ⟨zone, hZone, hOrigin⟩ := exists_getElem?_of_forall₂ hSame hn
  exact ⟨zone, hPerm.mem_iff.mp (List.mem_of_getElem? hZone), hOrigin⟩

theorem isWithin_congr {zone other : Zone} (hName : name.same spelled = true)
    (hSame : zone.origin.same other.origin = true) :
    name.isWithin zone.origin = spelled.isWithin other.origin := by
  rw [Name.isWithin_congr_left hName, Name.isWithin_congr_right hSame]

theorem closestZone?_eq_none_of_sameOrigins (hName : name.same spelled = true)
    (hZones : SameOrigins zones others) (hNone : closestZone? name zones = none) :
    closestZone? spelled others = none := by
  rw [closestZone?_eq_none_iff] at hNone ⊢
  intro other hOther
  obtain ⟨zone, hZone, hSame⟩ := hZones.exists_zone hOther
  rw [← isWithin_congr hName hSame]
  exact hNone zone hZone

theorem IsDeepest.labelCount_le {otherIndex : Nat} {other : Zone}
    (hName : name.same spelled = true) (hZones : SameOrigins zones others)
    (h : IsDeepest name zones index zone) (hOther : IsDeepest spelled others otherIndex other) :
    other.origin.labelCount ≤ zone.origin.labelCount := by
  obtain ⟨facing, hFacing, hSame⟩ := hZones.exists_zone (List.mem_of_getElem? hOther.listed)
  have hIn : name.isWithin facing.origin = true := by
    rw [isWithin_congr hName hSame]
    exact hOther.isWithin
  rw [← Name.labelCount_eq_of_same hSame]
  exact h.le facing hFacing hIn

/-- Neither of the two has fewer labels than the other, and both enclose the name. -/
theorem IsDeepest.same_origin {otherIndex : Nat} {other : Zone} (hName : name.same spelled = true)
    (hZones : SameOrigins zones others) (h : IsDeepest name zones index zone)
    (hOther : IsDeepest spelled others otherIndex other) :
    zone.origin.same other.origin = true := by
  have hMost := h.labelCount_le hName hZones hOther
  have hLeast := hOther.labelCount_le (Name.same_symm hName) hZones.symm h
  have hIn : name.isWithin other.origin = true := by
    rw [Name.isWithin_congr_left hName]
    exact hOther.isWithin
  exact Name.same_of_labelCount_eq (Name.isWithin_of_labelCount_le h.isWithin hIn hMost)
    (Nat.le_antisymm hLeast hMost)

/-! ## Main statement -/

namespace Config

theorem zoneFor?_eq_none_iff {config : Config} :
    config.zoneFor? name = none ↔ ∀ zone ∈ config.zones, ¬zone.origin.Encloses name := by
  rw [zoneFor?, Option.map_eq_none_iff, closestZone?_eq_none_iff]
  simp only [Name.encloses_iff, Bool.not_eq_true]

theorem zoneFor?_eq_some_iff {config : Config} :
    config.zoneFor? name = some zone ↔ ∃ index, IsClosest name config.zones index zone := by
  simp only [isClosest_iff_isDeepest, ← closestZone?_eq_some_iff]
  simp [zoneFor?]

theorem zoneIndex?_eq_some_iff {config : Config} :
    config.zoneIndex? name = some index ↔ ∃ zone, IsClosest name config.zones index zone := by
  simp only [isClosest_iff_isDeepest, ← closestZone?_eq_some_iff]
  simp [zoneIndex?]

theorem zoneFor?_congr {config other : Config} (hName : name.same spelled = true)
    (hZones : SameOrigins config.zones other.zones) :
    Option.Rel (fun zone found => zone.origin.same found.origin = true)
      (config.zoneFor? name) (other.zoneFor? spelled) := by
  rw [zoneFor?, zoneFor?]
  cases hFirst : closestZone? name config.zones with
  | none =>
    rw [closestZone?_eq_none_of_sameOrigins hName hZones hFirst]
    exact .none
  | some found =>
    cases hSecond : closestZone? spelled other.zones with
    | none =>
      have hNone :=
        closestZone?_eq_none_of_sameOrigins (Name.same_symm hName) hZones.symm hSecond
      cases hFirst.symm.trans hNone
    | some facing =>
      exact .some ((closestZone?_eq_some_iff.mp hFirst).same_origin hName hZones
        (closestZone?_eq_some_iff.mp hSecond))

theorem exists_zoneFor?_iff {config : Config} {name : Name} :
    (∃ zone, config.zoneFor? name = some zone) ↔
      ∃ zone ∈ config.zones, name.isWithin zone.origin = true := by
  rw [← Option.isSome_iff_exists, ← Option.ne_none_iff_isSome, ne_eq, zoneFor?_eq_none_iff]
  simp [Name.encloses_iff]

theorem mem_of_zoneFor? {config : Config} {name : Name} {zone : Zone}
    (h : config.zoneFor? name = some zone) : zone ∈ config.zones := by
  obtain ⟨index, hClosest⟩ := zoneFor?_eq_some_iff.mp h
  exact List.mem_of_getElem? hClosest.listed

/--
A name without a zone is enclosed by none. The zone of any other name is the one that encloses it
and lies within all others that do, the last of those with its origin. Another order of the zones
and other cases of the letters lead to the same origin.
-/
theorem zone_found_is_closest :
    (∀ (config : Config) (name : Name),
      (config.zoneFor? name = none ↔ ∀ zone ∈ config.zones, ¬zone.origin.Encloses name) ∧
      (∀ zone, config.zoneFor? name = some zone ↔
        ∃ index, IsClosest name config.zones index zone) ∧
      ∀ index, config.zoneIndex? name = some index ↔
        ∃ zone, IsClosest name config.zones index zone) ∧
    ∀ (config other : Config) (name spelled : Name), name.same spelled = true →
      SameOrigins config.zones other.zones →
      Option.Rel (fun zone found => zone.origin.same found.origin = true)
        (config.zoneFor? name) (other.zoneFor? spelled) :=
  ⟨fun _ _ => ⟨zoneFor?_eq_none_iff, fun _ => zoneFor?_eq_some_iff,
      fun _ => zoneIndex?_eq_some_iff⟩,
    fun _ _ _ _ => zoneFor?_congr⟩

def letterLabel (letter : UInt8) : Label :=
  ⟨[letter], List.cons_ne_nil _ _, Nat.le_add_left 1 62⟩

def rootZone : Zone :=
  ⟨.root, .internet, "root"⟩

def smallZone : Zone :=
  ⟨⟨[letterLabel 97], by decide⟩, .internet, "small"⟩

/-- A zone with the origin of the small one. -/
def capitalZone : Zone :=
  ⟨⟨[letterLabel 65], by decide⟩, .internet, "capital"⟩

def smallHost : Name :=
  ⟨[letterLabel 119, letterLabel 97], by decide⟩

def capitalHost : Name :=
  ⟨[letterLabel 87, letterLabel 65], by decide⟩

theorem zone_found_is_closest_capitalZone :
    IsClosest smallHost [smallZone, rootZone, capitalZone] 2 capitalZone ∧
      (Config.mk [] [smallZone, rootZone, capitalZone]).zoneFor? smallHost = some capitalZone ∧
      (Config.mk [] [capitalZone, smallZone, rootZone]).zoneFor? capitalHost = some smallZone ∧
      Option.Rel (fun zone found => zone.origin.same found.origin = true)
        ((Config.mk [] [smallZone, rootZone, capitalZone]).zoneFor? smallHost)
        ((Config.mk [] [capitalZone, smallZone, rootZone]).zoneFor? capitalHost) := by
  have hZones : SameOrigins [smallZone, rootZone, capitalZone]
      [capitalZone, smallZone, rootZone] :=
    ⟨[smallZone, capitalZone, rootZone], by decide,
      .cons (by decide) (.cons (by decide) (.cons (by decide) .nil))⟩
  have hIndex : (Config.mk [] [smallZone, rootZone, capitalZone]).zoneIndex? smallHost =
      some 2 := by decide
  obtain ⟨hClosest, hCongr⟩ := zone_found_is_closest
  obtain ⟨-, -, hZoneIndex⟩ := hClosest ⟨[], [smallZone, rootZone, capitalZone]⟩ smallHost
  obtain ⟨zone, hZone⟩ := (hZoneIndex 2).mp hIndex
  cases hZone.listed
  exact ⟨hZone, by decide, by decide, hCongr ⟨[], _⟩ ⟨[], _⟩ _ _ (by decide) hZones⟩

end Config

end ZoneStore
