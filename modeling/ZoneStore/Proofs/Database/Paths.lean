import ZoneStore.Database.Lookup
import ZoneStore.Proofs.Rrset.Lookup

/-!
# Three ways to an RRset

An RRset is reached by a lookup of its name and type, or by way of the node
of the name, which in turn is found with or without creating it. The first
way searches the list of the name itself, for the type and then for an
alias. It answers what the node answers to the same two questions; the ways
differ only on a partial match and on a name that is not known.
-/

namespace ZoneStore.Lookup

theorem admits_iff {version : Option Version} :
    admits version = true ↔ version = none ∨ version = some .sentinel := by
  cases version with
  | none => simp [admits]
  | some version => simp [admits]

theorem selectOrAlias_eq {resolver : Resolver} (hSelect : resolver.findType = RrsetList.select)
    (rrsets : RrsetList) (type : RecordType) :
    selectOrAlias resolver rrsets type =
      ((rrsets.find? type).map fun rrset => (rrset, false)).or
        ((rrsets.find? .cname).map fun rrset => (rrset, true)) := by
  rw [selectOrAlias, hSelect, RrsetList.select, ← RrsetList.find?_eq]
  cases rrsets.find? type <;> rfl

/-- A lookup that is allowed depends on what the resolver answers and on nothing else. -/
theorem result_find {resolver : Resolver} {name : Name} {version : Option Version}
    {type : RecordType} {options : FindOptions} {now : UInt32}
    (hType : type ≠ .any) (hVersion : admits version = true) :
    (find resolver name version type options now).result =
      match resolver.resolve name with
      | .error cause => .error (.error cause)
      | .ok resolution =>
        match selectOrAlias resolver resolution.rrsets type with
        | some (rrset, isAlias) => .ok (answer ⟨name, resolution.rrsets⟩ rrset isAlias)
        | none => .error (.error .noSuchRrset) := by
  unfold find
  dsimp only
  rw [if_neg hType, hVersion, Bool.not_true, if_neg Bool.false_ne_true]
  cases resolver.resolve name with
  | error cause => rfl
  | ok resolution =>
    dsimp only [newNode, Memory.ample]
    cases selectOrAlias resolver resolution.rrsets type <;> rfl

/-- What becomes of a resolver's answer when a node is made of it. -/
theorem result_findNode (resolver : Resolver) (name : Name) (create : Bool) :
    (findNode resolver name create).result =
      match resolver.resolve name with
      | .ok (.exactMatch rrsets) => .ok ⟨name, rrsets⟩
      | .ok (.partialMatch rrsets) =>
        if create then .ok ⟨name, rrsets⟩ else .error (.error .notFound)
      | .error cause =>
        if cause = .notFound ∧ create then .ok ⟨name, .empty⟩ else .error (.error cause) := by
  unfold findNode
  dsimp only
  cases resolver.resolve name with
  | ok resolution =>
    cases resolution with
    | exactMatch rrsets => rfl
    | partialMatch rrsets => cases create <;> rfl
  | error cause =>
    dsimp only
    split <;> rfl

theorem result_findNode_create {resolver : Resolver} {name : Name} {resolution : Resolution}
    (h : resolver.resolve name = .ok resolution) :
    (findNode resolver name true).result = .ok ⟨name, resolution.rrsets⟩ := by
  rw [result_findNode, h]
  cases resolution <;> rfl

theorem findRdataset_eq {resolver : Resolver} (hSelect : resolver.findType = RrsetList.select)
    (node : Node) {version : Option Version} (hVersion : admits version = true)
    (type : RecordType) (now : UInt32) :
    findRdataset resolver node version type ⟨0⟩ now =
      match node.rrsets.find? type with
      | some rrset => .ok ⟨.internet, rrset⟩
      | none => .error (.error .notFound) := by
  rw [findRdataset, if_neg (by simp), hVersion, hSelect, RrsetList.select, Bool.not_true,
    if_neg Bool.false_ne_true]
  cases node.rrsets.find? type <;> rfl

/-- A lookup at a name and the two questions to its node have the same answer. -/
structure AgreesWith (found : Outcome FindResult) (direct atAlias : Outcome Rdataset) : Prop where
  success_iff : ∀ rdataset,
    (∃ answer, found = .ok (.success answer) ∧ answer.rdataset = rdataset) ↔ direct = .ok rdataset
  cname_iff : ∀ rdataset,
    (∃ answer, found = .ok (.cname answer) ∧ answer.rdataset = rdataset) ↔
      (∃ failure, direct = .error failure) ∧ atAlias = .ok rdataset
  noSuchRrset_iff : found = .error (.error .noSuchRrset) ↔
    direct = .error (.error .notFound) ∧ atAlias = .error (.error .notFound)

theorem agreesWith_of_resolve {resolver : Resolver}
    (hSelect : resolver.findType = RrsetList.select) {name : Name} {resolution : Resolution}
    (hResolve : resolver.resolve name = .ok resolution) {version : Option Version}
    (hVersion : admits version = true) {type : RecordType} (hType : type ≠ .any)
    (options : FindOptions) (now : UInt32) :
    AgreesWith (find resolver name version type options now).result
      (findRdataset resolver ⟨name, resolution.rrsets⟩ version type ⟨0⟩ now)
      (findRdataset resolver ⟨name, resolution.rrsets⟩ version .cname ⟨0⟩ now) := by
  rw [result_find hType hVersion, hResolve, findRdataset_eq hSelect _ hVersion,
    findRdataset_eq hSelect _ hVersion]
  dsimp only
  rw [selectOrAlias_eq hSelect]
  cases resolution.rrsets.find? type with
  | some rrset => constructor <;> simp [answer]
  | none =>
    cases resolution.rrsets.find? .cname with
    | some rrset => constructor <;> simp [answer]
    | none => constructor <;> simp

/--
What a lookup answers agrees with what the node of the name answers. Without creating it a node
is found on an exact match only; a name that is not known has none, or an empty one. Every other
error of the resolver is passed on.
-/
theorem paths_agree {resolver : Resolver} (hSelect : resolver.findType = RrsetList.select)
    (name : Name) {type : RecordType} (hType : type ≠ .any) {version : Option Version}
    (hVersion : version = none ∨ version = some .sentinel) (options : FindOptions)
    (now : UInt32) :
    (∀ resolution, resolver.resolve name = .ok resolution →
      ∃ node, (findNode resolver name true).result = .ok node ∧ node.owner = name ∧
        node.rrsets = resolution.rrsets ∧
        AgreesWith (find resolver name version type options now).result
          (findRdataset resolver node version type ⟨0⟩ now)
          (findRdataset resolver node version .cname ⟨0⟩ now)) ∧
    (∀ node, (findNode resolver name false).result = .ok node ↔
      ∃ rrsets, resolver.resolve name = .ok (.exactMatch rrsets) ∧ node = ⟨name, rrsets⟩) ∧
    (∀ rrsets, resolver.resolve name = .ok (.partialMatch rrsets) →
      (findNode resolver name false).result = .error (.error .notFound)) ∧
    (resolver.resolve name = .error .notFound →
      (find resolver name version type options now).result = .error (.error .notFound) ∧
      (findNode resolver name false).result = .error (.error .notFound) ∧
      ∃ node, (findNode resolver name true).result = .ok node ∧ node.owner = name ∧
        node.rrsets = .empty ∧
        ∀ (other : RecordType) (asked : Option Version) (later : UInt32),
          asked = none ∨ asked = some .sentinel →
          findRdataset resolver node asked other ⟨0⟩ later = .error (.error .notFound)) ∧
    (∀ cause, cause ≠ .notFound → resolver.resolve name = .error cause →
      (find resolver name version type options now).result = .error (.error cause) ∧
      ∀ create, (findNode resolver name create).result = .error (.error cause)) := by
  have hAdmits := admits_iff.mpr hVersion
  refine ⟨?_, ?_, ?_, ?_, ?_⟩
  · intro resolution hResolve
    exact ⟨⟨name, resolution.rrsets⟩, result_findNode_create hResolve, rfl, rfl,
      agreesWith_of_resolve hSelect hResolve hAdmits hType options now⟩
  · intro node
    rw [result_findNode]
    cases resolver.resolve name with
    | ok resolution =>
      cases resolution with
      | exactMatch rrsets => simp [eq_comm]
      | partialMatch rrsets => simp
    | error cause => simp
  · intro rrsets hResolve
    rw [result_findNode, hResolve]
    rfl
  · intro hResolve
    rw [result_find hType hAdmits, result_findNode, result_findNode, hResolve]
    refine ⟨rfl, rfl, ⟨name, .empty⟩, rfl, rfl, rfl, ?_⟩
    intro other asked later hAsked
    rw [findRdataset_eq hSelect _ (admits_iff.mpr hAsked), RrsetList.find?_empty]
  · intro cause hCause hResolve
    rw [result_find hType hAdmits, hResolve]
    refine ⟨rfl, ?_⟩
    intro create
    rw [result_findNode, hResolve]
    exact if_neg fun h => hCause h.1

def aliasRrset : Rrset :=
  .single .cname ⟨1800, by decide⟩ ⟨[0], by decide⟩

/-- A resolver that knows no name itself, but has the same alias near every name. -/
def nearbyAlias : Resolver :=
  { resolve := fun _ => .ok (.partialMatch ⟨[aliasRrset], List.pairwise_singleton _ _⟩) }

/-- A lookup follows the alias nearby, but without creating it there is no node to show it. -/
theorem paths_agree_nearbyAlias :
    (findNode nearbyAlias .root false).result = .error (.error .notFound) ∧
    ∃ node answer, (findNode nearbyAlias .root true).result = .ok node ∧
      (find nearbyAlias .root none .mx {} 0).result = .ok (.cname answer) ∧
      findRdataset nearbyAlias node none .cname ⟨0⟩ 0 = .ok answer.rdataset := by
  have hSelect : nearbyAlias.findType = RrsetList.select := rfl
  have hType : RecordType.mx ≠ .any := by decide
  have hVersion : (none : Option Version) = none ∨ none = some Version.sentinel := .inl rfl
  obtain ⟨hMatch, _, hPartial, _, _⟩ := paths_agree hSelect .root hType hVersion {} 0
  refine ⟨hPartial _ rfl, ?_⟩
  obtain ⟨node, hNode, _, hRrsets, hAgrees⟩ := hMatch _ rfl
  have hDirect : findRdataset nearbyAlias node none .mx ⟨0⟩ 0 = .error (.error .notFound) := by
    rw [findRdataset_eq hSelect node rfl, hRrsets]
    rfl
  have hAlias : findRdataset nearbyAlias node none .cname ⟨0⟩ 0 = .ok ⟨.internet, aliasRrset⟩ := by
    rw [findRdataset_eq hSelect node rfl, hRrsets]
    rfl
  obtain ⟨answer, hFind, hRdataset⟩ := (hAgrees.cname_iff _).mpr ⟨⟨_, hDirect⟩, hAlias⟩
  rw [← hRdataset] at hAlias
  exact ⟨node, answer, hNode, hFind, hAlias⟩

end ZoneStore.Lookup
