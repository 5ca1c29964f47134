import ZoneStore.Host.Answers
import ZoneStore.Proofs.Host.Effects
import ZoneStore.Proofs.Host.Repeats
import ZoneStore.Proofs.Name.Packed

/-!
# Violations and what they leave

The rules of a database over a resolver are told from a call and from what
the call names, apart from how the call is carried out. A call is answered
with a violation exactly if it breaks one of them. It is then stopped before
it has done anything, so that nothing later can tell that it was made.
-/

namespace ZoneStore

/-- A version that the databases over resolvers have not issued. -/
def IsForeign (version : Option Version) : Prop :=
  ∃ other, version = some other ∧ other ≠ .sentinel

/-- The RRset that a search finds stands at the place that the search gives. -/
theorem RrsetList.getElem?_of_find? {list : RrsetList} {type : RecordType} {rrset : Rrset}
    (h : list.find? type = some rrset) :
    list.rrsets[(list.splitAt type).below.length]? = some rrset := by
  have hMembers : (list.splitAt type).members = list.rrsets :=
    members_bisect Rrset.key type.code.toNat list.rrsets
  have hFound : (list.splitAt type).found = some rrset := h
  rw [← hMembers, Split.members, hFound, List.append_assoc,
    List.getElem?_append_right (Nat.le_refl _), Nat.sub_self]
  rfl

/-! ## Lookups -/

namespace Lookup

variable {resolver : Resolver} {name : Name} {version : Option Version} {type covers : RecordType}
  {options : FindOptions} {now : UInt32} {memory : Memory}

theorem admits_eq_false_iff : admits version = false ↔ IsForeign version := by
  cases version with
  | none => simp [admits, IsForeign]
  | some version => simp [admits, IsForeign]

theorem violation?_find_of_allowed (hType : type ≠ .any) (hVersion : admits version = true) :
    (find resolver name version type options now memory).result.violation? = none := by
  unfold find
  dsimp only
  rw [if_neg hType, hVersion, Bool.not_true, if_neg Bool.false_ne_true]
  cases resolver.resolve name with
  | error cause => rfl
  | ok resolution =>
    obtain ⟨forOwner, forFoundName⟩ := memory
    cases forOwner with
    | false => rfl
    | true =>
      dsimp only [newNode]
      cases selectOrAlias resolver resolution.rrsets type with
      | none => rfl
      | some selected => cases forFoundName <;> rfl

/-- A lookup that breaks a rule has asked nothing and given nothing back. -/
theorem find_of_forbidden (h : type = .any ∨ IsForeign version) :
    (find resolver name version type options now memory).result.violation? ≠ none ∧
      (find resolver name version type options now memory).events = [] := by
  unfold find
  dsimp only
  by_cases hType : type = .any
  · rw [if_pos hType]
    exact ⟨nofun, rfl⟩
  · have hVersion := admits_eq_false_iff.mpr (h.resolve_left hType)
    rw [if_neg hType, hVersion, Bool.not_false, if_pos rfl]
    exact ⟨nofun, rfl⟩

theorem violation?_find_iff :
    (find resolver name version type options now memory).result.violation? ≠ none ↔
      type = .any ∨ IsForeign version := by
  constructor
  · intro hViolation
    by_contra hAllowed
    obtain ⟨hType, hVersion⟩ := not_or.mp hAllowed
    rw [← admits_eq_false_iff, Bool.not_eq_false] at hVersion
    exact hViolation (violation?_find_of_allowed hType hVersion)
  · exact fun hForbidden => (find_of_forbidden hForbidden).1

theorem violation?_findNode (create : Bool) :
    (findNode resolver name create memory).result.violation? = none := by
  have hReply : ∀ rrsets entry asked,
      (replyWith memory name rrsets entry asked).result.violation? = none := by
    intro rrsets entry asked
    unfold replyWith newNode
    cases memory.forOwner <;> rfl
  unfold findNode
  dsimp only
  cases resolver.resolve name with
  | ok resolution =>
    cases resolution with
    | exactMatch rrsets => exact hReply _ _ _
    | partialMatch rrsets =>
      cases create with
      | true => exact hReply _ _ _
      | false => rfl
  | error cause =>
    dsimp only
    split
    · exact hReply _ _ _
    · rfl

theorem violation?_findRdataset_iff (node : Node) :
    (findRdataset resolver node version type covers now).violation? ≠ none ↔
      covers.code ≠ 0 ∨ IsForeign version := by
  rw [← admits_eq_false_iff]
  unfold findRdataset
  split
  · rename_i hCovers
    exact ⟨fun _ => .inl hCovers, fun _ => nofun⟩
  rename_i hCovers
  split
  · rename_i hVersion
    exact ⟨fun _ => .inr (by simpa using hVersion), fun _ => nofun⟩
  rename_i hVersion
  constructor
  · intro hViolation
    exfalso
    apply hViolation
    cases resolver.findType node.rrsets type <;> rfl
  · rintro (hCode | hForeign)
    · exact absurd hCode hCovers
    · exact absurd (by rw [hForeign]; rfl) hVersion

end Lookup

/-! ## Versions -/

/-- The version given to a call is not the only one that there is. -/
def VersionCall.Breaks : VersionCall → Prop
  | attach version => version ≠ .sentinel
  | close handle _ => handle ≠ some .sentinel
  | _ => False

namespace Database

theorem violation?_answerVersion_iff {database : Database} {call : VersionCall} :
    (database.answerVersion call).violation? ≠ none ↔
      (∃ origin resolver, database = .resolving origin resolver) ∧ call.Breaks := by
  cases database with
  | stub origin =>
    have hNone : ((stub origin).answerVersion call).violation? = none := by cases call <;> rfl
    rw [hNone]
    exact ⟨fun hViolation => absurd rfl hViolation, nofun⟩
  | resolving origin resolver =>
    have hSome : ∃ o r, resolving origin resolver = .resolving o r := ⟨origin, resolver, rfl⟩
    rw [and_iff_right hSome]
    cases call with
    | current => exact ⟨fun hViolation => absurd rfl hViolation, nofun⟩
    | new => exact ⟨fun hViolation => absurd rfl hViolation, nofun⟩
    | attach version =>
      dsimp only [answerVersion, attachVersion, VersionCall.Breaks]
      by_cases hVersion : version = .sentinel
      · rw [if_pos hVersion]
        exact ⟨fun hViolation => absurd rfl hViolation, fun hNe => absurd hVersion hNe⟩
      · rw [if_neg hVersion]
        exact ⟨fun _ => hVersion, fun _ => nofun⟩
    | close handle commit =>
      dsimp only [answerVersion, closeVersion, VersionCall.Breaks]
      by_cases hHandle : handle = some .sentinel
      · rw [if_pos hHandle]
        exact ⟨fun hViolation => absurd rfl hViolation, fun hNe => absurd hHandle hNe⟩
      · rw [if_neg hHandle]
        exact ⟨fun _ => hHandle, fun _ => nofun⟩

/-- A version is closed in place with the same outcome; a violation leaves the handle. -/
theorem closeInPlace_cases (database : Database) (handle : Option Version) (commit : Bool) :
    ((database.closeInPlace commit).run.run handle).1.map
        (fun _ => ((database.closeInPlace commit).run.run handle).2) =
      database.closeVersion handle commit ∧
    ((database.closeVersion handle commit).violation? ≠ none →
      ((database.closeInPlace commit).run.run handle).2 = handle) := by
  cases database with
  | stub origin => exact ⟨rfl, fun hViolation => absurd rfl hViolation⟩
  | resolving origin resolver =>
    by_cases hHandle : handle = some .sentinel
    · subst hHandle
      exact ⟨rfl, fun hViolation => absurd rfl hViolation⟩
    · have hRun : ((resolving origin resolver).closeInPlace commit).run.run handle =
          (.error (.violation .foreignVersion), handle) := by
        change (if handle = some .sentinel then set (none : Option Version)
          else throw (.violation .foreignVersion) :
            ExceptT Failure (StateM (Option Version)) Unit).run.run handle = _
        rw [if_neg hHandle]
        rfl
      rw [hRun, closeVersion, if_neg hHandle]
      exact ⟨rfl, fun _ => rfl⟩

end Database

namespace Host

variable {host : Host}

/-! ## Creation -/

/-- What no database over a resolver is created with. -/
def BreaksCreation (kind : DatabaseKind) (recordClass : RecordClass) (arguments : List String) :
    Prop :=
  arguments = [] ∨ kind ≠ .zone ∨ recordClass ≠ .internet

theorem violation?_createResolving_iff (host : Host) (origin : Name) (kind : DatabaseKind)
    (recordClass : RecordClass) (arguments : List String) (forOrigin : Bool) :
    (host.createResolving origin kind recordClass arguments forOrigin).result.violation? ≠ none ↔
      BreaksCreation kind recordClass arguments := by
  unfold createResolving BreaksCreation
  cases arguments with
  | nil => exact ⟨fun _ => .inl rfl, fun _ => nofun⟩
  | cons name arguments =>
    dsimp only
    split
    · rename_i hKind
      exact ⟨fun _ => .inr (.inl hKind), fun _ => nofun⟩
    rename_i hKind
    split
    · rename_i hClass
      exact ⟨fun _ => .inr (.inr hClass), fun _ => nofun⟩
    rename_i hClass
    constructor
    · intro hViolation
      exfalso
      apply hViolation
      cases forOrigin with
      | false => rfl
      | true => cases host.instance? name <;> rfl
    · rintro (⟨⟨⟩⟩ | hWrong | hWrong)
      · exact absurd hWrong hKind
      · exact absurd hWrong hClass

theorem violation?_create_iff (host : Host) (implementation : String) (origin : Name)
    (kind : DatabaseKind) (recordClass : RecordClass) (arguments : List String)
    (forOrigin : Bool) :
    (host.create implementation origin kind recordClass arguments forOrigin).result.violation? ≠
        none ↔
      host.implementation? implementation = some .resolving ∧
        BreaksCreation kind recordClass arguments := by
  unfold create
  cases host.implementation? implementation with
  | none => exact ⟨fun hViolation => absurd rfl hViolation, nofun⟩
  | some constructor =>
    cases constructor with
    | resolving =>
      refine (host.violation?_createResolving_iff origin kind recordClass arguments
        forOrigin).trans ?_
      exact ⟨fun hBreaks => ⟨rfl, hBreaks⟩, And.right⟩
    | refusing => exact ⟨fun hViolation => absurd rfl hViolation, nofun⟩
    | stub => exact ⟨fun hViolation => absurd rfl hViolation, nofun⟩

theorem Creates.host_of_violation {later : Host} {result : Outcome DatabaseId}
    (hCreates : host.Creates later result) (hViolation : result.violation? ≠ none) :
    later = host := by
  cases hCreates with
  | failed failure => rfl
  | opened database hBound => exact absurd rfl hViolation

/-! ## Calls -/

def IsResolving (host : Host) (database : DatabaseId) : Prop :=
  ∃ origin resolver, host.database? database = some (.resolving origin resolver)

/-- The call breaks a rule of databases over resolvers. -/
def Breaks (host : Host) : HostCall → Prop
  | .createResolving _ kind recordClass arguments _ => BreaksCreation kind recordClass arguments
  | .create implementation _ kind recordClass arguments _ =>
    host.implementation? implementation = some .resolving ∧
      BreaksCreation kind recordClass arguments
  | .node (.find database _ version type _ _ _) =>
    host.IsResolving database ∧ (type = .any ∨ IsForeign version)
  | .node (.findRdataset database node version _ covers _) =>
    host.IsResolving database ∧ host.node? node ≠ none ∧ (covers.code ≠ 0 ∨ IsForeign version)
  | .version database call => host.IsResolving database ∧ call.Breaks
  | _ => False

/-- A call is answered with a violation if it breaks a rule, and then it has done nothing. -/
structure Heeded (host : Host) (call : HostCall) : Prop where
  violated_iff : (host.answer call).violation? ≠ none ↔ host.Breaks call
  unchanged : (host.answer call).violation? ≠ none → host.apply call = host

theorem heeded_of_none {call : HostCall} (hAnswer : (host.answer call).violation? = none)
    (hKeeps : ¬ host.Breaks call) : host.Heeded call where
  violated_iff :=
    ⟨fun hViolation => absurd hAnswer hViolation, fun hBreaks => absurd hBreaks hKeeps⟩
  unchanged := fun hViolation => absurd hAnswer hViolation

theorem carryOut_cases {α : Type} (host : Host) (resolver : ResolverId) (reply : Reply α)
    (nodeOf : α → Node) :
    (host.carryOut resolver reply nodeOf).result.violation? = reply.result.violation? ∧
      (reply.result.violation? ≠ none → reply.events = [] →
        (host.carryOut resolver reply nodeOf).host = host) := by
  unfold carryOut
  cases reply.result with
  | ok value => exact ⟨rfl, fun hViolation => absurd rfl hViolation⟩
  | error failure =>
    refine ⟨by cases failure <;> rfl, fun _ hEvents => ?_⟩
    dsimp only
    rw [record, hEvents, List.map_nil, List.append_nil]

/-- A database over a resolver, and what it asks, or a call on it that finds nothing. -/
theorem resolving_cases (h : host.objects.Accounted) (database : DatabaseId) :
    (host.IsResolving database ∧ ∃ origin resolver source,
        host.database? database = some (.resolving origin resolver) ∧
          host.resolvers.find? resolver = some source) ∨
      ¬ host.IsResolving database := by
  by_cases hResolving : host.IsResolving database
  · obtain ⟨origin, resolver, hDatabase⟩ := hResolving
    obtain ⟨source, hSource⟩ := h.exists_of_asked hDatabase rfl
    exact .inl ⟨⟨origin, resolver, hDatabase⟩, origin, resolver, source, hDatabase, hSource⟩
  · exact .inr hResolving

theorem database?_of_not_resolving {database : DatabaseId} (hNot : ¬ host.IsResolving database) :
    host.database? database = none ∨ ∃ origin, host.database? database = some (.stub origin) := by
  cases hDatabase : host.database? database with
  | none => exact .inl rfl
  | some value =>
    cases value with
    | resolving origin resolver => exact absurd ⟨origin, resolver, hDatabase⟩ hNot
    | stub origin => exact .inr ⟨origin, rfl⟩

theorem heeded_find (h : host.objects.Accounted) (database : DatabaseId) (name : Name)
    (version : Option Version) (type : RecordType) (options : FindOptions) (now : UInt32)
    (memory : Memory) :
    host.Heeded (.node (.find database name version type options now memory)) := by
  obtain ⟨hResolving, origin, resolver, source, hDatabase, hSource⟩ | hNot :=
    resolving_cases h database
  · have hFind := find_eq hDatabase hSource name version type options now memory
    obtain ⟨hSame, hStopped⟩ := host.carryOut_cases resolver
      (Lookup.find source name version type options now memory) fun result => result.found.node
    rw [← hFind] at hSame hStopped
    constructor
    · dsimp only [answer, HostAnswer.violation?, Breaks]
      rw [hSame, Lookup.violation?_find_iff, and_iff_right hResolving]
    · intro hViolation
      dsimp only [answer, HostAnswer.violation?] at hViolation
      rw [hSame] at hViolation
      exact hStopped hViolation
        (Lookup.find_of_forbidden (Lookup.violation?_find_iff.mp hViolation)).2
  · refine heeded_of_none ?_ fun hBreaks => hNot hBreaks.1
    dsimp only [answer, find]
    obtain hNone | ⟨origin, hStub⟩ := database?_of_not_resolving hNot
    · rw [hNone]
      rfl
    · rw [hStub]
      rfl

theorem heeded_findNode (h : host.objects.Accounted) (database : DatabaseId) (name : Name)
    (create : Bool) (memory : Memory) :
    host.Heeded (.node (.findNode database name create memory)) := by
  refine heeded_of_none ?_ nofun
  obtain ⟨-, origin, resolver, source, hDatabase, hSource⟩ | hNot := resolving_cases h database
  · dsimp only [answer, HostAnswer.violation?]
    rw [findNode_eq hDatabase hSource, (host.carryOut_cases resolver _ id).1]
    exact Lookup.violation?_findNode create
  · dsimp only [answer, findNode]
    obtain hNone | ⟨origin, hStub⟩ := database?_of_not_resolving hNot
    · rw [hNone]
      rfl
    · rw [hStub]
      rfl

theorem heeded_findRdataset (h : host.objects.Accounted) (database : DatabaseId) (node : NodeId)
    (version : Option Version) (type covers : RecordType) (now : UInt32) :
    host.Heeded (.node (.findRdataset database node version type covers now)) := by
  obtain ⟨hResolving, origin, resolver, source, hDatabase, hSource⟩ | hNot :=
    resolving_cases h database
  · cases hNode : host.node? node with
    | none =>
      refine heeded_of_none ?_ fun hBreaks => hBreaks.2.1 hNode
      dsimp only [answer, findRdataset]
      rw [hDatabase, hNode]
      rfl
    | some value =>
      refine ⟨?_, fun _ => rfl⟩
      dsimp only [answer, HostAnswer.violation?, Breaks, findRdataset]
      rw [hDatabase, hNode]
      dsimp only
      rw [hSource, and_iff_right hResolving, and_iff_right (Option.some_ne_none value)]
      exact Lookup.violation?_findRdataset_iff value
  · refine heeded_of_none ?_ fun hBreaks => hNot hBreaks.1
    dsimp only [answer, findRdataset]
    obtain hNone | ⟨origin, hStub⟩ := database?_of_not_resolving hNot
    · rw [hNone]
      rfl
    · rw [hStub]
      rfl

theorem heeded_version (database : DatabaseId) (call : VersionCall) :
    host.Heeded (.version database call) := by
  refine ⟨?_, fun _ => rfl⟩
  dsimp only [answer, Breaks, IsResolving]
  cases host.database? database with
  | none => exact ⟨fun hViolation => absurd rfl hViolation, nofun⟩
  | some value =>
    simp only [Option.some.injEq]
    exact Database.violation?_answerVersion_iff

/-- Every call on a host that was reached from the start is heeded. -/
theorem heeded (h : host.objects.Accounted) (call : HostCall) : host.Heeded call := by
  cases call with
  | node call =>
    cases call with
    | find database name version type options now memory =>
      exact heeded_find h database name version type options now memory
    | findNode database name create memory => exact heeded_findNode h database name create memory
    | findRdataset database node version type covers now =>
      exact heeded_findRdataset h database node version type covers now
    | _ => exact heeded_of_none rfl nofun
  | version database call => exact heeded_version database call
  | createResolving origin kind recordClass arguments forOrigin =>
    exact ⟨host.violation?_createResolving_iff origin kind recordClass arguments forOrigin,
      (creates_createResolving host origin kind recordClass arguments forOrigin).host_of_violation⟩
  | create implementation origin kind recordClass arguments forOrigin =>
    exact ⟨host.violation?_create_iff implementation origin kind recordClass arguments forOrigin,
      (creates_create host implementation origin kind recordClass arguments
        forOrigin).host_of_violation⟩
  | auxiliary database call =>
    refine heeded_of_none ?_ nofun
    dsimp only [answer]
    cases host.database? database <;> rfl
  | _ => exact heeded_of_none rfl nofun

/-! ## What is left -/

theorem change_of_violation {call : HostCall} (hViolation : (host.answer call).violation? ≠ none) :
    host.change call = .none := by
  have hCreation : ∀ {outcome : Outcome DatabaseId}, outcome.violation? ≠ none →
      Change.ofCreation outcome = .none := by
    intro outcome hOutcome
    cases outcome with
    | ok database => exact absurd rfl hOutcome
    | error failure => rfl
  cases call with
  | createResolving origin kind recordClass arguments forOrigin => exact hCreation hViolation
  | create implementation origin kind recordClass arguments forOrigin => exact hCreation hViolation
  | node call =>
    cases call with
    | revise resolver source => exact absurd rfl hViolation
    | _ => rfl
  | attach database => exact absurd rfl hViolation
  | detach database => exact absurd rfl hViolation
  | _ => rfl

/-- Nothing can tell that the call was made. -/
structure Inert (host : Host) (call : HostCall) : Prop where
  /-- No resolver was asked or given a list back, and no handle was made or dropped. -/
  unchanged : host.apply call = host
  change_eq : host.change call = .none
  handle_kept : ∀ database value handle commit, call = .version database (.close handle commit) →
    host.database? database = some value →
      ((value.closeInPlace commit).run.run handle).2 = handle
  later : ∀ calls, host.answers (call :: calls) = host.answer call :: host.answers calls

theorem Heeded.inert {call : HostCall} (h : host.Heeded call)
    (hViolation : (host.answer call).violation? ≠ none) : host.Inert call where
  unchanged := h.unchanged hViolation
  change_eq := change_of_violation hViolation
  handle_kept := by
    rintro database value handle commit rfl hDatabase
    dsimp only [answer] at hViolation
    rw [hDatabase] at hViolation
    exact (value.closeInPlace_cases handle commit).2 hViolation
  later := by
    intro calls
    rw [answers, h.unchanged hViolation]

/--
After any calls, the next one is answered with a violation exactly if it breaks a rule, and then it
has changed nothing that any later call could see. Nothing else that a call does can go wrong: the
accesses to names and lists have results.
-/
theorem violations_inert (before : List HostCall) (call : HostCall) :
    (((start.applyAll before).answer call).violation? ≠ none ↔
        (start.applyAll before).Breaks call) ∧
      ((start.applyAll before).Breaks call → (start.applyAll before).Inert call) ∧
      (∀ (database : Database) (handle : Option Version) (commit : Bool),
        ((database.closeInPlace commit).run.run handle).1.map
            (fun _ => ((database.closeInPlace commit).run.run handle).2) =
          database.closeVersion handle commit) ∧
      (∀ name : Name, name.InBounds) ∧
      ∀ (list : RrsetList) (type : RecordType) (rrset : Rrset), list.find? type = some rrset →
        list.rrsets[(list.splitAt type).below.length]? = some rrset := by
  have hHeeded := heeded (accounted_applyAll accounted_start before) call
  exact ⟨hHeeded.violated_iff, fun hBreaks => hHeeded.inert (hHeeded.violated_iff.mpr hBreaks),
    fun database handle commit => (database.closeInPlace_cases handle commit).1, Name.inBounds,
    fun _ _ _ => RrsetList.getElem?_of_find?⟩

/-- A lookup of every type and an empty handle break rules of a database over an empty table. -/
example :
    let host := start.applyAll
      [.addInstance "zone" RecordTable.empty.toResolver,
        .createResolving .root .zone .internet ["zone"] true]
    (host.answers
      [.node (.find 1 .root none .any {} 0 .ample), .version 1 (.close none true),
        .version 1 (.close (some .sentinel) true)]).map HostAnswer.violation? =
      [some .anyLookup, some .foreignVersion, none] :=
  rfl

end Host

end ZoneStore
