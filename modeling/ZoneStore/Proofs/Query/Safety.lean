import ZoneStore.Proofs.Name.Reliable
import ZoneStore.Proofs.Query.Walk

/-!
# Queries that break a rule

Of all rules that a database has, a query can break one: it may ask for
every type at once. It breaks that rule when its first visit opens a
database, which takes a configuration that loads, instances that are set
up, a zone for the name and an instance for the zone. Nothing that the
files hold makes it break another.
-/

namespace ZoneStore

/-! ## Databases that a query opens -/

/-- The driver is given an instance and a zone of class IN, whatever is registered for it. -/
theorem Host.create_not_violated (host : Host) (implementation : String) {zone : Zone}
    (hClass : zone.recordClass = .internet) (violation : Violation) :
    (host.create implementation zone.origin .zone zone.recordClass [zone.instanceName]).result ≠
      .error (.violation violation) := by
  unfold create
  cases host.implementation? implementation with
  | none => nofun
  | some constructor =>
    cases constructor with
    | resolving =>
      dsimp only [construct, createResolving]
      rw [if_neg (not_not.mpr rfl), if_neg (not_not.mpr hClass)]
      cases host.instance? zone.instanceName <;> nofun
    | refusing => nofun
    | stub => nofun

theorem Lookup.type_of_find_alias {resolver : Resolver} {name : Name} {version : Option Version}
    {type : RecordType} {options : FindOptions} {now : UInt32} {memory : Memory} {found : Found}
    (h : (find resolver name version type options now memory).result = .ok (.cname found)) :
    found.rdataset.rrset.type = .cname := by
  unfold find at h
  dsimp only at h
  split at h
  · cases h
  split at h
  · cases h
  split at h
  · cases h
  split at h
  · cases h
  split at h
  · rename_i rrset isAlias hSelect
    split at h
    · unfold answer at h
      cases isAlias with
      | false => cases h
      | true =>
        cases h
        unfold selectOrAlias at hSelect
        split at hSelect
        · cases hSelect
        · obtain ⟨second, hSecond, hPair⟩ := Option.map_eq_some_iff.mp hSelect
          cases hPair
          simpa using List.find?_some hSecond
    · cases h
  · cases h

/-- An alias that a visit finds is of type CNAME. -/
theorem Host.type_of_visit_alias {host : Host} {zone : Zone} {name : Name} {type : RecordType}
    {found : Found} (h : (host.visit zone name type).result = .ok (.cname found)) :
    found.rdataset.rrset.type = .cname := by
  unfold visit at h
  dsimp only at h
  split at h
  · cases h
  rename_i database _
  split at h
  · cases h
  rename_i result node hAsked
  cases h
  unfold find at hAsked
  split at hAsked
  · split at hAsked
    · unfold carryOut at hAsked
      dsimp only at hAsked
      split at hAsked
      · cases hAsked
      · rename_i hFound
        cases hAsked
        exact Lookup.type_of_find_alias hFound
    · cases hAsked
  · cases hAsked

theorem Host.Serving.instance?_iff {host : Host} {tables : String → Option RecordTable}
    (h : host.Serving tables) (name : String) :
    (∃ id, host.instance? name = .ok id) ↔ ∃ table, tables name = some table := by
  unfold instance?
  cases hTable : tables name with
  | none =>
    rw [h.unbound name hTable]
    simp
  | some table =>
    obtain ⟨id, hLookup, -⟩ := h.bound name table hTable
    rw [hLookup]
    simp

/-! ## Runs -/

namespace Query

variable {query : Query} {config : Config} {read : FileReader} {host : Host}

/-- The first visit of a query for every type is its last. -/
theorem ending_answer_any (hType : query.type = .any)
    (hClass : ∀ zone ∈ config.zones, zone.recordClass = .internet)
    {tables : String → Option RecordTable} (h : host.Serving tables) :
    (∃ zone table, config.zoneFor? query.name = some zone ∧
        tables zone.instanceName = some table ∧
        (query.answer config host).result.ending = .violated .anyLookup) ∨
      ((∀ zone, config.zoneFor? query.name = some zone → tables zone.instanceName = none) ∧
        ∃ error, (query.answer config host).result.ending = .failed error) := by
  unfold answer
  rw [walk]
  cases hZone : config.zoneFor? query.name with
  | none =>
    refine .inr ⟨?_, _, rfl⟩
    rintro _ ⟨⟩
  | some zone =>
    have hInternet := hClass zone (Config.mem_of_zoneFor? hZone)
    dsimp only
    cases hTable : tables zone.instanceName with
    | none =>
      obtain ⟨-, hResult⟩ := h.visit_unserved hTable hInternet query.name query.type
      rw [hResult]
      refine .inr ⟨?_, _, rfl⟩
      rintro _ ⟨⟩
      exact hTable
    | some table =>
      obtain ⟨-, -, hResult⟩ := h.visit hTable hInternet query.name query.type
      have hFind : (Lookup.find table.toResolver query.name none query.type {} 0).result =
          .error (.violation .anyLookup) := by
        rw [Lookup.find, if_pos hType]
      rw [hResult, hFind]
      exact .inl ⟨zone, table, rfl, hTable, rfl⟩

/-- A query asks a database for every type at once. -/
def AsksAny (query : Query) (read : FileReader) : Prop :=
  query.type = .any ∧ ∃ config, (Config.load read query.configuration).1 = .ok config ∧
    (Host.start.setUpAll read config.instances).result = .ok () ∧
    ∃ zone id, config.zoneFor? query.name = some zone ∧
      (Host.start.setUpAll read config.instances).host.instance? zone.instanceName = .ok id

theorem runEnding_eq_violated_iff {ending : Ending} {violation : Violation} :
    runEnding ending = .violated violation ↔ ending = .violated violation := by
  cases ending <;> simp [runEnding]

theorem exists_failed_of_unready (query : Query) (read : FileReader)
    (h : ∀ config, (Config.load read query.configuration).1 = .ok config →
      (Host.start.setUpAll read config.instances).result ≠ .ok ()) :
    ∃ error, (query.run read).ending = .failed error := by
  unfold run
  cases hPair : Config.load read query.configuration with
  | mk loaded log =>
    rw [hPair] at h
    dsimp only
    cases loaded with
    | error e => exact ⟨_, rfl⟩
    | ok config =>
      dsimp only
      cases hSetUp : (Host.start.setUpAll read config.instances).result with
      | error failure => exact ⟨_, rfl⟩
      | ok _ => exact absurd hSetUp (h config rfl)

theorem serving_setUpAll (hSetUp : (Host.start.setUpAll read config.instances).result = .ok ()) :
    (Host.start.setUpAll read config.instances).host.Serving (config.tableOf? read) := by
  have hTables : Host.tablesWith (fun _ => none) read config.instances = config.tableOf? read := by
    funext name
    exact Option.none_or
  rw [← hTables]
  exact (Host.serving_start.setUpAll hSetUp).1

theorem asksAny_iff (hLoad : (Config.load read query.configuration).1 = .ok config)
    (hSetUp : (Host.start.setUpAll read config.instances).result = .ok ()) :
    query.AsksAny read ↔ query.type = .any ∧ ∃ zone table,
      config.zoneFor? query.name = some zone ∧
        config.tableOf? read zone.instanceName = some table := by
  have hBound := (serving_setUpAll hSetUp).instance?_iff
  constructor
  · rintro ⟨hType, other, hOther, -, zone, id, hZone, hId⟩
    cases hLoad.symm.trans hOther
    obtain ⟨table, hTable⟩ := (hBound zone.instanceName).mp ⟨id, hId⟩
    exact ⟨hType, zone, table, hZone, hTable⟩
  · rintro ⟨hType, zone, table, hZone, hTable⟩
    obtain ⟨id, hId⟩ := (hBound zone.instanceName).mpr ⟨table, hTable⟩
    exact ⟨hType, config, hLoad, hSetUp, zone, id, hZone, hId⟩

theorem ending_answer_cases (query : Query) (hServing : host.Serving (config.tableOf? read))
    (hClass : ∀ zone ∈ config.zones, zone.recordClass = .internet) :
    ((query.type = .any ∧ ∃ zone table, config.zoneFor? query.name = some zone ∧
          config.tableOf? read zone.instanceName = some table) ∧
        (query.answer config host).result.ending = .violated .anyLookup) ∨
      (¬ (query.type = .any ∧ ∃ zone table, config.zoneFor? query.name = some zone ∧
          config.tableOf? read zone.instanceName = some table) ∧
        ∀ violation, (query.answer config host).result.ending ≠ .violated violation) := by
  by_cases hType : query.type = .any
  · obtain ⟨zone, table, hZone, hTable, hEnding⟩ | ⟨hUnserved, error, hEnding⟩ :=
      ending_answer_any hType hClass hServing
    · exact .inl ⟨⟨hType, zone, table, hZone, hTable⟩, hEnding⟩
    · refine .inr ⟨?_, fun violation hViolated => ?_⟩
      · rintro ⟨-, zone, table, hZone, hTable⟩
        rw [hUnserved zone hZone] at hTable
        cases hTable
      · rw [hEnding] at hViolated
        cases hViolated
  · obtain ⟨hRetells, -⟩ := retells_walk hType hClass hServing query.name (maxAliases + 1)
    exact .inr ⟨fun hAsks => hType hAsks.1, hRetells.not_violated⟩

theorem ending_run_cases (query : Query) (read : FileReader) :
    (query.AsksAny read ∧ (query.run read).ending = .violated .anyLookup) ∨
      (¬ query.AsksAny read ∧
        ∀ violation, (query.run read).ending ≠ .violated violation) := by
  by_cases hReady : ∃ config, (Config.load read query.configuration).1 = .ok config ∧
      (Host.start.setUpAll read config.instances).result = .ok ()
  · obtain ⟨config, hLoad, hSetUp⟩ := hReady
    obtain ⟨log, hRun⟩ := run_eq hLoad hSetUp
    obtain ⟨-, -, hEnding⟩ := query.conclude_cases config
      (Host.start.setUpAll read config.instances).host log
    rw [← hRun] at hEnding
    rw [asksAny_iff hLoad hSetUp, hEnding]
    obtain ⟨hAsks, hViolated⟩ | ⟨hAsks, hOther⟩ := query.ending_answer_cases
      (serving_setUpAll hSetUp) (Config.internet_of_load hLoad)
    · rw [hViolated]
      exact .inl ⟨hAsks, rfl⟩
    · refine .inr ⟨hAsks, fun violation hViolated => ?_⟩
      rw [runEnding_eq_violated_iff] at hViolated
      exact hOther violation hViolated
  · obtain ⟨error, hFailed⟩ := query.exists_failed_of_unready read
      fun config hLoad hSetUp => hReady ⟨config, hLoad, hSetUp⟩
    rw [hFailed]
    refine .inr ⟨?_, nofun⟩
    rintro ⟨-, config, hLoad, hSetUp, -⟩
    exact hReady ⟨config, hLoad, hSetUp⟩

/-- What holds of every run, whatever is asked and whatever the files hold. -/
structure Safe (query : Query) (read : FileReader) : Prop where
  violated_iff :
    (∃ violation, (query.run read).ending = .violated violation) ↔ query.AsksAny read
  only_any : ∀ violation, (query.run read).ending = .violated violation → violation = .anyLookup
  exitCode_asked : query.AsksAny read → (query.run read).exitCode = 101
  exitCode_other : ¬ query.AsksAny read →
    (query.run read).exitCode = 0 ∨ (query.run read).exitCode = 1
  enclosed_iff : ∀ (config : Config) (name : Name), (∃ zone, config.zoneFor? name = some zone) ↔
    ∃ zone ∈ config.zones, name.isWithin zone.origin = true
  created : ∀ config, (Config.load read query.configuration).1 = .ok config →
    ∀ zone ∈ config.zones, ∀ (host : Host) (implementation : String) (violation : Violation),
      (host.create implementation zone.origin .zone zone.recordClass [zone.instanceName]).result ≠
        .error (.violation violation)
  alias_type : ∀ (host : Host) (zone : Zone) (name : Name) (found : Found),
    (host.visit zone name query.type).result = .ok (.cname found) →
      found.rdataset.rrset.type = .cname
  spelled : ∀ text, Buffer.ofText text = some ((Name.ofText text).map Name.packed)
  target : ∀ octets, Buffer.ofWire octets = some ((Name.ofWire octets).map Name.packed)
  names : ∀ name : Name, name.InBounds

theorem run_safe (query : Query) (read : FileReader) : query.Safe read where
  violated_iff := by
    obtain ⟨hAsks, hViolated⟩ | ⟨hAsks, hOther⟩ := query.ending_run_cases read
    · exact ⟨fun _ => hAsks, fun _ => ⟨_, hViolated⟩⟩
    · exact ⟨fun ⟨violation, hViolated⟩ => absurd hViolated (hOther violation),
        fun hHolds => absurd hHolds hAsks⟩
  only_any := by
    intro violation hViolated
    obtain ⟨-, hAny⟩ | ⟨-, hOther⟩ := query.ending_run_cases read
    · exact RunEnding.violated.inj (hViolated.symm.trans hAny)
    · exact absurd hViolated (hOther violation)
  exitCode_asked := by
    intro hHolds
    obtain ⟨-, hViolated⟩ | ⟨hAsks, -⟩ := query.ending_run_cases read
    · rw [Run.exitCode, hViolated]
    · exact absurd hHolds hAsks
  exitCode_other := by
    intro hNot
    obtain ⟨hAsks, -⟩ | ⟨-, hOther⟩ := query.ending_run_cases read
    · exact absurd hAsks hNot
    · unfold Run.exitCode
      cases hEnding : (query.run read).ending with
      | succeeded => exact .inl rfl
      | failed _ => exact .inr rfl
      | violated violation => exact absurd hEnding (hOther violation)
  enclosed_iff := fun _ _ => Config.exists_zoneFor?_iff
  created := by
    intro config hLoad zone hZone host implementation violation
    exact host.create_not_violated implementation (Config.internet_of_load hLoad zone hZone)
      violation
  alias_type := fun _ _ _ _ => Host.type_of_visit_alias
  spelled := Buffer.ofText_eq
  target := Buffer.ofWire_eq
  names := Name.inBounds

end Query

end ZoneStore
