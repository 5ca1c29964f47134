import ZoneStore.Proofs.Config.Zones
import ZoneStore.Proofs.Database.Paths
import ZoneStore.Proofs.Host.Visits
import ZoneStore.Proofs.Query.Chain

/-!
# A query walks the chain of aliases

On a host that is set up for a configuration a query visits the names of the
chain that starts with its own name, one after the other, nine at most. What
it prints and how it ends is what the chain says.
-/

namespace ZoneStore

/-! ## Accepted configurations -/

namespace Config

/-- Every zone of a configuration that loads is of class IN. -/
theorem internet_of_load {read : FileReader} {path : String} {config : Config}
    (h : (load read path).1 = .ok config) :
    ∀ zone ∈ config.zones, zone.recordClass = .internet := by
  unfold load at h
  split at h
  · cases h
  split at h
  · cases h
  split at h
  · cases h
  rename_i loaded hText
  cases h
  unfold ofText at hText
  split at hText
  · cases hText
  split at hText
  · cases hText
  rename_i hNone
  cases hText
  intro zone hZone
  have hClass := List.find?_eq_none.mp hNone zone hZone
  simpa using hClass

end Config

/-! ## Hops -/

/-- The answer of a lookup for what a table has. -/
def Hop.IsAnsweredBy (name : Name) (hop : Hop) (answer : Outcome FindResult) : Prop :=
  match hop with
  | .data rrset => ∃ node, answer = .ok (.success ⟨node, name, ⟨.internet, rrset⟩⟩)
  | .cname rrset => ∃ node, answer = .ok (.cname ⟨node, name, ⟨.internet, rrset⟩⟩)
  | .lacking => answer = .error (.error .noSuchRrset)
  | .absent => answer = .error (.error .notFound)
  | _ => False

theorem RecordTable.isAnsweredBy_find (table : RecordTable) (name : Name) {type : RecordType}
    (hType : type ≠ .any) :
    (table.hop name type).IsAnsweredBy name
      (Lookup.find table.toResolver name none type {} 0).result := by
  have hSelect : table.toResolver.findType = RrsetList.select := rfl
  have hResolve : table.toResolver.resolve name = table.resolve name := rfl
  rw [Lookup.result_find hType rfl, hResolve, resolve, hop]
  cases table.find? name with
  | some rrsets =>
    dsimp only [Resolution.rrsets]
    rw [Lookup.selectOrAlias_eq hSelect]
    cases rrsets.find? type with
    | some rrset => exact ⟨_, rfl⟩
    | none =>
      cases rrsets.find? .cname with
      | some rrset => exact ⟨_, rfl⟩
      | none => rfl
  | none =>
    cases table.isAncestor name with
    | true => rfl
    | false => rfl

namespace Query

variable {query : Query} {config : Config} {read : FileReader} {host : Host}

/-- What a query does about the answer of a lookup. -/
theorem course_eq (query : Query) (zone : Zone) {name : Name} {hop seen : Hop}
    (hSeen : seen = if query.noFollow then hop.still else hop) {result : Outcome FindResult}
    (h : hop.IsAnsweredBy name result) :
    query.course zone name (result.mapError .notAnswered) =
      match seen.target? with
      | some target => .follow (seen.lines query.type name) target
      | none =>
        .stop ⟨seen.lines query.type name, (seen.error? name).elim .answered .failed⟩ := by
  subst hSeen
  cases hop with
  | noZone => cases h
  | noInstance _ => cases h
  | data rrset =>
    obtain ⟨node, rfl⟩ := h
    cases query.noFollow <;> rfl
  | lacking =>
    cases h
    cases query.noFollow <;> rfl
  | absent =>
    cases h
    cases query.noFollow <;> rfl
  | cname rrset =>
    obtain ⟨node, rfl⟩ := h
    dsimp only [Except.mapError, course]
    cases query.noFollow with
    | true => rfl
    | false =>
      unfold Found.target
      simp only [Bool.false_eq_true, if_false]
      unfold Hop.target? Hop.error?
      dsimp only
      cases Name.ofWire rrset.first.octets <;> rfl

/-- A walk on a host that is set up retells the chain, and asks once for each of its names. -/
theorem retells_walk (hType : query.type ≠ .any)
    (hClass : ∀ zone ∈ config.zones, zone.recordClass = .internet)
    (h : host.Serving (config.tableOf? read)) (start : Name) (count : Nat) :
    Retells query.type (query.hop config read) start count
        (query.walk config count host start).result ∧
      (query.walk config count host start).host.lookups ≤
        host.lookups + chainLength (query.hop config read) start count := by
  induction count generalizing host start with
  | zero => exact ⟨retells_zero _ _ _, Nat.le_refl _⟩
  | succ count ih =>
    rw [walk]
    cases hZone : config.zoneFor? start with
    | none =>
      have hHop : query.hop config read start = .noZone := by rw [hop, hZone]
      exact ⟨retells_stop query.type hHop rfl count, Nat.le_add_right _ _⟩
    | some zone =>
      have hInternet := hClass zone (Config.mem_of_zoneFor? hZone)
      dsimp only
      cases hTable : config.tableOf? read zone.instanceName with
      | none =>
        have hHop : query.hop config read start = .noInstance zone := by
          rw [hop, hZone]
          dsimp only
          rw [hTable]
        obtain ⟨hHost, hResult⟩ := h.visit_unserved hTable hInternet start query.type
        rw [hResult, hHost]
        exact ⟨retells_stop query.type hHop rfl count, Nat.le_add_right _ _⟩
      | some table =>
        have hHop : query.hop config read start =
            if query.noFollow then (table.hop start query.type).still
            else table.hop start query.type := by
          rw [hop, hZone]
          dsimp only
          rw [hTable]
        obtain ⟨hServing, hLookups, hResult⟩ := h.visit hTable hInternet start query.type
        rw [hResult, course_eq query zone hHop (table.isAnsweredBy_find start hType)]
        cases hTarget : (query.hop config read start).target? with
        | none =>
          rw [chainLength_of_none hTarget]
          exact ⟨retells_stop query.type rfl hTarget count, hLookups⟩
        | some target =>
          obtain ⟨hRest, hMore⟩ := ih hServing target
          rw [chainLength_of_some hTarget]
          refine ⟨retells_follow hTarget hRest, ?_⟩
          dsimp only
          omega

/-! ## The run -/

theorem events_destroyAll (host : Host) : host.destroyAll.host.events = host.events := by
  unfold Host.destroyAll
  dsimp only
  induction host.instances generalizing host with
  | nil => rfl
  | cons binding bindings ih => exact ih (host.releaseResolver binding.2)

theorem lookups_shutDown (host : Host) : host.shutDown.host.lookups = host.lookups := by
  unfold Host.lookups Host.shutDown
  cases host.driverRegistration with
  | none => rw [events_destroyAll]
  | some registration =>
    dsimp only
    rw [events_destroyAll]
    rfl

def runEnding : Ending → RunEnding
  | .answered => .succeeded
  | .failed error => .failed (.query error)
  | .violated violation => .violated violation

theorem runEnding_eq_succeeded_iff {ending : Ending} :
    runEnding ending = .succeeded ↔ ending = .answered := by
  cases ending <;> simp [runEnding]

theorem runEnding_eq_failed_iff {ending : Ending} {error : QueryError} :
    runEnding ending = .failed (.query error) ↔ ending = .failed error := by
  cases ending <;> simp [runEnding]

theorem conclude_cases (query : Query) (config : Config) (host : Host) (log : Log) :
    (query.conclude config host log).lines = (query.answer config host).result.lines ∧
      (query.conclude config host log).host.lookups = (query.answer config host).host.lookups ∧
      (query.conclude config host log).ending =
        runEnding (query.answer config host).result.ending := by
  unfold conclude
  dsimp only
  cases (query.answer config host).result.ending with
  | answered => exact ⟨rfl, lookups_shutDown _, rfl⟩
  | failed error => exact ⟨rfl, lookups_shutDown _, rfl⟩
  | violated violation => exact ⟨rfl, rfl, rfl⟩

theorem run_eq {query : Query} {read : FileReader} {config : Config}
    (hLoad : (Config.load read query.configuration).1 = .ok config)
    (hSetUp : (Host.start.setUpAll read config.instances).result = .ok ()) :
    ∃ log, query.run read =
      query.conclude config (Host.start.setUpAll read config.instances).host log := by
  unfold run
  cases hPair : Config.load read query.configuration with
  | mk loaded loadLog =>
    rw [hPair] at hLoad
    dsimp only at hLoad ⊢
    rw [hLoad]
    dsimp only
    rw [hSetUp]
    exact ⟨_, rfl⟩

/--
A query of a configuration that loads and is set up walks the chain of aliases that starts with
its name. It prints what there is at each name of the chain, in order, asks once for each and at
most nine times, and ends as the chain does: with the answer at a name that comes after at most
eight aliases, with the error there, or by giving up on nine aliases. A query that follows no
aliases looks at its own name only.
-/
theorem run_retells_chain {query : Query} {read : FileReader} {config : Config}
    (hType : query.type ≠ .any)
    (hLoad : (Config.load read query.configuration).1 = .ok config)
    (hSetUp : (Host.start.setUpAll read config.instances).result = .ok ()) :
    (query.run read).host.lookups ≤ 9 ∧
      (query.noFollow = true → (query.run read).host.lookups ≤ 1 ∧
        (query.run read).lines =
          (query.hop config read query.name).lines query.type query.name ∧
        ((query.run read).ending = .succeeded ↔
          (query.hop config read query.name).isAnswer = true)) ∧
      ((query.run read).lines = (List.range 9).flatMap fun k =>
        (chain (query.hop config read) query.name k).elim [] fun name =>
          (query.hop config read name).lines query.type name) ∧
      ((query.run read).ending = .succeeded ↔ ∃ k ≤ 8, ∃ name,
        chain (query.hop config read) query.name k = some name ∧
          (query.hop config read name).isAnswer = true) ∧
      ((query.run read).ending = .failed (.query .chainTooLong) ↔ ∃ name,
        chain (query.hop config read) query.name 9 = some name) ∧
      (∀ error ≠ .chainTooLong, (query.run read).ending = .failed (.query error) ↔
        ∃ k ≤ 8, ∃ name, chain (query.hop config read) query.name k = some name ∧
          (query.hop config read name).error? name = some error) ∧
      ((query.run read).ending = .succeeded ∨
        ∃ error, (query.run read).ending = .failed (.query error)) := by
  obtain ⟨hServing, hEvents⟩ := Host.serving_start.setUpAll hSetUp
  obtain ⟨log, hRun⟩ := run_eq hLoad hSetUp
  obtain ⟨hLines, hLookups, hEnding⟩ := query.conclude_cases config
    (Host.start.setUpAll read config.instances).host log
  have hTables : Host.tablesWith (fun _ => none) read config.instances = config.tableOf? read := by
    funext name
    exact Option.none_or
  rw [hTables] at hServing
  obtain ⟨hRetells, hCount⟩ :=
    retells_walk hType (Config.internet_of_load hLoad) hServing query.name 9
  have hNone : (Host.start.setUpAll read config.instances).host.lookups = 0 := by
    rw [Host.lookups, hEvents]
    rfl
  have hNine := chainLength_le (query.hop config read) query.name 9
  have hAnswer : query.answer config (Host.start.setUpAll read config.instances).host =
      query.walk config 9 (Host.start.setUpAll read config.instances).host query.name := rfl
  rw [← hRun, hAnswer] at hLines hLookups hEnding
  rw [hLines, hLookups, hEnding]
  simp only [runEnding_eq_succeeded_iff, runEnding_eq_failed_iff]
  refine ⟨by omega, ?_, hRetells.lines_eq, ?_, hRetells.gaveUp_iff, ?_, ?_⟩
  · intro hFollow
    have hTarget := target?_hop_of_noFollow hFollow config read query.name
    rw [chainLength_of_none hTarget] at hCount
    refine ⟨by omega, ?_, ?_⟩
    · rw [hRetells.lines_eq, lines_chain_succ]
      simp [chain_succ_of_none hTarget]
    · rw [hRetells.answered_iff, exists_chain_succ_iff, hTarget]
      simp
  · rw [hRetells.answered_iff]
    simp only [Nat.lt_succ_iff]
  · intro error hError
    rw [hRetells.failed_iff error hError]
    simp only [Nat.lt_succ_iff]
  · cases hLast : (query.walk config 9 (Host.start.setUpAll read config.instances).host
        query.name).result.ending with
    | answered => exact .inl rfl
    | failed error => exact .inr ⟨error, rfl⟩
    | violated violation => exact absurd hLast (hRetells.not_violated violation)

/-- A name of one letter, which is an alias of itself in the records of a loop. -/
def loopName : Name :=
  ⟨[⟨[97], by simp, by decide⟩], by decide⟩

/-- The files of a configuration with one zone, in whose records an alias leads to itself. -/
def loopReader : FileReader := fun path =>
  if path = "loop.toml" then
    .ok ("[[instances]]\nname = \"i\"\nargs = [\"records r.toml\"]\n" ++
      "[[zones]]\norigin = \".\"\ninstance = \"i\"\n")
  else if path = "r.toml" then
    .ok "[[records]]\nname = \"a.\"\ntype = \"CNAME\"\ndata = \"a.\"\n"
  else .error .notFound

def loopConfig : Config :=
  ⟨[⟨"i", ["records r.toml"]⟩], [⟨.root, .internet, "i"⟩]⟩

def loopQuery : Query :=
  ⟨"loop.toml", .a, false, loopName⟩

theorem run_retells_chain_loop :
    (loopQuery.run loopReader).host.lookups ≤ 9 ∧
      (loopQuery.run loopReader).ending = .failed (.query .chainTooLong) := by
  have hLoad : (Config.load loopReader loopQuery.configuration).1 = .ok loopConfig := by
    decide +kernel
  have hSetUp : (Host.start.setUpAll loopReader loopConfig.instances).result = .ok () := by
    decide +kernel
  obtain ⟨hLookups, _, _, _, hGaveUp, _⟩ :=
    run_retells_chain (show loopQuery.type ≠ .any by decide) hLoad hSetUp
  have hChain : chain (loopQuery.hop loopConfig loopReader) loopQuery.name 9 = some loopName := by
    decide +kernel
  exact ⟨hLookups, hGaveUp.mpr ⟨loopName, hChain⟩⟩

end Query

end ZoneStore
