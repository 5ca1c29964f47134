import Mathlib.Data.List.Range
import ZoneStore.Query.Run

/-!
# Chains of aliases

What a configuration has for a name is said here without hosts, databases
or lookups: the zone that encloses the name, the records of the zone's
instance, and among them the RRset of the type or the alias at the name. An
alias leads on to the name that its first record holds. A transcript retells
a chain of such names if it prints what there is at each and ends as the
chain does.
-/

namespace ZoneStore

/-- What a configuration has for a name. -/
inductive Hop where
  | noZone
  /-- The zone of the name is served by no instance. -/
  | noInstance (zone : Zone)
  | data (rrset : Rrset)
  | cname (rrset : Rrset)
  | lacking
  | absent

namespace Hop

/-- The name that an alias holds. -/
def target? : Hop → Option Name
  | cname rrset => (Name.ofWire rrset.first.octets).toOption
  | _ => none

/-- An alias that is not followed is data like any other. -/
def still : Hop → Hop
  | cname rrset => data rrset
  | hop => hop

def isAnswer : Hop → Bool
  | data _ => true
  | lacking => true
  | absent => true
  | _ => false

def error? (name : Name) : Hop → Option QueryError
  | noZone => some (.noZone name)
  | noInstance zone => some (.creation zone.origin .notFound)
  | cname rrset =>
    match Name.ofWire rrset.first.octets with
    | .ok _ => none
    | .error e => some (.badAlias name e)
  | _ => none

def recordLines (name : Name) (rrset : Rrset) : List String :=
  rrset.rdatas.map fun rdata =>
    "\t".intercalate [name.toText, rrset.ttl.toText, "IN", rrset.type.toText, rdata.toText]

/-- What is printed for a name and a type. -/
def lines (type : RecordType) (name : Name) : Hop → List String
  | data rrset => recordLines name rrset
  | cname rrset => recordLines name rrset
  | lacking => [Query.lackLine name type]
  | absent => [Query.absenceLine name]
  | _ => []

theorem cases (name : Name) (hop : Hop) :
    (∃ target, hop.target? = some target ∧ hop.isAnswer = false ∧ hop.error? name = none) ∨
      (hop.target? = none ∧ hop.isAnswer = true ∧ hop.error? name = none) ∨
      ∃ error, hop.target? = none ∧ hop.isAnswer = false ∧ hop.error? name = some error ∧
        error ≠ .chainTooLong := by
  cases hop with
  | noZone => exact .inr (.inr ⟨_, rfl, rfl, rfl, nofun⟩)
  | noInstance zone => exact .inr (.inr ⟨_, rfl, rfl, rfl, nofun⟩)
  | data rrset => exact .inr (.inl ⟨rfl, rfl, rfl⟩)
  | lacking => exact .inr (.inl ⟨rfl, rfl, rfl⟩)
  | absent => exact .inr (.inl ⟨rfl, rfl, rfl⟩)
  | cname rrset =>
    unfold target? error?
    dsimp only
    cases Name.ofWire rrset.first.octets with
    | ok target => exact .inl ⟨target, rfl, rfl, rfl⟩
    | error e => exact .inr (.inr ⟨_, rfl, rfl, rfl, nofun⟩)

end Hop

/-- What a table has for a name and a type. -/
def RecordTable.hop (table : RecordTable) (name : Name) (type : RecordType) : Hop :=
  match table.find? name with
  | some rrsets =>
    match rrsets.find? type, rrsets.find? .cname with
    | some rrset, _ => .data rrset
    | none, some rrset => .cname rrset
    | none, none => .lacking
  | none => if table.isAncestor name then .lacking else .absent

/-- The records that the instance with a name is set up with. -/
def Config.tableOf? (config : Config) (read : FileReader) (name : String) : Option RecordTable :=
  (config.instances.find? fun entry => entry.name = name).bind fun entry =>
    (Host.loadInstance read entry.arguments).1.toOption

namespace Query

def hop (query : Query) (config : Config) (read : FileReader) (name : Name) : Hop :=
  match config.zoneFor? name with
  | none => .noZone
  | some zone =>
    match config.tableOf? read zone.instanceName with
    | none => .noInstance zone
    | some table =>
      if query.noFollow then (table.hop name query.type).still else table.hop name query.type

theorem target?_hop_of_noFollow {query : Query} (h : query.noFollow = true) (config : Config)
    (read : FileReader) (name : Name) : (query.hop config read name).target? = none := by
  unfold hop
  split
  · rfl
  split
  · rfl
  rename_i table _
  rw [if_pos h]
  cases table.hop name query.type <;> rfl

end Query

/-- The name that a start leads to by a number of aliases. -/
def chain (hop : Name → Hop) (start : Name) : Nat → Option Name
  | 0 => some start
  | count + 1 => (chain hop start count).bind fun name => (hop name).target?

section Chain

variable {hop : Name → Hop} {start : Name}

theorem chain_succ (hop : Name → Hop) (start : Name) (count : Nat) :
    chain hop start (count + 1) =
      (hop start).target?.bind fun target => chain hop target count := by
  induction count with
  | zero => cases hTarget : (hop start).target? <;> simp [chain, hTarget]
  | succ count ih =>
    rw [chain, ih, Option.bind_assoc]
    rfl

theorem chain_succ_of_none (h : (hop start).target? = none) (count : Nat) :
    chain hop start (count + 1) = none := by
  rw [chain_succ, h, Option.bind_none]

theorem chain_succ_of_some {target : Name} (h : (hop start).target? = some target) (count : Nat) :
    chain hop start (count + 1) = chain hop target count := by
  rw [chain_succ, h, Option.bind_some]

/-- A transcript retells the first names of a chain, and ends as they do. -/
structure Retells (type : RecordType) (hop : Name → Hop) (start : Name) (count : Nat)
    (transcript : Transcript) : Prop where
  lines_eq : transcript.lines = (List.range count).flatMap fun k =>
    (chain hop start k).elim [] fun name => (hop name).lines type name
  answered_iff : transcript.ending = .answered ↔
    ∃ k < count, ∃ name, chain hop start k = some name ∧ (hop name).isAnswer = true
  gaveUp_iff : transcript.ending = .failed .chainTooLong ↔
    ∃ name, chain hop start count = some name
  failed_iff : ∀ error ≠ .chainTooLong, transcript.ending = .failed error ↔
    ∃ k < count, ∃ name, chain hop start k = some name ∧ (hop name).error? name = some error
  not_violated : ∀ violation, transcript.ending ≠ .violated violation

theorem retells_zero (type : RecordType) (hop : Name → Hop) (start : Name) :
    Retells type hop start 0 ⟨[], .failed .chainTooLong⟩ where
  lines_eq := rfl
  answered_iff := by simp
  gaveUp_iff := by simp [chain]
  failed_iff := by
    intro error hError
    simp [Ne.symm hError]
  not_violated := nofun

theorem exists_chain_succ_iff (hop : Name → Hop) (start : Name) (count : Nat)
    (p : Name → Prop) :
    (∃ k < count + 1, ∃ name, chain hop start k = some name ∧ p name) ↔
      p start ∨ ∃ target, (hop start).target? = some target ∧
        ∃ k < count, ∃ name, chain hop target k = some name ∧ p name := by
  rw [Nat.exists_lt_succ_left]
  simp only [chain_succ, Option.bind_eq_some_iff]
  constructor
  · rintro (⟨name, hName, hp⟩ | ⟨k, hk, name, ⟨target, hTarget, hName⟩, hp⟩)
    · cases hName
      exact .inl hp
    · exact .inr ⟨target, hTarget, k, hk, name, hName, hp⟩
  · rintro (hp | ⟨target, hTarget, k, hk, name, hName, hp⟩)
    · exact .inl ⟨start, rfl, hp⟩
    · exact .inr ⟨k, hk, name, ⟨target, hTarget, hName⟩, hp⟩

theorem lines_chain_succ (type : RecordType) (hop : Name → Hop) (start : Name) (count : Nat) :
    ((List.range (count + 1)).flatMap fun k =>
        (chain hop start k).elim [] fun name => (hop name).lines type name) =
      (hop start).lines type start ++ (List.range count).flatMap fun k =>
        (chain hop start (k + 1)).elim [] fun name => (hop name).lines type name := by
  rw [List.range_succ_eq_map, List.flatMap_cons, List.flatMap_map]
  rfl

/-- Nothing comes after a name that does not lead on. -/
theorem retells_stop (type : RecordType) {stop : Hop} (hStop : hop start = stop)
    (hTarget : stop.target? = none) (count : Nat) :
    Retells type hop start (count + 1)
      ⟨stop.lines type start, (stop.error? start).elim .answered .failed⟩ := by
  subst hStop
  have hCases := (hop start).cases start
  rw [hTarget] at hCases
  have hLines : (hop start).lines type start = (List.range (count + 1)).flatMap fun k =>
      (chain hop start k).elim [] fun name => (hop name).lines type name := by
    rw [lines_chain_succ]
    simp [chain_succ_of_none hTarget]
  obtain ⟨_, hSome, _⟩ | ⟨_, hAnswer, hNone⟩ | ⟨failure, _, hAnswer, hFailure, hNe⟩ := hCases
  · cases hSome
  · constructor
    · exact hLines
    · rw [exists_chain_succ_iff, hTarget, hNone, hAnswer]
      simp
    · rw [chain_succ_of_none hTarget, hNone]
      simp
    · intro error _
      rw [exists_chain_succ_iff, hTarget, hNone]
      simp
    · rw [hNone]
      nofun
  · constructor
    · exact hLines
    · rw [exists_chain_succ_iff, hTarget, hFailure, hAnswer]
      simp
    · rw [chain_succ_of_none hTarget, hFailure]
      simpa using hNe
    · intro error _
      rw [exists_chain_succ_iff, hTarget, hFailure]
      simp
    · rw [hFailure]
      nofun

theorem retells_follow {type : RecordType} {target : Name} {count : Nat} {rest : Transcript}
    (hTarget : (hop start).target? = some target) (hRest : Retells type hop target count rest) :
    Retells type hop start (count + 1)
      ⟨(hop start).lines type start ++ rest.lines, rest.ending⟩ := by
  have hCases := (hop start).cases start
  rw [hTarget] at hCases
  obtain ⟨_, _, hAnswer, hError⟩ | ⟨hNone, _⟩ | ⟨_, hNone, _⟩ := hCases
  · constructor
    · rw [lines_chain_succ, hRest.lines_eq]
      simp only [chain_succ_of_some hTarget]
    · rw [exists_chain_succ_iff, hTarget, hRest.answered_iff]
      simp [hAnswer]
    · rw [chain_succ_of_some hTarget]
      exact hRest.gaveUp_iff
    · intro error hNe
      rw [exists_chain_succ_iff, hTarget, hRest.failed_iff error hNe]
      simp [hError]
    · exact hRest.not_violated
  · cases hNone
  · cases hNone

/-- The number of names among the first of a chain; it ends where a name does not lead on. -/
def chainLength (hop : Name → Hop) (start : Name) (count : Nat) : Nat :=
  (List.range count).countP fun k => (chain hop start k).isSome

theorem chainLength_le (hop : Name → Hop) (start : Name) (count : Nat) :
    chainLength hop start count ≤ count := by
  refine List.countP_le_length.trans ?_
  rw [List.length_range]

theorem chainLength_succ (hop : Name → Hop) (start : Name) (count : Nat) :
    chainLength hop start (count + 1) =
      (List.range count).countP (fun k => (chain hop start (k + 1)).isSome) + 1 := by
  rw [chainLength, List.range_succ_eq_map, List.countP_cons_of_pos rfl, List.countP_map]
  rfl

theorem chainLength_of_none (h : (hop start).target? = none) (count : Nat) :
    chainLength hop start (count + 1) = 1 := by
  rw [chainLength_succ]
  simp [chain_succ_of_none h]

theorem chainLength_of_some {target : Name} (h : (hop start).target? = some target) (count : Nat) :
    chainLength hop start (count + 1) = chainLength hop target count + 1 := by
  rw [chainLength_succ, chainLength]
  simp only [chain_succ_of_some h]

end Chain

end ZoneStore
