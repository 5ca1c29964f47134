import Mathlib.Data.List.Induction
import ZoneStore.Proofs.Host.Registrations
import ZoneStore.Proofs.Host.Repeats

/-!
# The life of the driver

As long as the host leaves the driver's name and the table of instances to
the driver, both can be told from the calls alone. What setting up brings
about stays until the driver is shut down, whatever fails in between, and
nothing of it stays behind.
-/

namespace ZoneStore

/-- Whether a call may bind an instance or remove one. -/
def HostCall.binds : HostCall → Bool
  | addInstance _ _ => true
  | destroyAll => true
  | setUp _ _ _ => true
  | shutDown => true
  | _ => false

namespace Host

variable {host : Host}

/-! ## The table of instances -/

theorem Creates.instances_eq {later : Host} {result : Outcome DatabaseId}
    (hCreates : host.Creates later result) : later.instances = host.instances := by
  cases hCreates <;> rfl

theorem instances_register (host : Host) (name : String) (constructor : Constructor) :
    (host.register name constructor).host.instances = host.instances := by
  obtain ⟨-, hRegister⟩ | ⟨-, -, hHost⟩ := host.register_cases name constructor
  · rw [hRegister]
  · rw [hHost]

theorem instances_apply (host : Host) {call : HostCall} (hCall : call.binds = false) :
    (host.apply call).instances = host.instances := by
  cases call with
  | node call =>
    dsimp only [apply]
    obtain ⟨resolver, source, rfl⟩ | ⟨-, nodes, events, later, -, hPerform⟩ :=
      host.perform_cases call
    · rfl
    · rw [hPerform]
  | createResolving origin kind recordClass arguments forOrigin =>
    exact (creates_createResolving host origin kind recordClass arguments forOrigin).instances_eq
  | create implementation origin kind recordClass arguments forOrigin =>
    exact (creates_create host implementation origin kind recordClass arguments
      forOrigin).instances_eq
  | detach database =>
    dsimp only [apply, detach]
    split <;> rfl
  | register name constructor => exact host.instances_register name constructor
  | addInstance => cases hCall
  | destroyAll => cases hCall
  | setUp => cases hCall
  | shutDown => cases hCall
  | _ => rfl

theorem instances_shutDown (host : Host) : host.shutDown.host.instances = [] := by
  unfold shutDown
  cases host.driverRegistration with
  | none => rfl
  | some registration => rfl

/-- Nothing is left to be shut down again. -/
theorem shutDown_of_empty (hDriver : host.driverRegistration = none)
    (hInstances : host.instances = []) : host.shutDown.host = host := by
  unfold shutDown
  rw [hDriver, destroyAll_eq, hInstances]
  obtain ⟨implementations, driverRegistration, instances, resolvers, databases, nodes, events,
    fresh⟩ := host
  cases hInstances
  rfl

/-! ## Setting up -/

theorem loadInstance_ok_iff {read : FileReader} {arguments : List String} {table : RecordTable} :
    (loadInstance read arguments).1 = .ok table ↔
      ∃ settings, Settings.ofArguments arguments = .ok settings ∧
        (RecordTable.load read settings.records settings.defaultTtl).1 = .ok table := by
  unfold loadInstance
  cases Settings.ofArguments arguments with
  | error e => simp
  | ok settings =>
    simp only [Except.ok.injEq, exists_eq_left']
    cases (RecordTable.load read settings.records settings.defaultTtl).1 <;> simp [Except.mapError]

/-- Loading fails for reasons of its own. -/
theorem loadInstance_ne_database {read : FileReader} {arguments : List String}
    {cause : DatabaseError} : (loadInstance read arguments).1 ≠ .error (.database cause) := by
  unfold loadInstance
  cases Settings.ofArguments arguments with
  | error e => nofun
  | ok settings =>
    dsimp only
    cases (RecordTable.load read settings.records settings.defaultTtl).1 <;> nofun

/-- What a set-up comes to. -/
inductive SetsUp (host : Host) (read : FileReader) (name : String) (arguments : List String) :
    Host → Except DriverError Unit → Prop
  | unloaded {later : Host} {cause : DriverError} : host.SameOwners later →
      (loadInstance read arguments).1 = .error cause →
      SetsUp host read name arguments later (.error cause)
  | taken {later : Host} {table : RecordTable} : host.SameOwners later →
      (loadInstance read arguments).1 = .ok table → host.instances.lookup name ≠ none →
      SetsUp host read name arguments later (.error (.database .alreadyExists))
  | bound {later : Host} {table : RecordTable} : (loadInstance read arguments).1 = .ok table →
      host.instances.lookup name = none →
      later.instances = (name, host.fresh) :: host.instances →
      later.resolvers.find? host.fresh = some table.toResolver →
      SetsUp host read name arguments later (.ok ())

theorem setsUp_setUp (h : host.objects.Accounted) (read : FileReader) (name : String)
    (arguments : List String) :
    host.SetsUp read name arguments (host.setUp read name arguments).host
      (host.setUp read name arguments).result := by
  have hSame : ∀ cause, (host.setUp read name arguments).result = .error cause →
      host.SameOwners (host.setUp read name arguments).host := fun _ => sameOwners_setUp h
  obtain ⟨cause, hLoaded, -, hResult⟩ | ⟨table, hLoaded, hHost, hResult⟩ :=
    host.setUp_cases read name arguments
  · rw [hResult]
    exact .unloaded (hSame cause hResult) hLoaded
  · obtain ⟨hTaken, hAdded⟩ | ⟨hFree, hAdded, hBound, hPut⟩ :=
      host.registerDriver.1.addInstance_cases name table.toResolver
    · rw [hAdded] at hResult
      rw [instances_registerDriver] at hTaken
      rw [hResult]
      exact .taken (hSame _ hResult) hLoaded hTaken
    · rw [hAdded] at hResult
      rw [instances_registerDriver] at hFree hBound
      rw [fresh_registerDriver] at hBound hPut
      rw [hResult, hHost]
      refine .bound hLoaded hFree hBound ?_
      have hAbsent : host.resolvers.find? host.fresh = none :=
        h.resolvers.find?_eq_none (Nat.le_refl _)
      rw [hPut, resolvers_registerDriver, Shelf.find?_put, hAbsent, Option.none_or, if_pos rfl]

theorem setUp_eq_exists_iff (h : host.objects.Accounted) (read : FileReader) (name : String)
    (arguments : List String) :
    (host.setUp read name arguments).result = .error (.database .alreadyExists) ↔
      (∃ table, (loadInstance read arguments).1 = .ok table) ∧
        host.instances.lookup name ≠ none := by
  have hSetsUp := setsUp_setUp h read name arguments
  generalize (host.setUp read name arguments).result = result at hSetsUp
  cases hSetsUp with
  | unloaded hSame hFailed =>
    constructor
    · rintro ⟨⟩
      exact absurd hFailed loadInstance_ne_database
    · rintro ⟨⟨table, hLoaded⟩, -⟩
      rw [hFailed] at hLoaded
      cases hLoaded
  | taken hSame hLoaded hTaken => exact ⟨fun _ => ⟨⟨_, hLoaded⟩, hTaken⟩, fun _ => rfl⟩
  | bound hLoaded hFree => exact ⟨nofun, fun hTaken => absurd hFree hTaken.2⟩

end Host

/-! ## Runs that leave the driver alone -/

/--
The call leaves the driver's name and the table of instances to the driver. Every resolver is then
a table of records, which is never revised.
-/
def CustodyCall.SparesDriver : CustodyCall → Prop
  | register name _ => name ≠ Host.driverName
  | other (.addInstance _ _) => False
  | other .destroyAll => False
  | other (.node (.revise _ _)) => False
  | _ => True

namespace Custody

variable {custody : Custody} {call : CustodyCall}

/-- The host of a custody goes where a call on a host takes it, if it goes anywhere. -/
theorem host_apply_cases (custody : Custody) (call : CustodyCall) :
    (custody.apply call).host = custody.host ∨
      ∃ made, (custody.apply call).host = custody.host.apply made ∧
        ∀ resolver source, made = .node (.revise resolver source) → call = .other made := by
  cases call with
  | register name constructor =>
    refine .inr ⟨.register name constructor, ?_, nofun⟩
    dsimp only [apply]
    split <;> rfl
  | unregister number =>
    dsimp only [apply]
    split
    · exact .inr ⟨.unregister _, rfl, nofun⟩
    · exact .inl rfl
  | setUp read name arguments =>
    refine .inr ⟨.setUp read name arguments, ?_, nofun⟩
    dsimp only [apply]
    split <;> rfl
  | shutDown => exact .inr ⟨.shutDown, rfl, nofun⟩
  | other call =>
    dsimp only [apply]
    split
    · exact .inl rfl
    · exact .inr ⟨call, rfl, fun _ _ _ => rfl⟩

theorem host_setUp (custody : Custody) (read : FileReader) (name : String)
    (arguments : List String) :
    (custody.apply (.setUp read name arguments)).host =
      (custody.host.setUp read name arguments).host := by
  dsimp only [apply]
  split <;> rfl

/-- What the driver can rely on in a run that leaves it alone. -/
structure Undisturbed (custody : Custody) : Prop where
  matched : custody.Matched
  accounted : custody.host.objects.Accounted
  held : ∀ handle ∈ custody.held, handle.name ≠ Host.driverName

theorem undisturbed_start : start.Undisturbed where
  matched := matched_start
  accounted := Host.accounted_start
  held := nofun

theorem held_apply (hHeld : ∀ handle ∈ custody.held, handle.name ≠ Host.driverName)
    (hCall : call.SparesDriver) :
    ∀ handle ∈ (custody.apply call).held, handle.name ≠ Host.driverName := by
  cases call with
  | register name constructor =>
    dsimp only [apply]
    obtain ⟨-, hRegister⟩ | ⟨-, hResult, -⟩ := custody.host.register_cases name constructor
    · rw [hRegister]
      exact hHeld
    · rw [hResult]
      exact List.forall_mem_cons.mpr ⟨hCall, hHeld⟩
  | unregister number =>
    dsimp only [apply]
    split
    · exact fun handle hHandle => hHeld handle (List.mem_of_mem_erase hHandle)
    · exact hHeld
  | setUp read name arguments =>
    dsimp only [apply]
    split <;> exact hHeld
  | shutDown => exact hHeld
  | other call =>
    dsimp only [apply]
    split <;> exact hHeld

theorem Undisturbed.apply (h : custody.Undisturbed) (hCall : call.SparesDriver) :
    (custody.apply call).Undisturbed where
  matched := h.matched.apply call
  accounted := by
    obtain hSame | ⟨made, hMade, -⟩ := custody.host_apply_cases call
    · rw [hSame]
      exact h.accounted
    · rw [hMade]
      exact (Host.turnover_of_accounted h.accounted made).accounted h.accounted
  held := held_apply h.held hCall

theorem Undisturbed.applyAll (h : custody.Undisturbed) {calls : List CustodyCall}
    (hCalls : ∀ call ∈ calls, call.SparesDriver) : (custody.applyAll calls).Undisturbed := by
  induction calls generalizing custody with
  | nil => exact h
  | cons call calls ih =>
    obtain ⟨hFirst, hRest⟩ := List.forall_mem_cons.mp hCalls
    exact ih (h.apply hFirst) hRest

/-! ## One call -/

/-- The driver's implementation is registered as long as the driver holds a handle. -/
theorem Undisturbed.isRegistered_iff (h : custody.Undisturbed) :
    custody.host.isRegistered Host.driverName = true ↔ custody.driver ≠ none := by
  rw [h.matched.isRegistered_iff, Option.ne_none_iff_exists']
  constructor
  · rintro ⟨handle, hHandle, hName⟩
    obtain hDriver | hHeld := List.mem_append.mp hHandle
    · exact ⟨handle, Option.mem_toList.mp hDriver⟩
    · exact absurd hName (h.held handle hHeld)
  · rintro ⟨handle, hDriver⟩
    refine ⟨handle, List.mem_append_left _ (Option.mem_toList.mpr hDriver), ?_⟩
    exact congrArg Prod.fst (h.matched.driver_name handle hDriver)

theorem Undisturbed.implementation?_iff (h : custody.Undisturbed) :
    custody.host.implementation? Host.driverName = some .resolving ↔ custody.driver ≠ none := by
  constructor
  · intro hSome
    rw [← h.isRegistered_iff, Host.isRegistered, hSome]
    rfl
  · intro hDriver
    obtain ⟨handle, hHandle⟩ := Option.ne_none_iff_exists'.mp hDriver
    exact (h.matched.implementation?_eq _ _).mpr
      ⟨handle, List.mem_append_left _ (Option.mem_toList.mpr hHandle),
        h.matched.driver_name handle hHandle⟩

/-- The call sets up an instance, whether that succeeds or not. -/
def IsSetUp (_ : Custody) (call : CustodyCall) : Prop :=
  ∃ read name arguments, call = .setUp read name arguments

theorem driver_apply_of_not_isSetUp (hSetUp : ¬IsSetUp custody call) (hShut : call ≠ .shutDown) :
    (custody.apply call).driver = custody.driver := by
  cases call with
  | setUp read name arguments => exact absurd ⟨read, name, arguments, rfl⟩ hSetUp
  | shutDown => exact absurd rfl hShut
  | _ =>
    dsimp only [apply]
    split <;> rfl

theorem Undisturbed.driver_setUp (h : custody.Undisturbed) (read : FileReader) (name : String)
    (arguments : List String) :
    (custody.apply (.setUp read name arguments)).driver ≠ none := by
  dsimp only [Custody.apply]
  obtain ⟨hTaken, hRegister⟩ | ⟨-, hResult, -⟩ :=
    custody.host.register_cases Host.driverName .resolving
  · rw [hRegister]
    exact h.isRegistered_iff.mp hTaken
  · rw [hResult]
    nofun

theorem Undisturbed.driver_apply_iff (h : custody.Undisturbed) (call : CustodyCall) :
    (custody.apply call).driver ≠ none ↔
      IsSetUp custody call ∨ call ≠ .shutDown ∧ custody.driver ≠ none := by
  by_cases hSetUp : IsSetUp custody call
  · obtain ⟨read, name, arguments, rfl⟩ := hSetUp
    exact ⟨fun _ => .inl ⟨read, name, arguments, rfl⟩, fun _ => h.driver_setUp read name arguments⟩
  by_cases hShut : call = .shutDown
  · subst hShut
    simp [Custody.apply, IsSetUp]
  · rw [driver_apply_of_not_isSetUp hSetUp hShut, or_iff_right hSetUp, and_iff_right hShut]

/-- What a call does to the table of instances. -/
inductive BindingStep (custody : Custody) : CustodyCall → Custody → Prop
  | cleared {later : Custody} : later.host.instances = [] → BindingStep custody .shutDown later
  | bound {read : FileReader} {name : String} {arguments : List String} {table : RecordTable}
      {later : Custody} : (custody.host.setUp read name arguments).result = .ok () →
      (Host.loadInstance read arguments).1 = .ok table →
      custody.host.instances.lookup name = none →
      later.host.instances = (name, custody.host.fresh) :: custody.host.instances →
      later.host.resolvers.find? custody.host.fresh = some table.toResolver →
      BindingStep custody (.setUp read name arguments) later
  | kept {call : CustodyCall} {later : Custody} : call ≠ .shutDown →
      (∀ read name arguments, call = .setUp read name arguments →
        (custody.host.setUp read name arguments).result ≠ .ok ()) →
      later.host.instances = custody.host.instances → BindingStep custody call later

theorem Undisturbed.bindingStep (h : custody.Undisturbed) (hCall : call.SparesDriver) :
    custody.BindingStep call (custody.apply call) := by
  cases call with
  | register name constructor =>
    refine .kept nofun nofun ?_
    rw [← custody.host.instances_register name constructor]
    dsimp only [Custody.apply]
    split <;> rfl
  | unregister number =>
    refine .kept nofun nofun ?_
    dsimp only [Custody.apply]
    split <;> rfl
  | setUp read name arguments =>
    have hSetsUp := Host.setsUp_setUp h.accounted read name arguments
    rw [← host_setUp] at hSetsUp
    generalize hResult : (custody.host.setUp read name arguments).result = result at hSetsUp
    have hFailed : ∀ cause, result = .error cause → ∀ read' name' arguments',
        CustodyCall.setUp read name arguments = .setUp read' name' arguments' →
          (custody.host.setUp read' name' arguments').result ≠ .ok () := by
      rintro cause rfl _ _ _ ⟨⟩ hOk
      rw [hResult] at hOk
      cases hOk
    cases hSetsUp with
    | unloaded hSame => exact .kept nofun (hFailed _ rfl) hSame.instances
    | taken hSame => exact .kept nofun (hFailed _ rfl) hSame.instances
    | bound hLoaded hFree hBound hFind => exact .bound hResult hLoaded hFree hBound hFind
  | shutDown => exact .cleared custody.host.instances_shutDown
  | other call =>
    refine .kept nofun nofun ?_
    dsimp only [Custody.apply]
    split
    · rfl
    · rename_i hRegisters
      refine custody.host.instances_apply ?_
      cases call with
      | addInstance name resolver => cases hCall
      | destroyAll => cases hCall
      | setUp => exact absurd rfl hRegisters
      | shutDown => exact absurd rfl hRegisters
      | _ => rfl

/-- The call sets up an instance of the name, and succeeds. -/
def Binds (name : String) (custody : Custody) (call : CustodyCall) : Prop :=
  ∃ read arguments, call = .setUp read name arguments ∧
    (custody.host.setUp read name arguments).result = .ok ()

theorem Undisturbed.bound_apply_iff (h : custody.Undisturbed) (hCall : call.SparesDriver)
    (name : String) :
    (custody.apply call).host.instances.lookup name ≠ none ↔
      Binds name custody call ∨
        call ≠ .shutDown ∧ custody.host.instances.lookup name ≠ none := by
  have hStep := h.bindingStep hCall
  generalize custody.apply call = later at hStep
  cases hStep with
  | cleared hNone =>
    rw [hNone]
    constructor
    · exact fun hSome => absurd rfl hSome
    · rintro (⟨read, arguments, hSetUp, -⟩ | hNot)
      · cases hSetUp
      · exact absurd rfl hNot.1
  | @bound read other arguments table _ hResult hLoaded hFree hBound hFind =>
    rw [hBound, List.lookup_cons]
    by_cases hName : name = other
    · rw [hName, beq_self_eq_true]
      exact ⟨fun _ => .inl ⟨read, arguments, rfl, hResult⟩, fun _ => nofun⟩
    · rw [beq_false_of_ne hName]
      constructor
      · exact fun hSome => .inr ⟨nofun, hSome⟩
      · rintro (⟨_, _, hSetUp, -⟩ | ⟨-, hSome⟩)
        · cases hSetUp
          exact absurd rfl hName
        · exact hSome
  | kept hShut hFailed hSame =>
    rw [hSame]
    constructor
    · exact fun hSome => .inr ⟨hShut, hSome⟩
    · rintro (⟨read, arguments, hSetUp, hResult⟩ | ⟨-, hSome⟩)
      · exact absurd hResult (hFailed _ _ _ hSetUp)
      · exact hSome

/-- The name is bound to the resolver, which is the given one. -/
structure Serves (custody : Custody) (name : String) (resolver : ResolverId)
    (source : Resolver) : Prop where
  instance? : custody.host.instance? name = .ok resolver
  find? : custody.host.resolvers.find? resolver = some source

variable {name : String} {resolver : ResolverId} {source : Resolver}

/-- A name that is set up is bound to what was loaded for it. -/
theorem Undisturbed.serves_setUp (h : custody.Undisturbed) {read : FileReader}
    {arguments : List String}
    (hResult : (custody.host.setUp read name arguments).result = .ok ()) :
    ∃ resolver table, custody.host.resolvers.find? resolver = none ∧
      (Host.loadInstance read arguments).1 = .ok table ∧
      (custody.apply (.setUp read name arguments)).Serves name resolver table.toResolver := by
  have hSetsUp := Host.setsUp_setUp h.accounted read name arguments
  rw [← host_setUp, hResult] at hSetsUp
  cases hSetsUp with
  | bound hLoaded hFree hBound hFind =>
    refine ⟨_, _, h.accounted.resolvers.find?_eq_none (Nat.le_refl _), hLoaded, ?_, hFind⟩
    rw [Host.instance?_iff_lookup, hBound, List.lookup_cons_self]
    rfl

/-- A name keeps its resolver until the driver is shut down. -/
theorem Undisturbed.serves_apply (h : custody.Undisturbed) (hCall : call.SparesDriver)
    (hShut : call ≠ .shutDown) (hServes : custody.Serves name resolver source) :
    (custody.apply call).Serves name resolver source := by
  have hName := Host.instance?_iff_lookup.mp hServes.instance?
  have hKept : (custody.apply call).host.instances.lookup name = some resolver := by
    have hStep := h.bindingStep hCall
    generalize custody.apply call = later at hStep
    cases hStep with
    | cleared => exact absurd rfl hShut
    | @bound read other arguments table _ hResult hLoaded hFree hBound hFind =>
      have hOther : name ≠ other := by
        rintro rfl
        rw [hName] at hFree
        cases hFree
      rw [hBound, List.lookup_cons, beq_false_of_ne hOther]
      exact hName
    | kept hShut hFailed hSame =>
      rw [hSame]
      exact hName
  refine ⟨Host.instance?_iff_lookup.mpr hKept, ?_⟩
  obtain hSame | ⟨made, hMade, hRevises⟩ := custody.host_apply_cases call
  · rw [hSame]
    exact hServes.find?
  · have hNotRevised : custody.host.change made ≠ .revised resolver := by
      rw [Ne, Host.change_eq_revised_iff]
      rintro ⟨source, rfl⟩
      rw [hRevises resolver source rfl] at hCall
      exact hCall
    -- The name is still bound, so its resolver cannot have gone.
    obtain ⟨value, hValue⟩ := (h.apply hCall).accounted.exists_of_mem_holders
      (List.mem_append_left _ (List.mem_map_of_mem (mem_of_lookup hKept)))
    have hTurnover := Host.turnover_of_accounted h.accounted made
    rw [← hMade] at hTurnover
    obtain hGone | hStays := hTurnover.resolver_cases hServes.find? hNotRevised
    · rw [hGone] at hValue
      cases hValue
    · exact hStays

/-! ## Whole runs -/

theorem applyAll_append (custody : Custody) (calls more : List CustodyCall) :
    custody.applyAll (calls ++ more) = (custody.applyAll calls).applyAll more :=
  List.foldl_append

theorem Undisturbed.serves_applyAll (h : custody.Undisturbed) {calls : List CustodyCall}
    (hCalls : ∀ call ∈ calls, call.SparesDriver) (hShut : .shutDown ∉ calls)
    (hServes : custody.Serves name resolver source) :
    (custody.applyAll calls).Serves name resolver source := by
  induction calls generalizing custody with
  | nil => exact hServes
  | cons call calls ih =>
    obtain ⟨hFirst, hRest⟩ := List.forall_mem_cons.mp hCalls
    rw [List.mem_cons, not_or] at hShut
    exact ih (h.apply hFirst) hRest hShut.2 (h.serves_apply hFirst (Ne.symm hShut.1) hServes)

/-- A call that fits was made, and the driver was not shut down after it. -/
def SinceShutDown (fits : Custody → CustodyCall → Prop) (calls : List CustodyCall) : Prop :=
  ∃ before call after, calls = before ++ call :: after ∧ .shutDown ∉ after ∧
    fits (start.applyAll before) call

theorem sinceShutDown_concat (fits : Custody → CustodyCall → Prop) (calls : List CustodyCall)
    (call : CustodyCall) :
    SinceShutDown fits (calls ++ [call]) ↔
      fits (start.applyAll calls) call ∨ call ≠ .shutDown ∧ SinceShutDown fits calls := by
  constructor
  · rintro ⟨before, made, after, hCalls, hShut, hFits⟩
    rcases List.eq_nil_or_concat' after with rfl | ⟨front, last, rfl⟩
    · obtain ⟨rfl, hSame⟩ := List.append_inj' hCalls rfl
      cases hSame
      exact .inl hFits
    · rw [← List.cons_append, ← List.append_assoc] at hCalls
      obtain ⟨rfl, hSame⟩ := List.append_inj' hCalls rfl
      cases hSame
      rw [List.mem_append, List.mem_singleton, not_or] at hShut
      exact .inr ⟨Ne.symm hShut.2, before, made, front, rfl, hShut.1, hFits⟩
  · rintro (hFits | ⟨hCall, before, made, after, rfl, hShut, hFits⟩)
    · exact ⟨calls, call, [], rfl, List.not_mem_nil, hFits⟩
    · refine ⟨before, made, after ++ [call], by simp, ?_, hFits⟩
      rw [List.mem_append, List.mem_singleton, not_or]
      exact ⟨hShut, Ne.symm hCall⟩

/-- What calls bring about and a shut-down undoes holds if it was brought about since. -/
theorem iff_sinceShutDown (fact : Custody → Prop) {fits : Custody → CustodyCall → Prop}
    (hStart : ¬fact start)
    (hStep : ∀ {custody : Custody} {call : CustodyCall}, custody.Undisturbed → call.SparesDriver →
      (fact (custody.apply call) ↔ fits custody call ∨ call ≠ .shutDown ∧ fact custody))
    {calls : List CustodyCall} (hCalls : ∀ call ∈ calls, call.SparesDriver) :
    fact (start.applyAll calls) ↔ SinceShutDown fits calls := by
  induction calls using List.reverseRecOn with
  | nil =>
    refine ⟨fun hFact => absurd hFact hStart, ?_⟩
    rintro ⟨before, call, after, hCalls, -⟩
    simp at hCalls
  | append_singleton calls call ih =>
    obtain ⟨hFirst, hLast⟩ := List.forall_mem_append.mp hCalls
    rw [sinceShutDown_concat, ← ih hFirst, applyAll_append]
    exact hStep (undisturbed_start.applyAll hFirst) (hLast call (List.mem_singleton_self call))

theorem apply_shutDown_again (custody : Custody) :
    (custody.apply .shutDown).apply .shutDown = custody.apply .shutDown := by
  have hHost := Host.shutDown_of_empty custody.host.driverRegistration_shutDown
    custody.host.instances_shutDown
  dsimp only [apply]
  rw [hHost]
  rfl

/-- What the driver and the table of instances are like after the calls. -/
structure DriverLifecycle (calls : List CustodyCall) : Prop where
  registered_iff : (start.applyAll calls).host.isRegistered Host.driverName = true ↔
    SinceShutDown IsSetUp calls
  registered_as : (start.applyAll calls).host.isRegistered Host.driverName = true →
    (start.applyAll calls).host.implementation? Host.driverName = some .resolving
  bound_iff : ∀ name, (∃ resolver, (start.applyAll calls).host.instance? name = .ok resolver) ↔
    SinceShutDown (Binds name) calls
  /-- A name is bound to the resolver that was loaded when it was set up, which is a new one. -/
  serves : ∀ before read name arguments after,
    calls = before ++ .setUp read name arguments :: after → .shutDown ∉ after →
    ((start.applyAll before).host.setUp read name arguments).result = .ok () →
    ∃ resolver table, (start.applyAll before).host.resolvers.find? resolver = none ∧
      (Host.loadInstance read arguments).1 = .ok table ∧
      (start.applyAll calls).Serves name resolver table.toResolver
  /-- Until the driver is shut down, no other call of the name succeeds. -/
  succeeds_once : ∀ name, SinceShutDown (Binds name) calls →
    ∀ read arguments, ((start.applyAll calls).host.setUp read name arguments).result ≠ .ok ()
  exists_iff : ∀ read name arguments,
    ((start.applyAll calls).host.setUp read name arguments).result =
        .error (.database .alreadyExists) ↔
      (∃ settings table, Settings.ofArguments arguments = .ok settings ∧
        (RecordTable.load read settings.records settings.defaultTtl).1 = .ok table) ∧
      ∃ resolver, (start.applyAll calls).host.instance? name = .ok resolver
  failed : ∀ read name arguments cause,
    ((start.applyAll calls).host.setUp read name arguments).result = .error cause →
    (start.applyAll calls).host.SameOwners
      ((start.applyAll calls).apply (.setUp read name arguments)).host
  again : ((start.applyAll calls).apply .shutDown).apply .shutDown =
    (start.applyAll calls).apply .shutDown

/-- Whatever was set up, failed or was shut down, the calls since the last shut-down tell. -/
theorem driver_lifecycle {calls : List CustodyCall}
    (hCalls : ∀ call ∈ calls, call.SparesDriver) : DriverLifecycle calls := by
  have h := undisturbed_start.applyAll hCalls
  have hBoundIff : ∀ name, (start.applyAll calls).host.instances.lookup name ≠ none ↔
      SinceShutDown (Binds name) calls := fun name =>
    iff_sinceShutDown (fun custody => custody.host.instances.lookup name ≠ none)
      (fun hSome => hSome rfl) (fun h hCall => h.bound_apply_iff hCall name) hCalls
  have hInstance : ∀ name,
      (∃ resolver, (start.applyAll calls).host.instance? name = .ok resolver) ↔
        (start.applyAll calls).host.instances.lookup name ≠ none := by
    intro name
    rw [Option.ne_none_iff_exists']
    exact exists_congr fun resolver => Host.instance?_iff_lookup
  refine ⟨?_, ?_, ?_, ?_, ?_, ?_, ?_, apply_shutDown_again _⟩
  · rw [h.isRegistered_iff]
    exact iff_sinceShutDown (fun custody => custody.driver ≠ none) (fun hSome => hSome rfl)
      (fun h _ => h.driver_apply_iff _) hCalls
  · rw [h.isRegistered_iff]
    exact h.implementation?_iff.mpr
  · exact fun name => (hInstance name).trans (hBoundIff name)
  · rintro before read name arguments after rfl hShut hResult
    obtain ⟨hBefore, hAfter⟩ := List.forall_mem_append.mp hCalls
    obtain ⟨hCall, hRest⟩ := List.forall_mem_cons.mp hAfter
    have hStart := undisturbed_start.applyAll hBefore
    obtain ⟨resolver, table, hNew, hLoaded, hServes⟩ := hStart.serves_setUp hResult
    refine ⟨resolver, table, hNew, hLoaded, ?_⟩
    rw [applyAll_append]
    exact (hStart.apply hCall).serves_applyAll hRest hShut hServes
  · intro name hSince read arguments hResult
    have hSetsUp := Host.setsUp_setUp h.accounted read name arguments
    rw [hResult] at hSetsUp
    cases hSetsUp with
    | bound _ hFree => exact (hBoundIff name).mpr hSince hFree
  · intro read name arguments
    rw [Host.setUp_eq_exists_iff h.accounted, hInstance]
    simp only [Host.loadInstance_ok_iff]
    rw [exists_comm]
  · intro read name arguments cause hFailed
    rw [host_setUp]
    exact Host.sameOwners_setUp h.accounted hFailed

/-- A driver that is set up in vain, set up, and shut down. -/
def stoppedRun : List CustodyCall :=
  [.setUp (fun _ => .error .notFound) "zone" ["records zone.toml"],
    .setUp (fun _ => .ok "") "other" ["records other.toml"], .shutDown, .register "cache" .stub]

/-- It is set up again over an empty file, and once more in vain. -/
def restartedRun : List CustodyCall :=
  stoppedRun ++ .setUp (fun _ => .ok "") "zone" ["records zone.toml"] ::
    [.setUp (fun _ => .ok "") "other" ["records"]]

theorem driver_lifecycle_restarted :
    (start.applyAll restartedRun).host.implementation? Host.driverName = some .resolving ∧
      (∃ resolver table, (Host.loadInstance (fun _ => .ok "") ["records zone.toml"]).1 = .ok table ∧
        (start.applyAll restartedRun).Serves "zone" resolver table.toResolver) ∧
      (start.applyAll restartedRun).host.instance? "other" = .error .notFound ∧
      ((start.applyAll restartedRun).host.setUp (fun _ => .ok "") "zone"
        ["records zone.toml"]).result = .error (.database .alreadyExists) := by
  have hSpares : ∀ call ∈ restartedRun, call.SparesDriver := by
    simp [restartedRun, stoppedRun, CustodyCall.SparesDriver, Host.driverName]
  have h := driver_lifecycle hSpares
  have hSetUp : ((start.applyAll stoppedRun).host.setUp (fun _ => .ok "") "zone"
      ["records zone.toml"]).result = .ok () := by decide +kernel
  have hShut : .shutDown ∉ [CustodyCall.setUp (fun _ => .ok "") "other" ["records"]] := by simp
  obtain ⟨resolver, table, -, hLoaded, hServes⟩ :=
    h.serves stoppedRun _ "zone" _ _ rfl hShut hSetUp
  obtain ⟨settings, hSettings, hTable⟩ := Host.loadInstance_ok_iff.mp hLoaded
  refine ⟨?_, ⟨resolver, table, hLoaded, hServes⟩, by decide +kernel, ?_⟩
  · exact h.registered_as (h.registered_iff.mpr ⟨stoppedRun, _, _, rfl, hShut, _, _, _, rfl⟩)
  · exact (h.exists_iff _ _ _).mpr
      ⟨⟨settings, table, hSettings, hTable⟩, resolver, hServes.instance?⟩

end Custody

end ZoneStore
