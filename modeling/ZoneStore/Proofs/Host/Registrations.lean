import Mathlib.Data.List.Perm.Basic
import ZoneStore.Host.Custody
import ZoneStore.Proofs.Host.Turnover

/-!
# Registrations and their handles

The entries of the registry and the handles that are outstanding match one
to one, whoever holds them. So a registration that is undone is the one that
its handle was issued for, and no handle gets lost.
-/

namespace ZoneStore

namespace Host

/-! ## What calls do to the registry -/

/-- The registry and the registration of the driver are what they were. -/
structure SameRegistry (host later : Host) : Prop where
  implementations : later.implementations = host.implementations
  driverRegistration : later.driverRegistration = host.driverRegistration

theorem sameRegistry_refl (host : Host) : host.SameRegistry host :=
  ⟨rfl, rfl⟩

theorem sameRegistry_perform (host : Host) (call : NodeCall) :
    host.SameRegistry (host.perform call) := by
  obtain ⟨resolver, source, rfl⟩ | ⟨-, nodes, events, later, -, hPerform⟩ :=
    host.perform_cases call
  · exact ⟨rfl, rfl⟩
  · rw [hPerform]
    exact ⟨rfl, rfl⟩

theorem Creates.sameRegistry {host later : Host} {result : Outcome DatabaseId}
    (hCreates : host.Creates later result) : host.SameRegistry later := by
  cases hCreates <;> exact ⟨rfl, rfl⟩

theorem sameRegistry_addInstance (host : Host) (name : String) (resolver : Resolver) :
    host.SameRegistry (host.addInstance name resolver).host := by
  unfold addInstance newResolver
  dsimp only
  by_cases hBound : (host.instances.lookup name).isSome = true
  · rw [if_pos hBound]
    exact ⟨rfl, rfl⟩
  · rw [if_neg hBound]
    exact ⟨rfl, rfl⟩

theorem sameRegistry_destroyAll (host : Host) : host.SameRegistry host.destroyAll.host := by
  rw [destroyAll_eq]
  exact ⟨rfl, rfl⟩

theorem sameRegistry_apply (host : Host) {call : HostCall} (hCall : call.registers = false) :
    host.SameRegistry (host.apply call) := by
  cases call with
  | node call => exact host.sameRegistry_perform call
  | dropNode node => exact ⟨rfl, rfl⟩
  | version database call => exact host.sameRegistry_refl
  | auxiliary database call => exact host.sameRegistry_refl
  | createResolving origin kind recordClass arguments forOrigin =>
    exact (creates_createResolving host origin kind recordClass arguments forOrigin).sameRegistry
  | create implementation origin kind recordClass arguments forOrigin =>
    exact (creates_create host implementation origin kind recordClass arguments
      forOrigin).sameRegistry
  | attach database => exact ⟨rfl, rfl⟩
  | detach database =>
    dsimp only [apply, detach]
    split <;> exact ⟨rfl, rfl⟩
  | register => cases hCall
  | unregister => cases hCall
  | addInstance name resolver => exact host.sameRegistry_addInstance name resolver
  | destroyAll => exact host.sameRegistry_destroyAll
  | setUp => cases hCall
  | shutDown => cases hCall

/-- Setting up does no more to the registry than to register the driver. -/
theorem sameRegistry_setUp (host : Host) (read : FileReader) (name : String)
    (arguments : List String) :
    host.registerDriver.1.SameRegistry (host.setUp read name arguments).host := by
  obtain ⟨-, -, hHost, -⟩ | ⟨table, -, hHost, -⟩ := host.setUp_cases read name arguments
  · rw [hHost]
    exact sameRegistry_refl _
  · rw [hHost]
    exact sameRegistry_addInstance _ name table.toResolver

theorem implementations_shutDown (host : Host) :
    host.shutDown.host.implementations =
      host.driverRegistration.elim host.implementations fun registration =>
        (host.unregister registration).host.implementations := by
  unfold shutDown
  cases host.driverRegistration with
  | none => exact host.sameRegistry_destroyAll.implementations
  | some registration => exact (sameRegistry_destroyAll _).implementations

theorem driverRegistration_shutDown (host : Host) :
    host.shutDown.host.driverRegistration = none := by
  unfold shutDown
  cases hDriver : host.driverRegistration with
  | none => exact host.sameRegistry_destroyAll.driverRegistration.trans hDriver
  | some registration => exact (sameRegistry_destroyAll _).driverRegistration

theorem register_cases (host : Host) (name : String) (constructor : Constructor) :
    (host.isRegistered name = true ∧
        host.register name constructor = ⟨host, .error .alreadyExists, []⟩) ∨
      (host.isRegistered name = false ∧ (host.register name constructor).result = .ok ⟨name⟩ ∧
        (host.register name constructor).host =
          { host with implementations := (name, constructor) :: host.implementations }) := by
  unfold register
  cases hRegistered : host.isRegistered name with
  | true => exact .inl ⟨rfl, rfl⟩
  | false => exact .inr ⟨rfl, rfl, rfl⟩

theorem registerDriver_cases (host : Host) :
    (host.isRegistered driverName = true ∧ host.registerDriver.1 = host) ∨
      (host.isRegistered driverName = false ∧
        host.registerDriver.1 =
          { host with
            implementations := (driverName, .resolving) :: host.implementations
            driverRegistration := some ⟨driverName⟩ }) := by
  unfold registerDriver
  obtain ⟨hTaken, hRegister⟩ | ⟨hFree, hResult, hHost⟩ := host.register_cases driverName .resolving
  · rw [hRegister]
    exact .inl ⟨hTaken, rfl⟩
  · dsimp only
    rw [hResult]
    dsimp only
    rw [hHost]
    exact .inr ⟨hFree, rfl⟩

end Host

namespace Custody

variable {custody : Custody} {handle : Handle}

/-- The registry has one entry for each handle that is outstanding, and no other. -/
structure Matched (custody : Custody) : Prop where
  implementations : custody.host.implementations = custody.entries.map Handle.entry
  driverRegistration : custody.host.driverRegistration = custody.driver.map Handle.registration
  entries_perm : custody.entries.Perm custody.outstanding
  names : (custody.entries.map Handle.name).Nodup
  numbers : (custody.entries.map Handle.number).Nodup
  lt_next : ∀ handle ∈ custody.entries, handle.number < custody.next
  /-- What the driver holds is its own registration. -/
  driver_name : ∀ handle ∈ custody.driver, handle.entry = (Host.driverName, .resolving)

theorem matched_start : start.Matched where
  implementations := rfl
  driverRegistration := rfl
  entries_perm := .nil
  names := List.nodup_nil
  numbers := List.nodup_nil
  lt_next := nofun
  driver_name := nofun

theorem Matched.implementation?_eq (h : custody.Matched) (name : String)
    (constructor : Constructor) :
    custody.host.implementation? name = some constructor ↔
      ∃ handle ∈ custody.outstanding, handle.entry = (name, constructor) := by
  have hNames : (custody.host.implementations.map Prod.fst).Nodup := by
    rw [h.implementations, List.map_map]
    exact h.names
  rw [Host.implementation?, lookup_eq_some_iff_mem hNames, h.implementations, List.mem_map]
  exact exists_congr fun handle => and_congr_left' h.entries_perm.mem_iff

theorem Matched.isRegistered_iff (h : custody.Matched) (name : String) :
    custody.host.isRegistered name = true ↔ ∃ handle ∈ custody.outstanding, handle.name = name := by
  rw [Host.isRegistered, Option.isSome_iff_exists]
  constructor
  · rintro ⟨constructor, hConstructor⟩
    obtain ⟨handle, hHandle, hEntry⟩ := (h.implementation?_eq name constructor).mp hConstructor
    exact ⟨handle, hHandle, congrArg Prod.fst hEntry⟩
  · rintro ⟨handle, hHandle, rfl⟩
    exact ⟨handle.constructor,
      (h.implementation?_eq handle.name handle.constructor).mpr ⟨handle, hHandle, rfl⟩⟩

theorem Matched.mem_entries (h : custody.Matched) (hHandle : handle ∈ custody.outstanding) :
    handle ∈ custody.entries :=
  h.entries_perm.mem_iff.mpr hHandle

theorem Matched.eq_of_name (h : custody.Matched) {other : Handle}
    (hHandle : handle ∈ custody.entries) (hOther : other ∈ custody.entries)
    (hName : handle.name = other.name) : handle = other :=
  List.inj_on_of_nodup_map h.names hHandle hOther hName

/-- Removing the entry of a name removes the one that was issued with the handle. -/
theorem Matched.entriesWithout_eq (h : custody.Matched) (hHandle : handle ∈ custody.entries) :
    custody.entriesWithout handle.name = custody.entries.erase handle := by
  rw [(List.Nodup.of_map _ h.names).erase_eq_filter, entriesWithout]
  refine List.filter_congr fun other hOther => ?_
  rw [Bool.eq_iff_iff, bne_iff_ne, bne_iff_ne]
  constructor
  · rintro hNe rfl
    exact hNe rfl
  · intro hNe hName
    exact hNe (h.eq_of_name hOther hHandle hName.symm)

theorem Matched.nodup_outstanding (h : custody.Matched) : custody.outstanding.Nodup :=
  h.entries_perm.nodup_iff.mp (List.Nodup.of_map _ h.names)

/-- A handle of the given number is found among those held. -/
theorem Matched.find?_held (h : custody.Matched) (hHandle : handle ∈ custody.held) :
    custody.held.find? (fun other => other.number == handle.number) = some handle := by
  have hOutstanding : ∀ other ∈ custody.held, other ∈ custody.outstanding := fun _ =>
    List.mem_append_right _
  cases hFind : custody.held.find? fun other => other.number == handle.number with
  | none =>
    rw [List.find?_eq_none] at hFind
    exact absurd (beq_self_eq_true handle.number) (hFind handle hHandle)
  | some other =>
    have hOther := h.mem_entries (hOutstanding other (List.mem_of_find?_eq_some hFind))
    have hNumber : other.number = handle.number := by simpa using List.find?_some hFind
    exact congrArg some (List.inj_on_of_nodup_map h.numbers hOther
      (h.mem_entries (hOutstanding handle hHandle)) hNumber)

theorem Matched.not_mem_driver (h : custody.Matched) (hHandle : handle ∈ custody.held) :
    handle ∉ custody.driver.toList := by
  intro hDriver
  exact (List.nodup_append.mp h.nodup_outstanding).2.2 handle hDriver handle hHandle rfl

/-! ## One call -/

/-- A handle is issued for a name that was free. -/
theorem Matched.issued (h : custody.Matched) {name : String}
    (hFree : custody.host.isRegistered name = false) (constructor : Constructor) :
    let handles := custody.issue ⟨name⟩ constructor :: custody.entries
    (handles.map Handle.name).Nodup ∧ (handles.map Handle.number).Nodup ∧
      ∀ handle ∈ handles, handle.number < custody.next + 1 := by
  refine ⟨?_, ?_, ?_⟩
  · refine List.nodup_cons.mpr ⟨?_, h.names⟩
    intro hMem
    obtain ⟨handle, hHandle, hName⟩ := List.mem_map.mp hMem
    have hTaken := (h.isRegistered_iff name).mpr
      ⟨handle, h.entries_perm.mem_iff.mp hHandle, hName⟩
    rw [hFree] at hTaken
    cases hTaken
  · refine List.nodup_cons.mpr ⟨?_, h.numbers⟩
    intro hMem
    obtain ⟨handle, hHandle, hNumber⟩ := List.mem_map.mp hMem
    have hLt := h.lt_next handle hHandle
    rw [hNumber] at hLt
    exact Nat.lt_irrefl custody.next hLt
  · intro handle hHandle
    obtain rfl | hOld := List.mem_cons.mp hHandle
    · exact Nat.lt_succ_self custody.next
    · exact Nat.lt_succ_of_lt (h.lt_next handle hOld)

theorem Matched.register (h : custody.Matched) (name : String) (constructor : Constructor) :
    (custody.apply (.register name constructor)).Matched := by
  dsimp only [apply]
  obtain ⟨-, hRegister⟩ | ⟨hFree, hResult, hHost⟩ := custody.host.register_cases name constructor
  · rw [hRegister]
    exact h
  · rw [hResult]
    dsimp only
    rw [hHost]
    obtain ⟨hNames, hNumbers, hNext⟩ := h.issued hFree constructor
    refine ⟨?_, h.driverRegistration, ?_, hNames, hNumbers, hNext, h.driver_name⟩
    · exact congrArg (_ :: ·) h.implementations
    · exact (h.entries_perm.cons _).trans List.perm_middle.symm

/-- Nothing but one handle and its entry goes. -/
theorem Matched.implementations_unregister (h : custody.Matched) (handle : Handle) :
    (custody.host.unregister handle.registration).host.implementations =
      (custody.entriesWithout handle.name).map Handle.entry := by
  have hFilter : (custody.host.unregister handle.registration).host.implementations =
      custody.host.implementations.filter fun entry => handle.registration.name != entry.1 := by
    refine List.filter_congr fun entry _ => ?_
    exact bne_comm
  rw [hFilter, h.implementations, List.filter_map]
  rfl

/-- What is left matches when a handle goes together with the entry of its name. -/
theorem Matched.remove (h : custody.Matched) (hHandle : handle ∈ custody.entries) {host : Host}
    {driver : Option Handle} {held : List Handle}
    (hImplementations :
      host.implementations = (custody.host.unregister handle.registration).host.implementations)
    (hRegistration : host.driverRegistration = driver.map Handle.registration)
    (hDriver : ∀ other ∈ driver, other ∈ custody.driver)
    (hPerm : (custody.outstanding.erase handle).Perm (driver.toList ++ held)) :
    Matched { custody with
      host := host
      entries := custody.entriesWithout handle.name
      driver := driver
      held := held } := by
  have hEntries := h.entriesWithout_eq hHandle
  have hErased : (custody.entriesWithout handle.name).Sublist custody.entries :=
    List.filter_sublist
  refine ⟨hImplementations.trans (h.implementations_unregister handle), hRegistration, ?_,
    h.names.sublist (hErased.map _), h.numbers.sublist (hErased.map _),
    fun other hOther => h.lt_next other (hErased.subset hOther),
    fun other hOther => h.driver_name other (hDriver other hOther)⟩
  change (custody.entriesWithout handle.name).Perm (driver.toList ++ held)
  rw [hEntries]
  exact (h.entries_perm.erase handle).trans hPerm

theorem Matched.unregister (h : custody.Matched) (number : Nat) :
    (custody.apply (.unregister number)).Matched := by
  dsimp only [apply]
  cases hFind : custody.held.find? fun handle => handle.number == number with
  | none => exact h
  | some handle =>
    have hHeld : handle ∈ custody.held := List.mem_of_find?_eq_some hFind
    refine h.remove (h.mem_entries (List.mem_append_right _ hHeld)) rfl h.driverRegistration
      (fun _ => id) ?_
    rw [outstanding, List.erase_append_right _ (h.not_mem_driver hHeld)]

/-- The driver holds no handle as long as its name is free. -/
theorem Matched.driver_eq_none (h : custody.Matched)
    (hFree : custody.host.isRegistered Host.driverName = false) : custody.driver = none := by
  cases hDriver : custody.driver with
  | none => rfl
  | some handle =>
    have hOutstanding : handle ∈ custody.outstanding := by
      rw [outstanding, hDriver]
      exact List.mem_cons_self
    have hTaken := (h.isRegistered_iff Host.driverName).mpr
      ⟨handle, hOutstanding, congrArg Prod.fst (h.driver_name handle hDriver)⟩
    rw [hFree] at hTaken
    cases hTaken

theorem Matched.setUp (h : custody.Matched) (read : FileReader) (name : String)
    (arguments : List String) : (custody.apply (.setUp read name arguments)).Matched := by
  have hSame := custody.host.sameRegistry_setUp read name arguments
  have hImplementations := hSame.implementations
  have hRegistration := hSame.driverRegistration
  dsimp only [apply]
  obtain ⟨hTaken, hDriver⟩ | ⟨hFree, hDriver⟩ := custody.host.registerDriver_cases
  · obtain ⟨-, hRegister⟩ | ⟨hFree, -⟩ := custody.host.register_cases Host.driverName .resolving
    · rw [hDriver] at hImplementations hRegistration
      rw [hRegister]
      exact ⟨hImplementations.trans h.implementations, hRegistration.trans h.driverRegistration,
        h.entries_perm, h.names, h.numbers, h.lt_next, h.driver_name⟩
    · rw [hTaken] at hFree
      cases hFree
  · obtain ⟨hTaken, -⟩ | ⟨-, hResult, -⟩ :=
      custody.host.register_cases Host.driverName .resolving
    · rw [hTaken] at hFree
      cases hFree
    · rw [hDriver] at hImplementations hRegistration
      rw [hResult]
      obtain ⟨hNames, hNumbers, hNext⟩ := h.issued hFree .resolving
      have hPerm := h.entries_perm
      rw [outstanding, h.driver_eq_none hFree] at hPerm
      refine ⟨?_, hRegistration, hPerm.cons _, hNames, hNumbers, hNext, ?_⟩
      · exact hImplementations.trans (congrArg (_ :: ·) h.implementations)
      · rintro _ ⟨⟩
        rfl

theorem Matched.shutDown (h : custody.Matched) : (custody.apply .shutDown).Matched := by
  have hImplementations := custody.host.implementations_shutDown
  have hNone := custody.host.driverRegistration_shutDown
  rw [h.driverRegistration] at hImplementations
  dsimp only [apply]
  cases hDriver : custody.driver with
  | none =>
    rw [hDriver] at hImplementations
    have hPerm := h.entries_perm
    rw [outstanding, hDriver] at hPerm
    exact ⟨hImplementations.trans h.implementations, hNone, hPerm, h.names, h.numbers, h.lt_next,
      nofun⟩
  | some handle =>
    rw [hDriver] at hImplementations
    have hOutstanding : custody.outstanding = handle :: custody.held := by
      rw [outstanding, hDriver]
      rfl
    have hHandle : handle ∈ custody.outstanding := hOutstanding ▸ List.mem_cons_self
    refine h.remove (h.mem_entries hHandle) hImplementations hNone nofun ?_
    rw [hOutstanding, List.erase_cons_head]
    exact .refl _

theorem Matched.other (h : custody.Matched) (call : HostCall) :
    (custody.apply (.other call)).Matched := by
  dsimp only [apply]
  cases hCall : call.registers with
  | true => exact h
  | false =>
    have hSame := custody.host.sameRegistry_apply hCall
    exact ⟨hSame.implementations.trans h.implementations,
      hSame.driverRegistration.trans h.driverRegistration, h.entries_perm, h.names, h.numbers,
      h.lt_next, h.driver_name⟩

theorem Matched.apply (h : custody.Matched) (call : CustodyCall) :
    (custody.apply call).Matched := by
  cases call with
  | register name constructor => exact h.register name constructor
  | unregister number => exact h.unregister number
  | setUp read name arguments => exact h.setUp read name arguments
  | shutDown => exact h.shutDown
  | other call => exact h.other call

theorem Matched.applyAll (h : custody.Matched) (calls : List CustodyCall) :
    (custody.applyAll calls).Matched := by
  induction calls generalizing custody with
  | nil => exact h
  | cons call calls ih => exact ih (h.apply call)

/-! ## After every run -/

/-- The registry and the handles, and what undoing registrations does to them. -/
structure OneToOne (custody : Custody) : Prop where
  /-- No name has two handles, be they with the host or with the driver. -/
  names : (custody.outstanding.map Handle.name).Nodup
  registered_iff : ∀ name, custody.host.isRegistered name = true ↔
    ∃ handle ∈ custody.outstanding, handle.name = name
  implementation_iff : ∀ name constructor, custody.host.implementation? name = some constructor ↔
    ∃ handle ∈ custody.outstanding, handle.entry = (name, constructor)
  /-- Every entry of the registry was issued with one of the outstanding handles. -/
  entries_eq : custody.host.implementations = custody.entries.map Handle.entry
  entries_perm : custody.entries.Perm custody.outstanding
  driver_eq : custody.host.driverRegistration = custody.driver.map Handle.registration
  /-- The driver keeps the handle that it has. -/
  setUp : ∀ handle ∈ custody.driver, ∀ read name arguments,
    (custody.apply (.setUp read name arguments)).driver = some handle ∧
      (custody.apply (.setUp read name arguments)).entries = custody.entries
  /-- A handle takes the entry with it that it was issued for, and nothing else. -/
  unregister : ∀ handle ∈ custody.held,
    (custody.apply (.unregister handle.number)).entries = custody.entries.erase handle ∧
      (custody.apply (.unregister handle.number)).held = custody.held.erase handle ∧
      (custody.apply (.unregister handle.number)).driver = custody.driver ∧
      (custody.apply (.unregister handle.number)).host.isRegistered handle.name = false
  /-- The driver takes its own entry with it, if it has one. -/
  shutDown : (custody.apply .shutDown).entries =
      custody.driver.elim custody.entries custody.entries.erase ∧
    (custody.apply .shutDown).driver = none ∧
    (custody.apply .shutDown).held = custody.held ∧
    ∀ handle ∈ custody.held,
      (custody.apply .shutDown).host.implementation? handle.name = some handle.constructor

theorem Matched.setUp_of_driver (h : custody.Matched) (hDriver : handle ∈ custody.driver)
    (read : FileReader) (name : String) (arguments : List String) :
    custody.apply (.setUp read name arguments) =
      { custody with host := (custody.host.setUp read name arguments).host } := by
  dsimp only [Custody.apply]
  obtain ⟨-, hRegister⟩ | ⟨hFree, -⟩ := custody.host.register_cases Host.driverName .resolving
  · rw [hRegister]
  · have hNone := h.driver_eq_none hFree
    rw [hNone] at hDriver
    cases hDriver

theorem Matched.unregister_of_held (h : custody.Matched) (hHeld : handle ∈ custody.held) :
    custody.apply (.unregister handle.number) =
      { custody with
        host := (custody.host.unregister handle.registration).host
        entries := custody.entries.erase handle
        held := custody.held.erase handle } := by
  dsimp only [Custody.apply]
  rw [h.find?_held hHeld]
  dsimp only
  rw [h.entriesWithout_eq (h.mem_entries (List.mem_append_right _ hHeld))]

/-- The registration of a handle that was given up is gone. -/
theorem Matched.isRegistered_unregister (h : custody.Matched) (hHeld : handle ∈ custody.held) :
    (custody.apply (.unregister handle.number)).host.isRegistered handle.name = false := by
  have hLater := h.unregister handle.number
  rw [h.unregister_of_held hHeld] at hLater ⊢
  rw [← Bool.not_eq_true, hLater.isRegistered_iff]
  rintro ⟨other, hOther, hName⟩
  have hErased := hLater.mem_entries hOther
  have hSame := h.eq_of_name (List.mem_of_mem_erase hErased)
    (h.mem_entries (List.mem_append_right _ hHeld)) hName
  rw [hSame] at hErased
  exact (List.Nodup.of_map _ h.names).not_mem_erase hErased

theorem Matched.entries_shutDown (h : custody.Matched) :
    (custody.apply .shutDown).entries =
      custody.driver.elim custody.entries custody.entries.erase := by
  dsimp only [Custody.apply]
  have hDriver : ∀ handle ∈ custody.driver, handle ∈ custody.outstanding := fun handle hHandle =>
    List.mem_append_left _ (Option.mem_toList.mpr hHandle)
  cases hHandle : custody.driver with
  | none => rfl
  | some handle => exact h.entriesWithout_eq (h.mem_entries (hDriver handle hHandle))

/-- Registrations and handles match one to one after every run. -/
theorem registrations_match (calls : List CustodyCall) : (start.applyAll calls).OneToOne := by
  have h := matched_start.applyAll calls
  refine ⟨(h.entries_perm.map Handle.name).nodup_iff.mp h.names, h.isRegistered_iff,
    h.implementation?_eq, h.implementations, h.entries_perm, h.driverRegistration, ?_, ?_, ?_⟩
  · intro handle hDriver read name arguments
    rw [h.setUp_of_driver hDriver]
    exact ⟨hDriver, rfl⟩
  · intro handle hHeld
    have hGone := h.isRegistered_unregister hHeld
    rw [h.unregister_of_held hHeld] at hGone ⊢
    exact ⟨rfl, rfl, rfl, hGone⟩
  · refine ⟨h.entries_shutDown, rfl, rfl, ?_⟩
    intro handle hHeld
    exact (h.shutDown.implementation?_eq _ _).mpr ⟨handle, List.mem_append_right _ hHeld, rfl⟩

/-- The name of the driver is first with the host, which keeps another one when the driver goes. -/
example :
    let setUp := CustodyCall.setUp (fun _ => .error .notFound) "zone" []
    let custody := start.applyAll
      [.register Host.driverName .stub, setUp, .unregister 0, setUp, .register "cache" .stub]
    custody.driver = some ⟨1, ⟨Host.driverName⟩, .resolving⟩ ∧
      (custody.apply .shutDown).host.implementations = [("cache", .stub)] :=
  ⟨rfl, rfl⟩

end Custody

end ZoneStore
