import ZoneStore.Host.Operations

/-!
# Custody of registrations

Registering an implementation issues a handle, which the registrant keeps
until it undoes the registration with it. A handle carries no more than the
name of the implementation. To tell which registration is undone with which
handle, handles are numbered here as they are issued, and every entry of the
registry is told by the handle that was issued for it.
-/

namespace ZoneStore

structure Handle where
  number : Nat
  registration : Registration
  constructor : Constructor
deriving DecidableEq

def Handle.name (handle : Handle) : String :=
  handle.registration.name

def Handle.entry (handle : Handle) : String × Constructor :=
  (handle.name, handle.constructor)

/-- A host together with the handles that it and its driver hold. -/
structure Custody where
  host : Host
  /-- The handles that the entries of the registry were issued with. -/
  entries : List Handle
  driver : Option Handle
  held : List Handle
  /-- The number of the next handle. -/
  next : Nat

/-- What is done on a host that gives up none of its handles but to undo the registration. -/
inductive CustodyCall where
  | register (name : String) (constructor : Constructor)
  /-- The registration is undone with the handle of the given number, if it is held. -/
  | unregister (number : Nat)
  | setUp (read : FileReader) (name : String) (arguments : List String)
  | shutDown
  /-- Any other call; one of those above is not made in this way. -/
  | other (call : HostCall)

/-- Whether a call may add to the registry or take from it. -/
def HostCall.registers : HostCall → Bool
  | register _ _ => true
  | unregister _ => true
  | setUp _ _ _ => true
  | shutDown => true
  | _ => false

namespace Custody

def start : Custody :=
  ⟨Host.start, [], none, [], 0⟩

def outstanding (custody : Custody) : List Handle :=
  custody.driver.toList ++ custody.held

/-- The entries that stay when the entry of a name is removed. -/
def entriesWithout (custody : Custody) (name : String) : List Handle :=
  custody.entries.filter fun handle => name != handle.name

/-- The handle that is issued with a registration. -/
def issue (custody : Custody) (registration : Registration) (constructor : Constructor) : Handle :=
  ⟨custody.next, registration, constructor⟩

def apply (custody : Custody) : CustodyCall → Custody
  | .register name constructor =>
    let step := custody.host.register name constructor
    match step.result with
    | .ok registration =>
      let handle := custody.issue registration constructor
      { custody with
        host := step.host
        entries := handle :: custody.entries
        held := handle :: custody.held
        next := custody.next + 1 }
    | .error _ => { custody with host := step.host }
  | .unregister number =>
    match custody.held.find? fun handle => handle.number == number with
    | some handle =>
      { custody with
        host := (custody.host.unregister handle.registration).host
        entries := custody.entriesWithout handle.name
        held := custody.held.erase handle }
    | none => custody
  | .setUp read name arguments =>
    let host := (custody.host.setUp read name arguments).host
    match (custody.host.register Host.driverName .resolving).result with
    | .ok registration =>
      -- The driver keeps the handle in the place of any that it had.
      let handle := custody.issue registration .resolving
      { custody with
        host := host
        entries := handle :: custody.entries
        driver := some handle
        next := custody.next + 1 }
    | .error _ => { custody with host := host }
  | .shutDown =>
    { custody with
      host := custody.host.shutDown.host
      entries := custody.driver.elim custody.entries fun handle =>
        custody.entriesWithout handle.name
      driver := none }
  | .other call =>
    if call.registers then custody else { custody with host := custody.host.apply call }

def applyAll (custody : Custody) (calls : List CustodyCall) : Custody :=
  calls.foldl apply custody

end Custody

end ZoneStore
