import ZoneStore.Host.State

/-!
# The registry of implementations

A database implementation is registered under a name, which must be free,
and its registration is undone with the handle that registering returned.
-/

namespace ZoneStore.Host

def implementation? (host : Host) (name : String) : Option Constructor :=
  host.implementations.lookup name

def isRegistered (host : Host) (name : String) : Bool :=
  (host.implementation? name).isSome

def register (host : Host) (name : String) (constructor : Constructor) :
    Step (Except DatabaseError Registration) :=
  if host.isRegistered name then
    ⟨host, .error .alreadyExists, []⟩
  else
    ⟨{ host with implementations := (name, constructor) :: host.implementations },
      .ok ⟨name⟩, [debugLine ("Registered database implementation " ++ name ++ ".")]⟩

def unregister (host : Host) (registration : Registration) : Step Unit :=
  ⟨{ host with
      implementations := host.implementations.filter fun (name, _) => name != registration.name },
    (), [debugLine ("Unregistered database implementation " ++ registration.name ++ ".")]⟩

end ZoneStore.Host
