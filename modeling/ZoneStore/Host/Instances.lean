import ZoneStore.Host.State

/-!
# The table of instances

A resolver is bound under the name of its instance. The binding is an owner
of the resolver; removing it does not end a resolver that databases still
own.
-/

namespace ZoneStore.Host

open Text

def instance? (host : Host) (name : String) : Except DatabaseError ResolverId :=
  match host.instances.lookup name with
  | some resolver => .ok resolver
  | none => .error .notFound

def releaseResolver (host : Host) (resolver : ResolverId) : Host :=
  { host with resolvers := (host.resolvers.release resolver).1 }

/-- Brings a resolver into the host, with its bringer as the owner. -/
def newResolver (host : Host) (resolver : Resolver) : Host × ResolverId :=
  ({ host with resolvers := host.resolvers.put host.fresh resolver, fresh := host.fresh + 1 },
    host.fresh)

/--
Binds a new resolver under a name, which must be free. The binding takes over the
ownership; a resolver that cannot be bound is given up.
-/
def addInstance (host : Host) (name : String) (resolver : Resolver) :
    Step (ResolverId × Except DatabaseError Unit) :=
  let (brought, id) := host.newResolver resolver
  if (brought.instances.lookup name).isSome then
    ⟨brought.releaseResolver id, (id, .error .alreadyExists), []⟩
  else
    ⟨{ brought with instances := (name, id) :: brought.instances }, (id, .ok ()),
      [debugLine ("Added resolver instance " ++ name ++ ".")]⟩

def destroyAll (host : Host) : Step Unit :=
  let unbound := host.instances.foldl (fun host (_, resolver) => host.releaseResolver resolver) host
  ⟨{ unbound with instances := [] }, (),
    [debugLine ("Destroyed " ++ decimalText host.instances.length ++ " resolver instance(s).")]⟩

end ZoneStore.Host
