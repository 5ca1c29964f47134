/-!
# Violated preconditions

A call can break a rule that its caller is bound to keep. That is not an
error of the operation but of the caller; it is reported apart from errors
and changes nothing.
-/

namespace ZoneStore

inductive Violation where
  | foreignVersion
  | anyLookup
  | coveredType
  | noInstanceName
  | notZone
  | notInternet
  | nibbleTooLarge
deriving DecidableEq, Repr

def Violation.message : Violation → String
  | foreignVersion => "foreign database version"
  | anyLookup => "ANY lookups are not supported"
  | coveredType => "covered types need DNSSEC support"
  | noInstanceName => "an LdapDb needs an instance name"
  | notZone => "an LdapDb can only be a zone"
  | notInternet => "an LdapDb can only serve class IN"
  | nibbleTooLarge => "assertion failed: nibble < 16"

end ZoneStore
