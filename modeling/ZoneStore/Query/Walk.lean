import ZoneStore.Cause
import ZoneStore.Config.Load
import ZoneStore.Host.Driver
import ZoneStore.Host.Nodes
import ZoneStore.Name.Wire
import ZoneStore.Query.Arguments

/-!
# Looking a name up

A query visits the zone that the name belongs to: it opens a database for
the zone, looks the name up and closes the database. An alias leads on to
the name it holds, at most eight times. What is found on the way is printed
in the format of zone files.
-/

namespace ZoneStore

inductive QueryError where
  | noZone (name : Name)
  | creation (origin : Name) (cause : DatabaseError)
  | lookup (name : Name) (cause : DatabaseError)
  | badAlias (owner : Name) (cause : NameError)
  | chainTooLong
deriving DecidableEq

def maxAliases : Nat := 8

namespace QueryError

def message : QueryError → String
  | noZone name => "no configured zone contains " ++ name.toText
  | creation origin _ => "failed to create the database for " ++ origin.toText
  | lookup name _ => "failed to look up " ++ name.toText
  | badAlias owner _ => "the CNAME record at " ++ owner.toText ++ " is invalid"
  | chainTooLong => "gave up after following " ++ Text.decimalText maxAliases ++ " CNAME records"

def causes : QueryError → List Cause
  | creation _ cause => [.text cause.message]
  | lookup _ cause => [.text cause.message]
  | badAlias _ cause => [.text cause.message]
  | _ => []

end QueryError

namespace Found

/-- The line of one record: owner, time to live, class, type and data, separated by tabs. -/
def line (found : Found) (rdata : Rdata) : String :=
  "\t".intercalate
    [found.foundName.toText, found.rdataset.rrset.ttl.toText, found.rdataset.recordClass.toText,
      found.rdataset.rrset.type.toText, rdata.toText]

def lines (found : Found) : List String :=
  found.rdataset.rrset.rdatas.map found.line

def target (found : Found) : Except NameError Name :=
  Name.ofWire found.rdataset.rrset.first.octets

end Found

/-- How a visit to a zone ends when nothing is found. -/
inductive VisitFailure where
  | notOpened (failure : Failure)
  | notAnswered (failure : Failure)
deriving DecidableEq

/-- Looks a name up in a database that is opened for the zone and closed again. -/
def Host.visit (host : Host) (zone : Zone) (name : Name) (type : RecordType) :
    Step (Except VisitFailure FindResult) :=
  let opened := host.create Host.driverName zone.origin .zone zone.recordClass [zone.instanceName]
  match opened.result with
  | .error failure => ⟨opened.host, .error (.notOpened failure), opened.log⟩
  | .ok database =>
    let asked := opened.host.find database name none type {} 0
    match asked.result with
    | .error failure =>
      let closed := asked.host.detach database
      ⟨closed.host, .error (.notAnswered failure), opened.log ++ asked.log ++ closed.log⟩
    | .ok (result, node) =>
      let closed := (asked.host.detachNode database node).detach database
      ⟨closed.host, .ok result, opened.log ++ asked.log ++ closed.log⟩

inductive Ending where
  | answered
  | failed (error : QueryError)
  | violated (violation : Violation)
deriving DecidableEq

structure Transcript where
  lines : List String
  ending : Ending
deriving DecidableEq

namespace Query

def lackLine (name : Name) (type : RecordType) : String :=
  ";; " ++ name.toText ++ " has no " ++ type.toText ++ " records"

def absenceLine (name : Name) : String :=
  ";; " ++ name.toText ++ " does not exist"

inductive Course where
  | stop (transcript : Transcript)
  | follow (lines : List String) (target : Name)

def courseOfFailure (query : Query) (zone : Zone) (name : Name) : VisitFailure → Transcript
  | .notOpened (.violation violation) => ⟨[], .violated violation⟩
  | .notOpened (.error cause) => ⟨[], .failed (.creation zone.origin cause)⟩
  | .notAnswered (.violation violation) => ⟨[], .violated violation⟩
  | .notAnswered (.error .noSuchRrset) => ⟨[lackLine name query.type], .answered⟩
  | .notAnswered (.error .notFound) => ⟨[absenceLine name], .answered⟩
  | .notAnswered (.error cause) => ⟨[], .failed (.lookup name cause)⟩

/-- An alias is followed unless the query forbids that, or the alias holds no name. -/
def course (query : Query) (zone : Zone) (name : Name) : Except VisitFailure FindResult → Course
  | .error failure => .stop (query.courseOfFailure zone name failure)
  | .ok (.success found) => .stop ⟨found.lines, .answered⟩
  | .ok (.cname found) =>
    if query.noFollow then .stop ⟨found.lines, .answered⟩
    else
      match found.target with
      | .ok target => .follow found.lines target
      | .error e => .stop ⟨found.lines, .failed (.badAlias found.foundName e)⟩

/-- Looks a name up with at most `lookups` visits. -/
def walk (query : Query) (config : Config) : (lookups : Nat) → Host → Name → Step Transcript
  | 0, host, _ => ⟨host, ⟨[], .failed .chainTooLong⟩, []⟩
  | lookups + 1, host, name =>
    match config.zoneFor? name with
    | none => ⟨host, ⟨[], .failed (.noZone name)⟩, []⟩
    | some zone =>
      let visit := host.visit zone name query.type
      match query.course zone name visit.result with
      | .stop transcript => ⟨visit.host, transcript, visit.log⟩
      | .follow lines target =>
        let rest := query.walk config lookups visit.host target
        ⟨rest.host, ⟨lines ++ rest.result.lines, rest.result.ending⟩, visit.log ++ rest.log⟩

/-- Answers a query: the first visit and one for each alias that is followed. -/
def answer (query : Query) (config : Config) (host : Host) : Step Transcript :=
  query.walk config (maxAliases + 1) host query.name

end Query

end ZoneStore
