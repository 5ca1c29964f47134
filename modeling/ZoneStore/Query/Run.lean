import ZoneStore.Query.Walk

/-!
# Running a query

A run loads the configuration, sets the driver up for every instance,
answers the query and shuts the driver down. It ends with success, with an
error that is reported with all its causes, or with a violation.
-/

namespace ZoneStore

inductive RunError where
  | config (cause : ConfigError)
  | setUp (name : String) (cause : DriverError)
  | query (cause : QueryError)
deriving DecidableEq

namespace RunError

def chain : RunError → List Cause
  | config cause => .text "failed to load the configuration" :: .text cause.message :: cause.causes
  | setUp name cause =>
    .text ("failed to set up instance " ++ name) :: .text cause.message :: cause.causes
  | query cause => .text cause.message :: cause.causes

/-- The numbered lines of a chain, in a wording of causes. -/
def numbered (word : Cause → String) (start : Nat) : List Cause → String
  | [] => ""
  | cause :: causes =>
    "\n[" ++ Text.decimalText start ++ "] " ++ word cause ++ numbered word (start + 1) causes

def report (word : Cause → String) (error : RunError) : String :=
  "Failed to run:" ++ numbered word 1 error.chain ++ "\nExiting with failure."

end RunError

inductive RunEnding where
  | succeeded
  | failed (error : RunError)
  | violated (violation : Violation)
deriving DecidableEq

structure Run where
  host : Host
  lines : List String
  ending : RunEnding
  log : Log

namespace Run

def exitCode (run : Run) : UInt32 :=
  match run.ending with
  | .succeeded => 0
  | .failed _ => 1
  | .violated _ => 101

/-- The exit code when the words of a command line give no query. -/
def refusalCode (error : ArgumentError) : UInt32 :=
  if error.isInformation then 0 else 2

/-- The last line of the log; a violation leaves none. -/
def closing (word : Cause → String) (run : Run) : Log :=
  match run.ending with
  | .succeeded => [infoLine "Exiting with success."]
  | .failed error => [errorLine (error.report word)]
  | .violated _ => []

def fullLog (word : Cause → String) (run : Run) : Log :=
  run.log ++ run.closing word

def shownLog (word : Cause → String) (run : Run) : Log :=
  (run.fullLog word).atLeast .warn

def output (run : Run) : String :=
  String.join (run.lines.map (· ++ "\n"))

end Run

namespace Host

/-- Sets the driver up for instances in order, up to the first that fails. -/
def setUpAll (host : Host) (read : FileReader) :
    List InstanceEntry → Step (Except (String × DriverError) Unit)
  | [] => ⟨host, .ok (), []⟩
  | entry :: entries =>
    let step := host.setUp read entry.name entry.arguments
    match step.result with
    | .error e => ⟨step.host, .error (entry.name, e), step.log⟩
    | .ok () =>
      let rest := step.host.setUpAll read entries
      ⟨rest.host, rest.result, step.log ++ rest.log⟩

end Host

namespace Query

/-- Answers a query on a host that is set up for a configuration, and shuts the driver down. -/
def conclude (query : Query) (config : Config) (host : Host) (log : Log) : Run :=
  let answered := query.answer config host
  match answered.result.ending with
  | .violated violation =>
    ⟨answered.host, answered.result.lines, .violated violation, log ++ answered.log⟩
  | .answered =>
    let shut := answered.host.shutDown
    ⟨shut.host, answered.result.lines, .succeeded, log ++ answered.log ++ shut.log⟩
  | .failed error =>
    let shut := answered.host.shutDown
    ⟨shut.host, answered.result.lines, .failed (.query error), log ++ answered.log ++ shut.log⟩

/-- Runs a query on a host that has just started. -/
def run (query : Query) (read : FileReader) : Run :=
  let announced := infoLine ("Loading the configuration from " ++ query.configuration ++ ".")
  let (loaded, loadLog) := Config.load read query.configuration
  match loaded with
  | .error e => ⟨.start, [], .failed (.config e), announced :: loadLog⟩
  | .ok config =>
    let ready := Host.start.setUpAll read config.instances
    let log := announced :: loadLog ++ ready.log
    match ready.result with
    | .error (name, e) => ⟨ready.host, [], .failed (.setUp name e), log⟩
    | .ok () => query.conclude config ready.host log

end Query

end ZoneStore
