/-!
# Log lines

Operations return the lines that they log, in order, beside their results.
-/

namespace ZoneStore

inductive LogLevel where
  | trace
  | debug
  | info
  | warn
  | error
deriving DecidableEq, Repr

namespace LogLevel

def text : LogLevel → String
  | trace => "TRACE"
  | debug => "DEBUG"
  | info => "INFO"
  | warn => "WARN"
  | error => "ERROR"

def severity : LogLevel → Nat
  | trace => 0
  | debug => 1
  | info => 2
  | warn => 3
  | error => 4

end LogLevel

structure LogLine where
  level : LogLevel
  message : String
deriving DecidableEq, Repr

abbrev Log := List LogLine

namespace LogLine

def text (line : LogLine) : String :=
  line.level.text ++ " " ++ line.message

end LogLine

namespace Log

def atLeast (level : LogLevel) (log : Log) : Log :=
  log.filter fun line => level.severity ≤ line.level.severity

end Log

def traceLine (message : String) : LogLine := ⟨.trace, message⟩
def debugLine (message : String) : LogLine := ⟨.debug, message⟩
def infoLine (message : String) : LogLine := ⟨.info, message⟩
def errorLine (message : String) : LogLine := ⟨.error, message⟩

end ZoneStore
