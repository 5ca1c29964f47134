import ZoneStore.Query.Run
import ZoneStore.Query.Usage

/-!
# The command line

Reads the configuration file and the records files that it names, answers
the query over what was read, and prints the answer.
-/

namespace ZoneStore

def readFile (path : String) : IO (Except ReadError String) := do
  try
    let content ← IO.FS.readBinFile path
    return match String.fromUTF8? content with
      | some text => .ok text
      | none => .error .invalidData
  catch
    | .inappropriateType .. => return .error .isDirectory
    | _ => return .error .notFound

/-- A reader that knows the files that were read. -/
def readerOf (files : List (String × Except ReadError String)) : FileReader := fun path =>
  (files.lookup path).getD (.error .notFound)

def filesFor (query : Query) : IO FileReader := do
  let configuration ← readFile query.configuration
  let files := [(query.configuration, configuration)]
  match (Config.load (readerOf files) query.configuration).1 with
  | .error _ => return readerOf files
  | .ok config =>
    let records ← config.recordsPaths.mapM fun path => do return (path, ← readFile path)
    return readerOf (files ++ records)

/-- A log line as it is shown, its further lines indented. -/
def shownText (line : LogLine) : String :=
  "[" ++ line.level.text ++ "] " ++ "\n    ".intercalate (line.message.splitOn "\n")

end ZoneStore

open ZoneStore in
def main (words : List String) : IO UInt32 := do
  match Query.ofArguments words with
  | .error e =>
    IO.print (Query.informationText e)
    IO.eprint (Query.refusalText e)
    return Run.refusalCode e
  | .ok query =>
    let run := query.run (← filesFor query)
    IO.print run.output
    for line in run.shownLog Cause.message do
      IO.eprintln (shownText line)
    return run.exitCode
