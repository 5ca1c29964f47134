/-!
# Reading files

What a program sees of the files it reads: for each path the text, or the
reason why there is none.
-/

namespace ZoneStore

inductive ReadError where
  | notFound
  | isDirectory
  /-- A path goes on behind something that is not a directory. -/
  | notDirectory
  | invalidData
deriving DecidableEq, Repr

def ReadError.message : ReadError → String
  | notFound => "no such file or directory"
  | isDirectory => "is a directory"
  | notDirectory => "not a directory"
  | invalidData => "the file is not text in UTF-8"

abbrev FileReader := String → Except ReadError String

end ZoneStore
