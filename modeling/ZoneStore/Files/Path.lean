/-!
# File paths

A path is text whose components are separated by slashes. The directory
that holds a path is written with the path's own spelling, less its last
component; repeated slashes, trailing slashes and dots that name the
directory itself are no components, except for a dot at the very start.
-/

namespace ZoneStore.Path

def isAbsolute (path : List Char) : Bool :=
  path.head? == some '/'

/-- How many characters in front of the components spell the root or the starting directory. -/
def anchorLength (path : List Char) : Nat :=
  match path with
  | '/' :: _ => 1
  | ['.'] => 1
  | '.' :: '/' :: _ => 1
  | _ => 0

def lastPart (path : List Char) : List Char :=
  (path.reverse.takeWhile (· != '/')).reverse

def dropLast (path : List Char) : List Char :=
  ((path.reverse.dropWhile (· != '/')).drop 1).reverse

/-- Leaves out trailing parts that are no components; `body` is what follows the anchor. -/
def trimBody : (fuel : Nat) → List Char → List Char
  | 0, body => body
  | fuel + 1, body =>
    if body.isEmpty then body
    else if lastPart body = [] ∨ lastPart body = ['.'] then trimBody fuel (dropLast body)
    else body

/-- The directory that holds a path; the root and the empty path have none. -/
def parent? (path : List Char) : Option (List Char) :=
  let anchor := path.take (anchorLength path)
  let body := path.drop (anchorLength path)
  let body := trimBody body.length body
  if body.isEmpty then
    if anchor = ['.'] then some [] else none
  else
    some (anchor ++ trimBody body.length (dropLast body))

/-- The path that `path` names when it is read in `directory`. -/
def join (directory path : List Char) : List Char :=
  if isAbsolute path then path
  else if directory.isEmpty || directory.getLast? == some '/' then directory ++ path
  else directory ++ '/' :: path

end ZoneStore.Path
