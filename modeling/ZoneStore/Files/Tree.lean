import ZoneStore.Files.Reader

/-!
# Trees of files

A tree is a set of files at absolute places, with the directories above
them, and a working directory from which relative paths start. Reading
follows a path component by component.
-/

namespace ZoneStore

structure FileTree where
  files : List (List String × ByteArray)
  workingDirectory : List String

namespace FileTree

def parts (path : String) : List String :=
  (path.toList.splitOnP (· == '/')).map String.ofList

def isFile (tree : FileTree) (place : List String) : Bool :=
  tree.files.any fun (file, _) => file == place

/-- Directories are the places above the files and the working directory. -/
def isDirectory (tree : FileTree) (place : List String) : Bool :=
  place.isPrefixOf tree.workingDirectory ||
    tree.files.any fun (file, _) => place.isPrefixOf file && place != file

def follow (tree : FileTree) (place : List String) : List String → Except ReadError (List String)
  | [] => .ok place
  | part :: rest =>
    if tree.isDirectory place then
      if part = "" ∨ part = "." then follow tree place rest
      else if part = ".." then follow tree place.dropLast rest
      else follow tree (place ++ [part]) rest
    else if tree.isFile place then .error .notDirectory
    else .error .notFound

def read (tree : FileTree) (path : String) : Except ReadError String :=
  if path = "" then .error .notFound
  else
    match tree.follow (if path.startsWith "/" then [] else tree.workingDirectory) (parts path) with
    | .error e => .error e
    | .ok place =>
      if tree.isDirectory place then .error .isDirectory
      else
        match tree.files.find? fun (file, _) => file == place with
        | none => .error .notFound
        | some (_, content) =>
          match String.fromUTF8? content with
          | some text => .ok text
          | none => .error .invalidData

def reader (tree : FileTree) : FileReader :=
  tree.read

end FileTree

end ZoneStore
