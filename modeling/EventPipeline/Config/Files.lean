import EventPipeline.Config.Load
import EventPipeline.Text.Parts

/-! # Files under a working directory

A few files, each under a path of names, and what is found when a path is looked up among them: the
names of the path are followed one after another, and each but the last must lead to a directory.
What lies above the working directory is not known by name. Of the directories of the system only
those that every system has are known.
-/

namespace EventPipeline

/-- Files by the names that lead to them. -/
abbrev Files := Table (List String) Octets

namespace Files

/-- Where following a path has led to. -/
inductive Place where
  /-- A directory above the working directory. -/
  | above
  /-- The directory that names lead to from the root or from the working directory. -/
  | directory (absolute : Bool) (names : List String)
  | file (content : Octets)
  deriving DecidableEq

/-- The files that every system has: one that is always empty. -/
def ofSystem : Files := [(["dev", "null"], [])]

/-- The directories that every system has under its root. -/
def systemDirectories : List String :=
  ["bin", "boot", "dev", "etc", "home", "lib", "media", "mnt", "opt", "proc", "root", "run", "sbin",
    "srv", "sys", "tmp", "usr", "var"]

/-- What the names of a path from the root or from the working directory lead to. -/
def place? (files : Files) (absolute : Bool) (names : List String) : Option Place :=
  let known := if absolute then ofSystem else files
  match known.get? names with
  | some content => some (.file content)
  | none =>
    if known.any (fun (file, _) => names.isPrefixOf file) ||
        (absolute && systemDirectories.any fun name => [name] = names) then
      some (.directory absolute names)
    else none

/-- Follows one name of a path. A file has no names in it, not even its own. -/
def follow? (files : Files) (place : Place) (name : String) : Option Place :=
  match place with
  | .file _ => none
  | .above => if name = "" ∨ name = "." ∨ name = ".." then some .above else none
  | .directory absolute names =>
    if name = "" ∨ name = "." then some place
    else if name = ".." then
      if names = [] ∧ !absolute then some .above else some (.directory absolute names.dropLast)
    else place? files absolute (names ++ [name])

/-- The greatest number of octets in a path. -/
def maxPathLength : Nat := 4095

/-- What is found under a path. -/
def find (files : Files) (path : String) : Source :=
  if path = "" ∨ maxPathLength < path.utf8ByteSize then .missing
  else
    let names := (Text.parts '/' path.toList).map String.ofList
    match names.foldlM (follow? files) (.directory (path.startsWith "/") []) with
    | some (.file content) => .file content
    | some _ => .directory
    | none => .missing

end Files

end EventPipeline
