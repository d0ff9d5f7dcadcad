import ReflectGen.Path
import ReflectGen.FileTree.Error

/-!
# File trees

A file tree maps locations to entries.  A *location* is the list of names on the way from the root
directory, without `.` and `..`; an entry is a directory, a file with its content, or a symbolic
link with its target.  A *path* is a text; `FileTree.resolve` finds the location it denotes, seen
from the working directory.

* `FileTree.entry?`, `FileTree.put`, `FileTree.prune`: the tree as a finite map.
* `FileTree.walk`: follows names up to the first symbolic link.
* `FileTree.resolve`: follows a path through at most forty links.
-/

namespace ReflectGen

/-- The names on the way from the root directory. -/
abbrev Location := List Text

/-- What stands at a location. -/
inductive Entry where
  | directory
  | file (content : Text)
  | link (target : Text)
  deriving DecidableEq, Repr

/-- Is the entry a directory? -/
def Entry.isDirectory : Entry → Bool
  | .directory => true
  | _ => false

/-- A tree of files, with the directory from which relative paths start. -/
structure FileTree where
  /-- The entries other than the root directory. -/
  entries : List (Location × Entry)
  workdir : Location
  deriving DecidableEq, Repr

namespace FileTree

/-- The tree that has only the directories on the way to its working directory. -/
def empty (workdir : Location) : FileTree where
  entries := (List.range workdir.length).map fun n => (workdir.take (n + 1), .directory)
  workdir := workdir

/-- The entry at a location; the root is a directory. -/
def entry? (t : FileTree) (loc : Location) : Option Entry :=
  if loc.isEmpty then some .directory else t.entries.lookup loc

/-- Replaces the entry at a location, or adds a new last one. -/
def putEntry : List (Location × Entry) → Location → Entry → List (Location × Entry)
  | [], loc, e => [(loc, e)]
  | (l, d) :: es, loc, e => if l == loc then (l, e) :: es else (l, d) :: putEntry es loc e

/-- The tree with `e` at a location. -/
def put (t : FileTree) (loc : Location) (e : Entry) : FileTree :=
  { t with entries := putEntry t.entries loc e }

/-- The tree without the location and all that lies below it. -/
def prune (t : FileTree) (loc : Location) : FileTree :=
  { t with entries := t.entries.filter fun e => !loc.isPrefixOf e.1 }

/-- The absolute path of a location. -/
def absolutePath (loc : Location) : Text := Path.slash :: Text.join [Path.slash] loc

/-- The text of the working directory. -/
def workdirPath (t : FileTree) : Text := absolutePath t.workdir

/-! ## Following paths -/

/-- Where following names ends. -/
inductive Walk where
  /-- All names were followed; there is an entry. -/
  | found (loc : Location) (e : Entry)
  /-- The last name is missing in a directory. -/
  | missing (loc : Location)
  /-- A link was met; these names remain, from this directory on. -/
  | redirected (dir : Location) (names : List Text)
  | failed (reason : FileError)
  deriving DecidableEq, Repr

/-- The names of a path.  A slash at the end is a last name `.`, which only a directory has. -/
def names (path : Text) : List Text :=
  let ns := (Text.splitOn Path.slash path).filter (!·.isEmpty)
  if path.getLast? == some Path.slash then ns ++ [Path.here] else ns

/-- Names longer than this are refused. -/
def maxName : Nat := 255

/-- Paths of this length or more are refused. -/
def maxPath : Nat := 4096

/-- Follows names from the directory `dir` up to the first link.  A link as the last name is
followed only if `through` says so. -/
def walk (t : FileTree) (through : Bool) : (dir : Location) → List Text → Walk
  | dir, [] => .found dir .directory
  | dir, n :: ns =>
    if n == Path.here then walk t through dir ns
    else if n == Path.above then walk t through dir.dropLast ns
    else if maxName < n.length then .failed .nameTooLong
    else
      match t.entry? (dir ++ [n]) with
      | none => if ns.isEmpty then .missing (dir ++ [n]) else .failed .notExist
      | some .directory => walk t through (dir ++ [n]) ns
      | some (.file content) =>
        if ns.isEmpty then .found (dir ++ [n]) (.file content) else .failed .notDirectory
      | some (.link target) =>
        if ns.isEmpty && !through then .found (dir ++ [n]) (.link target)
        else
          .redirected (if Path.isAbsolute target then [] else dir) (names target ++ ns)

/-- Follows names through at most `links` links. -/
def follow (t : FileTree) (through : Bool) : (links : Nat) → (dir : Location) → List Text → Walk
  | 0, dir, ns =>
    match walk t through dir ns with
    | .redirected _ _ => .failed .tooManyLinks
    | w => w
  | k + 1, dir, ns =>
    match walk t through dir ns with
    | .redirected dir' ns' => follow t through k dir' ns'
    | w => w

/-- At most this many links are followed for one path. -/
def maxLinks : Nat := 40

/-- Finds what a path denotes. -/
def resolve (t : FileTree) (through : Bool) (path : Text) : Walk :=
  if path.contains 0 then .failed .invalidName
  else if path.isEmpty then .failed .notExist
  else if maxPath ≤ path.length then .failed .nameTooLong
  else follow t through maxLinks (if Path.isAbsolute path then [] else t.workdir) (names path)

end FileTree

end ReflectGen
