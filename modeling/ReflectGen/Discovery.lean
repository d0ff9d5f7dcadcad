import ReflectGen.Glob.Selection
import ReflectGen.FileTree.Operations

/-!
# Discovering source files

The candidate files of a directory are the regular files below it that an include pattern selects
and no exclude pattern does.  They are found by a walk that enters one directory after the other.
A directory is skipped with all that lies in it when an exclude pattern selects the pattern for all
that lies in it.  Links are not followed.

* `Discovery.visit`: the walk below a directory; it ends at the first directory that cannot be read.
* `Discovery.find`: the candidate files of a directory, in byte order.
-/

namespace ReflectGen

/-- Why no files can be discovered. -/
inductive DiscoveryError where
  | pattern (e : PatternError)
  | walk (root : Text) (e : AccessError)
  deriving DecidableEq, Repr

/-- The message for a failed discovery. -/
def DiscoveryError.message : DiscoveryError → Text
  | .pattern e => e.message
  | .walk root e => lit "walk " ++ root ++ lit ": " ++ e.message

namespace Discovery

/-- Is the directory with this relative path skipped? -/
def isSkipped (excluded : List Pattern) (dir : Text) : Bool :=
  Pattern.selects excluded (dir ++ lit "/**")

/-- Is the file with this relative path selected? -/
def isSelected (included excluded : List Pattern) (path : Text) : Bool :=
  !Pattern.selects excluded path && Pattern.selects included path

/-- The path under which a walk from `root` knows the entry at the end of these names. -/
def place (root : Text) (names : List Text) : Text :=
  if names.isEmpty then root else Path.join root (Text.join [Path.slash] names)

/-- The candidates at the end of these names: a file, if it is selected, and those in a directory,
if it is not skipped. -/
def visitEntry (included excluded : List Pattern)
    (enter : List Text → Except AccessError (List (List Text))) (names : List Text) :
    Entry → Except AccessError (List (List Text))
  | .directory =>
    if isSkipped excluded (Text.join [Path.slash] names) then .ok [] else enter names
  | .file _ =>
    .ok (if isSelected included excluded (Text.join [Path.slash] names) then [names] else [])
  | .link _ => .ok []

/-- The candidates below the directory at the end of these names, each by its own names.  The number
bounds the depth. -/
def visit (t : FileTree) (included excluded : List Pattern) (root : Text) :
    (fuel : Nat) → (names : List Text) → Except AccessError (List (List Text))
  | 0, _ => .ok []
  | k + 1, names =>
    match t.readDirectory (place root names) with
    | .error e => .error e
    | .ok children =>
      (children.mapM fun c =>
        visitEntry included excluded (visit t included excluded root k) (names ++ [c.1]) c.2).map
          List.flatten

/-- The paths of the candidates below a directory.  A first step may lead anywhere in the tree, since
the paths below the root are cleaned; from there on each step leads one entry deeper. -/
def walk (t : FileTree) (included excluded : List Pattern) (root : Text) :
    Except AccessError (List Text) :=
  (visit t included excluded root (t.depth + 2) []).map (List.map (place root))

/-- The candidate files below a directory, in byte order. -/
def find (t : FileTree) (root : Text) (included excluded : List Text) :
    Except DiscoveryError (List Text) :=
  match Pattern.readAll included with
  | .error e => .error (.pattern e)
  | .ok inc =>
    match Pattern.readAll excluded with
    | .error e => .error (.pattern e)
    | .ok exc =>
      match t.lstat root with
      | .error e => .error (.walk root e)
      | .ok (_, .directory) =>
        match walk t inc exc root with
        | .error e => .error (.walk root e)
        | .ok paths => .ok (Text.sort paths)
      | .ok _ => .ok []

end Discovery

end ReflectGen
