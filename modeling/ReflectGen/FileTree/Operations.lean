import ReflectGen.FileTree.Basic

/-!
# Operations on file trees

Reading and writing files, making directories, and listing what lies below a directory.

* `FileTree.stat`, `FileTree.lstat`: the entry that a path denotes, behind a link or the link
  itself.
* `FileTree.load`, `FileTree.store`: contents of files.
* `FileTree.makeDirectories`: a directory with all that are missing above it.
* `FileTree.below`: the entries below a location, under their relative paths.
* `FileTree.readDirectory`: the entries of one directory, by their names.
-/

namespace ReflectGen

namespace FileTree

/-- The entry that a path denotes, with its location. -/
def locate (t : FileTree) (action : FileAction) (through : Bool) (path : Text) :
    Except AccessError (Location × Entry) :=
  match t.resolve through path with
  | .found loc e => .ok (loc, e)
  | .failed reason => .error { action, path, reason }
  | _ => .error { action, path, reason := .notExist }

/-- The entry behind a path, with links followed. -/
def stat (t : FileTree) (path : Text) : Except AccessError (Location × Entry) :=
  t.locate .stat true path

/-- The entry at a path, which may be a link. -/
def lstat (t : FileTree) (path : Text) : Except AccessError (Location × Entry) :=
  t.locate .lstat false path

/-- The content of the file that a path denotes. -/
def load (t : FileTree) (path : Text) : Except AccessError Text :=
  match t.locate .open true path with
  | .error e => .error e
  | .ok (_, .file content) => .ok content
  | .ok _ => .error { action := .read, path, reason := .isDirectory }

/-- The location at which writing to a path puts its content. -/
def writeLocation (t : FileTree) (path : Text) : Except AccessError Location :=
  match t.resolve true path with
  | .found _ .directory => .error { action := .open, path, reason := .isDirectory }
  | .found loc _ => .ok loc
  | .missing loc => .ok loc
  | .failed reason =>
    -- A path that ends in a slash names a directory, whether there is one or not.
    match Text.trimRightBy (· == Path.slash) path with
    | [] => .error { action := .open, path, reason }
    | trimmed =>
      if trimmed.length == path.length then .error { action := .open, path, reason }
      else
        match t.resolve false trimmed with
        | .failed reason => .error { action := .open, path, reason }
        | _ => .error { action := .open, path, reason := .isDirectory }
  | .redirected _ _ => .error { action := .open, path, reason := .tooManyLinks }

/-- Stores a content under a path: an existing file is replaced, a missing one is created in its
directory. -/
def store (t : FileTree) (path content : Text) : Except AccessError FileTree :=
  (t.writeLocation path).map fun loc => t.put loc (.file content)

/-- Stores a content under a path, and tells where. -/
def storeAt (t : FileTree) (path content : Text) : Except AccessError (Location × FileTree) :=
  (t.writeLocation path).map fun loc => (loc, t.put loc (.file content))

/-- Makes one directory. -/
def makeDirectory (t : FileTree) (path : Text) : Except AccessError FileTree :=
  let trimmed := Text.trimRightBy (· == Path.slash) path
  match t.resolve false (if trimmed.isEmpty then path else trimmed) with
  | .missing loc => .ok (t.put loc .directory)
  | .failed reason => .error { action := .mkdir, path, reason }
  | _ => .error { action := .mkdir, path, reason := .exists }

/-- The path in front of the last name, without the slash between them; nothing if no name or only
the root is left. -/
def parentPath? (path : Text) : Option Text :=
  match Text.splitLast? Path.slash (Text.trimRightBy (· == Path.slash) path) with
  | some (front, _) => if front.isEmpty then none else some front
  | none => none

/-- Makes a directory and those missing above it; the number bounds the directories, and the
length of the path is enough. -/
def makeDirectoriesWithin : (fuel : Nat) → FileTree → Text → Except AccessError FileTree
  | 0, t, path => t.makeDirectory path
  | n + 1, t, path =>
    match t.stat path with
    | .ok (_, .directory) => .ok t
    | .ok _ => .error { action := .mkdir, path, reason := .notDirectory }
    | .error _ =>
      let above := match parentPath? path with
        | some parent => makeDirectoriesWithin n t parent
        | none => .ok t
      match above with
      | .error e => .error e
      | .ok t =>
        match t.makeDirectory path with
        | .ok t => .ok t
        | .error e =>
          match t.lstat path with
          | .ok (_, .directory) => .ok t
          | _ => .error e

/-- Makes a directory and those missing above it. -/
def makeDirectories (t : FileTree) (path : Text) : Except AccessError FileTree :=
  makeDirectoriesWithin path.length t path

/-- Makes the directory that a file path needs. -/
def ensureDirectory (t : FileTree) (filePath : Text) : Except AccessError FileTree :=
  t.makeDirectories (Path.dir filePath)

/-- Makes a symbolic link. -/
def makeLink (t : FileTree) (target path : Text) : Except FileError FileTree :=
  if target.isEmpty then .error .notExist
  else
    match t.resolve false path with
    | .missing loc => .ok (t.put loc (.link target))
    | .failed reason => .error reason
    | _ => .error .exists

/-- Removes what stands at a path with all that lies below it; nothing there is fine. -/
def remove (t : FileTree) (path : Text) : Except AccessError FileTree :=
  match t.resolve false (Text.trimRightBy (· == Path.slash) path) with
  | .found loc _ => .ok (t.prune loc)
  | _ => .ok t

/-- The names that lead from a location to a location below it. -/
def relative? : (top loc : Location) → Option (List Text)
  | [], loc => some loc
  | _ :: _, [] => none
  | a :: top, b :: loc => if a == b then relative? top loc else none

/-- The entries below a location, with the names that lead there. -/
def below (t : FileTree) (top : Location) : List (List Text × Entry) :=
  t.entries.filterMap fun e =>
    match relative? top e.1 with
    | some (n :: ns) => some (n :: ns, e.2)
    | _ => none

/-- Puts an entry of a directory in its place among others that are in the order of their names. -/
def insertByName (child : Text × Entry) : List (Text × Entry) → List (Text × Entry)
  | [] => [child]
  | c :: cs => if Text.le child.1 c.1 then child :: c :: cs else c :: insertByName child cs

/-- The entries of a directory, in the order of their names. -/
def children (t : FileTree) (dir : Location) : List (Text × Entry) :=
  (t.below dir).foldr (fun e cs =>
    match e.1 with
    | [n] => insertByName (n, e.2) cs
    | _ => cs) []

/-- The entries of the directory that a path denotes. -/
def readDirectory (t : FileTree) (path : Text) : Except AccessError (List (Text × Entry)) :=
  match t.locate .open true path with
  | .error e => .error e
  | .ok (dir, .directory) => .ok (t.children dir)
  | .ok _ => .error { action := .open, path, reason := .notDirectory }

/-- The number of names on the way to the deepest entry. -/
def depth (t : FileTree) : Nat := t.entries.foldr (fun e n => max e.1.length n) 0

/-- The relative paths of all entries below the working directory in byte order; those of
directories end in a slash. -/
def listing (t : FileTree) : List Text :=
  Text.sort <| (t.below t.workdir).map fun e =>
    Text.join [Path.slash] e.1 ++ if e.2.isDirectory then [Path.slash] else []

end FileTree

end ReflectGen
