import ReflectGen.Program

/-!
# The command line

The program's outer layer.  It reads the part of the file system that a call can reach into a
`FileTree`, lets `Call.run` decide, writes changed entries back, and prints.

A call can reach the working directory, the paths among its words, and the candidates for
configuration files.  Nothing is decided here.
-/

namespace ReflectGen

namespace Session

/-- The bytes of a text, as streams and files take them. -/
def bytes (t : Text) : ByteArray := ByteArray.mk t.toArray

/-- The location of an absolute path, with `.` and `..` taken away. -/
def location (path : Text) : Location := (FileTree.names (Path.clean path)).filter (· != Path.here)

/-- The locations on the way to a location, itself included. -/
def onTheWay (loc : Location) : List Location :=
  (List.range loc.length).map fun n => loc.take (n + 1)

/-- A location in the words of the system, unless one of its names is not UTF-8. -/
def systemPath? (loc : Location) : Option String :=
  String.fromUTF8? (bytes (FileTree.absolutePath loc))

/-- The names in a directory of the system. -/
def namesIn (loc : Location) : IO (List Text) := do
  let some path := systemPath? loc | return []
  try
    let found ← ((← IO.currentDir) / path).readDir
    return found.toList.map fun entry => lit entry.fileName
  catch _ => return []

/-- The entry that stands at a location of the system. -/
def entryAt? (loc : Location) : IO (Option Entry) := do
  let some path := systemPath? loc | return none
  try
    let place := (← IO.currentDir) / path
    match (← place.symlinkMetadata).type with
    | .dir => return some .directory
    | .file => return some (.file (← IO.FS.readBinFile path).toList)
    | .symlink => return some (.link (lit (← IO.FS.realPath path).toString))
    | .other => return none
  catch _ => return none

/-- The tree with what stands on the way to a location; behind a link, also with what stands on the
way to its target. -/
partial def learn (t : FileTree) (loc : Location) : IO FileTree := do
  let mut t := t
  for place in onTheWay loc do
    if (t.entry? place).isNone then
      if let some e ← entryAt? place then
        t := t.put place e
        if let .link target := e then t ← learn t (location target)
  return t

/-- The tree with all that stands at a location and below it. -/
partial def learnAll (t : FileTree) (loc : Location) : IO FileTree := do
  let mut t ← learn t loc
  if t.entry? loc == some .directory then
    for name in ← namesIn loc do
      t ← learnAll t (loc ++ [name])
  return t

/-- The variables that a call looks at. -/
def environment : IO Environment := do
  let names := [lit "HOME", lit "XDG_CONFIG_HOME", lit "VXREFL_CONFIG"] ++
    Flag.all.filterMap (·.setting.environment)
  let mut found := []
  for name in names do
    if let some name' := String.fromUTF8? (bytes name) then
      if let some value ← IO.getEnv name' then
        found := (name, lit value) :: found
  return found

/-- The part of the file system that a call can reach. -/
def reach (c : Call) (workdir : Location) : IO FileTree := do
  let mut t ← learnAll (FileTree.empty workdir) workdir
  let around := c.surroundings t
  for word in c.words do
    let value := ((Text.splitFirst? 0x3D word).map (·.2)).getD word
    let loc := location (around.absolute value)
    t ← learn t loc
    -- The root of a command is read as a whole, and so is the directory that it leads to.
    if let .ok (loc, .directory) := t.stat (around.absolute word) then
      t ← learnAll t loc
  let cs := c.candidates t
  for path in cs.json ++ cs.yaml ++ cs.toml do
    t ← learn t (location (around.absolute path))
  return t

/-- Writes the entries of the tree `after` that differ from those of `before`. -/
def commit (before after : FileTree) : IO Unit := do
  for (loc, e) in after.entries do
    if before.entry? loc != some e then
      match systemPath? loc, e with
      | some path, .directory => IO.FS.createDirAll path
      | some path, .file content => IO.FS.writeBinFile path (bytes content)
      | _, _ => pure ()

end Session

end ReflectGen

open ReflectGen in
/-- Runs the program on its words. -/
def main (words : List String) : IO UInt32 := do
  let environment ← Session.environment
  let home := (environment.lookup (lit "HOME")).getD []
  let call : Call := { words := words.map lit, environment, home }
  let workdir := Session.location (lit (← IO.currentDir).toString)
  let before ← Session.reach call workdir
  let ending := call.run before
  Session.commit before ending.tree
  (← IO.getStdout).write (Session.bytes ending.output)
  (← IO.getStderr).write (Session.bytes ending.errors)
  return ending.exitCode.toUInt32
