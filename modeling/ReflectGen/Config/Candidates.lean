import ReflectGen.Path
import ReflectGen.Naming

/-!
# Candidate configuration files

Configuration is read from the file that the user names, from the working directory, from the
user's configuration directory and from the system's.  The extension tells the format of the
user's file.
-/

namespace ReflectGen

/-- The environment variables that name directories of the user. -/
structure UserDirectories where
  home : Text
  configHome : Text
  deriving DecidableEq, Repr

/-- The directory for the user's configuration, unless neither variable is set. -/
def UserDirectories.config? (u : UserDirectories) : Option Text :=
  if !u.configHome.isEmpty then some (Path.join u.configHome programName)
  else if !u.home.isEmpty then some (Path.joinAll [u.home, lit ".config", programName])
  else none

/-- What is said when there is no directory for the user's configuration. -/
def homeUnset : Text := lit "HOME not set"

/-- Candidate files for each format, in the order in which they are read. -/
structure Candidates where
  json : List Text := []
  yaml : List Text := []
  toml : List Text := []
  deriving DecidableEq, Repr

namespace Candidates

/-- The candidates of two lists one after the other. -/
def append (a b : Candidates) : Candidates where
  json := a.json ++ b.json
  yaml := a.yaml ++ b.yaml
  toml := a.toml ++ b.toml

/-- The candidates with a stem in a directory. -/
def inDirectory (dir stem : Text) : Candidates where
  json := [Path.join dir (stem ++ lit ".json")]
  yaml := [Path.join dir (stem ++ lit ".yaml"), Path.join dir (stem ++ lit ".yml")]
  toml := [Path.join dir (stem ++ lit ".toml")]

/-- The candidate that the user names; an unknown extension means JSON. -/
def ofUser (path : Text) : Candidates :=
  if path.isEmpty then {}
  else
    let e := Path.extension path
    if e == lit ".yaml" || e == lit ".yml" then { yaml := [path] }
    else if e == lit ".toml" then { toml := [path] }
    else { json := [path] }

/-- The stem of configuration files outside of source trees. -/
def stem : Text := lit "config"

/-- All candidates. -/
def all (userPath workdir : Text) (u : UserDirectories) : Candidates :=
  let user := match u.config? with
    | some dir => [inDirectory dir stem]
    | none => []
  ([ofUser userPath, inDirectory workdir (lit "." ++ programName), inDirectory workdir programName]
      ++ user ++ [inDirectory (lit "/etc/" ++ programName) stem]).foldr append {}

end Candidates

end ReflectGen
