import ReflectGen.Config.Json
import ReflectGen.Config.Toml.Table
import ReflectGen.Config.Yaml.Value
import ReflectGen.Document.Format

/-!
# Settings in configuration files

Where a file says something about a flag.  The three formats have rules of their own.  In JSON the
key is the name of the flag.  In YAML and TOML the names of the command and of the flag are joined
by a hyphen, and at each hyphen of the result a nested object may start.

* `ConfigFile`, `ConfigFile.read`: a file in its format.
* `ConfigFile.lookup`: what a file says about a flag of a command.
* `ConfigFile.select`: of several files the last one that says something counts.
-/

namespace ReflectGen

/-- A configuration file. -/
structure ConfigFile where
  format : Format
  /-- What the file sets, an object. -/
  values : ConfigValue
  deriving Repr

/-- The fields of objects. -/
abbrev ConfigFields := List (Text × ConfigValue)

namespace ConfigFile

/-- Reads a file; nothing if it is not well formed. -/
def read (format : Format) (content : Text) : Option ConfigFile :=
  (match format with
    | .json => Config.Json.read content
    | .yaml => Config.Yaml.read content
    | .toml => Config.Toml.read content).map fun values => { format, values }

/-! ## JSON -/

/-- The text with a capital letter at the start of every word; words consist of letters, digits and
underscores. -/
def titled : (atStart : Bool) → Text → Text
  | _, [] => []
  | atStart, b :: t =>
    let isLetter := 0x61 ≤ b && b ≤ 0x7A
    let inWord := isLetter || (0x41 ≤ b && b ≤ 0x5A) || Decimal.isDigit b || b == 0x5F
    (if atStart && isLetter then b - 0x20 else b) :: titled (!inWord) t

/-- The name of a flag in camel case. -/
def camelName (flag : Text) : Text :=
  match (titled true flag).filter (· != 0x2D) with
  | [] => []
  | b :: t => (if 0x41 ≤ b && b ≤ 0x5A then b + 0x20 else b) :: t

/-- The value at the end of a path through nested objects. -/
def descend : ConfigValue → List Text → Option ConfigValue
  | v, [] => some v
  | .object fs, p :: ps =>
    match fs.lookup p with
    | some v => descend v ps
    | none => none
  | _, _ :: _ => none

/-- The value of a flag in a JSON file: under its name with underscores, under its name in camel
case, or in nested objects along the points of its name. -/
def findJson (fs : ConfigFields) (flag : Text) : Option ConfigValue :=
  let name := Text.replaceByte 0x2D 0x5F flag
  match fs.lookup name with
  | some v => some v
  | none =>
    match fs.lookup (camelName flag) with
    | some v => some v
    | none => descend (.object fs) (Text.splitOn 0x2E name)

/-! ## YAML -/

/-- Two parts of a name with a hyphen between them; in front of the first part there is none. -/
def hyphenated (lead : Option Text) (part : Text) : Text :=
  match lead with
  | none => part
  | some l => l ++ [0x2D] ++ part

/-- The value of a name in a YAML file.  The shortest beginning of the name that is the key of an
object leads into it; an object at the end of the name is itself the value. -/
def findYaml : ConfigFields → (lead : Option Text) → List Text → Option ConfigValue
  | fs, lead, [] => fs.lookup (lead.getD [])
  | fs, lead, p :: ps =>
    match fs.lookup (hyphenated lead p) with
    | some (.object inner) =>
      if ps.isEmpty then some (.object inner) else findYaml inner none ps
    | _ => findYaml fs (some (hyphenated lead p)) ps

/-! ## TOML -/

/-- The value of a name in a TOML file.  The shortest beginning of the name that is a key leads into
its object. -/
def findToml : ConfigFields → (lead : Text) → List Text → Option ConfigValue
  | fs, lead, [] => fs.lookup lead
  | fs, lead, p :: ps =>
    match fs.lookup lead with
    | some (.object inner) => findToml inner p ps
    | some _ => none
    | none => findToml fs (hyphenated (some lead) p) ps

/-- The value of a full name in a TOML file. -/
def findTomlName (fs : ConfigFields) (name : Text) : Option ConfigValue :=
  match Text.splitOn 0x2D name with
  | [] => none
  | p :: ps => findToml fs p ps

/-! ## All formats -/

/-- What a file says about a flag of a command, which is given by the names that lead to it.
`null` says nothing.  In TOML the names of a command stand apart, and a flag of the program itself
has a hyphen in front; the name of the flag alone is tried too. -/
def lookup (f : ConfigFile) (command : List Text) (flag : Text) : Option ConfigValue :=
  let fs := f.values.fields
  let found := match f.format with
    | .json => findJson fs flag
    | .yaml => findYaml fs none (Text.splitOn 0x2D (Text.join [0x2D] (command ++ [flag])))
    | .toml =>
      match findTomlName fs (Text.join [0x20] command ++ [0x2D] ++ flag) with
      | some v => some v
      | none => findTomlName fs flag
  match found with
  | some .null => none
  | v => v

/-- The value for a flag: that of the last file that says something. -/
def select (files : List ConfigFile) (command : List Text) (flag : Text) : Option ConfigValue :=
  files.reverse.findSome? fun f => f.lookup command flag

end ConfigFile

end ReflectGen
