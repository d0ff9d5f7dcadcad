import ReflectGen.Text.CharClass
import ReflectGen.Path

/-!
# Names and versions

Generated files and the variables in them are named after their sources, and every generated file
tells the program and the version that made it.  A build declares the version; without a declaration
the program is a development build.

* `descriptorName`: the variable that describes a type in the generated source.
* `outputPath`: the file generated for a source file.
* `normalizeRoot`: a root directory as it was typed, without quotes and with slashes.
* `Version.resolve`: the version for what a build declares.
-/

namespace ReflectGen

/-! ## Derived names -/

/-- Is the character an ASCII letter or digit? -/
def isAsciiAlphanumeric (c : Char) : Bool :=
  ('a' ≤ c && c ≤ 'z') || ('A' ≤ c && c ≤ 'Z') || ('0' ≤ c && c ≤ '9')

/-- The byte for one character of a type name in a variable name: blank characters are left out,
and what cannot stand in an identifier becomes an underscore. -/
def identifierByte? (c : Char) : Option UInt8 :=
  if c == '_' || isAsciiAlphanumeric c then some c.toUInt8
  else if isBlank c then none
  else some 0x5F

/-- The name of the variable that describes a type. -/
def descriptorName (lead typeName : Text) : Text := lead ++ typeName.chars.filterMap identifierByte?

/-- The last component of a path up to its first point. -/
def stem (base : Text) : Text := base.takeWhile (· != 0x2E)

/-- The generated file for a source file: in the same directory, the stem of the source and the
suffix. -/
def outputPath (source suffix : Text) : Text :=
  let (dir, base) := Path.split source
  dir ++ stem base ++ suffix

/-- A root directory as given on a command line: without blanks and quotes around it, and with
slashes for backslashes. -/
def normalizeRoot (root : Text) : Text :=
  Text.replaceByte 0x5C 0x2F (Text.trimBy (fun b => b == 0x22 || b == 0x27) root.trim)

/-! ## Versions -/

/-- The name of the program in messages and generated files. -/
def programName : Text := lit "vxrefl"

/-- A declared version that has no point in front of its first hyphen. -/
structure VersionError where
  declared : Text
  deriving DecidableEq, Repr

/-- The message for a version that cannot be used. -/
def VersionError.message (e : VersionError) : Text :=
  lit "invalid version format: " ++ e.declared ++ lit " (expected x.y.z)"

namespace Version

/-- The version of a build without declaration. -/
def development : Text := lit "0.0.1-dev"

/-- The version for a declaration: a `v` in front is dropped, and the part in front of the first
hyphen must have a point. -/
def resolve (declared : Text) : Except VersionError Text :=
  if declared.isEmpty then .ok development
  else
    let version := (Text.after? (lit "v") declared).getD declared
    if (version.takeWhile (· != 0x2D)).contains 0x2E then .ok version
    else .error { declared }

/-- What the version command prints. -/
def report (version : Text) : Text := programName ++ lit " " ++ version ++ [0x0A]

end Version

end ReflectGen
