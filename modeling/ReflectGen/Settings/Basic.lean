import ReflectGen.Settings.Key
import ReflectGen.Document.Basic
import ReflectGen.Number

/-!
# Settings

A setting is something that a user can choose: on the command line by a flag, in a configuration
file by a key, or by an environment variable.  A command declares its settings in sections; the
flag `--emit.id-field` belongs to the section `emit`.

* `ValueKind.standardValue?`: the value that a declared default stands for.
* `Setting`, `Section`: declarations.
* `Section.documents`: the defaults of sections as a document.
-/

namespace ReflectGen

/-- What kind of value a setting has. -/
inductive ValueKind where
  | text
  | flag
  | number
  | list
  deriving DecidableEq, Repr

namespace ValueKind

/-- The words that stand for a truth value in a declaration. -/
def flagOf (w : Text) : Bool := ["1", "t", "T", "TRUE", "true", "True"].any fun s => w == lit s

/-- The value that a declared default stands for; what cannot be read means false or zero. -/
def standardValue (declared : Text) : ValueKind → Document
  | .text => .text declared
  | .flag => .bool (flagOf declared)
  | .number => .int ((Number.integer? 10 declared).getD 0)
  | .list =>
    .list (if declared.isEmpty then [] else (Text.splitOn 0x2C declared).map Document.text)

end ValueKind

/-- The declaration of a setting. -/
structure Setting where
  identifier : Text
  kind : ValueKind
  /-- The default, as it would be written on a command line. -/
  declared : Text := []
  /-- A name that is used instead of the one derived from the identifier. -/
  explicitName : Text := []
  /-- The environment variable that sets it. -/
  environment : Option Text := none
  /-- The words that are allowed, if not all are. -/
  choices : List Text := []
  /-- Is the value a path, made absolute when it is read? -/
  isPath : Bool := false
  deriving DecidableEq, Repr

namespace Setting

/-- The key of the setting in a configuration file, within its section. -/
def key (s : Setting) : Text := Key.of s.explicitName s.identifier

/-- The name of the flag, within its section. -/
def flagName (s : Setting) : Text := Text.replaceByte 0x5F 0x2D s.key

/-- The default as a document. -/
def standardValue (s : Setting) : Document := s.kind.standardValue s.declared

end Setting

/-- Settings that belong together.  The empty name is that of a command's own settings. -/
structure Section where
  name : Text := []
  settings : List Setting
  deriving DecidableEq, Repr

namespace Section

/-- The defaults of a section as fields. -/
def fields (s : Section) : List (Text × Document) :=
  s.settings.map fun x => (x.key, x.standardValue)

/-- The defaults of sections as fields: a section with a name is an object of its own. -/
def allFields (ss : List Section) : List (Text × Document) :=
  ss.flatMap fun s =>
    if s.name.isEmpty then s.fields
    else [(s.name, .object (Document.sortFields s.fields))]

/-- The defaults of sections as a document, in the order of the keys. -/
def document (ss : List Section) : Document := .object (Document.sortFields (allFields ss))

end Section

end ReflectGen
