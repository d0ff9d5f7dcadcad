import ReflectGen.Document.Json
import ReflectGen.Document.Yaml
import ReflectGen.Document.Toml
import ReflectGen.Text.LetterCase

/-!
# Document formats

The formats in which documents are written, and the words by which they are asked for.
-/

namespace ReflectGen

/-- A document format. -/
inductive Format where
  | json
  | yaml
  | toml
  deriving DecidableEq, Repr

namespace Format

/-- The word for a format; it is also the extension of its files. -/
def name : Format → Text
  | .json => lit "json"
  | .yaml => lit "yaml"
  | .toml => lit "toml"

/-- The format with exactly this name. -/
def ofName? (w : Text) : Option Format :=
  if w == lit "json" then some .json
  else if w == lit "yaml" then some .yaml
  else if w == lit "toml" then some .toml
  else none

/-- The format that a user asks for: letter case does not matter, and there is a short word for
one of them. -/
def ofWord? (w : Text) : Option Format :=
  let w := w.lowered
  if w == lit "yml" then some .yaml else ofName? w

/-- A document in a format. -/
def write (f : Format) (d : Document) : Text :=
  match f with
  | .json => d.toJson
  | .yaml => d.toYaml
  | .toml => d.toToml

end Format

end ReflectGen
