import ReflectGen.Metadata
import ReflectGen.Naming

/-!
# Clashes between sources

Two kinds of clashes keep a source from being generated: another source has the same output path,
or a type of it, or the variable derived from a type of it, is defined more than once in the run.

* `Site`: where a type is defined; `Metadata.sites` lists all of them.
* `claimants`: the sources from which an output path is derived.
* `Clash.messages`: what is said about the definitions that a source shares.  The messages are
  sorted, so the order in which names and variables are looked at does not matter.
-/

namespace ReflectGen

/-- The place where a type is defined. -/
structure Site where
  source : Text
  line : Int
  name : Text
  deriving DecidableEq, Repr

/-- A site in a message. -/
def Site.text (s : Site) : Text := s.source ++ lit ":" ++ Text.ofInt s.line

namespace Metadata

/-- The sites of all types, in the order of files and records. -/
def sites (md : Metadata) : List Site :=
  md.files.flatMap fun f => f.2.map fun r => { source := f.1, line := r.line, name := r.name }

/-- The sources from which an output path is derived with a suffix. -/
def claimants (md : Metadata) (suffix output : Text) : List Text :=
  md.paths.filter fun p => outputPath p suffix == output

end Metadata

namespace Clash

/-- The sites of a type name. -/
def sitesOfName (sites : List Site) (name : Text) : List Site := sites.filter (·.name == name)

/-- The sites whose types have the same variable. -/
def sitesOfVariable (lead : Text) (sites : List Site) (variableName : Text) : List Site :=
  sites.filter fun s => descriptorName lead s.name == variableName

/-- What is said to `source` about a type name: it has several sites, one of them in `source`. -/
def nameMessage? (sites : List Site) (source name : Text) : Option Text :=
  let group := sitesOfName sites name
  if 2 ≤ group.length && group.any (·.source == source) then
    some (lit "type " ++ name ++ lit " is defined at [" ++
      Text.join (lit " ") (group.map Site.text) ++ lit "]")
  else none

/-- What is said to `source` about a variable: it belongs to types with different names, one of
them in `source`. -/
def variableMessage? (lead : Text) (sites : List Site) (source variableName : Text) :
    Option Text :=
  let group := sitesOfVariable lead sites variableName
  if 2 ≤ (group.map Site.name).eraseDups.length && group.any (·.source == source) then
    some (lit "variable " ++ variableName ++ lit " is derived from types at [" ++
      Text.join (lit " ") (group.map Site.text) ++ lit "]")
  else none

/-- The messages for `source` when type names and descriptor names are looked at in the given
orders. -/
def messagesInOrder (lead : Text) (sites : List Site) (names descriptors : List Text)
    (source : Text) : List Text :=
  Text.sort (names.filterMap (nameMessage? sites source) ++
    descriptors.filterMap (variableMessage? lead sites source))

/-- What is said about the definitions that a source shares.  Nothing is said to a source about a
name or a variable that is not its own, so only its own ones are looked at. -/
def messages (lead : Text) (sites : List Site) (source : Text) : List Text :=
  let own := sites.filter (·.source == source)
  messagesInOrder lead sites (own.map Site.name).eraseDups
    (own.map fun s => descriptorName lead s.name).eraseDups source

end Clash

end ReflectGen
