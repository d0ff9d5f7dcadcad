import ReflectGen.Document.Format
import ReflectGen.Metadata
import ReflectGen.Naming

/-!
# Dumps of record sets

The record set of a run as a document: for every file with records its path, the path of the file
that is generated from it, and its types with their members.
-/

namespace ReflectGen

namespace Member

/-- A member as a document. -/
def document (m : Member) : Document :=
  .object [(lit "parent", .text m.parent), (lit "valueType", .text m.valueType),
    (lit "name", .text m.name), (lit "line", .int m.line)]

end Member

namespace TypeRecord

/-- A type as a document. -/
def document (r : TypeRecord) : Document :=
  .object [(lit "name", .text r.name), (lit "line", .int r.line),
    (lit "members", .table (r.members.map Member.document))]

end TypeRecord

namespace Metadata

/-- A file with its records as a document. -/
def fileDocument (suffix : Text) (f : Text × List TypeRecord) : Document :=
  .object [(lit "path", .text f.1), (lit "output", .text (outputPath f.1 suffix)),
    (lit "types", .table (f.2.map TypeRecord.document))]

/-- The record set as a document; the suffix tells the paths of generated files. -/
def document (md : Metadata) (suffix : Text) : Document :=
  .object [(lit "root", .text md.root), (lit "files", .table (md.files.map (fileDocument suffix)))]

/-- The record set in a format; in JSON, too, it ends with a line feed. -/
def dump (md : Metadata) (suffix : Text) : Format → Text
  | .json => (md.document suffix).toJson ++ [0x0A]
  | .yaml => (md.document suffix).toYaml
  | .toml => (md.document suffix).toToml

end Metadata

end ReflectGen
