import ReflectGen.Emission.Options
import ReflectGen.Metadata
import ReflectGen.Naming

/-!
# Rendering reflection sources

The C++ text generated for the records of one file: a header line, the include directives, and
for each type a descriptor variable with its members and the assignment of its identifier.

* `cString`, `includeDirective`: a text as a C string, and a header in an include directive.
* `renderMember`, `renderType`, `renderSource`: the parts of the text.
-/

namespace ReflectGen

namespace Render

/-- A byte inside a C string literal. -/
def cByte (b : UInt8) : Text := if b == 0x22 || b == 0x5C then [0x5C, b] else [b]

/-- A text as a C string literal. -/
def cString (t : Text) : Text := 0x22 :: t.flatMap cByte ++ [0x22]

/-- A header as it stands in an include directive: a bare name is put between quotes. -/
def includeDirective (header : Text) : Text :=
  let h := header.trim
  match h.head? with
  | some 0x3C => h
  | some 0x22 => h
  | _ => 0x22 :: h ++ [0x22]

/-- The argument that describes one member of the type `typeName`. -/
def renderMember (o : EmitOptions) (typeName : Text) (m : Member) : Text :=
  lit "\n\t, " ++ o.nameSpace ++ lit "::ReflectionDataMember(" ++ cString m.valueType ++
    lit ", " ++ cString m.name ++ lit ", sizeof(" ++ m.valueType ++ lit "), __alignof(" ++
    m.valueType ++ lit "), offsetof(" ++ typeName ++ lit ", " ++ m.name ++ lit "), " ++
    o.hashFunc ++ lit "(" ++ cString m.valueType ++ lit "))"

/-- What stands behind the declared variable of a type: its descriptor, and the assignment of its
identifier. -/
def renderDescriptor (o : EmitOptions) (r : TypeRecord) : Text :=
  o.nameSpace ++ lit "::detail::createReflectionData( " ++ cString r.name ++ lit ", sizeof(" ++
    r.name ++ lit "), __alignof(" ++ r.name ++ lit "), " ++ o.hashFunc ++ lit "(" ++
    cString r.name ++ lit ")" ++ r.members.flatMap (renderMember o r.name) ++ lit "\n)\x7d;\nconst " ++
    o.hashType ++ lit " " ++ r.name ++ lit "::" ++ o.idField ++ lit "\x7b " ++
    descriptorName o.globalPrefix r.name ++ lit ".hash \x7d;\n"

/-- The declaration of a variable, up to the brace behind it. -/
def renderDeclaration (variableName : Text) : Text :=
  lit "\nconst auto " ++ variableName ++ lit "\n\x7b\n\t"

/-- The descriptor variable of a type and the assignment of its identifier. -/
def renderType (o : EmitOptions) (r : TypeRecord) : Text :=
  renderDeclaration (descriptorName o.globalPrefix r.name) ++ renderDescriptor o r

/-- The header line without its line feed. -/
def renderHeader (version source : Text) : Text :=
  lit "// Auto-generated by " ++ programName ++ lit " " ++ version ++ lit " from " ++
    Path.base source ++ lit ". Do not edit."

/-- What stands in front of the types: the header line and the include directives. -/
def renderPreamble (version source : Text) (o : EmitOptions) : Text :=
  renderHeader version source ++
    o.includes.flatMap (fun h => lit "\n#include " ++ includeDirective h) ++ lit "\n"

/-- The reflection source for the records of a file. -/
def renderSource (version source : Text) (records : List TypeRecord) (o : EmitOptions) : Text :=
  renderPreamble version source o ++ records.flatMap (renderType o)

end Render

/-- The reflection source for the records of a file, with the version that a build declares. -/
def render (declaredVersion source : Text) (records : List TypeRecord) (o : EmitOptions) :
    Except VersionError Text :=
  (Version.resolve declaredVersion).map fun v => Render.renderSource v source records o

end ReflectGen
