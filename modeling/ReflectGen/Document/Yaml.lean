import ReflectGen.Document.Basic
import ReflectGen.Document.Yaml.Scalar

/-!
# YAML text

Documents as YAML in block style.  Fields of nested objects and items of lists are indented to the
next multiple of four; the fields of an object in a list stand behind the hyphen.
-/

namespace ReflectGen

namespace Yaml

/-- The indentation inside of what is indented by `n`. -/
def deeper (n : Nat) : Nat := 4 * ((n + 4) / 4)

/-- The indentation of the first line, which is left out where something stands in front. -/
def lead (inline : Bool) (n : Nat) : Text := if inline then [] else Scalar.spaces n

mutual

/-- What stands behind the colon of a field whose object is indented by `n`, with the line feed at
its end. -/
def value (n : Nat) : Document → Text
  | .text t => lit " " ++ Scalar.line (deeper n) t
  | .int i => lit " " ++ Text.ofInt i ++ [0x0A]
  | .bool b => lit " " ++ Document.boolText b ++ [0x0A]
  | .list ds => if ds.isEmpty then lit " []\n" else [0x0A] ++ items (deeper n) ds
  | .table ds => if ds.isEmpty then lit " []\n" else [0x0A] ++ items (deeper n) ds
  | .object fs => if fs.isEmpty then lit " \x7b\x7d\n" else [0x0A] ++ fields (deeper n) false fs

/-- What stands behind the hyphen of an item of a list indented by `n`. -/
def item (n : Nat) : Document → Text
  | .text t => Scalar.line (n + 2) t
  | .int i => Text.ofInt i ++ [0x0A]
  | .bool b => Document.boolText b ++ [0x0A]
  | .list ds => if ds.isEmpty then lit "[]\n" else inlineItems (n + 2) ds
  | .table ds => if ds.isEmpty then lit "[]\n" else inlineItems (n + 2) ds
  | .object fs => if fs.isEmpty then lit "\x7b\x7d\n" else fields (n + 2) true fs

/-- The items of a list indented by `n`. -/
def items (n : Nat) : List Document → Text
  | [] => []
  | d :: ds => Scalar.spaces n ++ lit "- " ++ item n d ++ items n ds

/-- The items of a list indented by `n` whose first item stands behind a hyphen. -/
def inlineItems (n : Nat) : List Document → Text
  | [] => []
  | d :: ds => lit "- " ++ item n d ++ items n ds

/-- The fields of an object indented by `n`.  Names are plain words. -/
def fields (n : Nat) (inline : Bool) : List (Text × Document) → Text
  | [] => []
  | (name, d) :: fs =>
    lead inline n ++ name ++ lit ":" ++ value n d ++ fields n false fs

end

end Yaml

/-- The YAML text of a document that is an object. -/
def Document.toYaml : Document → Text
  | .object fs => if fs.isEmpty then lit "\x7b\x7d\n" else Yaml.fields 0 false fs
  | d => Yaml.item 0 d

end ReflectGen
