import ReflectGen.Text.Basic

/-!
# Documents

Record sets and configuration templates are documents: nested lists and objects of texts, integers
and truth values.  The fields of an object have an order; `Document.sorted` puts them into the
order of their names.
-/

namespace ReflectGen

/-- A document. -/
inductive Document where
  | text (t : Text)
  | int (n : Int)
  | bool (b : Bool)
  | list (items : List Document)
  /-- A list of objects; formats may write it in a way of its own. -/
  | table (rows : List Document)
  | object (fields : List (Text × Document))
  deriving Repr, Inhabited

namespace Document

/-- The words for truth values. -/
def boolText (b : Bool) : Text := if b then lit "true" else lit "false"

/-- Fields in the byte order of their names. -/
def sortFields (fields : List (Text × Document)) : List (Text × Document) :=
  fields.mergeSort fun a b => Text.le a.1 b.1

end Document

end ReflectGen
