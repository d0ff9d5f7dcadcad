import ReflectGen.Document.Basic
import ReflectGen.Text.Utf8

/-!
# TOML text

Documents as TOML: the fields of a table in the order of their names, those with simple values
first, then one header for each nested table and for each table in a list.  Nested tables are
indented by two spaces for each level, and an empty line stands before each header.  A list of
tables that is empty leaves no trace.
-/

namespace ReflectGen

namespace Toml

/-- The bytes for one character between quotes.  A character whose low sixteen bits are those of a
control character is written by these bits. -/
def char (c : Char) : Text :=
  match c.toNat with
  | 0x08 => lit "\\b"
  | 0x09 => lit "\\t"
  | 0x0A => lit "\\n"
  | 0x0C => lit "\\f"
  | 0x0D => lit "\\r"
  | 0x22 => lit "\\\""
  | 0x5C => lit "\\\\"
  | n =>
    if n % 0x10000 < 0x1F then
      0x5C :: 0x75 :: (Text.hex 4 (n % 0x10000)).map fun b => if 0x61 ≤ b then b - 0x20 else b
    else String.utf8EncodeChar c

/-- A text between quotes; a stray byte is shown as U+FFFD. -/
def string (t : Text) : Text := 0x22 :: t.chars.flatMap char ++ [0x22]

/-- Items between brackets, on one line. -/
def brackets (items : List Text) : Text := lit "[" ++ Text.join (lit ", ") items ++ lit "]"

mutual

/-- The text of a simple value. -/
def simple : Document → Text
  | .text t => string t
  | .int n => Text.ofInt n
  | .bool b => Document.boolText b
  | .list items => brackets (simples items)
  | .table _ => []
  | .object _ => []

/-- The texts of simple values. -/
def simples : List Document → List Text
  | [] => []
  | d :: ds => simple d :: simples ds

end

/-- Is the field written as a table or as a list of tables? -/
def isTable : Document → Bool
  | .object _ => true
  | .table _ => true
  | _ => false

/-- Spaces for a level. -/
def indent (level : Nat) : Text := List.replicate (2 * level) 0x20

/-- The full name of a table in a table. -/
def dotted (path name : Text) : Text := if path.isEmpty then name else path ++ lit "." ++ name

/-- The lines of the simple fields. -/
def simpleFields (level : Nat) (fields : List (Text × Document)) : Text :=
  (Document.sortFields (fields.filter fun f => !isTable f.2)).flatMap fun f =>
    indent level ++ f.1 ++ lit " = " ++ simple f.2 ++ [0x0A]

/-- The tables of a document in the order of their names. -/
def orderTables (tables : List (Text × Text)) : Text :=
  (tables.mergeSort fun a b => Text.le a.1 b.1).flatMap Prod.snd

/-- The line above a table. -/
def header (level : Nat) (left path right : Text) : Text :=
  lit "\n" ++ indent level ++ left ++ path ++ right ++ lit "\n"

mutual

/-- The lines of a table whose full name is `path`. -/
def body (level : Nat) (path : Text) : Document → Text
  | .object fields => simpleFields level fields ++ orderTables (tables level path fields)
  | _ => []

/-- A table, or the rows of one, under a full name. -/
def nested (level : Nat) (path : Text) : Document → Text
  | .object fields =>
    header level (lit "[") path (lit "]") ++ simpleFields (level + 1) fields ++
      orderTables (tables (level + 1) path fields)
  | .table rows => nestedRows level path rows
  | _ => []

/-- The tables among fields, with the names of the fields. -/
def tables (level : Nat) (path : Text) : List (Text × Document) → List (Text × Text)
  | [] => []
  | (name, d) :: rest => (name, nested level (dotted path name) d) :: tables level path rest

/-- The rows of a table, each under a header of its own. -/
def nestedRows (level : Nat) (path : Text) : List Document → Text
  | [] => []
  | d :: rest =>
    header level (lit "[[") path (lit "]]") ++ body (level + 1) path d ++
      nestedRows level path rest

end

end Toml

/-- The TOML text of a document. -/
def Document.toToml (d : Document) : Text := Toml.body 0 [] d

end ReflectGen
