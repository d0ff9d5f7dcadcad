import ReflectGen.Document.Basic
import ReflectGen.Text.Utf8

/-!
# JSON text

Documents as indented JSON: two spaces for each level, one item or field to a line, `[]` and
`\x7b\x7d` for what is empty.  Besides what JSON itself requires, the characters `<`, `>` and `&`
and the two Unicode line separators are escaped, so that the text can stand in other languages.
A byte that is part of no character is written as U+FFFD.  That character is not escaped, whether it
stands for a stray byte or for itself: encoders differ in this, and here it is what the dumps of the
program have.
-/

namespace ReflectGen

namespace Json

/-- The bytes for one character between quotes. -/
def char (c : Char) : Text :=
  match c.toNat with
  | 0x22 => lit "\\\""
  | 0x5C => lit "\\\\"
  | 0x0A => lit "\\n"
  | 0x0D => lit "\\r"
  | 0x09 => lit "\\t"
  | 0x08 => lit "\\b"
  | 0x0C => lit "\\f"
  | n =>
    if n < 0x20 || n == 0x3C || n == 0x3E || n == 0x26 || n == 0x2028 || n == 0x2029 then
      0x5C :: 0x75 :: Text.hex 4 n
    else String.utf8EncodeChar c

/-- A text between quotes; a stray byte is written as U+FFFD, in its three bytes. -/
def string (t : Text) : Text := 0x22 :: t.chars.flatMap char ++ [0x22]

/-- A line break with the indentation of a level. -/
def newline (level : Nat) : Text := 0x0A :: List.replicate (2 * level) 0x20

/-- Items between brackets, each on a line of its own. -/
def enclose (left right : String) (level : Nat) (items : List Text) : Text :=
  if items.isEmpty then lit left ++ lit right
  else
    lit left ++ newline (level + 1) ++ Text.join (lit "," ++ newline (level + 1)) items ++
      newline level ++ lit right

mutual

/-- The JSON text of a document that stands at a level. -/
def render (level : Nat) : Document → Text
  | .text t => string t
  | .int n => Text.ofInt n
  | .bool b => Document.boolText b
  | .list items => enclose "[" "]" level (renderItems (level + 1) items)
  | .table rows => enclose "[" "]" level (renderItems (level + 1) rows)
  | .object fields => enclose "\x7b" "\x7d" level (renderFields (level + 1) fields)

/-- The texts of the items of a list. -/
def renderItems (level : Nat) : List Document → List Text
  | [] => []
  | d :: ds => render level d :: renderItems level ds

/-- The texts of the fields of an object. -/
def renderFields (level : Nat) : List (Text × Document) → List Text
  | [] => []
  | (name, d) :: fields =>
    (string name ++ lit ": " ++ render level d) :: renderFields level fields

end

end Json

/-- The JSON text of a document. -/
def Document.toJson (d : Document) : Text := Json.render 0 d

end ReflectGen
