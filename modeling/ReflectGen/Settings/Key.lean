import ReflectGen.Text.LetterCase
import ReflectGen.Text.Quoted

/-!
# Keys of settings

A setting is declared by an identifier in camel case, and perhaps by labels with an explicit
name.  Its key in a configuration file is in snake case.

* `Key.ofIdentifier`: the key for an identifier.
* `Labels.value?`: looks a name up in labels, a list of `name:"value"` pairs.
* `Key.ofDeclaration`: the key for an identifier with labels.
-/

namespace ReflectGen

namespace Labels

/-- May the byte stand in a name? -/
def isNameByte (b : UInt8) : Bool := 0x20 < b && b != 0x3A && b != 0x22 && b != 0x7F

/-- The text up to the closing quote, that included, and the rest; a backslash takes the next byte
with it. -/
def quotedPart? : Text → (done : Text) → Option (Text × Text)
  | [], _ => none
  | 0x22 :: t, done => some ((0x22 :: done).reverse, t)
  | 0x5C :: b :: t, done => quotedPart? t (b :: 0x5C :: done)
  | b :: t, done => quotedPart? t (b :: done)

/-- Looks a name up; the number bounds the pairs, and the length of the labels is enough. -/
def valueWithin? (name : Text) : (fuel : Nat) → Text → Option Text
  | 0, _ => none
  | n + 1, t =>
    let (key, rest) := (t.dropWhile (· == 0x20)).span isNameByte
    match rest with
    | 0x3A :: 0x22 :: u =>
      if key.isEmpty then none
      else
        match quotedPart? u [0x22] with
        | none => none
        | some (quoted, rest) =>
          if key == name then Text.unquote? (Text.repaired quoted) else valueWithin? name n rest
    | _ => none

/-- The value of the first pair with this name.  The list ends at the first pair that is not well
formed. -/
def value? (name labels : Text) : Option Text := valueWithin? name (labels.length + 1) labels

end Labels

namespace Key

/-- Does a word start at the upper-case letter between these neighbours?  It does behind a
lower-case letter, and before one if an upper-case letter stands in front. -/
def startsWord (before : Option Char) (after : List Char) : Bool :=
  match before with
  | none => false
  | some b => isLower b || (isUpper b && after.head?.any isLower)

/-- The snake case of characters; `before` is the one in front of them. -/
def snake (before : Option Char) : List Char → List Char
  | [] => []
  | c :: cs =>
    if isUpper c then
      (if startsWord before cs then ['_'] else []) ++ toLower c :: snake (some c) cs
    else c :: snake (some c) cs

/-- The key for an identifier. -/
def ofIdentifier (identifier : Text) : Text := Text.ofChars (snake none identifier.chars)

/-- The key for an explicit name, or for the identifier if the name is empty. -/
def of (explicitName identifier : Text) : Text :=
  if explicitName.isEmpty then ofIdentifier identifier else Text.replaceByte 0x2D 0x5F explicitName

/-- The key for an identifier with labels. -/
def ofDeclaration (identifier labels : Text) : Text :=
  of ((Labels.value? (lit "name") labels).getD []) identifier

end Key

end ReflectGen
