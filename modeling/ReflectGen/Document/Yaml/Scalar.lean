import ReflectGen.Document.Yaml.Resolve
import ReflectGen.Text.Base64

/-!
# Scalars in YAML

A text is written in the plainest style that keeps it: without quotes, in single quotes, in double
quotes with escapes, or as a literal block if it has line feeds.  Bytes that are no UTF-8 are
written in base 64 under a tag.

* `Scalar.Traits`: what decides about the style, found in one pass over the characters.
* `Scalar.style`: the style of a text.
* `Scalar.line`: the text in its style, to the end of its last line.
-/

namespace ReflectGen

namespace Scalar

/-- A line is broken by these characters. -/
def isBreak (c : Char) : Bool :=
  c == '\n' || c == '\r' || c.toNat == 0x85 || c.toNat == 0x2028 || c.toNat == 0x2029

/-- Space and tab. -/
def isBlankChar (c : Char) : Bool := c == ' ' || c == '\t'

/-- The characters that may stand outside of escapes. -/
def isPlainChar (c : Char) : Bool :=
  let n := c.toNat
  n == 0x0A || (0x20 ≤ n && n ≤ 0x7E) || (0xA0 ≤ n && n ≤ 0xD7FF) ||
    (0xE000 ≤ n && n ≤ 0xFFFD && n != 0xFEFF)

/-- Characters with a meaning of their own in front of a scalar. -/
def isIndicator (c : Char) : Bool :=
  [0x23, 0x2C, 0x5B, 0x5D, 0x7B, 0x7D, 0x26, 0x2A, 0x21, 0x7C, 0x3E, 0x27, 0x22, 0x25, 0x40,
    0x60].contains c.toNat

/-- What decides about the style of a text. -/
structure Traits where
  /-- Something in it has a meaning of its own in YAML. -/
  indicator : Bool := false
  lineBreak : Bool := false
  special : Bool := false
  tab : Bool := false
  /-- A space or line break stands at an end. -/
  ragged : Bool := false
  trailingSpace : Bool := false
  breakThenSpace : Bool := false
  spaceThenBreak : Bool := false
  deriving DecidableEq, Repr

/-- Has the character a meaning of its own?  `before` is the character in front of it, if there is
one, and `after` the text behind it. -/
def isMeaningful (before : Option Char) (c : Char) (after : List Char) : Bool :=
  let blankBehind := match after with
    | [] => true
    | d :: _ => isBlankChar d
  match before with
  | none =>
    isIndicator c || ((c == '?' || c == ':' || c == '-') && blankBehind)
  | some b =>
    (c == ':' && blankBehind) ||
      (c == '#' && (isBlankChar b || isBreak b || b.toNat == 0))

/-- The traits with those of one more character. -/
def Traits.see (t : Traits) (before : Option Char) (c : Char) (after : List Char) : Traits where
  indicator := t.indicator || isMeaningful before c after
  lineBreak := t.lineBreak || isBreak c
  special := t.special || (c != '\t' && !isPlainChar c)
  tab := t.tab || c == '\t'
  ragged := t.ragged || ((before.isNone || after.isEmpty) && (c == ' ' || isBreak c))
  trailingSpace := t.trailingSpace || (after.isEmpty && c == ' ')
  breakThenSpace := t.breakThenSpace || (before.any isBreak && c == ' ')
  spaceThenBreak := t.spaceThenBreak || (before == some ' ' && isBreak c)

/-- Looks at characters one after the other. -/
def traitsFrom (t : Traits) (before : Option Char) : List Char → Traits
  | [] => t
  | c :: cs => traitsFrom (t.see before c cs) (some c) cs

/-- The traits of a text.  Three hyphens or points in front mark the ends of documents. -/
def traits (cs : List Char) : Traits :=
  traitsFrom { indicator := cs.take 3 == ['-', '-', '-'] || cs.take 3 == ['.', '.', '.'] } none cs

/-- The ways to write a text. -/
inductive Style where
  | plain
  | single
  | double
  | literal
  deriving DecidableEq, Repr

/-- May the text be written without quotes, as far as its characters go? -/
def Traits.allowPlain (t : Traits) : Bool :=
  !(t.ragged || t.breakThenSpace || t.spaceThenBreak || t.tab || t.special || t.lineBreak ||
    t.indicator)

/-- May the text be written in single quotes? -/
def Traits.allowSingle (t : Traits) : Bool :=
  !(t.breakThenSpace || t.spaceThenBreak || t.tab || t.special)

/-- May the text be written as a literal block? -/
def Traits.allowLiteral (t : Traits) : Bool :=
  !(t.trailingSpace || t.spaceThenBreak || t.special)

/-- The style for characters that mean themselves, or do not. -/
def style (meansItself : Bool) (cs : List Char) : Style :=
  let t := traits cs
  if cs.contains '\n' then if t.allowLiteral then .literal else .double
  else if !meansItself then .double
  else if t.allowPlain then .plain
  else if t.allowSingle then .single
  else .double

/-! ## Writing -/

/-- An upper-case hexadecimal number of a given width. -/
def upperHex (width n : Nat) : Text :=
  (Text.hex width n).map fun b => if 0x61 ≤ b then b - 0x20 else b

/-- The escape for a character between double quotes. -/
def escape (c : Char) : Text :=
  match c.toNat with
  | 0x00 => lit "\\0"
  | 0x07 => lit "\\a"
  | 0x08 => lit "\\b"
  | 0x09 => lit "\\t"
  | 0x0A => lit "\\n"
  | 0x0B => lit "\\v"
  | 0x0C => lit "\\f"
  | 0x0D => lit "\\r"
  | 0x1B => lit "\\e"
  | 0x22 => lit "\\\""
  | 0x5C => lit "\\\\"
  | 0x85 => lit "\\N"
  | 0xA0 => lit "\\_"
  | 0x2028 => lit "\\L"
  | 0x2029 => lit "\\P"
  | n =>
    if n ≤ 0xFF then lit "\\x" ++ upperHex 2 n
    else if n ≤ 0xFFFF then lit "\\u" ++ upperHex 4 n
    else lit "\\U" ++ upperHex 8 n

/-- A character between double quotes. -/
def doubleChar (c : Char) : Text :=
  if !isPlainChar c || isBreak c || c == '"' || c == '\\' then escape c
  else String.utf8EncodeChar c

/-- Does the text start with a byte order mark? -/
def startsWithMark (cs : List Char) : Bool := cs.head?.any (·.toNat == 0xFEFF)

/-- A text between double quotes.  Behind a byte order mark all characters are escaped. -/
def double (cs : List Char) : Text :=
  0x22 :: cs.flatMap (if startsWithMark cs then escape else doubleChar) ++ [0x22]

/-- Spaces. -/
def spaces (n : Nat) : Text := List.replicate n 0x20

/-- The inside of single quotes: quotes are doubled, and the text behind a line break is
indented. -/
def singleFrom (indent : Nat) : (broken : Bool) → List Char → Text
  | _, [] => []
  | broken, c :: cs =>
    if isBreak c then String.utf8EncodeChar c ++ singleFrom indent true cs
    else
      (if broken && c != ' ' then spaces indent else []) ++
        (if c.toNat == 0x27 then [0x27] else []) ++ String.utf8EncodeChar c ++
        singleFrom indent (broken && c == ' ') cs

/-- A text between single quotes. -/
def single (indent : Nat) (cs : List Char) : Text := 0x27 :: singleFrom indent false cs ++ [0x27]

/-- The lines of a literal block, each of them indented. -/
def literalFrom (indent : Nat) : (atStart : Bool) → List Char → Text
  | _, [] => []
  | atStart, c :: cs =>
    if isBreak c then String.utf8EncodeChar c ++ literalFrom indent true cs
    else
      (if atStart then spaces indent else []) ++ String.utf8EncodeChar c ++
        literalFrom indent false cs

/-- What a literal block says about its start and its end. -/
def hints (cs : List Char) : Text :=
  (if cs.head?.any fun c => c == ' ' || isBreak c then lit "4" else []) ++
    match cs.reverse with
    | [] => lit "-"
    | c :: rest =>
      if !isBreak c then lit "-"
      else
        match rest with
        | [] => lit "+"
        | d :: _ => if isBreak d then lit "+" else []

/-- A literal block.  A line break at the start of the text also ends the first line. -/
def literal (indent : Nat) (cs : List Char) : Text :=
  lit "|" ++ hints cs ++ (if cs.head?.any isBreak then [] else [0x0A]) ++
    literalFrom indent true cs

/-- Characters in a style. -/
def write (indent : Nat) (cs : List Char) : Style → Text
  | .plain => Text.ofChars cs
  | .single => single indent cs
  | .double => double cs
  | .literal => literal indent cs

/-- Characters in a style, with the end of the last line; a literal block may bring its own. -/
def writeLine (indent : Nat) (cs : List Char) (style : Style) : Text :=
  write indent cs style ++
    if style == .literal && cs.getLast?.any isBreak then [] else [0x0A]

/-- Long base 64 texts are cut into lines of this length. -/
def binaryWidth : Nat := 70

/-- A text cut into lines, each with a line feed; the number bounds the lines. -/
def cutLines : (fuel : Nat) → Text → Text
  | 0, _ => []
  | n + 1, t => if t.isEmpty then [] else t.take binaryWidth ++ [0x0A] ++ cutLines n (t.drop binaryWidth)

/-- The base 64 form of bytes, cut into lines if it is long. -/
def binary (t : Text) : Text :=
  let b := Base64.encode t
  if b.length < binaryWidth then b else cutLines b.length b

/-- A text as a scalar whose further lines are indented, with the end of the last line. -/
def line (indent : Nat) (t : Text) : Text :=
  if t.isUtf8 then
    let cs := t.chars
    writeLine indent cs (style (Plain.meansItself t) cs)
  else
    let cs := (binary t).chars
    lit "!!binary " ++ writeLine indent cs (style true cs)

end Scalar

end ReflectGen
