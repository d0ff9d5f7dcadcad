import ReflectGen.Text.Utf8

/-!
# The characters of a YAML file

A file is UTF-8, or UTF-16 with a byte order mark in front.  It must consist of characters that
can be printed, of tabs and of line breaks.

* `Yaml.characters?`: the characters of a file.
* `Yaml.isGap`, `Yaml.isBreak`: the blank characters within a line and at its end.
-/

namespace ReflectGen

namespace Config.Yaml

/-! ## Classes of characters -/

/-- Space and tab. -/
def isGap (c : Char) : Bool := c == ' ' || c == '\t'

/-- The characters that end a line. -/
def isBreak (c : Char) : Bool :=
  c == '\n' || c == '\r' || c.toNat == 0x85 || c.toNat == 0x2028 || c.toNat == 0x2029

/-- Do the characters start with a blank one, or is there none? -/
def blankNext : List Char → Bool
  | [] => true
  | c :: _ => isGap c || isBreak c

/-- Do the characters start with a line break, or is there none? -/
def breakNext : List Char → Bool
  | [] => true
  | c :: _ => isBreak c

/-- Letters, digits, the underscore and the hyphen. -/
def isWordChar (c : Char) : Bool := c.isAlphanum || c == '_' || c == '-'

/-- The mark that may start a file or a line. -/
def orderMark : Char := Char.ofNat 0xFEFF

/-! ## Decoding -/

/-- May the character stand in a file? -/
def isAllowed (c : Char) : Bool :=
  let n := c.toNat
  c == '\t' || c == '\n' || c == '\r' || (0x20 ≤ n && n ≤ 0x7E) || n == 0x85 ||
    (0xA0 ≤ n && n ≤ 0xD7FF) || (0xE000 ≤ n && n ≤ 0xFFFD) || 0x10000 ≤ n

/-- The numbers that pairs of bytes write; `high` tells whether the high byte comes first. -/
def units? (high : Bool) : Text → Option (List Nat)
  | [] => some []
  | [_] => none
  | a :: b :: t =>
    (units? high t).map
      ((if high then a.toNat * 256 + b.toNat else b.toNat * 256 + a.toNat) :: ·)

/-- The characters of UTF-16 units: a pair of surrogates is one character, and none may stand
alone. -/
def ofUnits? : List Nat → Option (List Char)
  | [] => some []
  | n :: rest =>
    if 0xD800 ≤ n && n < 0xDC00 then
      match rest with
      | m :: rest =>
        if 0xDC00 ≤ m && m < 0xE000 then
          (ofUnits? rest).map (Char.ofNat (0x10000 + (n - 0xD800) * 0x400 + (m - 0xDC00)) :: ·)
        else none
      | [] => none
    else
      match Text.scalar? 0 n with
      | some c => (ofUnits? rest).map (c :: ·)
      | none => none

/-- The characters of a text in UTF-8. -/
def utf8? (t : Text) : Option (List Char) := if t.isUtf8 then some t.chars else none

/-- The characters of a file, whose encoding its first bytes tell. -/
def decode? (t : Text) : Option (List Char) :=
  match t with
  | 0xFF :: 0xFE :: t => (units? false t).bind ofUnits?
  | 0xFE :: 0xFF :: t => (units? true t).bind ofUnits?
  | 0xEF :: 0xBB :: 0xBF :: t => utf8? t
  | t => utf8? t

/-- The characters of a file, if all of them may stand in it. -/
def characters? (t : Text) : Option (List Char) :=
  match decode? t with
  | some cs => if cs.all isAllowed then some cs else none
  | none => none

end Config.Yaml

end ReflectGen
