import ReflectGen.Text.CharClass

/-!
# Quoted text

Messages and log lines show a text between double quotes when it could be misread otherwise.
Inside, a double quote and a backslash are escaped by a backslash; printable characters stand for
themselves; the seven control characters that have a letter are written with it; every other
character is written by its number, and a stray byte by its value.

* `Text.quote`: the quoted form.
* `Text.unquote?`: reads a quoted form, also with the octal and the shorter escapes that
  `quote` never writes.
-/

namespace ReflectGen

namespace Quoted

/-- The letter that stands behind the backslash for a control character. -/
def escapeLetter? (c : Char) : Option UInt8 :=
  match c.toNat with
  | 7 => some 0x61
  | 8 => some 0x62
  | 9 => some 0x74
  | 10 => some 0x6E
  | 11 => some 0x76
  | 12 => some 0x66
  | 13 => some 0x72
  | _ => none

/-- The bytes for one character between quotes. -/
def char (c : Char) : Text :=
  if c.toNat == 0x22 || c.toNat == 0x5C then [0x5C, c.toUInt8]
  else if isPrintable c then String.utf8EncodeChar c
  else
    match escapeLetter? c with
    | some l => [0x5C, l]
    | none =>
      if c.toNat < 0x80 then 0x5C :: 0x78 :: Text.hex 2 c.toNat
      else if c.toNat < 0x10000 then 0x5C :: 0x75 :: Text.hex 4 c.toNat
      else 0x5C :: 0x55 :: Text.hex 8 c.toNat

/-- The bytes for one rune between quotes. -/
def rune : Rune → Text
  | .char c => char c
  | .stray b => 0x5C :: 0x78 :: Text.hex 2 b.toNat

/-! ## Reading -/

/-- The value of a hexadecimal digit of either case. -/
def hexValue? (b : UInt8) : Option Nat :=
  if 0x30 ≤ b && b ≤ 0x39 then some (b.toNat - 0x30)
  else if 0x61 ≤ b && b ≤ 0x66 then some (b.toNat - 0x61 + 10)
  else if 0x41 ≤ b && b ≤ 0x46 then some (b.toNat - 0x41 + 10)
  else none

/-- The number written by the next `n` digits, continued from `acc`, and what follows them. -/
def hexNumber? : (n : Nat) → (acc : Nat) → Text → Option (Nat × Text)
  | 0, acc, t => some (acc, t)
  | _ + 1, _, [] => none
  | n + 1, acc, b :: t =>
    match hexValue? b with
    | some v => hexNumber? n (acc * 16 + v) t
    | none => none

/-- The value of an octal digit. -/
def octalValue? (b : UInt8) : Option Nat :=
  if 0x30 ≤ b && b ≤ 0x37 then some (b.toNat - 0x30) else none

/-- The bytes that an escape stands for, given the text behind the backslash, and what follows
the escape. -/
def escape? : Text → Option (Text × Text)
  | 0x61 :: t => some ([7], t)
  | 0x62 :: t => some ([8], t)
  | 0x66 :: t => some ([12], t)
  | 0x6E :: t => some ([10], t)
  | 0x72 :: t => some ([13], t)
  | 0x74 :: t => some ([9], t)
  | 0x76 :: t => some ([11], t)
  | 0x5C :: t => some ([0x5C], t)
  | 0x22 :: t => some ([0x22], t)
  | 0x78 :: t => (hexNumber? 2 0 t).map fun (n, t) => ([n.toUInt8], t)
  | 0x75 :: t =>
    match hexNumber? 4 0 t with
    | some (n, t) => (Text.scalar? 0 n).map fun c => (String.utf8EncodeChar c, t)
    | none => none
  | 0x55 :: t =>
    match hexNumber? 8 0 t with
    | some (n, t) => (Text.scalar? 0 n).map fun c => (String.utf8EncodeChar c, t)
    | none => none
  | a :: b :: c :: t =>
    match octalValue? a, octalValue? b, octalValue? c with
    | some x, some y, some z =>
      if x * 64 + y * 8 + z < 256 then some ([(x * 64 + y * 8 + z).toUInt8], t) else none
    | _, _, _ => none
  | _ => none

/-- Reads the inside of a quoted text up to its closing quote, which ends the text.  The number
bounds the steps; the length of the text is enough. -/
def inside? : (fuel : Nat) → Text → (done : Text) → Option Text
  | 0, _, _ => none
  | _ + 1, [], _ => none
  | _ + 1, [0x22], done => some done.reverse
  | n + 1, b :: t, done =>
    if b == 0x22 || b == 0x0A then none
    else if b == 0x5C then
      match escape? t with
      | some (bytes, rest) => inside? n rest (bytes.reverse ++ done)
      | none => none
    else inside? n t (b :: done)

end Quoted

namespace Text

/-- The text between double quotes. -/
def quote (t : Text) : Text := 0x22 :: t.runes.flatMap Quoted.rune ++ [0x22]

/-- The text that a quoted form stands for. -/
def unquote? : Text → Option Text
  | 0x22 :: t => Quoted.inside? (t.length + 1) t []
  | _ => none

end Text

end ReflectGen
