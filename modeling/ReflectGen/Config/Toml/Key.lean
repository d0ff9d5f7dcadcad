import ReflectGen.Config.Toml.StringText
import ReflectGen.Number

/-!
# Keys in TOML

A key consists of parts separated by points.  A part is a word, or a string between quotation
marks.  In front of an equals sign the escapes of the strings are resolved first, and the result
is cut into parts afterwards; so a part cannot contain the quotation mark around it.

* `keyText?`: the text of a key in front of an equals sign.
* `keyParts?`: the parts of such a text, or of the text between the brackets of a header.
-/

namespace ReflectGen

namespace Config.Toml

/-- The bytes of words: letters, digits, underscore and hyphen. -/
def isWordByte (b : UInt8) : Bool :=
  Decimal.isDigit b || (0x41 ≤ b && b ≤ 0x5A) || (0x61 ≤ b && b ≤ 0x7A) || b == 0x5F || b == 0x2D

/-- Reads the text of a key up to the equals sign, or up to blanks that no point follows. -/
def keyText? : (fuel : Nat) → Text → (done : Text) → Option (Text × Text)
  | 0, _, _ => none
  | _ + 1, [], done => some (done.reverse, [])
  | n + 1, b :: t, done =>
    if b == 0x3D then some (done.reverse, b :: t)
    else if b == 0x22 then
      match basic? [0x22] true n t [] with
      | some (s, rest) => keyText? n rest (0x22 :: s.reverse ++ 0x22 :: done)
      | none => none
    else if b == 0x27 then
      match literal? [0x27] t [] with
      | some (s, rest) => keyText? n rest (0x27 :: s.reverse ++ 0x27 :: done)
      | none => none
    else if isBlank b then
      match t.dropWhile isBlank with
      | 0x2E :: rest =>
        let blanks := rest.takeWhile isBlank
        keyText? n (rest.dropWhile isBlank) (blanks.reverse ++ 0x2E :: 0x20 :: done)
      | rest => some (done.reverse, rest)
    else if b == 0x2E || isWordByte b then keyText? n t (b :: done)
    else none

/-- What may follow a word: a point at once, or behind blanks, or the end. -/
def afterWord? : Text → Option Text
  | [] => some []
  | b :: t =>
    if b == 0x2E then some (b :: t)
    else if isBlank b then
      match t.dropWhile isBlank with
      | [] => some []
      | 0x2E :: rest => some (0x2E :: rest)
      | _ => none
    else none

/-- May a part start behind a point in front of this text? -/
def partFollows : Text → Bool
  | [] => false
  | b :: _ => isWordByte b || b == 0x27 || b == 0x22 || b == 0x20

/-- Cuts a text into the parts of a key; `done` holds those in front in reverse. -/
def keyPartsFrom? : (fuel : Nat) → Text → (done : List Text) → Option (List Text)
  | 0, _, _ => none
  | n + 1, t, done =>
    match t.dropWhile isBlank with
    | [] => if done.isEmpty then none else some done.reverse
    | b :: t =>
      if isWordByte b then
        let (word, rest) := (b :: t).span isWordByte
        match afterWord? rest with
        | some rest => keyPartsFrom? n rest (word :: done)
        | none => none
      else if b == 0x27 || b == 0x22 then
        match Text.splitFirst? b t with
        | some (part, rest) => keyPartsFrom? n rest (part :: done)
        | none => none
      else if b == 0x2E then if partFollows t then keyPartsFrom? n t done else none
      else none

/-- The parts of a key, of which there is at least one. -/
def keyParts? (t : Text) : Option (List Text) := keyPartsFrom? (t.length + 1) t []

end Config.Toml

end ReflectGen
