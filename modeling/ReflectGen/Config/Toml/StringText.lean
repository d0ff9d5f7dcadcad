import ReflectGen.Text.Quoted
import ReflectGen.Text.Utf8

/-!
# Strings in TOML

A string stands between quotation marks, on one line, or between three of them on several lines.
Between double ones a backslash starts an escape; between single ones every character stands for
itself.

The readers here start behind the opening marks.  They give the string and what follows its
closing marks, or nothing if the string is not well formed.  Where a reader takes a number, it must
exceed the length of the text.
-/

namespace ReflectGen

namespace Config.Toml

/-- Space and tab. -/
def isBlank (b : UInt8) : Bool := b == 0x20 || b == 0x09

/-- Carriage return and line feed. -/
def isLineByte (b : UInt8) : Bool := b == 0x0A || b == 0x0D

/-- The bytes that single letters stand for behind a backslash. -/
def letterEscapes : List (UInt8 × UInt8) :=
  [(0x22, 0x22), (0x6E, 0x0A), (0x62, 0x08), (0x66, 0x0C), (0x2F, 0x2F), (0x74, 0x09),
    (0x72, 0x0D), (0x5C, 0x5C)]

/-- A character given by the digits of its number; numbers that have none give U+FFFD. -/
def numbered? (width : Nat) (t : Text) : Option (Text × Text) :=
  (Quoted.hexNumber? width 0 t).map fun (n, rest) =>
    (String.utf8EncodeChar ((Text.scalar? 0 n).getD Rune.replacement), rest)

/-- What an escape stands for, and what follows it.  A backslash in front of blanks and line breaks
stands for nothing and takes them along. -/
def escape? : Text → Option (Text × Text)
  | [] => none
  | b :: t =>
    if isBlank b || isLineByte b then some ([], t.dropWhile fun c => isBlank c || isLineByte c)
    else if b == 0x75 then numbered? 4 t
    else if b == 0x55 then numbered? 8 t
    else (letterEscapes.lookup b).map fun c => ([c], t)

/-- May the byte stand in a string as it is?  Line breaks may if `lines` says so. -/
def isPlainByte (lines : Bool) (b : UInt8) : Bool :=
  0x20 ≤ b || b == 0x09 || (lines && isLineByte b)

/-- The inside of a string with escapes, up to the marks that close it. -/
def basic? (close : Text) (lines : Bool) : (fuel : Nat) → Text → (done : Text) →
    Option (Text × Text)
  | 0, _, _ => none
  | _ + 1, [], _ => none
  | n + 1, b :: t, done =>
    match Text.after? close (b :: t) with
    | some rest => some (done.reverse, rest)
    | none =>
      if b == 0x5C then
        match escape? t with
        | some (bytes, rest) => basic? close lines n rest (bytes.reverse ++ done)
        | none => none
      else if isPlainByte lines b then basic? close lines n t (b :: done)
      else none

/-- The inside of a string without escapes, up to the marks that close it. -/
def literal? (close : Text) : Text → (done : Text) → Option (Text × Text)
  | [], _ => none
  | b :: t, done =>
    match Text.after? close (b :: t) with
    | some rest => some (done.reverse, rest)
    | none => literal? close t (b :: done)

/-- The text without a line break in front. -/
def dropBreak : Text → Text
  | 0x0A :: t => t
  | 0x0D :: 0x0A :: t => t
  | t => t

/-- A string in double quotes, read from behind the first one. -/
def basicString? (fuel : Nat) (t : Text) : Option (Text × Text) :=
  match t with
  | 0x22 :: 0x22 :: t => basic? [0x22, 0x22, 0x22] true fuel (dropBreak t) []
  | t => basic? [0x22] false fuel t []

/-- A string in single quotes, read from behind the first one. -/
def literalString? (t : Text) : Option (Text × Text) :=
  match t with
  | 0x27 :: 0x27 :: t => literal? [0x27, 0x27, 0x27] (dropBreak t) []
  | t => literal? [0x27] t []

end Config.Toml

end ReflectGen
