import ReflectGen.Config.Yaml.Characters

/-!
# Positions in a YAML file

A cursor is a position in a file: what follows, and where that is.  Readers of tokens move it over
characters and line breaks.

* `Cursor.skip`: one character; `Cursor.skipWhile`: all that belong to a class.
* `Cursor.newLine`: one line break; a carriage return and the line feed behind it are one.
* `Cursor.lineComment`: a comment behind a token; `Cursor.comments`: comments on lines of their
  own.
-/

namespace ReflectGen

namespace Config.Yaml

/-- A position in a file. -/
structure Cursor where
  rest : List Char
  /-- The number of characters of the file.  It bounds the steps of all readers. -/
  size : Nat
  /-- The number of characters in front. -/
  index : Nat := 0
  line : Nat := 0
  column : Nat := 0
  /-- The line breaks since the last character that is not blank. -/
  breaks : Nat := 0
  deriving Repr

namespace Cursor

/-- The cursor at the start of a file. -/
def start (cs : List Char) : Cursor := { rest := cs, size := cs.length }

/-- The next character. -/
def next? (k : Cursor) : Option Char := k.rest.head?

/-- Is this the next character? -/
def isAt (k : Cursor) (c : Char) : Bool := k.rest.head? == some c

/-- The cursor behind the character in front of `rest`. -/
def step (k : Cursor) (c : Char) (rest : List Char) : Cursor :=
  { k with rest, index := k.index + 1, column := k.column + 1,
           breaks := if isGap c then k.breaks else 0 }

/-- The cursor behind the next character. -/
def skip (k : Cursor) : Cursor :=
  match k.rest with
  | [] => k
  | c :: rest => k.step c rest

/-- The cursor behind the next `n` characters. -/
def skips (k : Cursor) : Nat → Cursor
  | 0 => k
  | n + 1 => k.skip.skips n

/-- Moves over the characters of a class; `rest` is what follows the cursor. -/
def skipFrom (p : Char → Bool) : List Char → Cursor → Cursor
  | [], k => k
  | c :: rest, k => if p c then skipFrom p rest (k.step c rest) else k

/-- The cursor behind the characters of a class. -/
def skipWhile (k : Cursor) (p : Char → Bool) : Cursor := skipFrom p k.rest k

/-- The cursor at the start of the next line, given what follows the line break, and the length of
the break. -/
def lineStart (k : Cursor) (rest : List Char) (length : Nat) : Cursor :=
  { k with rest, index := k.index + length, line := k.line + 1, column := 0, breaks := k.breaks + 1 }

/-- The line break at the cursor, as it counts in a scalar, and the cursor behind it. -/
def newLine (k : Cursor) : List Char × Cursor :=
  match k.rest with
  | '\r' :: '\n' :: rest => (['\n'], k.lineStart rest 2)
  | c :: rest =>
    if !isBreak c then ([], k)
    else
      (if c.toNat == 0x2028 || c.toNat == 0x2029 then [c] else ['\n'], k.lineStart rest 1)
  | [] => ([], k)

/-- The cursor at the end of the line. -/
def toLineEnd (k : Cursor) : Cursor := k.skipWhile fun c => !isBreak c

/-- Does a line with this mark start at the cursor? -/
def isAtMark (k : Cursor) (mark : Char) : Bool :=
  k.column == 0 &&
    match k.rest with
    | a :: b :: c :: rest => a == mark && b == mark && c == mark && blankNext rest
    | _ => false

/-- Does a line start here that starts or ends a document? -/
def isAtDocumentMark (k : Cursor) : Bool := k.isAtMark '-' || k.isAtMark '.'

/-! ## Comments -/

/-- How far ahead comments are looked for. -/
def commentReach : Nat := 512

/-- The cursor behind the comment that follows a token on its line, if there is one. -/
def lineComment (k : Cursor) : Cursor :=
  if 0 < k.breaks then k
  else
    let gaps := (k.rest.takeWhile isGap).length
    if gaps < commentReach && (k.rest.drop gaps).head? == some '#' then k.toLineEnd else k

/-- May the character stand between two comments? -/
def isBetweenComments (c : Char) : Bool := isGap c || c == '\n' || c == '\r'

/-- The number of characters from the end of a comment to the next one, if nothing but blank
characters is between them. -/
def toNextComment? (k : Cursor) : Option Nat :=
  match k.rest with
  | [] => none
  | c :: after =>
    let between := (after.takeWhile isBetweenComments).length
    if isBetweenComments c && between + 1 < commentReach &&
        (after.drop between).head? == some '#' then
      some (between + 1)
    else none

/-- Moves over `n` characters, line breaks among them. -/
def advance : (n : Nat) → Cursor → Cursor
  | 0, k => k
  | n + 1, k =>
    match k.rest with
    | '\r' :: '\n' :: _ => advance (n - 1) k.newLine.2
    | c :: rest => advance n (if isBreak c then k.newLine.2 else k.step c rest)
    | [] => k

/-- The cursor behind the comment at the cursor and the comments that follow it; the number bounds
them. -/
def commentsWithin : (fuel : Nat) → Cursor → Cursor
  | 0, k => k
  | n + 1, k =>
    let k := k.toLineEnd
    match k.toNextComment? with
    | some distance => commentsWithin n (advance distance k)
    | none => k

/-- The cursor behind the comment at the cursor and the comments that follow it. -/
def comments (k : Cursor) : Cursor := commentsWithin (k.size + 1) k

end Cursor

end Config.Yaml

end ReflectGen
