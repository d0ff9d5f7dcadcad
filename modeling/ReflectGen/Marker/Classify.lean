import ReflectGen.Marker.Word
import ReflectGen.Marker.Arguments

/-!
# Classifying source lines

A line is a marker line if one of the tokens stands on it as a whole word and an opening
parenthesis follows, with nothing but spaces between them; the first such token counts.  Lines
that define the marker macros are no marker lines.

* `Marker`: kind, arguments, and whether the argument list is closed.
* `Marker.classify`: the marker on a line.
-/

namespace ReflectGen

/-- A marker found on a line. -/
structure Marker where
  kind : MarkerKind
  /-- The trimmed arguments between the parentheses. -/
  args : List Text
  /-- Was the closing parenthesis found on the line? -/
  closed : Bool
  deriving DecidableEq, Repr

namespace Marker

/-- What follows the leading spaces of a text. -/
def skipSpaces (t : Text) : Text := t.dropWhile isSpace

/-- Does the line define one of the tokens as a macro? -/
def isDefinition (tokens : Tokens) (line : Text) : Bool :=
  match skipSpaces line with
  | 0x23 :: t =>
    match Text.after? (lit "define") (skipSpaces t) with
    | some (b :: t) => isSpace b && (tokens.kind? ((skipSpaces t).takeWhile isWord)).isSome
    | _ => false
  | _ => false

/-- Looks for the first invocation; `word` is the word that ends in front of the rest, in
reverse. -/
def findLoop (tokens : Tokens) : Text → (word : Text) → Option (MarkerKind × Text)
  | [], _ => none
  | b :: t, word =>
    if isWord b then findLoop tokens t (b :: word)
    else
      match tokens.kind? word.reverse, skipSpaces (b :: t) with
      | some k, 0x28 :: rest => some (k, rest)
      | _, _ => findLoop tokens t []

/-- The kind of the first invocation on a line and the text behind its parenthesis. -/
def findInvocation? (tokens : Tokens) (line : Text) : Option (MarkerKind × Text) :=
  findLoop tokens line []

/-- The marker on a line, if there is one. -/
def classify (tokens : Tokens) (line : Text) : Option Marker :=
  if isDefinition tokens line then none
  else
    match findInvocation? tokens line with
    | some (kind, rest) =>
      let (args, closed) := Arguments.split rest
      some { kind, args, closed }
    | none => none

end Marker

end ReflectGen
