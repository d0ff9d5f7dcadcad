import ReflectGen.Text.Quoted

/-!
# Words and marker tokens

A marker is the invocation of one of three macros.  Their names, the *tokens*, are C identifiers:
a letter or an underscore, then letters, digits and underscores, all ASCII.

* `isWord`, `isSpace`: the byte classes that decide where a word ends and what may stand between
  a token and its parenthesis.
* `Tokens`, `Tokens.error?`: the three tokens, and what is wrong with them.
-/

namespace ReflectGen

/-- Word bytes are the ASCII letters, the ASCII digits and the underscore. -/
def isWord (b : UInt8) : Bool :=
  (0x61 ≤ b && b ≤ 0x7A) || (0x41 ≤ b && b ≤ 0x5A) || (0x30 ≤ b && b ≤ 0x39) || b == 0x5F

/-- Is the byte a digit? -/
def isDigit (b : UInt8) : Bool := 0x30 ≤ b && b ≤ 0x39

/-- The bytes that may separate the parts of a marker: tab, line feed, form feed, carriage return
and space. -/
def isSpace (b : UInt8) : Bool := b == 0x09 || b == 0x0A || b == 0x0C || b == 0x0D || b == 0x20

/-- Is the text an identifier? -/
def isIdentifier : Text → Bool
  | [] => false
  | b :: t => isWord b && !isDigit b && t.all isWord

/-- What a marker does: it opens the block of a type, describes a member, or closes the block. -/
inductive MarkerKind where
  | opening
  | member
  | closing
  deriving DecidableEq, Repr, Inhabited

/-- The word for a kind in messages and traces. -/
def MarkerKind.name : MarkerKind → Text
  | .opening => lit "begin"
  | .member => lit "data"
  | .closing => lit "end"

/-- The names of the three marker macros. -/
structure Tokens where
  opening : Text
  member : Text
  closing : Text
  deriving DecidableEq, Repr

/-- The tokens used when none are configured. -/
def Tokens.standard : Tokens where
  opening := lit "VX_RF_DATA_BEGIN"
  member := lit "VX_RF_DATA"
  closing := lit "VX_RF_DATA_END"

instance : Inhabited Tokens := ⟨Tokens.standard⟩

/-- What is wrong with three tokens. -/
inductive TokenError where
  | invalid (token : Text)
  | duplicate (token : Text)
  deriving DecidableEq, Repr

/-- The message for a token error. -/
def TokenError.message : TokenError → Text
  | .invalid t => lit "invalid marker token " ++ t.quote
  | .duplicate t => lit "duplicate marker token " ++ t.quote

namespace Tokens

/-- Looks at tokens in order; `seen` holds those before. -/
def firstError? : (seen : List Text) → List Text → Option TokenError
  | _, [] => none
  | seen, t :: ts =>
    if !isIdentifier t then some (.invalid t)
    else if seen.contains t then some (.duplicate t)
    else firstError? (t :: seen) ts

/-- The first error: each token must be an identifier and differ from those before it. -/
def error? (tokens : Tokens) : Option TokenError :=
  firstError? [] [tokens.opening, tokens.member, tokens.closing]

/-- The kind of marker that a word names. -/
def kind? (tokens : Tokens) (word : Text) : Option MarkerKind :=
  if word == tokens.opening then some .opening
  else if word == tokens.member then some .member
  else if word == tokens.closing then some .closing
  else none

end Tokens

end ReflectGen
