import ReflectGen.Marker.Word

/-!
# Diagnostics

A diagnostic says what is wrong with a marker line.  Its *cause* records the facts; the *fault* is
the kind under which a caller can look for it, and the detail is the sentence that describes it.

* `Fault`: the five kinds.
* `Cause`: what was found, with `Cause.fault` and `Cause.detail`.
* `Diagnostic.message`: path, line, kind and detail in one line.
-/

namespace ReflectGen

/-- The kinds of diagnostics. -/
inductive Fault where
  | malformedRecord
  | unterminatedBlock
  | danglingEnd
  | strayMember
  | parentMismatch
  deriving DecidableEq, Repr

/-- The words for a fault. -/
def Fault.text : Fault → Text
  | .malformedRecord => lit "malformed record"
  | .unterminatedBlock => lit "unterminated block"
  | .danglingEnd => lit "dangling end marker"
  | .strayMember => lit "data marker outside of block"
  | .parentMismatch => lit "parent type mismatch"

/-- What was found at a marker line. -/
inductive Cause where
  /-- The argument list of a marker does not end on its line. -/
  | unclosed (kind : MarkerKind)
  /-- An opening or closing marker does not have exactly one argument. -/
  | notOneName (kind : MarkerKind) (count : Nat)
  /-- A member marker does not have exactly three non-empty arguments. -/
  | notThreeArguments (args : List Text)
  /-- The block of `parent` is dropped because a block of `name` opens at `line`. -/
  | dropped (parent name : Text) (line : Nat)
  /-- The block of `parent` is still open at the end of the file. -/
  | unfinished (parent : Text)
  /-- A member stands outside of every block. -/
  | stray (name parent : Text)
  /-- A block is closed that was not opened. -/
  | dangling (name : Text)
  /-- A member of `parent` stands in the block of `block`. -/
  | foreignMember (name parent block : Text)
  /-- The block of `block`, opened at `line`, is closed under the name `name`. -/
  | foreignEnd (name block : Text) (line : Nat)
  deriving DecidableEq, Repr

namespace Cause

/-- The kind of diagnostic that a cause gives. -/
def fault : Cause → Fault
  | .unclosed _ => .malformedRecord
  | .notOneName _ _ => .malformedRecord
  | .notThreeArguments _ => .malformedRecord
  | .dropped _ _ _ => .unterminatedBlock
  | .unfinished _ => .unterminatedBlock
  | .stray _ _ => .strayMember
  | .dangling _ => .danglingEnd
  | .foreignMember _ _ _ => .parentMismatch
  | .foreignEnd _ _ _ => .parentMismatch

/-- The sentence that describes a cause. -/
def detail : Cause → Text
  | .unclosed k => k.name ++ lit " marker without closing parenthesis"
  | .notOneName k n =>
    k.name ++ lit " marker expects one type name, got " ++ Text.ofNat n ++ lit " argument(s)"
  | .notThreeArguments args =>
    lit "data marker expects (parent, type, member), got " ++
      Text.quote (Text.join (lit ", ") args)
  | .dropped parent name line =>
    lit "block " ++ parent ++ lit " dropped by begin marker for " ++ name ++ lit " at line " ++
      Text.ofNat line
  | .unfinished parent => lit "block " ++ parent ++ lit " has no end marker before end of file"
  | .stray name parent => lit "member " ++ name ++ lit " of " ++ parent
  | .dangling name => lit "end marker for " ++ name ++ lit " without begin marker"
  | .foreignMember name parent block =>
    lit "member " ++ name ++ lit " declared for " ++ parent ++ lit " inside block " ++ block
  | .foreignEnd name block line =>
    lit "end marker for " ++ name ++ lit " closes block " ++ block ++ lit " opened at line " ++
      Text.ofNat line

end Cause

/-- A cause at a place in a file. -/
structure Diagnostic where
  path : Text
  line : Nat
  cause : Cause
  deriving DecidableEq, Repr

namespace Diagnostic

/-- The line for a diagnostic with the given parts; an empty detail is left out with its colon. -/
def render (path : Text) (line : Int) (fault : Fault) (detail : Text) : Text :=
  path ++ lit ":" ++ Text.ofInt line ++ lit ": " ++ fault.text ++
    (if detail.isEmpty then [] else lit ": " ++ detail)

/-- The text of a diagnostic. -/
def message (d : Diagnostic) : Text := render d.path d.line d.cause.fault d.cause.detail

end Diagnostic

end ReflectGen
