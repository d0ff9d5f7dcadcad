import ReflectGen.Glob.Compile

/-!
# Selecting paths by patterns

A list of patterns selects the paths that one of them matches.  A pattern that starts with `**/`
is meant for files in every directory, so for a path without a slash it is also tried without
these three characters.
-/

namespace ReflectGen

/-- A pattern as it was written, and its matcher. -/
structure Pattern where
  text : Text
  matcher : Matcher
  deriving Repr

/-- A pattern that cannot be read. -/
structure PatternError where
  pattern : Text
  cause : GlobError
  deriving DecidableEq, Repr

/-- The message for a pattern that cannot be read. -/
def PatternError.message (e : PatternError) : Text :=
  lit "invalid pattern " ++ e.pattern.quote ++ lit ": " ++ e.cause.message

namespace Pattern

/-- Reads a pattern. -/
def read (t : Text) : Except PatternError Pattern :=
  match Glob.parse t with
  | .ok g => .ok { text := t, matcher := g.compile }
  | .error cause => .error { pattern := t, cause }

/-- Reads all patterns, up to the first that cannot be read. -/
def readAll (ts : List Text) : Except PatternError (List Pattern) := ts.mapM read

/-- Does the pattern match, without its leading `**/` if it has one? -/
def acceptsShortened (p : Pattern) (path : Text) : Bool :=
  match Text.after? (lit "**/") p.text with
  | some t =>
    match Glob.parse t with
    | .ok g => g.compile.accepts path
    | .error _ => false
  | none => false

/-- Does one of the patterns select the path? -/
def selects (ps : List Pattern) (path : Text) : Bool :=
  ps.any (fun p => p.matcher.accepts path) ||
    (!path.contains 0x2F && ps.any fun p => p.acceptsShortened path)

end Pattern

end ReflectGen
