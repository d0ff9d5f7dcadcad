import ReflectGen.Text.Quoted
import ReflectGen.Text.CharClass

/-!
# Log lines

A log record has a severity, a message and attributes.  It is written as one line of `key=value`
pairs; a key or value that could be misread is quoted, so that a record never spans two lines.

* `Severity.text`: severities are integers, named by the nearest standard level below.
* `needsQuotes`: which texts are quoted.
* `LogRecord.line`: the line of a record.
-/

namespace ReflectGen

namespace Severity

/-- Below the debug level, for very verbose output. -/
def trace : Int := -8
def debug : Int := -4
def info : Int := 0
def warn : Int := 4
def error : Int := 8

/-- The least severity for a word of the configuration; unknown words mean `info`. -/
def ofWord (w : Text) : Int :=
  if w == lit "trace" then trace
  else if w == lit "debug" then debug
  else if w == lit "warn" || w == lit "warning" then warn
  else if w == lit "error" then error
  else info

/-- A level and the distance from it, which is left out when it is zero. -/
def distance (name : String) (d : Int) : Text :=
  lit name ++ if d == 0 then [] else (if 0 < d then lit "+" else []) ++ Text.ofInt d

/-- The name of a severity. -/
def text (s : Int) : Text :=
  if s == trace then lit "TRACE"
  else if s < info then distance "DEBUG" (s - debug)
  else if s < warn then distance "INFO" (s - info)
  else if s < error then distance "WARN" (s - warn)
  else distance "ERROR" (s - error)

end Severity

/-- The values that an attribute can have. -/
inductive LogValue where
  | text (t : Text)
  | int (n : Int)
  | bool (b : Bool)
  | null
  deriving DecidableEq, Repr

/-- A key with a value. -/
abbrev LogAttr := Text × LogValue

/-- Does a rune force quotes around the text it stands in? -/
def Rune.isUnsafe : Rune → Bool
  | .stray _ => true
  | .char c =>
    if c.toNat < 0x80 then c.toNat ≤ 0x20 || c == '"' || c == '='
    else c == Rune.replacement || isBlank c || !isPrintable c

/-- Must the text be quoted? -/
def needsQuotes (t : Text) : Bool := t.isEmpty || t.runes.any Rune.isUnsafe

/-- A text as it stands in a line. -/
def loggedText (t : Text) : Text := if needsQuotes t then t.quote else t

/-- A value as it stands in a line. -/
def LogValue.logged : LogValue → Text
  | .text t => loggedText t
  | .int n => Text.ofInt n
  | .bool b => if b then lit "true" else lit "false"
  | .null => lit "<nil>"

/-- An attribute as it stands in a line.  One without key and value is left out. -/
def loggedAttr (a : LogAttr) : Text := lit " " ++ loggedText a.1 ++ lit "=" ++ a.2.logged

/-- Is there nothing to write for the attribute? -/
def isVoidAttr (a : LogAttr) : Bool := a.1.isEmpty && a.2 == .null

/-- A record to be logged. -/
structure LogRecord where
  severity : Int
  message : Text
  attrs : List LogAttr
  deriving DecidableEq, Repr

/-- The groups and attributes that a logger adds to its records: `lead` stands in front of the
keys to come, and the attributes have their full keys. -/
structure LogScope where
  lead : Text := []
  attrs : List LogAttr := []
  deriving DecidableEq, Repr

namespace LogScope

/-- The attributes that leave a trace, with their full keys. -/
def qualify (s : LogScope) (attrs : List LogAttr) : List LogAttr :=
  (attrs.filter (!isVoidAttr ·)).map fun a => (s.lead ++ a.1, a.2)

/-- The scope with more attributes. -/
def withAttrs (s : LogScope) (attrs : List LogAttr) : LogScope :=
  { s with attrs := s.attrs ++ s.qualify attrs }

/-- The scope inside a group. -/
def withGroup (s : LogScope) (name : Text) : LogScope := { s with lead := s.lead ++ name ++ lit "." }

end LogScope

/-- The line of a record within a scope. -/
def LogRecord.line (s : LogScope) (r : LogRecord) : Text :=
  lit "level=" ++ Severity.text r.severity ++ lit " msg=" ++ loggedText r.message ++
    (s.attrs ++ s.qualify r.attrs).flatMap loggedAttr ++ [0x0A]

end ReflectGen
