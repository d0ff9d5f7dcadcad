import ReflectGen.Log.Line

/-!
# Where log lines go

A console has two streams: errors go to the one for errors, and all else, from a least severity
on, to the one for output.  Errors are always enabled.

A console is put together as a tree of handlers.  Its leaves write lines, each to one stream and
with a scope of its own; in between, records are filtered by their severity and handed to several
handlers.  Attributes and groups are not kept in one place: adding them builds the whole tree anew,
down to the leaves.

* `Console.enabled`, `Console.write`: which severities are written, and what is written.
* `Handler`: trees of handlers.
* `Handler.enabled`, `Handler.handle`: the same for a tree.
* `Handler.withAttrs`, `Handler.withGroup`: the tree with a changed scope.
* `Console.handler`: the tree of a console, with one branch for each stream.
-/

namespace ReflectGen

/-! ## Consoles -/

/-- Lines for the two streams of a console. -/
structure ConsoleText where
  out : Text := []
  err : Text := []
  deriving DecidableEq, Repr

/-- A console logger: the least severity for its output, and its scope. -/
structure Console where
  level : Int
  scope : LogScope := {}
  deriving DecidableEq, Repr

namespace Console

/-- Is a record of this severity written? -/
def enabled (c : Console) (severity : Int) : Bool :=
  if severity < Severity.error then c.level ≤ severity else true

/-- What is written for a record. -/
def write (c : Console) (r : LogRecord) : ConsoleText :=
  if !c.enabled r.severity then {}
  else if r.severity < Severity.error then { out := r.line c.scope }
  else { err := r.line c.scope }

/-- The logger with more attributes. -/
def withAttrs (c : Console) (attrs : List LogAttr) : Console :=
  { c with scope := c.scope.withAttrs attrs }

/-- The logger inside a group. -/
def withGroup (c : Console) (name : Text) : Console := { c with scope := c.scope.withGroup name }

end Console

/-! ## Trees of handlers -/

/-- The streams of a console. -/
inductive Stream where
  | out
  | err
  deriving DecidableEq, Repr

namespace ConsoleText

/-- The text on one stream. -/
def on : Stream → Text → ConsoleText
  | .out, t => { out := t }
  | .err, t => { err := t }

/-- One text after the other, on each stream. -/
def append (a b : ConsoleText) : ConsoleText := { out := a.out ++ b.out, err := a.err ++ b.err }

end ConsoleText

/-- A handler of log records. -/
inductive Handler where
  /-- Writes records as lines.  It has a least severity, but looks at it only when it is asked
  whether it is enabled. -/
  | lines (stream : Stream) (least : Int) (scope : LogScope)
  /-- Hands on the records with a severity that passes. -/
  | filter (pass : Int → Bool) (inner : Handler)
  /-- Hands records to several handlers. -/
  | fan (inner : List Handler)

namespace Handler

mutual

/-- Is a record of this severity written? -/
def enabled (severity : Int) : Handler → Bool
  | .lines _ least _ => least ≤ severity
  | .filter pass h => pass severity && enabled severity h
  | .fan hs => anyEnabled severity hs

/-- Does one of the handlers write a record of this severity? -/
def anyEnabled (severity : Int) : List Handler → Bool
  | [] => false
  | h :: hs => enabled severity h || anyEnabled severity hs

end

mutual

/-- What is written for a record.  Only handlers that are enabled get it from a fan. -/
def handle (r : LogRecord) : Handler → ConsoleText
  | .lines stream _ scope => .on stream (r.line scope)
  | .filter pass h => if pass r.severity then handle r h else {}
  | .fan hs => handleAll r hs

/-- What is written for a record by those of the handlers that are enabled. -/
def handleAll (r : LogRecord) : List Handler → ConsoleText
  | [] => {}
  | h :: hs => if enabled r.severity h then (handle r h).append (handleAll r hs) else handleAll r hs

end

mutual

/-- The handler with every scope in it changed. -/
def rescope (f : LogScope → LogScope) : Handler → Handler
  | .lines stream least scope => .lines stream least (f scope)
  | .filter pass h => .filter pass (rescope f h)
  | .fan hs => .fan (rescopeAll f hs)

/-- The handlers with every scope in them changed. -/
def rescopeAll (f : LogScope → LogScope) : List Handler → List Handler
  | [] => []
  | h :: hs => rescope f h :: rescopeAll f hs

end

/-- The handler with more attributes. -/
def withAttrs (h : Handler) (attrs : List LogAttr) : Handler := h.rescope (·.withAttrs attrs)

/-- The handler inside a group. -/
def withGroup (h : Handler) (name : Text) : Handler := h.rescope (·.withGroup name)

end Handler

/-- The tree of a console: errors go to the one stream, whatever the level is, and all else from the
level on to the other.  Only the branch for other records has a name for the trace severity, but no
record of that severity gets to the branch for errors. -/
def Console.handler (c : Console) : Handler :=
  .fan [.filter (· < Severity.error) (.lines .out c.level c.scope),
    .filter (Severity.error ≤ ·) (.lines .err Severity.error c.scope)]

end ReflectGen
