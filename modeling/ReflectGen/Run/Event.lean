import ReflectGen.FileTree.Basic
import ReflectGen.Log.Console
import ReflectGen.Scan

/-!
# Events of a run

What happens in a run, in order: it tells log records, lines of the raw marker trace and steps of
its progress, and it stores files.
-/

namespace ReflectGen

/-- A step of the progress of a run. -/
inductive Progress where
  /-- This many files are going to be scanned. -/
  | started (total : Nat)
  | scanned (path : Text)
  | finished
  deriving DecidableEq, Repr

/-- What happens in a run. -/
inductive Event where
  | log (r : LogRecord)
  | trace (line : Text)
  | progress (p : Progress)
  /-- The file at a location has got a new content. -/
  | stored (loc : Location)
  deriving DecidableEq, Repr

namespace Event

/-- A log record as an event. -/
def record (severity : Int) (message : String) (attrs : List LogAttr) : Event :=
  .log { severity, message := lit message, attrs }

/-- An attribute with a text. -/
def text (key : String) (t : Text) : LogAttr := (lit key, .text t)

/-- An attribute with a count. -/
def count (key : String) (n : Nat) : LogAttr := (lit key, .int n)

/-- What a console writes for an event. -/
def consoleText (c : Console) : Event → ConsoleText
  | .log r => c.write r
  | _ => {}

/-- The lines that a console gets for events. -/
def console (c : Console) (es : List Event) : ConsoleText where
  out := es.flatMap fun e => (e.consoleText c).out
  err := es.flatMap fun e => (e.consoleText c).err

/-- The raw marker trace among events. -/
def rawTrace (es : List Event) : Text :=
  es.flatMap fun e =>
    match e with
    | .trace line => line
    | _ => []

/-- The steps of progress among events. -/
def steps (es : List Event) : List Progress :=
  es.filterMap fun e =>
    match e with
    | .progress p => some p
    | _ => none

/-- The trace of a scanned file as events. -/
def ofScan (path : Text) (s : Scan) : List Event :=
  s.trace.map fun l => .trace (Scan.traceLine path l.number l.marker.kind.name l.text)

end Event

end ReflectGen
