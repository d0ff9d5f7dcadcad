import ReflectGen.Marker.Classify
import ReflectGen.Metadata
import ReflectGen.Diagnostic

/-!
# Scanning a source text

A source text is read line by line.  The marker lines of a well-formed text come in blocks: an
opening marker for a type, markers for its members, and a closing marker for the same type.  The
scan follows the blocks with one pending block at most; what does not fit is reported, and the
scan goes on.

* `Source.lines`, `Source.readable`: the lines of a text, and those up to the first line that is
  too long to be read.
* `Scan.markers`: the numbered marker lines.
* `Scan.step`, `Scan.finish`: what one marker line does to the pending block, and what the end of
  the text does.
* `Scan.run`: records, diagnostics and the trace of marker lines.
-/

namespace ReflectGen

namespace Source

/-- Lines of this many bytes or more are not read. -/
def maxLine : Nat := 1048576

/-- The lines of a text, without their line feeds; a line feed at the end starts no new line. -/
def lines (t : Text) : List Text :=
  let ls := Text.splitOn 0x0A t
  if ls.getLast? == some [] then ls.dropLast else ls

/-- Can the line be read? -/
def isReadable (line : Text) : Bool := line.length < maxLine

/-- The lines in front of the first one that cannot be read. -/
def readable (t : Text) : List Text := (lines t).takeWhile isReadable

/-- Can all lines of the text be read? -/
def isComplete (t : Text) : Bool := (lines t).all isReadable

/-- The line without the carriage returns at its end. -/
def stripReturns (line : Text) : Text := Text.trimRightBy (· == 0x0D) line

end Source

/-- A marker line: its number, its text and the marker on it. -/
structure MarkerLine where
  number : Nat
  text : Text
  marker : Marker
  deriving DecidableEq, Repr

/-- The block that is being collected. -/
structure Block where
  parent : Text
  line : Nat
  /-- The members so far, the last one first. -/
  members : List Member
  deriving DecidableEq, Repr

namespace Scan

/-- What a scan has found so far; both lists have the last entry first. -/
structure State where
  records : List TypeRecord := []
  diagnostics : List Diagnostic := []
  block : Option Block := none
  deriving DecidableEq, Repr

/-- The number of arguments as it is reported: a single empty argument counts as none. -/
def countArgs (args : List Text) : Nat := if args == [[]] then 0 else args.length

/-- The state with one more diagnostic. -/
def State.report (s : State) (path : Text) (line : Nat) (cause : Cause) : State :=
  { s with diagnostics := { path, line, cause } :: s.diagnostics }

/-- The effect of an opening marker for `name`: a pending block is dropped. -/
def openBlock (path : Text) (s : State) (n : Nat) (name : Text) : State :=
  let s := match s.block with
    | some b => s.report path b.line (.dropped b.parent name n)
    | none => s
  { s with block := some { parent := name, line := n, members := [] } }

/-- The effect of a member marker with three non-empty arguments. -/
def addMember (path : Text) (s : State) (n : Nat) (parent valueType name : Text) : State :=
  match s.block with
  | none => s.report path n (.stray name parent)
  | some b =>
    if parent == b.parent then
      let m : Member := { parent, valueType, name, line := n }
      { s with block := some { b with members := m :: b.members } }
    else s.report path n (.foreignMember name parent b.parent)

/-- The effect of a closing marker for `name`: the pending block ends, as a record if the names
agree. -/
def closeBlock (path : Text) (s : State) (n : Nat) (name : Text) : State :=
  match s.block with
  | none => s.report path n (.dangling name)
  | some b =>
    if name == b.parent then
      let r : TypeRecord := { name, line := n, members := b.members.reverse }
      { s with records := r :: s.records, block := none }
    else { s.report path n (.foreignEnd name b.parent b.line) with block := none }

/-- The effect of one marker line. -/
def step (path : Text) (s : State) (l : MarkerLine) : State :=
  if !l.marker.closed then s.report path l.number (.unclosed l.marker.kind)
  else
    match l.marker.kind, l.marker.args with
    | .opening, [name] =>
      if name.isEmpty then s.report path l.number (.notOneName .opening 0)
      else openBlock path s l.number name
    | .opening, args => s.report path l.number (.notOneName .opening (countArgs args))
    | .member, [parent, valueType, name] =>
      if parent.isEmpty || valueType.isEmpty || name.isEmpty then
        s.report path l.number (.notThreeArguments [parent, valueType, name])
      else addMember path s l.number parent valueType name
    | .member, args => s.report path l.number (.notThreeArguments args)
    | .closing, [name] =>
      if name.isEmpty then s.report path l.number (.notOneName .closing 0)
      else closeBlock path s l.number name
    | .closing, args => s.report path l.number (.notOneName .closing (countArgs args))

/-- The end of the text: a block that is still pending is reported. -/
def finish (path : Text) (s : State) : State :=
  match s.block with
  | some b => s.report path b.line (.unfinished b.parent)
  | none => s

/-- The marker line with the given text and number, if the line is one. -/
def markerLine? (tokens : Tokens) (line : Text) (number : Nat) : Option MarkerLine :=
  let text := Source.stripReturns line
  (Marker.classify tokens text).map fun marker => { number, text, marker }

/-- The marker lines among `lines`, numbered from one. -/
def markers (tokens : Tokens) (lines : List Text) : List MarkerLine :=
  (lines.zipIdx 1).filterMap fun (line, n) => markerLine? tokens line n

/-- The state behind the given marker lines. -/
def states (path : Text) (ls : List MarkerLine) : State := ls.foldl (step path) {}

end Scan

/-- The outcome of a scan. -/
structure Scan where
  records : List TypeRecord
  /-- The diagnostics in the order in which they were found; none when reading broke off. -/
  diagnostics : List Diagnostic
  /-- The marker lines that were read. -/
  trace : List MarkerLine
  /-- Did reading break off at a line that is too long? -/
  brokenOff : Bool
  deriving DecidableEq, Repr

namespace Scan

/-- The line of the raw trace for a marker line: the kind is padded to five characters. -/
def traceLine (path : Text) (number : Int) (kind text : Text) : Text :=
  path ++ lit ":" ++ Text.ofInt number ++ lit " " ++ kind ++
    List.replicate (5 - kind.runes.length) 0x20 ++ lit " | " ++ text ++ [0x0A]

/-- Scans a text.  When a line is too long, reading breaks off, and the records closed before it
are all that is kept. -/
def run (tokens : Tokens) (path content : Text) : Scan :=
  let ls := markers tokens (Source.readable content)
  let s := states path ls
  if Source.isComplete content then
    let s := finish path s
    { records := s.records.reverse, diagnostics := s.diagnostics.reverse, trace := ls,
      brokenOff := false }
  else { records := s.records.reverse, diagnostics := [], trace := ls, brokenOff := true }

/-- The raw trace of a scan. -/
def rawTrace (path : Text) (s : Scan) : Text :=
  s.trace.flatMap fun l => traceLine path l.number l.marker.kind.name l.text

end Scan

end ReflectGen
