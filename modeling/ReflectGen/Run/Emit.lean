import ReflectGen.Run.Collect
import ReflectGen.Run.Clash
import ReflectGen.Run.LogFile
import ReflectGen.Emission.Render
import ReflectGen.Digest

/-!
# Emitting reflection sources

For every file with records one reflection source is rendered and then written, compared with the
file there is, or only announced.  A source that clashes with another one is refused.  In a check,
files without records are looked at too: a generated file that is left over from one is stale.

* `Artifact`: what became of one source.
* `Run.emitSource`: one source; `Run.emitSources`: several of them, one after the other.
* `Run.orphan?`: the left-over output of a file without records.
* `Run.emit`: all sources of a record set.
-/

namespace ReflectGen

/-- What became of a source. -/
inductive Status where
  | written
  | upToDate
  | stale
  | dryRun
  | collision
  | duplicate
  | failed
  deriving DecidableEq, Repr

/-- The word for a status. -/
def Status.name : Status → Text
  | .written => lit "written"
  | .upToDate => lit "up-to-date"
  | .stale => lit "stale"
  | .dryRun => lit "dry-run"
  | .collision => lit "collision"
  | .duplicate => lit "duplicate"
  | .failed => lit "failed"

/-- The outcome for one generated file. -/
structure Artifact where
  source : Text
  output : Text
  types : Nat
  /-- The digest of the rendered text; empty if there is none. -/
  digest : Text
  status : Status
  deriving DecidableEq, Repr

/-- What a step of emission gives. -/
structure Emission where
  artifacts : List Artifact := []
  failures : List Failure := []
  events : List Event := []
  deriving DecidableEq, Repr

/-- One emission followed by another. -/
def Emission.append (a b : Emission) : Emission where
  artifacts := a.artifacts ++ b.artifacts
  failures := a.failures ++ b.failures
  events := a.events ++ b.events

namespace Run

/-- The refusal of a source because of a clash. -/
def refuse (a : Artifact) (f : Failure) : Emission where
  artifacts := [a]
  failures := [f]
  events := [Event.record Severity.error "Refusing to generate file"
    [Event.text "source" a.source, Event.text "error" f.message]]

/-- Announces a rendered source. -/
def announce (a : Artifact) : Emission where
  artifacts := [{ a with status := .dryRun }]
  events := [Event.record Severity.info "Would generate reflection source"
    [Event.text "source" a.source, Event.text "output" a.output, Event.count "types" a.types,
      Event.text "digest" a.digest]]

/-- Why the file at the output path is not the rendered text; nothing if it is. -/
def staleReason? (t : FileTree) (a : Artifact) (content : Text) : Option Text :=
  match t.load a.output with
  | .error e => some e.message
  | .ok existing =>
    if existing == content then none
    else some (lit "content differs (have " ++ Digest.ofContent existing ++ lit ", want " ++
      a.digest ++ lit ")")

/-- Compares a rendered source with the file there is. -/
def checkOutput (t : FileTree) (a : Artifact) (content : Text) : Emission :=
  match staleReason? t a content with
  | none =>
    { artifacts := [{ a with status := .upToDate }]
      events := [Event.record Severity.debug "Reflection source is up to date"
        [Event.text "output" a.output]] }
  | some reason =>
    { artifacts := [{ a with status := .stale }]
      failures := [.stale a.output reason]
      events := [Event.record Severity.warn "Reflection source is stale"
        [Event.text "output" a.output, Event.text "reason" reason]] }

/-- Writes a rendered source. -/
def writeOutput (t : FileTree) (a : Artifact) (content : Text) : FileTree × Emission :=
  match t.storeAt a.output content with
  | .ok (loc, t) =>
    (t, { artifacts := [{ a with status := .written }]
          events := [.stored loc, Event.record Severity.info "Generated reflection source"
            [Event.text "source" a.source, Event.text "output" a.output,
              Event.count "types" a.types]] })
  | .error e =>
    let f : Failure := .unwritten a.output e
    (t, { artifacts := [{ a with status := .failed }]
          failures := [f]
          events := [Event.record Severity.error "Failed to write reflection source"
            [Event.text "output" a.output, Event.text "error" f.message]] })

/-- Emits the reflection source of one file. -/
def emitSource (run : Run) (md : Metadata) (t : FileTree) (source : Text)
    (records : List TypeRecord) : FileTree × Emission :=
  let a : Artifact :=
    { source, output := run.output source, types := records.length, digest := [],
      status := .failed }
  let claimants := md.claimants run.options.suffix a.output
  let details := Clash.messages run.options.globalPrefix md.sites source
  if 2 ≤ claimants.length then
    (t, refuse { a with status := .collision } (.collision a.output claimants))
  else if !details.isEmpty then
    (t, refuse { a with status := .duplicate } (.duplicate source details))
  else
    match render run.version source records run.options with
    | .error e => (t, { artifacts := [a], failures := [.unversioned e] })
    | .ok content =>
      let a := { a with digest := Digest.ofContent content }
      match run.mode with
      | .dryRun => (t, announce a)
      | .check => (t, checkOutput t a content)
      | .write => writeOutput t a content

/-- Emits the reflection sources of several files, one after the other. -/
def emitSources (run : Run) (md : Metadata) : FileTree → List (Text × List TypeRecord) →
    FileTree × Emission
  | t, [] => (t, {})
  | t, (source, records) :: files =>
    let (t, first) := run.emitSource md t source records
    let (t, rest) := emitSources run md t files
    (t, first.append rest)

/-- The report on the output of a file without records, if it exists and no source with records
claims it. -/
def orphan? (run : Run) (md : Metadata) (t : FileTree) (source : Text) : Option Emission :=
  let output := run.output source
  if !(md.claimants run.options.suffix output).isEmpty then none
  else
    match t.stat output with
    | .error _ => none
    | .ok _ =>
      some
        { artifacts := [{ source, output, types := 0, digest := [], status := .stale }]
          failures := [.orphaned output source]
          events := [Event.record Severity.warn "Reflection source has no annotated source"
            [Event.text "output" output, Event.text "source" source]] }

/-- The reports on left-over outputs, which only a check makes. -/
def orphans (run : Run) (md : Metadata) (t : FileTree) : Emission :=
  match run.mode with
  | .check => (md.unannotated.filterMap (run.orphan? md t)).foldr Emission.append {}
  | _ => {}

/-- The order of artifacts in a result. -/
def bySource (a b : Artifact) : Bool := Text.le a.source b.source

/-- Emits the reflection sources of a record set; the artifacts are sorted by source. -/
def emit (run : Run) (t : FileTree) (md : Metadata) : FileTree × Emission :=
  let (t, sources) := run.emitSources md t md.files
  let all := sources.append (run.orphans md t)
  (t, { all with artifacts := all.artifacts.mergeSort bySource })

/-- Scans the tree and emits what was found.  In between, what has been told so far goes to the log
files, because a check may look at them. -/
def generateWith (journal : Journal) (run : Run) (t : FileTree) : FileTree × Emission :=
  let c := run.collect t
  match c.metadata with
  | none => (t, { failures := c.failures, events := c.events })
  | some md =>
    let (t, e) := run.emit (journal c.events t) md
    (t, Emission.append { failures := c.failures, events := c.events } e)

/-- Scans the tree and emits what was found. -/
def generate (run : Run) (t : FileTree) : FileTree × Emission := run.generateWith Journal.none t

end Run

/-- Writes the reflection source of one file to the given output; without records nothing is
written. -/
def writeReflection (version : Text) (t : FileTree) (output source : Text)
    (records : List TypeRecord) (o : EmitOptions) : FileTree × List Failure × List Event :=
  if records.isEmpty then (t, [], [])
  else
    match render version source records o with
    | .error e => (t, [.unversioned e], [])
    | .ok content =>
      match t.store output content with
      | .error e => (t, [.unwritten output e], [])
      | .ok t =>
        (t, [], [Event.record Severity.debug "Generated reflection source"
          [Event.text "source" source, Event.text "output" output,
            Event.count "types" records.length]])

end ReflectGen
