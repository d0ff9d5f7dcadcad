import ReflectGen.Run.Setup
import ReflectGen.Run.Event
import ReflectGen.Metadata

/-!
# Collecting the records of a tree

Every candidate file below the root is scanned.  A file with a failure is left out of the record
set, and its failures are collected.

* `FileScan`, `Run.scanFile`: the scan of one file.
* `Run.collect`: the scan of all candidate files.
-/

namespace ReflectGen

/-- The scan of a file: what was found, and what is wrong with the file. -/
structure FileScan where
  scan : Scan
  failures : List Failure
  deriving DecidableEq, Repr

/-- A scan that has found nothing. -/
def Scan.none : Scan := { records := [], diagnostics := [], trace := [], brokenOff := false }

/-- The failures of a scan: a line that is too long, or the diagnostics. -/
def Scan.failures (path : Text) (s : Scan) : List Failure :=
  if s.brokenOff then [.lineTooLong path] else s.diagnostics.map .diagnostic

/-- The scan of the file at a path. -/
def scanFile (tokens : Tokens) (t : FileTree) (path : Text) : FileScan :=
  match t.load path with
  | .error e => { scan := Scan.none, failures := [.unreadable path e] }
  | .ok content =>
    let s := Scan.run tokens path content
    { scan := s, failures := s.failures path }

/-- What scanning a tree has given. -/
structure Collection where
  /-- The record set; none if the tree could not be walked. -/
  metadata : Option Metadata
  failures : List Failure
  events : List Event
  deriving DecidableEq, Repr

namespace Run

/-- What the scan of one file tells. -/
def fileEvents (path : Text) (s : FileScan) : List Event :=
  Event.ofScan path s.scan ++ [.progress (.scanned path)] ++
    if s.failures.isEmpty then
      [Event.record Severity.debug "Scanned file"
        [Event.text "file" path, Event.count "types" s.scan.records.length]]
    else
      [Event.record Severity.error "Failed to scan file"
        [Event.text "file" path, Event.text "error" (Failure.messages s.failures)]]

/-- The record set with the records of a scanned file, unless it has failures. -/
def addScan (md : Metadata) (path : Text) (s : FileScan) : Metadata :=
  if s.failures.isEmpty then md.add path s.scan.records else md

/-- Scans files one after the other. -/
def scanFiles (run : Run) (t : FileTree) : List Text → Metadata →
    Metadata × List Failure × List Event
  | [], md => (md, [], [])
  | path :: paths, md =>
    let s := scanFile run.tokens t path
    let (md, failures, events) := scanFiles run t paths (addScan md path s)
    (md, s.failures ++ failures, fileEvents path s ++ events)

/-- Scans all candidate files below the root. -/
def collect (run : Run) (t : FileTree) : Collection :=
  match t.stat run.root with
  | .error e => { metadata := none, failures := [.rootUnknown e], events := [] }
  | .ok (_, .directory) =>
    let scanning := Event.record Severity.info "Scanning source tree" [Event.text "root" run.root]
    match Discovery.find t run.root run.included run.excluded with
    | .error e => { metadata := none, failures := [.undiscovered e], events := [scanning] }
    | .ok paths =>
      let (md, failures, events) := scanFiles run t paths (Metadata.empty run.root)
      { metadata := some md, failures,
        events :=
          [scanning,
            Event.record Severity.debug "Discovered candidate files"
              [Event.count "count" paths.length],
            .progress (.started paths.length)] ++ events ++
          [.progress .finished,
            Event.record Severity.info "Found reflectable types"
              [Event.count "files" md.paths.length, Event.count "types" md.typeCount]] }
  | .ok _ => { metadata := none, failures := [.rootNotDirectory run.root], events := [] }

end Run

end ReflectGen
