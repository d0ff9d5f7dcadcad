import ReflectGen.RecordSet
import ReflectGen.Run.Emit
import ReflectGen.Settings.Declared

/-!
# Commands

The commands of the program, each with what it is told and what it leaves behind.  One generates
reflection sources, one prints the record set of a tree, and one writes a configuration template:
every setting of a command with its default, and those of the log.

* `Outcome`: what a command leaves behind.
* `GenerateCommand.run`, `ScanCommand.run`, `InitCommand.run`: the commands.
* `Template.document`: the template of a command.
-/

namespace ReflectGen

/-- What a command leaves behind. -/
structure Outcome where
  tree : FileTree
  failures : List Failure := []
  events : List Event := []
  /-- What it prints besides log lines. -/
  output : Text := []
  deriving DecidableEq, Repr

/-- The tokens with standard ones for those that are empty. -/
def Tokens.withDefaults (t : Tokens) : Tokens where
  opening := if t.opening.isEmpty then Tokens.standard.opening else t.opening
  member := if t.member.isEmpty then Tokens.standard.member else t.member
  closing := if t.closing.isEmpty then Tokens.standard.closing else t.closing

/-! ## Generating reflection sources -/

/-- What the command that generates reflection sources is told. -/
structure GenerateCommand where
  root : Text
  included : List Text := []
  excluded : List Text := []
  tokens : Tokens
  options : EmitOptions
  check : Bool := false
  dryRun : Bool := false
  deriving DecidableEq, Repr

namespace GenerateCommand

/-- The mode that the command asks for. -/
def mode (c : GenerateCommand) : Mode :=
  if c.check then .check else if c.dryRun then .dryRun else .write

/-- The run that the command asks for: what is left empty has its standard value. -/
def request (c : GenerateCommand) (version : Text) : Run where
  root := c.root
  included := c.included
  excluded := c.excluded
  tokens := c.tokens.withDefaults
  options := c.options.withDefaults
  mode := c.mode
  version := version

/-- How many artifacts have one of these statuses? -/
def tally (artifacts : List Artifact) (statuses : List Status) : Nat :=
  (artifacts.filter fun a => statuses.contains a.status).length

/-- The last log record, with the number of artifacts of each kind. -/
def summary (artifacts : List Artifact) : Event :=
  Event.record Severity.info "Reflection code generation finished"
    [Event.count "files" artifacts.length,
      Event.count "written" (tally artifacts [.written]),
      Event.count "upToDate" (tally artifacts [.upToDate]),
      Event.count "stale" (tally artifacts [.stale]),
      Event.count "failed" (tally artifacts [.failed, .collision, .duplicate])]

/-- Runs the command; what it tells goes to the log files of `journal`. -/
def run (c : GenerateCommand) (version : Text) (journal : Journal) (t : FileTree) : Outcome :=
  if c.check && c.dryRun then { tree := t, failures := [.checkWithDryRun] }
  else
    let start := Event.record Severity.info "Starting reflection code generation"
      [Event.text "root" c.root, Event.text "mode" c.mode.name]
    match (c.request version).prepare with
    | .error f => { tree := t, failures := [f], events := [start] }
    | .ok run =>
      let (t, e) := run.generateWith (fun es => journal (start :: es)) t
      { tree := t, failures := e.failures, events := start :: e.events ++ [summary e.artifacts] }

end GenerateCommand

/-! ## Printing the record set -/

/-- What the command that prints a record set is told. -/
structure ScanCommand where
  root : Text
  included : List Text := []
  excluded : List Text := []
  tokens : Tokens
  format : Text
  /-- The file to write to; none if it is empty. -/
  output : Text := []
  suffix : Text := []
  deriving DecidableEq, Repr

namespace ScanCommand

/-- The run that the command asks for: tokens left empty are the standard ones. -/
def request (c : ScanCommand) (version : Text) : Run where
  root := c.root
  included := c.included
  excluded := c.excluded
  tokens := c.tokens.withDefaults
  options := EmitOptions.standard
  mode := .write
  version := version

/-- The suffix of generated files. -/
def outputSuffix (c : ScanCommand) : Text := EmitOptions.orElse c.suffix EmitOptions.standard.suffix

/-- Runs the command: the record set goes to a file or to the output. -/
def run (c : ScanCommand) (version : Text) (t : FileTree) : Outcome :=
  match (c.request version).prepare with
  | .error f => { tree := t, failures := [f] }
  | .ok run =>
    let found := run.collect t
    match found.metadata with
    | none => { tree := t, failures := found.failures, events := found.events }
    | some md =>
      match Format.ofWord? c.format with
      | none => { tree := t, failures := [.unsupportedFormat c.format], events := found.events }
      | some format =>
        let text := md.dump c.outputSuffix format
        if c.output.isEmpty then
          { tree := t, failures := found.failures, events := found.events, output := text }
        else
          match t.storeAt c.output text with
          | .error e =>
            { tree := t, failures := [.recordSetUnwritten c.output e], events := found.events }
          | .ok (loc, t) =>
            { tree := t, failures := found.failures,
              events := found.events ++ [.stored loc, Event.record Severity.info "Wrote record set"
                [Event.text "file" c.output, Event.text "format" c.format]] }

end ScanCommand

/-! ## Writing a configuration template -/

namespace Template

/-- The sections in the template of a command; without a name it is the command that generates. -/
def sections? (command : Text) : Option (List Section) :=
  if command == lit "generate" || command.isEmpty then some (Settings.generate ++ [Settings.log])
  else if command == lit "scan" then some (Settings.scan ++ [Settings.log])
  else none

/-- The template of a command. -/
def document (command : Text) : Except Failure Document :=
  match sections? command with
  | some ss => .ok (Section.document ss)
  | none => .error .unknownCommand

/-- The template of a command in the format with the given name. -/
def text (command format : Text) : Except Failure Text :=
  match document command with
  | .error f => .error f
  | .ok d =>
    match Format.ofName? format with
    | some f => .ok (f.write d)
    | none => .error (.unsupportedFormat format)

end Template

/-- What the command that writes a template is told. -/
structure InitCommand where
  command : Text := []
  format : Text
  /-- The file to write; if it is empty, a hidden file in the working directory. -/
  output : Text := []
  force : Bool := false
  deriving DecidableEq, Repr

namespace InitCommand

/-- The file that the template goes to. -/
def destination (c : InitCommand) (f : Format) : Text :=
  if c.output.isEmpty then lit "." ++ programName ++ lit "." ++ f.name else c.output

/-- Runs the command.  An existing file is replaced only by force. -/
def run (c : InitCommand) (t : FileTree) : Outcome :=
  match Format.ofWord? c.format with
  | none => { tree := t, failures := [.unsupportedFormat c.format] }
  | some format =>
    match Template.document c.command with
    | .error f => { tree := t, failures := [f] }
    | .ok d =>
      let path := c.destination format
      if !c.force && (t.stat path).isOk then { tree := t, failures := [.destinationExists] }
      else
        match t.ensureDirectory path with
        | .error e => { tree := t, failures := [.access e] }
        | .ok t =>
          match t.storeAt path (format.write d) with
          | .error e => { tree := t, failures := [.access e] }
          | .ok (loc, t) => { tree := t, events := [.stored loc] }

end InitCommand

end ReflectGen
