import ReflectGen.CommandLine.Effective
import ReflectGen.Command
import ReflectGen.Config.Candidates
import ReflectGen.Config.Variables

/-!
# The program

One call of the program: it reads configuration files, the command line and the environment, sets
up its logs, and runs a command on a file tree.

* `Call`: the words, the environment and the version of a call.
* `Ending`: exit code, output, error output and the file tree afterwards.
* `Call.run`: the whole of it.
-/

namespace ReflectGen

/-- A call of the program. -/
structure Call where
  words : List Text
  environment : Environment
  /-- The home directory of the user's account, which `~/` stands for.  The environment may name
  another one for configuration. -/
  home : Text
  /-- The version that the build declares. -/
  version : Text := []
  deriving Repr

/-- How a call ends. -/
structure Ending where
  exitCode : Nat
  output : Text := []
  errors : Text := []
  tree : FileTree
  deriving Repr

/-- The exit code for a command line that cannot be used. -/
def usageCode : Nat := 80

/-- The exit code when configuration or logs cannot be set up. -/
def setupCode : Nat := 2

/-- An error message: further lines are indented to the width of what stands in front of the
first. -/
def errorText (message : Text) : Text :=
  let lead := programName ++ lit ": error: "
  let lines := Text.splitOn 0x0A (Text.trimRightBy (· == 0x0A) message)
  match lines with
  | [] => []
  | first :: rest =>
    lead ++ first ++ [0x0A] ++
      rest.flatMap fun l => List.replicate lead.length 0x20 ++ l ++ [0x0A]

/-- A short description of commands and flags. -/
def usageText (c : CommandName) : Text :=
  lit "Usage: " ++ programName ++ lit " <command> [flags]\n\nCommands:\n" ++
    (CommandName.program.children.flatMap fun x => lit "  " ++ x.1 ++ lit "\n") ++
    lit "\nFlags:\n" ++ (Flag.accepted c).flatMap fun f => lit "  " ++ f.written ++ lit "\n"

namespace Call

/-- The value of an environment variable; empty if it is not set. -/
def variableText (c : Call) (name : String) : Text := (c.environment.lookup (lit name)).getD []

/-- What paths on the command line are read against. -/
def surroundings (c : Call) (t : FileTree) : Surroundings where
  workdir := t.workdirPath
  home := c.home

/-- The configuration file that the command line names. -/
def namedConfig? : List Text → Option Text
  | [] => none
  | w :: ws =>
    match Text.after? (lit "--config=") w with
    | some path => some path
    | none =>
      match w == lit "--config", ws with
      | true, path :: _ => some path
      | _, _ => namedConfig? ws

/-- The configuration file that the user names; empty if there is none. -/
def userConfig (c : Call) : Text := (namedConfig? c.words).getD (c.variableText "VXREFL_CONFIG")

/-- The candidates for configuration files. -/
def candidates (c : Call) (t : FileTree) : Candidates :=
  Candidates.all c.userConfig t.workdirPath
    { home := c.variableText "HOME", configHome := c.variableText "XDG_CONFIG_HOME" }

/-- The configuration in the file at an absolute path; the variables in the path are replaced
first. -/
def loadFile (t : FileTree) (format : Format) (path : Text) : Option ConfigFile :=
  match Config.expandedPath? path with
  | none => none
  | some path =>
    match t.load path with
    | .ok content => ConfigFile.read format content
    | .error _ => none

/-- Reads the configuration files of a format that exist; nothing if one of them is of no use. -/
def loadFiles (around : Surroundings) (t : FileTree) (format : Format) :
    List Text → Option (List ConfigFile)
  | [] => some []
  | path :: paths =>
    match t.stat (around.absolute path) with
    | .error e => if e.reason == .notExist then loadFiles around t format paths else none
    | .ok _ =>
      match loadFile t format (around.absolute path) with
      | none => none
      | some f => (loadFiles around t format paths).map (f :: ·)

/-- Reads all configuration files, those that count more behind the others. -/
def configFiles (c : Call) (t : FileTree) : Option (List ConfigFile) := do
  let around := c.surroundings t
  let cs := c.candidates t
  let json ← loadFiles around t .json cs.json
  let yaml ← loadFiles around t .yaml cs.yaml
  let toml ← loadFiles around t .toml cs.toml
  some (json ++ yaml ++ toml)

end Call

/-- The settings of a call that are in effect. -/
structure Effective where
  invocation : Invocation
  layers : List Values
  deriving Repr

namespace Effective

/-- The value of the flag with this name that a command has. -/
def value (e : Effective) (owner : CommandName) (name : String) : SettingValue :=
  match (Flag.own owner).find? (·.name == lit name) with
  | some f => Values.value e.layers f
  | none => .text []

/-- The text of a flag. -/
def text (e : Effective) (owner : CommandName) (name : String) : Text :=
  Values.textOf (e.value owner name)

/-- The items of a flag. -/
def items (e : Effective) (owner : CommandName) (name : String) : List Text :=
  Values.itemsOf (e.value owner name)

/-- Is a flag on? -/
def isOn (e : Effective) (owner : CommandName) (name : String) : Bool :=
  Values.truthValue (e.value owner name)

/-- The argument of the command. -/
def argument (e : Effective) : Text := e.invocation.argument.getD []

/-- The marker tokens for a command. -/
def tokens (e : Effective) (owner : CommandName) : Tokens where
  opening := e.text owner "token.begin"
  member := e.text owner "token.data"
  closing := e.text owner "token.end"

/-- The names for generated sources. -/
def options (e : Effective) : EmitOptions where
  suffix := e.text .generate "emit.suffix"
  globalPrefix := e.text .generate "emit.global-prefix"
  nameSpace := e.text .generate "emit.namespace"
  hashFunc := e.text .generate "emit.hash-func"
  hashType := e.text .generate "emit.hash-type"
  idField := e.text .generate "emit.id-field"
  includes := e.items .generate "emit.includes"

/-- The command that generates sources. -/
def generateCommand (e : Effective) : GenerateCommand where
  root := e.argument
  included := e.items .generate "include"
  excluded := e.items .generate "exclude"
  tokens := e.tokens .generate
  options := e.options
  check := e.isOn .generate "check"
  dryRun := e.isOn .generate "dry-run"

/-- The command that prints a record set. -/
def scanCommand (e : Effective) : ScanCommand where
  root := e.argument
  included := e.items .scan "include"
  excluded := e.items .scan "exclude"
  tokens := e.tokens .scan
  format := e.text .scan "format"
  output := e.text .scan "output"
  suffix := e.text .scan "suffix"

/-- The command that writes a template. -/
def initCommand (e : Effective) : InitCommand where
  command := e.invocation.argument.getD (lit "generate")
  format := e.text .configInit "format"
  output := e.text .configInit "output"
  force := e.isOn .configInit "force"

/-- Runs the command; what it tells goes to the log files of `journal`. -/
def run (e : Effective) (version : Text) (journal : Journal) (t : FileTree) : Outcome :=
  match e.invocation.command with
  | .scan => e.scanCommand.run version t
  | .configInit => e.initCommand.run t
  | .version =>
    match Version.resolve version with
    | .ok v => { tree := t, output := Version.report v }
    | .error err => { tree := t, failures := [.badVersion err] }
  | _ => e.generateCommand.run version journal t

end Effective

/-! ## Logs -/

/-- Where log lines and the raw trace of a call go. -/
structure LogSetup where
  /-- The least severity. -/
  level : Int
  /-- The file for log lines. -/
  file : Option Location := none
  /-- The file for the raw trace. -/
  rawFile : Option Location := none
  /-- Does the raw trace go to the output? -/
  rawToOutput : Bool := false
  deriving DecidableEq, Repr

namespace LogSetup

/-- The line of a record for one stream that takes all severities. -/
def plainLine (s : LogSetup) (r : LogRecord) : Text :=
  if s.level ≤ r.severity then r.line {} else []

/-- What an event writes to the output. -/
def toOutput (s : LogSetup) : Event → Text
  | .log r => if s.file.isNone then (Console.write { level := s.level } r).out else []
  | .trace line => if s.rawToOutput then line else []
  | _ => []

/-- What an event writes to the error output. -/
def toErrors (s : LogSetup) : Event → Text
  | .log r => if s.file.isNone then (Console.write { level := s.level } r).err else s.plainLine r
  | _ => []

/-- What an event writes to the log file. -/
def toFile (s : LogSetup) : Event → Text
  | .log r => s.plainLine r
  | _ => []

/-- What an event writes to the file for the raw trace. -/
def toRawFile : Event → Text
  | .trace line => line
  | _ => []

/-- What the log files leave in a tree. -/
def journal (s : LogSetup) : Journal :=
  Journal.ofFiles
    ((s.file.toList.map fun loc => { location := loc, text := s.toFile }) ++
      s.rawFile.toList.map fun loc => { location := loc, text := toRawFile })

end LogSetup

namespace Effective

/-- Opens a file for a log: it is empty from then on.  Without a path there is none. -/
def openLog (t : FileTree) (path : Text) : Except AccessError (Option Location × FileTree) :=
  if path.isEmpty then .ok (none, t)
  else (t.storeAt path []).map fun (loc, t) => (some loc, t)

/-- Opens the logs of a call.  A file for the trace that cannot be opened is reported. -/
def setUpLogs (e : Effective) (t : FileTree) :
    Except AccessError (LogSetup × FileTree × List Event) := do
  let word := e.text .program "log.level"
  let path := e.text .program "log.raw-file"
  let (file, t) ← openLog t (e.text .program "log.file")
  let setup : LogSetup :=
    { level := Severity.ofWord word, file, rawToOutput := path.isEmpty && word == lit "trace" }
  match openLog t path with
  | .ok (rawFile, t) => .ok ({ setup with rawFile }, t, [])
  | .error err =>
    .ok (setup, t,
      [Event.record Severity.error "failed to open raw log file"
        [Event.text "file" path, Event.text "error" err.message]])

/-- Runs the command with its logs. -/
def perform (e : Effective) (version : Text) (t : FileTree) : Ending :=
  match e.setUpLogs t with
  | .error err =>
    { exitCode := setupCode, tree := t
      errors := lit "failed to setup logger: " ++ err.message ++ [0x0A] }
  | .ok (logs, t, before) =>
    let o := e.run version (fun es => logs.journal (before ++ es)) t
    let events := before ++ o.events
    { exitCode := if o.failures.isEmpty then 0 else 1
      output := events.flatMap logs.toOutput ++ o.output
      errors := events.flatMap logs.toErrors ++
        if o.failures.isEmpty then [] else errorText (Failure.messages o.failures)
      tree := logs.journal events o.tree }

end Effective

namespace Call

/-- The end of a call that shows how the program is used. -/
def misused (t : FileTree) (command : CommandName) (exitCode : Nat) (message : Text) : Ending where
  exitCode := exitCode
  output := usageText command
  errors := errorText message
  tree := t

/-- Runs a call.  The configuration files are read first; then the command line, the environment and
the files are put together, and what they say is checked. -/
def run (c : Call) (t : FileTree) : Ending :=
  match c.configFiles t with
  | none => { exitCode := setupCode, tree := t }
  | some files =>
    let around := c.surroundings t
    match Invocation.read around c.words with
    | .error e => misused t .program usageCode e.message
    | .ok i =>
      if i.asksForHelp then { exitCode := 0, output := usageText i.command, tree := t }
      else
        match Values.initial around c.environment Flag.all with
        | .error m => misused t i.command 1 m
        | .ok initial =>
          match Values.configured around files i ((Values.trail i.command).flatMap Flag.own) with
          | .error m => misused t i.command 1 m
          | .ok configured =>
            let layers := [i.given, configured, initial]
            match Values.invalid? layers i with
            | some m => misused t i.command usageCode m
            | none =>
              match Values.missing? i with
              | some m => misused t i.command usageCode m
              | none => Effective.perform { invocation := i, layers } c.version t

end Call

end ReflectGen
