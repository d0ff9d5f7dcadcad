import ReflectGen.Run.Failure
import ReflectGen.Emission.Options
import ReflectGen.Naming

/-!
# What a run is asked to do

A request holds what a caller asks for; `Run.prepare` checks it and fills in what may be left out.
-/

namespace ReflectGen

/-- What happens to generated sources. -/
inductive Mode where
  /-- They are written. -/
  | write
  /-- They are compared with the files there are. -/
  | check
  /-- They are only announced. -/
  | dryRun
  deriving DecidableEq, Repr

/-- The word for a mode. -/
def Mode.name : Mode → Text
  | .write => lit "write"
  | .check => lit "check"
  | .dryRun => lit "dry-run"

/-- The patterns of the files that are scanned if none are given. -/
def standardIncludes : List Text :=
  [lit "**/*.h", lit "**/*.hpp", lit "**/*.hh", lit "**/*.cpp", lit "**/*.cxx", lit "**/*.cc"]

/-- The patterns of the files that are skipped if none are given: generated files and the
administrative directory of a version control system. -/
def standardExcludes : List Text := [lit "**/*_reflection.cpp", lit ".git/**"]

/-- A run over the sources below a root directory. -/
structure Run where
  root : Text
  included : List Text
  excluded : List Text
  tokens : Tokens
  options : EmitOptions
  mode : Mode
  /-- The version that the build declares. -/
  version : Text
  deriving DecidableEq, Repr

namespace Run

/-- The run that a request describes: the root is normalised and must not be empty, no include
patterns and an empty suffix mean the standard ones, and the tokens must be usable. -/
def prepare (request : Run) : Except Failure Run :=
  let run : Run := { request with
    root := normalizeRoot request.root
    included := if request.included.isEmpty then standardIncludes else request.included
    options := { request.options with
      suffix := EmitOptions.orElse request.options.suffix EmitOptions.standard.suffix } }
  if run.root.isEmpty then .error .rootEmpty
  else
    match run.tokens.error? with
    | some e => .error (.badTokens e)
    | none => .ok run

/-- The output path of a source. -/
def output (run : Run) (source : Text) : Text := outputPath source run.options.suffix

end Run

end ReflectGen
