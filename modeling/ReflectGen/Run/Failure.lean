import ReflectGen.Diagnostic
import ReflectGen.Discovery
import ReflectGen.Naming

/-!
# Failures of a run

A run does not stop at its first failure: it collects them.  Each constructor records the facts;
the wording is in `Failure.message`.
-/

namespace ReflectGen

/-- What can go wrong in a run or a command. -/
inductive Failure where
  /-- A marker line that does not fit. -/
  | diagnostic (d : Diagnostic)
  /-- A source file with a line that is too long to be read. -/
  | lineTooLong (path : Text)
  /-- A source file that cannot be opened or read. -/
  | unreadable (path : Text) (e : AccessError)
  /-- Several sources from which the same output path is derived. -/
  | collision (output : Text) (sources : List Text)
  /-- A source with a type or variable that is defined more than once. -/
  | duplicate (source : Text) (details : List Text)
  /-- A generated file that is missing, unreadable or outdated. -/
  | stale (output reason : Text)
  /-- A generated file whose source has no markers any more. -/
  | orphaned (output source : Text)
  /-- A generated file that cannot be written. -/
  | unwritten (output : Text) (e : AccessError)
  /-- A version that cannot be put into generated files. -/
  | unversioned (e : VersionError)
  | rootEmpty
  | rootUnknown (e : AccessError)
  | rootNotDirectory (root : Text)
  | badTokens (e : TokenError)
  | undiscovered (e : DiscoveryError)
  | checkWithDryRun
  | unsupportedFormat (format : Text)
  /-- A record set that cannot be written to the file asked for. -/
  | recordSetUnwritten (path : Text) (e : AccessError)
  | unknownCommand
  | destinationExists
  /-- A file operation of a command itself. -/
  | access (e : AccessError)
  | badVersion (e : VersionError)
  deriving DecidableEq, Repr

/-- Texts between square brackets, separated by spaces. -/
def bracketed (ts : List Text) : Text := lit "[" ++ Text.join (lit " ") ts ++ lit "]"

namespace Failure

/-- What is said about a failure. -/
def message : Failure → Text
  | .diagnostic d => d.message
  | .lineTooLong path => lit "read " ++ path ++ lit ": bufio.Scanner: token too long"
  | .unreadable path e => e.action.text ++ lit " " ++ path ++ lit ": " ++ e.message
  | .collision output sources =>
    lit "output path collision: " ++ output ++ lit " is derived from " ++ bracketed sources
  | .duplicate source details =>
    lit "duplicate type: " ++ source ++ lit ": " ++ Text.join (lit "; ") details
  | .stale output reason => lit "generated file is stale: " ++ output ++ lit ": " ++ reason
  | .orphaned output source =>
    lit "generated file is stale: " ++ output ++ lit ": " ++ source ++ lit " has no markers"
  | .unwritten output e => lit "write failure: " ++ output ++ lit ": " ++ e.message
  | .unversioned e => lit "get version: " ++ e.message
  | .rootEmpty => lit "root directory is empty"
  | .rootUnknown e => lit "root directory: " ++ e.message
  | .rootNotDirectory root => lit "root " ++ root ++ lit " is not a directory"
  | .badTokens e => lit "create scanner: " ++ e.message
  | .undiscovered e => e.message
  | .checkWithDryRun => lit "--check and --dry-run are mutually exclusive"
  | .unsupportedFormat format => lit "unsupported format: " ++ format
  | .recordSetUnwritten path e => lit "write " ++ path ++ lit ": " ++ e.message
  | .unknownCommand => lit "unknown command; expected 'generate' or 'scan'"
  | .destinationExists => lit "destination exists; use --force to overwrite"
  | .access e => e.message
  | .badVersion e => e.message

/-- The failed file operation behind a failure, if there is one. -/
def access? : Failure → Option AccessError
  | .unreadable _ e => some e
  | .unwritten _ e => some e
  | .rootUnknown e => some e
  | .undiscovered (.walk _ e) => some e
  | .recordSetUnwritten _ e => some e
  | .access e => some e
  | _ => none

/-- The messages of several failures, one to a line. -/
def messages (fs : List Failure) : Text := Text.join [0x0A] (fs.map message)

end Failure

end ReflectGen
