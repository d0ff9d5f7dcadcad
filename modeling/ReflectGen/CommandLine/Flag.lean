import ReflectGen.CommandLine.Value

/-!
# Commands and their flags

The commands form a tree: below the program itself there are the command that generates sources,
which is also meant when no command is named, the command that prints record sets, the commands
about configuration, and the one that prints the version.  A flag belongs to the program or to one
command, and is accepted there and below.
-/

namespace ReflectGen

/-- The commands, and the program itself. -/
inductive CommandName where
  | program
  | generate
  | scan
  | config
  | configInit
  | version
  deriving DecidableEq, Repr

namespace CommandName

/-- The words that lead to a command. -/
def path : CommandName → List Text
  | .program => []
  | .generate => [lit "generate"]
  | .scan => [lit "scan"]
  | .config => [lit "config"]
  | .configInit => [lit "config", lit "init"]
  | .version => [lit "version"]

/-- The commands directly below a command, with their words. -/
def children : CommandName → List (Text × CommandName)
  | .program =>
    [(lit "generate", .generate), (lit "scan", .scan), (lit "config", .config),
      (lit "version", .version)]
  | .config => [(lit "init", .configInit)]
  | _ => []

/-- The command that is meant when none is named. -/
def standard? : CommandName → Option CommandName
  | .program => some .generate
  | _ => none

/-- Does the command take an argument besides flags? -/
def takesArgument : CommandName → Bool
  | .generate => true
  | .scan => true
  | .configInit => true
  | _ => false

/-- The sections of the flags that belong to a command itself. -/
def sections : CommandName → List Section
  | .program => Settings.shared
  | .generate => Settings.generate
  | .scan => Settings.scan
  | .configInit => Settings.configInit
  | _ => []

end CommandName

/-- A flag: the command it belongs to, its full name and its setting. -/
structure Flag where
  owner : CommandName
  name : Text
  setting : Setting
  deriving DecidableEq, Repr

namespace Flag

/-- The flag that asks for help; it also has a short form. -/
def help : Flag where
  owner := .program
  name := lit "help"
  setting := Settings.flag "Help" none

/-- The short form of the flag that asks for help. -/
def helpLetter : Text := lit "h"

/-- The flag as it is written. -/
def written (f : Flag) : Text := lit "--" ++ f.name

/-- The flags of a section. -/
def ofSection (owner : CommandName) (s : Section) : List Flag :=
  s.settings.map fun x =>
    { owner, setting := x,
      name := if s.name.isEmpty then x.flagName else s.name ++ lit "." ++ x.flagName }

/-- The flags that belong to a command itself. -/
def own (c : CommandName) : List Flag :=
  (if c == .program then [help] else []) ++ c.sections.flatMap (ofSection c)

/-- The flags that are accepted at a command: those of the program, and its own or those of the
command that is meant. -/
def accepted (c : CommandName) : List Flag :=
  own .program ++
    match c with
    | .program => own .generate
    | c => own c

/-- The ways to write the flags that are accepted at a command. -/
def spellings (c : CommandName) : List Text :=
  (accepted c).flatMap fun f =>
    if f.name == help.name then [f.written, lit "-" ++ helpLetter] else [f.written]

/-- All flags, in the order of commands. -/
def all : List Flag :=
  [CommandName.program, .generate, .scan, .config, .configInit, .version].flatMap own

end Flag

end ReflectGen
