import ReflectGen.CommandLine.Invocation
import ReflectGen.Config.Lookup

/-!
# Effective values of settings

A setting has the value that the command line gives; otherwise the one from the configuration
files, if the setting belongs to the command that is run; otherwise the one from its environment
variable; and otherwise its default.

* `Values`: a value for every flag.
* `Values.initial`: environment and defaults.
* `Values.configured`: what configuration files add.
* `Values.invalid?`: a value that is not among the allowed words.
-/

namespace ReflectGen

/-- Environment variables. -/
abbrev Environment := List (Text × Text)

/-- Values of flags. -/
abbrev Values := List (Flag × SettingValue)

namespace Values

/-- The value of a setting that nobody sets. -/
def unset (s : Setting) : SettingValue :=
  match s.kind with
  | .flag => .flag false
  | .list => .list []
  | _ => .text []

/-- The value of a setting from its environment variable or its default.  The message for a wrong
word tells where it comes from. -/
def initialValue (around : Surroundings) (env : Environment) (f : Flag) :
    Except Text SettingValue :=
  let fromEnvironment := f.setting.environment.bind fun name => (env.lookup name).map (name, ·)
  match fromEnvironment with
  | some (name, w) =>
    match f.setting.ofWord around w with
    | .ok v => .ok v
    | .error e =>
      .error (f.written ++ lit ": " ++ e.message ++ lit " (from envar " ++ name ++ lit "=" ++
        w.quote ++ lit ")")
  | none =>
    if f.setting.declared.isEmpty then .ok (unset f.setting)
    else
      match f.setting.ofWord around f.setting.declared with
      | .ok v => .ok v
      | .error e => .error (f.written ++ lit ": " ++ e.message)

/-- The values of flags from environment variables and defaults, or the first error. -/
def initial (around : Surroundings) (env : Environment) : List Flag → Except Text Values
  | [] => .ok []
  | f :: fs =>
    match initialValue around env f with
    | .error e => .error e
    | .ok v => (initial around env fs).map ((f, v) :: ·)

/-- The commands on the way to a command, the program first. -/
def trail : CommandName → List CommandName
  | .program => [.program]
  | .configInit => [.program, .config, .configInit]
  | c => [.program, c]

/-- What configuration files say about flags that the command line does not set. -/
def configured (around : Surroundings) (files : List ConfigFile) (i : Invocation) :
    List Flag → Except Text Values
  | [] => .ok []
  | f :: fs =>
    if (i.given.lookup f).isSome then configured around files i fs
    else
      match ConfigFile.select files f.owner.path f.name with
      | none => configured around files i fs
      | some v =>
        match f.setting.ofConfig around v with
        | .error e => .error (f.written ++ lit ": " ++ e.message)
        | .ok v => (configured around files i fs).map ((f, v) :: ·)

/-- The value of a flag: the first that one of the lists gives. -/
def value (layers : List Values) (f : Flag) : SettingValue :=
  (layers.findSome? fun vs => vs.lookup f).getD (unset f.setting)

/-- The text of a value. -/
def textOf : SettingValue → Text
  | .text t => t
  | _ => []

/-- The items of a value. -/
def itemsOf : SettingValue → List Text
  | .list ts => ts
  | _ => []

/-- The truth value of a value. -/
def truthValue : SettingValue → Bool
  | .flag b => b
  | _ => false

/-- The message for a word that is not allowed. -/
def notAllowed (subject : Text) (choices : List Text) (word : Text) : Text :=
  subject ++ lit " must be one of " ++ Text.join (lit ",") (choices.map Text.quote) ++
    lit " but got " ++ word.quote

/-- The message for the word of a flag, if it is not allowed. -/
def invalidFlag? (layers : List Values) (f : Flag) : Option Text :=
  let word := textOf (value layers f)
  if f.setting.choices.isEmpty || f.setting.choices.contains word then none
  else some (notAllowed f.written f.setting.choices word)

/-- The commands that a template can be asked for. -/
def templateCommands : List Text := [lit "generate", lit "scan"]

/-- The message for the argument of the template command, if it is not allowed. -/
def invalidArgument? (i : Invocation) : Option Text :=
  match i.command, i.argument with
  | .configInit, some w =>
    if templateCommands.contains w then none
    else some (notAllowed (lit "[<command>]") templateCommands w)
  | _, _ => none

/-- The message for the first value that is not allowed. -/
def invalid? (layers : List Values) (i : Invocation) : Option Text :=
  match Flag.all.findSome? (invalidFlag? layers) with
  | some m => some m
  | none => invalidArgument? i

/-- The message for what is missing on the command line. -/
def missing? (i : Invocation) : Option Text :=
  match i.command, i.argument with
  | .config, _ => some (lit "expected \"init\"")
  | .generate, none => some (lit "expected \"<root>\"")
  | .scan, none => some (lit "expected \"<root>\"")
  | _, _ => none

end Values

end ReflectGen
