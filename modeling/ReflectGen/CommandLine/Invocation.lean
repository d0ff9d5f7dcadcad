import ReflectGen.CommandLine.Flag
import ReflectGen.Text.Quoted

/-!
# Reading a command line

Words are read from left to right.  Flags may stand anywhere; a word without hyphens names a
command as long as one is expected, and is an argument otherwise.  Behind `--` all words are
arguments.

When a word is not known, those are suggested that continue it or differ from it in two places at
most.  Places are counted by the edit distance: the least number of characters to be inserted,
deleted or replaced.

* `editDistance`, `suggestions`: what is suggested for a word.
* `Invocation`: the command, the values of flags and the argument.
* `UsageError`: what is wrong with a command line.
* `Invocation.read`: reads the words.
-/

namespace ReflectGen

/-! ## Suggestions -/

/-- The next row of the distance table: `c` is the new character, `diagonal` the entry above and to
the left, `left` the entry to the left, and `above` the rest of the previous row. -/
def distanceRow (c : Char) : (word : List Char) → (diagonal left : Nat) → (above : List Nat) →
    List Nat
  | d :: ds, diagonal, left, a :: above =>
    let best := min (min (a + 1) (left + 1)) (if c == d then diagonal else diagonal + 1)
    best :: distanceRow c ds a best above
  | _, _, _, _ => []

/-- The rows of the distance table from `first` on, down to the last one. -/
def distanceLast (word : List Char) : List Char → (first : List Nat) → List Nat
  | [], row => row
  | c :: cs, row =>
    match row with
    | [] => []
    | d :: above => distanceLast word cs ((d + 1) :: distanceRow c word d (d + 1) above)

/-- The edit distance of two words. -/
def editDistance (a b : List Char) : Nat :=
  ((distanceLast b a (List.range (b.length + 1))).getLast?).getD 0

/-- The candidates that are suggested for a word. -/
def suggestions (word : Text) (candidates : List Text) : List Text :=
  candidates.filter fun c => Text.startsWith c word || editDistance c.chars word.chars ≤ 2

/-- A message with suggestions behind it. -/
def withSuggestions (message : Text) (candidates : List Text) : Text :=
  match candidates with
  | [] => message
  | [c] => message ++ lit ", did you mean " ++ c.quote ++ lit "?"
  | cs =>
    message ++ lit ", did you mean one of " ++ Text.join (lit ", ") (cs.map Text.quote) ++ lit "?"

/-! ## Command lines -/

/-- What a command line says. -/
structure Invocation where
  command : CommandName := .program
  /-- The values of flags; a list that is given more than once is continued. -/
  given : List (Flag × SettingValue) := []
  argument : Option Text := none
  deriving Repr

/-- What is wrong with a command line. -/
inductive UsageError where
  | unknownFlag (flag : Text) (candidates : List Text)
  | unexpectedArgument (word : Text) (candidates : List Text)
  /-- A value for a flag is wrong; the word is one that would need an equals sign. -/
  | badValue (flag : Text) (e : ValueError) (unescaped : Option Text)
  deriving Repr

/-- The message for a usage error. -/
def UsageError.message : UsageError → Text
  | .unknownFlag flag cs => withSuggestions (lit "unknown flag " ++ flag) cs
  | .unexpectedArgument w cs => withSuggestions (lit "unexpected argument " ++ w) cs
  | .badValue flag e none => flag ++ lit ": " ++ e.message
  | .badValue flag e (some w) =>
    flag ++ lit ": " ++ e.message ++ lit "; perhaps try " ++ flag ++ lit "=" ++ w.quote ++ lit "?"

namespace Invocation

/-- What a flag is expected to have. -/
def expectedKind (s : Setting) : Text := if s.isPath then lit "file" else lit "string"

/-- The name of the kind of word that looks like a flag; other words have none. -/
def flagKind? (w : Text) : Option Text :=
  match w with
  | 0x2D :: 0x2D :: _ => some (lit "long flag")
  | [0x2D] => none
  | 0x2D :: _ => some (lit "short flag")
  | _ => none

/-- The values with one more: items are added to a list, and other values are replaced. -/
def give : List (Flag × SettingValue) → Flag → SettingValue → List (Flag × SettingValue)
  | [], f, v => [(f, v)]
  | (g, w) :: rest, f, v =>
    if g == f then
      match w, v with
      | .list old, .list new => (g, .list (old ++ new)) :: rest
      | _, v => (g, v) :: rest
    else (g, w) :: give rest f v

/-- The invocation with a value for a flag, or the error in the value. -/
def withWord (around : Surroundings) (i : Invocation) (f : Flag) (w : Text) :
    Except UsageError Invocation :=
  match f.setting.ofWord around w with
  | .ok v => .ok { i with given := give i.given f v }
  | .error e => .error (.badValue f.written e none)

/-- The error for a word that looks like a flag where a value is expected. -/
def looksLikeFlag (f : Flag) (w kind : Text) : UsageError :=
  .badValue f.written (.expected (expectedKind f.setting) w kind) (some w)

/-- Takes a separate word as the value of a flag.  Neither the word nor an item of it may look like
a flag. -/
def withSeparate (around : Surroundings) (i : Invocation) (f : Flag) (w : Text) :
    Except UsageError Invocation :=
  let parts := if f.setting.kind == .list then splitItems w.chars [] else [w]
  match parts.findSome? fun p => (flagKind? p).map fun k => (p, k) with
  | some (p, k) => .error (looksLikeFlag f p k)
  | none => withWord around i f w

/-- The error for a flag at the end that needs a value. -/
def missingValue (f : Flag) : UsageError :=
  if f.setting.kind == .list then .badValue f.written .missingItems none
  else
    .badValue f.written (.expected (expectedKind f.setting) (lit "EOL") (lit "<EOL>")) none

/-- Takes an argument at a command. -/
def takeArgument (i : Invocation) (w : Text) : Except UsageError Invocation :=
  if i.command.takesArgument && i.argument.isNone then .ok { i with argument := some w.repaired }
  else
    let names := i.command.children.map Prod.fst
    .error (.unexpectedArgument w (suggestions w names))

/-- Takes a word that is not a flag: the name of a command below the current one, or an
argument. -/
def withPlain (i : Invocation) (w : Text) : Except UsageError Invocation :=
  match i.command.children.lookup w with
  | some c => .ok { i with command := c }
  | none =>
    match i.command.standard? with
    | some c => takeArgument { i with command := c } w
    | none => takeArgument i w

/-- Takes words that cannot be flags. -/
def withPlains (i : Invocation) : List Text → Except UsageError Invocation
  | [] => .ok i
  | w :: ws =>
    match withPlain i w with
    | .ok i => withPlains i ws
    | .error e => .error e

/-- The error for a flag that is not accepted. -/
def unknown (i : Invocation) (written : Text) : UsageError :=
  .unknownFlag written (suggestions written (Flag.spellings i.command))

/-- Takes the letters of short flags; only help has one. -/
def withLetters (i : Invocation) : Text → Except UsageError Invocation
  | [] => .ok i
  | b :: t =>
    if [b] == Flag.helpLetter then
      withLetters { i with given := give i.given Flag.help (.flag true) } t
    else .error (unknown i [0x2D, b])

/-- Reads words. -/
def readFrom (around : Surroundings) : Invocation → List Text → Except UsageError Invocation
  | i, [] => .ok i
  | i, w :: ws =>
    match w with
    | [0x2D, 0x2D] => withPlains i ws
    | [0x2D] =>
      match withPlain i w with
      | .ok i => readFrom around i ws
      | .error e => .error e
    | 0x2D :: 0x2D :: body =>
      let (name, value?) := match Text.splitFirst? 0x3D body with
        | some (n, v) => (n, some v)
        | none => (body, none)
      match (Flag.accepted i.command).find? (·.name == name) with
      | none => .error (unknown i (lit "--" ++ name))
      | some f =>
        match value? with
        | some v =>
          match withWord around i f v with
          | .ok i => readFrom around i ws
          | .error e => .error e
        | none =>
          if f.setting.kind == .flag then
            readFrom around { i with given := give i.given f (.flag true) } ws
          else
            match ws with
            | [] => .error (missingValue f)
            | v :: ws =>
              match withSeparate around i f v with
              | .ok i => readFrom around i ws
              | .error e => .error e
    | 0x2D :: letters =>
      match withLetters i letters with
      | .ok i => readFrom around i ws
      | .error e => .error e
    | _ =>
      match withPlain i w with
      | .ok i => readFrom around i ws
      | .error e => .error e

/-- Reads the words of a command line.  Without any command the standard one is meant. -/
def read (around : Surroundings) (words : List Text) : Except UsageError Invocation :=
  (readFrom around {} words).map fun i => { i with command := i.command.standard?.getD i.command }

/-- Is help asked for? -/
def asksForHelp (i : Invocation) : Bool := (i.given.lookup Flag.help).isSome

end Invocation

end ReflectGen
