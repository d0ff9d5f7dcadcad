import ReflectGen.Config.Value
import ReflectGen.Path
import ReflectGen.Settings.Declared
import ReflectGen.Text.LetterCase

/-!
# Values of settings

The value of a setting is read from a word on the command line or in an environment variable, or
from a value in a configuration file.

* `SettingValue`: what a setting can be.
* `ValueError`: what is wrong with a word or value.
* `Setting.ofWord`, `Setting.ofConfig`: reading values.
-/

namespace ReflectGen

/-- The value of a setting. -/
inductive SettingValue where
  | text (t : Text)
  | flag (b : Bool)
  | list (ts : List Text)
  deriving DecidableEq, Repr

/-- What paths are read against. -/
structure Surroundings where
  /-- The working directory. -/
  workdir : Text
  home : Text
  deriving DecidableEq, Repr

/-- A path made absolute; `~/` stands for the home directory. -/
def Surroundings.absolute (s : Surroundings) (path : Text) : Text :=
  if Path.isAbsolute path then path
  else
    match Text.after? (lit "~/") path with
    | some rest => Path.join s.home rest
    | none => Path.join s.workdir path

/-- Why a value cannot be written as a document. -/
inductive Unwritable where
  /-- A fraction that is no number. -/
  | real (shown : Text)
  /-- A time zone that is too far away. -/
  | zone
  /-- A key of an object that is a truth value. -/
  | key
  deriving DecidableEq, Repr

/-- The message for a value that cannot be written. -/
def Unwritable.message : Unwritable → Text
  | .real shown => lit "json: unsupported value: " ++ shown
  | .zone =>
    lit "json: error calling MarshalJSON for type *time.Time: timezone hour outside of range [0,23]"
  | .key => lit "json: unsupported value: object member name must be a string"

/-- What is wrong with a word or value for a setting. -/
inductive ValueError where
  /-- Something else stands where a value is expected. -/
  | expected (what token kind : Text)
  | missingItems
  | notTruthWord (word : Text)
  | notTruthValue (v : ConfigValue)
  /-- The value is no text; `kind` says what it is instead. -/
  | notText (v : ConfigValue) (kind : Text)
  /-- The item with this number is no text. -/
  | notTexts (items : List ConfigValue) (kind : Text) (index : Nat)
  | notWritable (u : Unwritable)
  deriving Repr

/-- The message for a value error. -/
def ValueError.message : ValueError → Text
  | .expected what token kind =>
    lit "expected " ++ what ++ lit " value but got " ++ token.quote ++ lit " (" ++ kind ++ lit ")"
  | .missingItems => lit "missing value, expecting \"<arg>,...\""
  | .notTruthWord w =>
    lit "bool value must be true, 1, yes, false, 0 or no but got " ++ w.quote
  | .notTruthValue v =>
    lit "expected bool but got " ++ v.quoted ++ lit " (" ++ v.kindName ++ lit ")"
  | .notText v kind =>
    v.literal ++ lit " -> *string: json: cannot unmarshal " ++ kind ++
      lit " into Go value of type string"
  | .notTexts items kind index =>
    (ConfigValue.list items).literal ++ lit " -> *[]string: json: cannot unmarshal " ++ kind ++
      lit " into ." ++ Text.ofNat index ++ lit " of type string"
  | .notWritable u => u.message

/-- The pieces of a list between commas.  A comma behind a backslash belongs to its piece, and an
empty last piece is dropped.  `cur` is the current piece in reverse. -/
def splitItems : List Char → (cur : List Char) → List Text
  | [], cur => if cur.isEmpty then [] else [Text.ofChars cur.reverse]
  | ['\\'], cur => [Text.ofChars ('\\' :: cur).reverse]
  | '\\' :: c :: cs, cur =>
    splitItems cs (if c == ',' then c :: cur else c :: '\\' :: cur)
  | c :: cs, cur =>
    if c == ',' then Text.ofChars cur.reverse :: splitItems cs [] else splitItems cs (c :: cur)

/-- The truth value of a word; letter case does not matter. -/
def truthOf (word : Text) : Except ValueError Bool :=
  let w := word.lowered
  if w == lit "true" || w == lit "1" || w == lit "yes" then .ok true
  else if w == lit "false" || w == lit "0" || w == lit "no" then .ok false
  else .error (.notTruthWord w)

/-- Why a scalar cannot be written. -/
def ConfigScalar.unwritable? : ConfigScalar → Option Unwritable
  | .real shown =>
    if shown == lit "NaN" || shown == lit "+Inf" || shown == lit "-Inf" then some (.real shown)
    else none
  | .moment m => if m.isWritable then none else some .zone
  | _ => none

/-- Why a scalar cannot be the key of an object that is written. -/
def ConfigScalar.unwritableKey? : ConfigScalar → Option Unwritable
  | .bool _ => some .key
  | s => s.unwritable?

namespace ConfigValue

mutual

/-- Why a value cannot be written. -/
def unwritable? : ConfigValue → Option Unwritable
  | .scalar s => s.unwritable?
  | .list items => unwritableItem? items
  | .noItems => none
  | .object fields => unwritableField? fields
  | .mixed fields => unwritableMixed? fields

/-- Why one of the items cannot be written. -/
def unwritableItem? : List ConfigValue → Option Unwritable
  | [] => none
  | v :: vs => (unwritable? v).or (unwritableItem? vs)

/-- Why one of the fields cannot be written. -/
def unwritableField? : List (Text × ConfigValue) → Option Unwritable
  | [] => none
  | (_, v) :: fs => (unwritable? v).or (unwritableField? fs)

/-- Why one of the fields with any keys cannot be written. -/
def unwritableMixed? : List (ConfigScalar × ConfigValue) → Option Unwritable
  | [] => none
  | (key, v) :: fs => (key.unwritableKey?.or (unwritable? v)).or (unwritableMixed? fs)

end

/-- The text of a value, or the name of what it is instead.  Nothing is the empty text. -/
def asText : ConfigValue → Except Text Text
  | .scalar s =>
    match s with
    | .null => .ok []
    | .text t => .ok t.repaired
    | .moment m => .ok m.text
    | .bool _ => .error (lit "bool")
    | .int _ _ => .error (lit "number")
    | .real _ => .error (lit "number")
  | .noItems => .ok []
  | .list _ => .error (lit "array")
  | .object _ => .error (lit "object")
  | .mixed _ => .error (lit "object")

/-- The texts of items, of which the first has this number. -/
def textsFrom : Nat → List ConfigValue → Except (Text × Nat) (List Text)
  | _, [] => .ok []
  | n, v :: vs =>
    match v.asText with
    | .error kind => .error (kind, n)
    | .ok t => (textsFrom (n + 1) vs).map (t :: ·)

/-- The text that a value gives a setting. -/
def toText (v : ConfigValue) : Except ValueError Text :=
  match v.unwritable? with
  | some u => .error (.notWritable u)
  | none =>
    match v.asText with
    | .ok t => .ok t
    | .error kind => .error (.notText v kind)

/-- The texts that items give a setting. -/
def toTexts (items : List ConfigValue) : Except ValueError (List Text) :=
  match unwritableItem? items with
  | some u => .error (.notWritable u)
  | none =>
    match textsFrom 0 items with
    | .ok ts => .ok ts
    | .error (kind, index) => .error (.notTexts items kind index)

end ConfigValue

namespace Setting

/-- The text that a word gives: a path is made absolute, unless it is a hyphen. -/
def ofText (s : Setting) (around : Surroundings) (t : Text) : Text :=
  let t := t.repaired
  if s.isPath && t != lit "-" then around.absolute t else t

/-- The value that a word gives. -/
def ofWord (s : Setting) (around : Surroundings) (w : Text) : Except ValueError SettingValue :=
  match s.kind with
  | .flag => (truthOf w).map SettingValue.flag
  | .list => .ok (.list (splitItems w.chars []))
  | _ => .ok (.text (s.ofText around w))

/-- The value that a configuration file gives. -/
def ofConfig (s : Setting) (around : Surroundings) (v : ConfigValue) :
    Except ValueError SettingValue :=
  match s.kind, v with
  | _, .text t => s.ofWord around t
  | .flag, .bool b => .ok (.flag b)
  | .flag, v => .error (.notTruthValue v)
  | .list, .noItems => .ok (.list [])
  | .list, .list items => (ConfigValue.toTexts items).map SettingValue.list
  | .list, v => (ConfigValue.toTexts [v]).map SettingValue.list
  | _, v => v.toText.map fun t => .text (s.ofText around t)

end Setting

end ReflectGen
