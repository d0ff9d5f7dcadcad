import ReflectGen.Decimal.Shortest
import ReflectGen.Moment

/-!
# Values in configuration files

What a configuration file can say about a setting, and how a value of the wrong kind is shown in
messages.  Numbers and times keep the name of their kind, because messages show it.

* `ConfigScalar`, `ConfigValue`: values without and with parts.
* `ConfigValue.quoted`: a value between quotes, part by part.
* `ConfigValue.literal`: a value as it would be written down in a program.

The fields of an object are shown in the order of their keys.
-/

namespace ReflectGen

/-- The kinds of integers. -/
inductive IntKind where
  | plain
  | wide
  /-- Without a sign; messages show such a number to the base sixteen. -/
  | unsigned
  deriving DecidableEq, Repr

/-- The name of a kind of integers. -/
def IntKind.name : IntKind → Text
  | .plain => lit "int"
  | .wide => lit "int64"
  | .unsigned => lit "uint64"

/-- A value without parts. -/
inductive ConfigScalar where
  | null
  | text (t : Text)
  | bool (b : Bool)
  | int (kind : IntKind) (n : Int)
  /-- A fraction in double precision, by its shortest text. -/
  | real (shown : Text)
  | moment (m : Moment)
  deriving DecidableEq, Repr

/-- A value in a configuration file. -/
inductive ConfigValue where
  | scalar (s : ConfigScalar)
  | list (items : List ConfigValue)
  /-- An empty list that is written as if it were nothing. -/
  | noItems
  | object (fields : List (Text × ConfigValue))
  /-- An object some keys of which are no texts. -/
  | mixed (fields : List (ConfigScalar × ConfigValue))
  deriving Repr

instance : Inhabited ConfigValue := ⟨.scalar .null⟩

namespace ConfigScalar

/-- A character between single quotes. -/
def quoteChar (c : Char) : Text :=
  if c.toNat == 0x27 then lit "'\\''"
  else if c.toNat == 0x22 then lit "'\"'"
  else lit "'" ++ Quoted.char c ++ lit "'"

/-- The character with a number; numbers that have none give U+FFFD. -/
def charOf (n : Int) : Char :=
  match n with
  | .ofNat n => (Text.scalar? 0 n).getD Rune.replacement
  | .negSucc _ => Rune.replacement

/-- The word for a truth value. -/
def boolText (b : Bool) : Text := if b then lit "true" else lit "false"

/-- The name of the kind of a scalar. -/
def kindName : ConfigScalar → Text
  | .null => lit "<nil>"
  | .text _ => lit "string"
  | .bool _ => lit "bool"
  | .int kind _ => kind.name
  | .real _ => lit "float64"
  | .moment m => m.kindName

/-- A value that cannot be quoted. -/
def unquotable (kind shown : Text) : Text :=
  lit "%!q(" ++ kind ++ lit "=" ++ shown ++ lit ")"

/-- The quoted form of a scalar; an integer is shown as the character with its number. -/
def quoted : ConfigScalar → Text
  | .null => lit "<nil>"
  | .text t => t.quote
  | .bool b => unquotable (lit "bool") (boolText b)
  | .int _ n => quoteChar (charOf n)
  | .real shown => unquotable (lit "float64") shown
  | .moment m => m.shown.quote

/-- A scalar as it would be written down in a program. -/
def literal : ConfigScalar → Text
  | .null => lit "interface \x7b\x7d(nil)"
  | .text t => t.quote
  | .bool b => boolText b
  | .int .unsigned n => lit "0x" ++ (Nat.toDigits 16 n.toNat).map Char.toUInt8
  | .int _ n => Text.ofInt n
  | .real shown => shown
  | .moment m => m.literal

/-- The place of a kind of scalars in the order of keys. -/
def rank : ConfigScalar → Nat
  | .null => 0
  | .int .wide _ => 1
  | .int .unsigned _ => 2
  | .int .plain _ => 3
  | .real _ => 4
  | .bool _ => 5
  | .text _ => 6
  | .moment _ => 7

/-- The order of fractions by their texts: what is not a number comes first, and the infinities
stand at the ends. -/
def realLe (a b : Text) : Bool :=
  if a == lit "NaN" || b == lit "+Inf" then true
  else if b == lit "NaN" || a == lit "+Inf" then false
  else if a == lit "-Inf" then true
  else if b == lit "-Inf" then false
  else
    match Decimal.read? a, Decimal.read? b with
    | some x, some y => x.le y
    | _, _ => true

/-- The order of keys: first by kind, then by value. -/
def le (a b : ConfigScalar) : Bool :=
  match a, b with
  | .text s, .text t => Text.le s t
  | .bool p, .bool q => !p || q
  | .real s, .real t => realLe s t
  | .moment m, .moment n => Text.le m.text n.text
  | .int k m, .int l n => if k == l then m ≤ n else rank (.int k m) ≤ rank (.int l n)
  | a, b => rank a ≤ rank b

end ConfigScalar

namespace ConfigValue

/-- Nothing. -/
@[match_pattern] def null : ConfigValue := .scalar .null

/-- A text. -/
@[match_pattern] def text (t : Text) : ConfigValue := .scalar (.text t)

/-- A truth value. -/
@[match_pattern] def bool (b : Bool) : ConfigValue := .scalar (.bool b)

/-- The name of the kind of a value. -/
def kindName : ConfigValue → Text
  | .scalar s => s.kindName
  | .list _ => lit "[]interface \x7b\x7d"
  | .noItems => lit "[]interface \x7b\x7d"
  | .object _ => lit "map[string]interface \x7b\x7d"
  | .mixed _ => lit "map[interface \x7b\x7d]interface \x7b\x7d"

/-- Shown fields in the order of their keys, separated by `sep`. -/
def inOrder (sep : Text) (fields : List (ConfigScalar × Text)) : Text :=
  Text.join sep ((fields.mergeSort fun a b => a.1.le b.1).map Prod.snd)

mutual

/-- The quoted form of a value in a message. -/
def quoted : ConfigValue → Text
  | .scalar s => s.quoted
  | .list items => lit "[" ++ Text.join (lit " ") (quotedItems items) ++ lit "]"
  | .noItems => lit "[]"
  | .object fields => lit "map[" ++ inOrder (lit " ") (quotedFields fields) ++ lit "]"
  | .mixed fields => lit "map[" ++ inOrder (lit " ") (quotedMixed fields) ++ lit "]"

/-- The quoted forms of the items of a list. -/
def quotedItems : List ConfigValue → List Text
  | [] => []
  | v :: vs => quoted v :: quotedItems vs

/-- The quoted forms of the fields of an object. -/
def quotedFields : List (Text × ConfigValue) → List (ConfigScalar × Text)
  | [] => []
  | (name, v) :: fs => (.text name, name.quote ++ lit ":" ++ quoted v) :: quotedFields fs

/-- The quoted forms of the fields of an object with any keys. -/
def quotedMixed : List (ConfigScalar × ConfigValue) → List (ConfigScalar × Text)
  | [] => []
  | (key, v) :: fs => (key, key.quoted ++ lit ":" ++ quoted v) :: quotedMixed fs

end

/-- The kind of a value with its parts between braces. -/
def braced (kind inside : Text) : Text := kind ++ lit "\x7b" ++ inside ++ lit "\x7d"

mutual

/-- A value as it would be written down in a program. -/
def literal : ConfigValue → Text
  | .scalar s => s.literal
  | .list items => braced (kindName (.list [])) (Text.join (lit ", ") (literalItems items))
  | .noItems => kindName .noItems ++ lit "(nil)"
  | .object fields => braced (kindName (.object [])) (inOrder (lit ", ") (literalFields fields))
  | .mixed fields => braced (kindName (.mixed [])) (inOrder (lit ", ") (literalMixed fields))

/-- The items of a list, written down. -/
def literalItems : List ConfigValue → List Text
  | [] => []
  | v :: vs => literal v :: literalItems vs

/-- The fields of an object, written down. -/
def literalFields : List (Text × ConfigValue) → List (ConfigScalar × Text)
  | [] => []
  | (name, v) :: fs => (.text name, name.quote ++ lit ":" ++ literal v) :: literalFields fs

/-- The fields of an object with any keys, written down. -/
def literalMixed : List (ConfigScalar × ConfigValue) → List (ConfigScalar × Text)
  | [] => []
  | (key, v) :: fs => (key, key.literal ++ lit ":" ++ literal v) :: literalMixed fs

end

/-- The fields of an object; other values have none. -/
def fields : ConfigValue → List (Text × ConfigValue)
  | .object fs => fs
  | _ => []

/-- The value of a field. -/
def field? (v : ConfigValue) (name : Text) : Option ConfigValue := v.fields.lookup name

end ConfigValue

namespace Config

/-- The fields with one more; a field with the same key is replaced. -/
@[specialize] def setField {α β : Type} [BEq α] : List (α × β) → α → β → List (α × β)
  | [], key, v => [(key, v)]
  | (k, w) :: fs, key, v => if k == key then (k, v) :: fs else (k, w) :: setField fs key v

end Config

end ReflectGen
