import ReflectGen.Document.Yaml.Timestamp

/-!
# What a plain scalar means

In YAML a text without quotes may stand for a truth value, for nothing, for a number or for a
timestamp.  A text is written without quotes only if it means itself.

* `Plain`, `Plain.resolve`: the meaning of a plain scalar.
* `Plain.isAmbiguous`: texts that older readers take for something else.
-/

namespace ReflectGen

/-- The meaning of a plain scalar. -/
inductive Plain where
  | null
  | bool (b : Bool)
  | int (n : Int)
  | real (d : Decimal)
  /-- Not a number, or an infinity. -/
  | special (t : Text)
  | timestamp (m : Moment)
  | text
  deriving DecidableEq, Repr

namespace Plain

/-- The words with a meaning of their own. -/
def words : List (Text × Plain) :=
  ["true", "True", "TRUE"].map (fun w => (lit w, .bool true)) ++
    ["false", "False", "FALSE"].map (fun w => (lit w, .bool false)) ++
    ["", "~", "null", "Null", "NULL"].map (fun w => (lit w, .null)) ++
    [".nan", ".NaN", ".NAN"].map (fun w => (lit w, .special (lit "NaN"))) ++
    [".inf", ".Inf", ".INF", "+.inf", "+.Inf", "+.INF"].map
      (fun w => (lit w, .special (lit "+Inf"))) ++
    ["-.inf", "-.Inf", "-.INF"].map (fun w => (lit w, .special (lit "-Inf")))

/-- Underscores must stand between digits: `last` tells whether a digit stands in front. -/
def separatesDigits : (last : Bool) → Text → Bool
  | _, [] => true
  | last, b :: t =>
    if b == 0x5F then last && (t.head?.any Decimal.isDigit) && separatesDigits false t
    else separatesDigits (Decimal.isDigit b) t

/-- A text without its underscores. -/
def withoutUnderscores (t : Text) : Text := t.filter (· != 0x5F)

/-- A decimal fraction that rounds to a finite number. -/
def finite? (t : Text) : Option Plain :=
  match Decimal.read? t with
  | some d => if d.isFinite then some (.real d) else none
  | none => none

/-- Digits with a sign behind one of the letters that tell a base; the sign of the whole may also
stand in front. -/
def afterBase? (letter : UInt8) (base : Nat) : Text → Option Int
  | 0x30 :: l :: t =>
    if l == letter then
      match Number.integer? base t with
      | some n => some n
      | none => (Number.natural? base t).map Int.ofNat
    else none
  | 0x2D :: 0x30 :: l :: t => if l == letter then Number.integer? base (0x2D :: t) else none
  | _ => none

/-- The meaning of a text that starts with a digit or a sign. -/
def numeric (t : Text) : Plain :=
  match Timestamp.read? t with
  | some m => .timestamp m
  | none =>
    let u := withoutUnderscores t
    match Number.prefixed? u with
    | some n => .int n
    | none =>
      match finite? u with
      | some p => p
      | none =>
        match afterBase? 0x62 2 u with
        | some n => .int n
        | none =>
          match afterBase? 0x6F 8 u with
          | some n => .int n
          | none => .text

/-- The meaning of a plain scalar.  Only texts that start like a number or like one of the words
are looked at. -/
def resolve (t : Text) : Plain :=
  match words.lookup t with
  | some p => p
  | none =>
    match t with
    | [] => .null
    | b :: _ =>
      if b == 0x2E then
        if separatesDigits false t then (finite? (withoutUnderscores t)).getD .text else .text
      else if b == 0x2B || b == 0x2D || Decimal.isDigit b then numeric t
      else .text

/-- The truth values of older versions of the language. -/
def oldBools : List Text :=
  ["y", "Y", "yes", "Yes", "YES", "on", "On", "ON", "n", "N", "no", "No", "NO", "off", "Off",
    "OFF"].map lit

/-- Does the text consist of one or two digits, the first below six if there are two? -/
def isSixtieth : Text → Bool
  | [a] => Decimal.isDigit a
  | [a, b] => 0x30 ≤ a && a ≤ 0x35 && Decimal.isDigit b
  | _ => false

/-- Is the text a number to the base sixty, as older versions of the language have it? -/
def isSexagesimal (t : Text) : Bool :=
  let isFiller (b : UInt8) : Bool := Decimal.isDigit b || b == 0x5F
  let whole := ((Number.sign t).2.splitOn 0x2E)
  match whole with
  | [] => false
  | number :: fractions =>
    match Text.splitOn 0x3A number with
    | first :: second :: more =>
      first.head?.any Decimal.isDigit && first.all isFiller &&
        (second :: more).all isSixtieth && fractions.length ≤ 1 &&
        fractions.all (fun f => f.all isFiller)
    | _ => false

/-- May older readers take the text for something else? -/
def isAmbiguous (t : Text) : Bool := oldBools.contains t || isSexagesimal t

/-- Does the text, written without quotes, mean itself to every reader? -/
def meansItself (t : Text) : Bool := resolve t == .text && !isAmbiguous t

end Plain

end ReflectGen
