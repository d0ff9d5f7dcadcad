import ReflectGen.Config.Toml.Key
import ReflectGen.Config.Toml.Number

/-!
# The tokens of a TOML file

Where a key or a header can stand and where a value can stand, different tokens are read.  The
brackets around a place decide what follows a comma and the end of a line.

* `Token`: the tokens.
* `Lexer.step?`: reads one token, or skips something between tokens.
* `tokens?`: all tokens of a file.
-/

namespace ReflectGen

namespace Config.Toml

/-- A token. -/
inductive Token where
  /-- A key, with its escapes resolved. -/
  | key (text : Text)
  /-- The text between the brackets of a header. -/
  | header (text : Text)
  /-- The text between the double brackets of a header. -/
  | itemHeader (text : Text)
  | equals
  | comma
  | openList
  | closeList
  | openTable
  | closeTable
  | scalar (s : ConfigScalar)
  | date (d : Date)
  | clock (c : Clock)
  | zone (z : Zone)
  deriving DecidableEq, Repr

/-- The brackets that can stand around a value. -/
inductive Bracket where
  | list
  | table
  deriving DecidableEq, Repr

/-- How far a file has been read. -/
structure Lexer where
  rest : Text
  /-- The length of the file; it bounds the steps of the readers. -/
  size : Nat
  /-- Can a value stand here? -/
  inValue : Bool := false
  /-- The open brackets, the innermost first. -/
  brackets : List Bracket := []
  /-- The tokens in front in reverse. -/
  done : List Token := []
  deriving Repr

namespace Lexer

/-- Goes on at `rest`. -/
def skip (l : Lexer) (rest : Text) : Lexer := { l with rest }

/-- Adds a token and goes on at `rest`, where a value can stand. -/
def push (l : Lexer) (t : Token) (rest : Text) : Lexer :=
  { l with rest, inValue := true, done := t :: l.done }

/-- Adds a token and goes on at `rest`, where a key can stand. -/
def pushKey (l : Lexer) (t : Token) (rest : Text) : Lexer :=
  { l with rest, inValue := false, done := t :: l.done }

/-- Opens a bracket. -/
def opened (l : Lexer) (b : Bracket) : Lexer := { l with brackets := b :: l.brackets }

/-- Closes the innermost bracket, which must be of the given kind. -/
def closed? (l : Lexer) (b : Bracket) : Option Lexer :=
  match l.brackets with
  | c :: cs => if c == b then some { l with brackets := cs } else none
  | [] => none

/-- Is the innermost bracket of the given kind? -/
def isIn (l : Lexer) (b : Bracket) : Bool := l.brackets.head? == some b

/-- What follows a comment: the end of its line. -/
def behindComment : Text → Text
  | [] => []
  | 0x0D :: 0x0A :: t => 0x0D :: 0x0A :: t
  | b :: t => if b == 0x0A then b :: t else behindComment t

/-- A header, read from behind its first bracket. -/
def header? (l : Lexer) (t : Text) : Option Lexer :=
  let isEnd (b : UInt8) : Bool := b == 0x5B || b == 0x5D
  match t with
  | 0x5B :: t =>
    match t.span fun b => !isEnd b with
    | (name, 0x5D :: 0x5D :: rest) => some (l.pushKey (.itemHeader name) rest)
    | _ => none
  | t =>
    match t.span fun b => !isEnd b with
    | (name, 0x5D :: rest) => some (l.pushKey (.header name) rest)
    | _ => none

/-- A date, and behind a `T` or a space the time of day with an offset perhaps.  Behind a date
nothing else may follow at once. -/
def dated? (l : Lexer) (t : Text) : Option Lexer := do
  let (d, rest) ← date? t
  let l := l.push (.date d) rest
  match rest with
  | [] => some l
  | b :: rest =>
    if b != 0x20 && b != 0x54 then none
    else if b == 0x20 && (fixed? 2 rest).isNone then some l
    else
      let (c, rest) ← clock? rest
      match ← offset? rest with
      | (some z, rest) => some ((l.push (.clock c) rest).push (.zone z) rest)
      | (none, rest) => some (l.push (.clock c) rest)

/-- A number, a date or a time of day. -/
def digit? (l : Lexer) (t : Text) : Option Lexer :=
  if startsLikeClock t then (clock? t).map fun (c, rest) => l.push (.clock c) rest
  else if Timestamp.startsLikeDate t then l.dated? t
  else (number? t).map fun (v, rest) => l.push (.scalar v) rest

/-- The words for values. -/
def words : List (Text × ConfigScalar) :=
  [(lit "true", .bool true), (lit "false", .bool false), (lit "inf", .real (lit "+Inf")),
    (lit "nan", .real (lit "NaN"))]

/-- A word in front of a text, and what follows it. -/
def word? (t : Text) : Option (ConfigScalar × Text) :=
  words.findSome? fun (w, v) => (Text.after? w t).map (v, ·)

/-- A step where a value can stand, in front of the byte `b` and the text `t`. -/
def valueStep? (l : Lexer) (b : UInt8) (t : Text) : Option Lexer :=
  if b == 0x3D then some (l.push .equals t)
  else if b == 0x5B then some ((l.push .openList t).opened .list)
  else if b == 0x5D then (l.push .closeList t).closed? .list
  else if b == 0x7B then some ((l.pushKey .openTable t).opened .table)
  else if b == 0x7D then (l.push .closeTable t).closed? .table
  else if b == 0x23 then some (l.skip (behindComment t))
  else if b == 0x22 then (basicString? (l.size + 1) t).map fun (s, rest) => l.push (.scalar (.text s)) rest
  else if b == 0x27 then (literalString? t).map fun (s, rest) => l.push (.scalar (.text s)) rest
  else if b == 0x2C then some (if l.isIn .table then l.pushKey .comma t else l.push .comma t)
  else if isLineByte b then some { l with rest := t, inValue := l.isIn .list }
  else if isBlank b then some (l.skip t)
  else
    match word? (b :: t) with
    | some (v, rest) => some (l.push (.scalar v) rest)
    | none =>
      if b == 0x2B || b == 0x2D then
        (number? (b :: t)).map fun (v, rest) => l.push (.scalar v) rest
      else if Decimal.isDigit b then l.digit? (b :: t)
      else none

/-- A step where a key can stand, in front of the byte `b` and the text `t`. -/
def keyStep? (l : Lexer) (b : UInt8) (t : Text) : Option Lexer :=
  if b == 0x7D then (l.push .closeTable t).closed? .table
  else if b == 0x5B then l.header? t
  else if b == 0x23 then some (l.skip (behindComment t))
  else if b == 0x3D then some (l.push .equals t)
  else if isLineByte b || isBlank b then some (l.skip t)
  else (keyText? (l.size + 1) (b :: t) []).map fun (k, rest) => l.pushKey (.key k) rest

/-- A step in front of the byte `b` and the text `t`. -/
def step? (l : Lexer) (b : UInt8) (t : Text) : Option Lexer :=
  if l.inValue then l.valueStep? b t else l.keyStep? b t

/-- Reads to the end. -/
def tokens? : (fuel : Nat) → Lexer → Option (List Token)
  | 0, _ => none
  | n + 1, l =>
    match l.rest with
    | [] => some l.done.reverse
    | b :: t =>
      match l.step? b t with
      | some l => tokens? n l
      | none => none

end Lexer

/-- The tokens of a text. -/
def tokens? (t : Text) : Option (List Token) :=
  Lexer.tokens? (t.length + 1) { rest := t, size := t.length }

end Config.Toml

end ReflectGen
