import ReflectGen.Config.Toml.StringText
import ReflectGen.Config.Value
import ReflectGen.Document.Yaml.Timestamp

/-!
# Numbers and times in TOML

Numbers are integers in four bases and fractions.  Underscores may stand behind digits, and are
dropped.  Times are dates, times of day, and offsets behind a date with a time of day; every part
of them has a fixed number of digits.

* `number?`: a number in front of a text.
* `date?`, `clock?`, `offset?`: the parts of times.
-/

namespace ReflectGen

namespace Config.Toml

/-! ## Integers and fractions -/

/-- Does a digit stand in front of every underscore, and something behind it? -/
def underscoresFit (isDigit : UInt8 → Bool) : (before : Bool) → Text → Bool
  | _, [] => true
  | before, b :: t =>
    (b != 0x5F || (before && !t.isEmpty)) && underscoresFit isDigit (isDigit b) t

/-- The bases that a letter behind a zero tells. -/
def bases : List (UInt8 × Nat) := [(0x78, 16), (0x6F, 8), (0x62, 2)]

/-- An integer that is written in a base: sixty-four bits with a sign, or else without one. -/
def integerIn? (base : Nat) (t : Text) : Option ConfigScalar :=
  match Number.integer? base t with
  | some n => some (.int .wide n)
  | none => (Number.natural? base t).map fun n => .int .unsigned n

/-- The value of an integer.  A number of three characters or more that starts with a zero must
tell its base. -/
def integer? (t : Text) : Option ConfigScalar :=
  match t.filter (· != 0x5F) with
  | 0x30 :: b :: d :: ds =>
    match bases.lookup b with
    | some base =>
      let isDigit := if base == 16 then fun c => (Quoted.hexValue? c).isSome else Decimal.isDigit
      if underscoresFit isDigit false t then integerIn? base (d :: ds) else none
    | none => none
  | ds => if underscoresFit Decimal.isDigit false t then integerIn? 10 ds else none

/-- The value of a fraction, which must be finite. -/
def fraction? (t : Text) : Option ConfigScalar :=
  if underscoresFit Decimal.isDigit false t then
    match Decimal.read? (t.filter (· != 0x5F)) with
    | some d => if d.isFinite then some (.real d.shortest) else none
    | none => none
  else none

/-- The characters of a number behind its sign. -/
structure Digits where
  text : Text
  isFraction : Bool
  rest : Text
  deriving DecidableEq, Repr

/-- How far a number has been read. -/
structure NumberState where
  hasPoint : Bool := false
  hasExponent : Bool := false
  hasDigit : Bool := false
  /-- Does the letter of an exponent stand in front? -/
  inExponent : Bool := false
  deriving DecidableEq, Repr

/-- Reads digits, underscores, one point between digits, and exponents; there must be a digit. -/
def digits? (s : NumberState) : Text → (done : Text) → Option Digits
  | [], done => if s.hasDigit then some ⟨done.reverse, s.hasPoint || s.hasExponent, []⟩ else none
  | b :: t, done =>
    if b == 0x2E then
      if !s.hasPoint && s.hasDigit && t.head?.any Decimal.isDigit then
        digits? { s with hasPoint := true, inExponent := false } t (b :: done)
      else none
    else if b == 0x65 || b == 0x45 then
      digits? { s with hasExponent := true, inExponent := true } t (b :: done)
    else if s.inExponent && (b == 0x2B || b == 0x2D) then
      digits? { s with inExponent := false } t (b :: done)
    else if Decimal.isDigit b then
      digits? { s with hasDigit := true, inExponent := false } t (b :: done)
    else if b == 0x5F then digits? { s with inExponent := false } t (b :: done)
    else if s.hasDigit then some ⟨done.reverse, s.hasPoint || s.hasExponent, b :: t⟩
    else none

/-- A number with the sign `sign`, which may be empty. -/
def decimal? (sign t : Text) : Option (ConfigScalar × Text) := do
  let ds ← digits? {} t []
  let v ← if ds.isFraction then fraction? (sign ++ ds.text) else integer? (sign ++ ds.text)
  some (v, ds.rest)

/-- Is the byte a letter? -/
def isLetter (b : UInt8) : Bool := (0x41 ≤ b && b ≤ 0x5A) || (0x61 ≤ b && b ≤ 0x7A)

/-- A number without a sign. -/
def unsigned? (t : Text) : Option (ConfigScalar × Text) :=
  match t with
  | 0x30 :: b :: rest =>
    match bases.lookup b with
    | some base =>
      let isDigit (c : UInt8) : Bool := (Number.digit? base c).isSome || c == 0x5F
      let ds := rest.takeWhile isDigit
      (integer? (0x30 :: b :: ds)).map (·, rest.dropWhile isDigit)
    | none => if isLetter b then none else decimal? [] t
  | t => decimal? [] t

/-- The words for fractions that are no numbers. -/
def special? (sign t : Text) : Option (ConfigScalar × Text) :=
  match Text.after? (lit "inf") t with
  | some rest => some (.real (if sign == lit "-" then lit "-Inf" else lit "+Inf"), rest)
  | none => (Text.after? (lit "nan") t).map fun rest => (.real (lit "NaN"), rest)

/-- A number in front of a text. -/
def number? : Text → Option (ConfigScalar × Text)
  | [] => none
  | b :: t =>
    if b == 0x2B || b == 0x2D then
      match special? [b] t with
      | some found => some found
      | none => decimal? [b] t
    else unsigned? (b :: t)

/-! ## Times -/

/-- The number that the first `n` bytes write, all of which must be digits. -/
def fixed? (n : Nat) (t : Text) : Option (Nat × Text) :=
  if (t.take n).length == n then (Number.digits? 10 (t.take n)).map (·, t.drop n) else none

/-- Two digits that write a number below a bound. -/
def pair? (bound : Nat) (t : Text) : Option (Nat × Text) :=
  match fixed? 2 t with
  | some (n, t) => if n < bound then some (n, t) else none
  | none => none

/-- A date with hyphens. -/
def date? (t : Text) : Option (Date × Text) := do
  let (year, t) ← fixed? 4 t
  let t ← Timestamp.byte? 0x2D t
  let (month, t) ← fixed? 2 t
  let t ← Timestamp.byte? 0x2D t
  let (day, t) ← fixed? 2 t
  let d : Date := { year, month, day }
  if d.isValid then some (d, t) else none

/-- A point and the digits behind it, if there is a point. -/
def clockFraction? : Text → Option (Nat × Text)
  | 0x2E :: t =>
    match t.span Decimal.isDigit with
    | ([], _) => none
    | (ds, rest) => some (Timestamp.nanoseconds ds, rest)
  | t => some (0, t)

/-- A time of day. -/
def clock? (t : Text) : Option (Clock × Text) := do
  let (hour, t) ← pair? 24 t
  let t ← Timestamp.byte? 0x3A t
  let (minute, t) ← pair? 60 t
  let t ← Timestamp.byte? 0x3A t
  let (second, t) ← pair? 60 t
  let (nanosecond, t) ← clockFraction? t
  some ({ hour, minute, second, nanosecond }, t)

/-- An offset, if one follows. -/
def offset? : Text → Option (Option Zone × Text)
  | [] => some (none, [])
  | b :: t =>
    if b == 0x5A then some (some .utc, t)
    else if b == 0x2B || b == 0x2D then
      (Timestamp.zone? .utc (b :: t.take 5)).map fun z => (some z, t.drop 5)
    else some (none, b :: t)

/-- Does the text start like a time of day: two digits and a colon? -/
def startsLikeClock (t : Text) : Bool :=
  (t.takeWhile Decimal.isDigit).length == 2 && (t.drop 2).head? == some 0x3A

end Config.Toml

end ReflectGen
