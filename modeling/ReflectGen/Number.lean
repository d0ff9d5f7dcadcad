import ReflectGen.Text.Quoted

/-!
# Numbers in texts

Integers in several bases and decimal fractions, as configuration files write them.

* `Number.integer?`: an integer in a given base, within sixty-four bits.
* `Number.prefixed?`: an integer whose base is told by how it starts.
* `Decimal`, `Decimal.read?`: a decimal fraction, kept exactly.
* `Decimal.isFinite`: does the fraction round to a finite number of double precision?
* `Decimal.le`: the order of fractions.
-/

namespace ReflectGen

namespace Number

/-- The value of a digit in a base. -/
def digit? (base : Nat) (b : UInt8) : Option Nat :=
  match Quoted.hexValue? b with
  | some v => if v < base then some v else none
  | none => none

/-- The number that digits continue from `acc`. -/
def digitsFrom? (base : Nat) : (acc : Nat) → Text → Option Nat
  | acc, [] => some acc
  | acc, b :: t =>
    match digit? base b with
    | some v => digitsFrom? base (acc * base + v) t
    | none => none

/-- The number that digits write; there must be one. -/
def digits? (base : Nat) (t : Text) : Option Nat := if t.isEmpty then none else digitsFrom? base 0 t

/-- A sign in front of a text, true for minus, and the rest. -/
def sign : Text → Bool × Text
  | 0x2D :: t => (true, t)
  | 0x2B :: t => (false, t)
  | t => (false, t)

/-- An integer with its sign. -/
def signed (negative : Bool) (n : Nat) : Int := if negative then -n else n

/-- Does the integer fit into sixty-four bits with a sign? -/
def fits (n : Int) : Bool := -9223372036854775808 ≤ n && n ≤ 9223372036854775807

/-- The integer that a sign and digits write, if it fits. -/
def integer? (base : Nat) (t : Text) : Option Int :=
  let (negative, ds) := sign t
  match digits? base ds with
  | some n => if fits (signed negative n) then some (signed negative n) else none
  | none => none

/-- The number that digits write, if it fits into sixty-four bits without a sign. -/
def natural? (base : Nat) (t : Text) : Option Nat :=
  match digits? base t with
  | some n => if n < 18446744073709551616 then some n else none
  | none => none

/-- The base that a text without sign tells by how it starts, and its digits. -/
def base : Text → Nat × Text
  | 0x30 :: c :: d :: t =>
    if c == 0x62 || c == 0x42 then (2, d :: t)
    else if c == 0x6F || c == 0x4F then (8, d :: t)
    else if c == 0x78 || c == 0x58 then (16, d :: t)
    else (8, c :: d :: t)
  | [0x30, c] => (8, [c])
  | t => (10, t)

/-- An integer whose base is told by how it starts, with a sign or without, if it fits. -/
def prefixed? (t : Text) : Option Int :=
  let (negative, u) := sign t
  let (b, ds) := base u
  match digits? b ds with
  | some n =>
    if fits (signed negative n) then some (signed negative n)
    else if u.length == t.length && n < 18446744073709551616 then some n
    else none
  | none => none

end Number

/-- The fraction `digits · 10 ^ exponent` with a sign. -/
structure Decimal where
  negative : Bool
  digits : Nat
  exponent : Int
  deriving DecidableEq, Repr

namespace Decimal

/-- The exponent behind a mantissa; nothing at all means zero. -/
def exponent? : Text → Option Int
  | [] => some 0
  | b :: t =>
    if b == 0x65 || b == 0x45 then
      let (negative, ds) := Number.sign t
      (Number.digits? 10 ds).map (Number.signed negative)
    else none

/-- Is the byte a decimal digit? -/
def isDigit (b : UInt8) : Bool := 0x30 ≤ b && b ≤ 0x39

/-- A sign, digits with an optional point among them, and an optional exponent. -/
def read? (t : Text) : Option Decimal :=
  let (negative, u) := Number.sign t
  let (whole, rest) := u.span isDigit
  let (fraction, rest) := match rest with
    | 0x2E :: r => r.span isDigit
    | r => ([], r)
  match Number.digits? 10 (whole ++ fraction), exponent? rest with
  | some digits, some e => some { negative, digits, exponent := e - fraction.length }
  | _, _ => none

/-- The least number that does not round to a finite number of double precision. -/
def overflow : Nat := Nat.pow 2 1024 - Nat.pow 2 970

/-- Does the fraction round to a finite number of double precision? -/
def isFinite (d : Decimal) : Bool :=
  if d.digits == 0 then true
  else
    -- The number of digits in front of the point decides all but the narrow cases.
    let places : Int := (Nat.toDigits 10 d.digits).length + d.exponent
    if places < 309 then true
    else if 310 < places then false
    else
      match d.exponent with
      | .ofNat e => d.digits * Nat.pow 10 e < overflow
      | .negSucc e => d.digits < overflow * Nat.pow 10 (e + 1)

/-- The fraction in units of `10 ^ e`, which must not be coarser than its own exponent. -/
def inUnits (d : Decimal) (e : Int) : Int :=
  Number.signed d.negative (d.digits * Nat.pow 10 (d.exponent - e).toNat)

/-- Is the first fraction not greater than the second? -/
def le (a b : Decimal) : Bool :=
  let e := min a.exponent b.exponent
  a.inUnits e ≤ b.inUnits e

end Decimal

end ReflectGen
