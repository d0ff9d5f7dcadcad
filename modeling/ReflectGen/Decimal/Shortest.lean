import ReflectGen.Number

/-!
# The shortest text of a fraction in double precision

A fraction is rounded to the nearest number of double precision, `m · 2 ^ q`, ties going to an even
`m`.  Its text has the fewest digits that read back as the same number; of two such texts the
nearer one is taken.

* `Decimal.toDouble`: the rounding.
* `Double.digits`: the shortest digits, found on coarser grids first.
* `Decimal.shortest`: the text, with an exponent below `10⁻⁴` and from `10⁶` on.
-/

namespace ReflectGen

/-- The number `mantissa · 2 ^ exponent`. -/
structure Double where
  mantissa : Nat
  exponent : Int
  deriving DecidableEq, Repr

/-- The quotient, rounded to the nearest number, and to the even one of two. -/
def roundDiv (num den : Nat) : Nat :=
  let q := num / den
  let r := num % den
  if 2 * r < den then q
  else if den < 2 * r then q + 1
  else if q % 2 == 0 then q else q + 1

/-- `num / den · base ^ e` as a quotient. -/
def scaled (num den base : Nat) (e : Int) : Nat × Nat :=
  match e with
  | .ofNat n => (num * base.pow n, den)
  | .negSucc n => (num, den * base.pow (n + 1))

namespace Double

/-- The exponent of the finest numbers. -/
def leastExponent : Int := -1074

/-- The value as a quotient. -/
def fraction (d : Double) : Nat × Nat := scaled d.mantissa 1 2 d.exponent

/-- The middle between the number and its lower neighbour, and that to its upper one, in units of
`2 ^ (exponent - 2)`. -/
def bounds (d : Double) : Nat × Nat :=
  let low := if d.mantissa == Nat.pow 2 52 && leastExponent < d.exponent then 1 else 2
  (4 * d.mantissa - low, 4 * d.mantissa + 2)

/-- Does `n · 10 ^ e` read back as the number? -/
def reads (d : Double) (n : Nat) (e : Int) : Bool :=
  let (low, high) := d.bounds
  -- Compare `n · 10 ^ e` with `low` and `high` times `2 ^ (exponent - 2)`.
  let (a, b) := scaled n 1 10 e
  let (c, f) := scaled 1 1 2 (d.exponent - 2)
  let x := a * f
  let l := low * c * b
  let h := high * c * b
  if d.mantissa % 2 == 0 then l ≤ x && x ≤ h else l < x && x < h

/-- The least `p` with value below `10 ^ p`, searched upwards. -/
def placesFrom : (fuel : Nat) → Double → Int → Int
  | 0, _, p => p
  | n + 1, d, p =>
    let (a, b) := d.fraction
    let (c, e) := scaled 1 1 10 p
    if a * e < c * b then p else placesFrom n d (p + 1)

/-- The number of places in front of the point; negative for small numbers.  The binary exponent
tells it up to one place, as `0.30103` is nearly the decimal logarithm of two. -/
def places (d : Double) : Int :=
  placesFrom 8 d ((d.mantissa.log2 + d.exponent) * 30103 / 100000 - 1)

/-- The shortest digits that read back, with `n` of them at least. -/
def digitsFrom : (fuel : Nat) → Double → (n : Nat) → (p : Int) → Nat × Int
  | 0, d, _, _ => (d.mantissa, 0)
  | k + 1, d, n, p =>
    let e := p - n
    let (a, b) := d.fraction
    let (x, y) := scaled a b 10 (-e)
    let down := x / y
    let up := down + 1
    let downReads := 0 < down && d.reads down e
    let upReads := d.reads up e
    if downReads && upReads then
      (if 2 * (x % y) < y || (2 * (x % y) == y && down % 2 == 0) then down else up, e)
    else if downReads then (down, e)
    else if upReads then (up, e)
    else digitsFrom k d (n + 1) p

/-- The shortest digits that read back, and the exponent of the last one. -/
def digits (d : Double) : Nat × Int := digitsFrom 20 d 1 d.places

end Double

namespace Decimal

/-- The number of double precision that `num / den` rounds to when its last binary place has
exponent `q` or more. -/
def roundAt (num den : Nat) (q : Int) : Double :=
  let (a, b) := scaled num den 2 (-q)
  { mantissa := roundDiv a b, exponent := q }

/-- The nearest number of double precision, without the sign; very small fractions give zero. -/
def toDouble (d : Decimal) : Double :=
  let places : Int := (Nat.toDigits 10 d.digits).length + d.exponent
  if d.digits == 0 || places < -400 then { mantissa := 0, exponent := 0 }
  else
    let (num, den) := scaled d.digits 1 10 d.exponent
    let q : Int := max ((num.log2 : Int) - den.log2 - 53) Double.leastExponent
    let r := roundAt num den q
    if r.mantissa < Nat.pow 2 53 then r
    else
      let r := roundAt num den (q + 1)
      if r.mantissa < Nat.pow 2 53 then r else roundAt num den (q + 2)

/-- Digits with a point behind the first one, if there are more. -/
def pointed (ds : Text) : Text :=
  match ds with
  | [] => []
  | [d] => [d]
  | d :: rest => d :: 0x2E :: rest

/-- An exponent with its sign and two digits at least. -/
def exponentText (e : Int) : Text :=
  let ds := Text.ofNat e.natAbs
  lit "e" ++ (if e < 0 then lit "-" else lit "+") ++ (if ds.length < 2 then lit "0" else []) ++ ds

/-- Digits whose last one has exponent `e`, in positional notation. -/
def positional (ds : Text) (e : Int) : Text :=
  match e with
  | .ofNat n => ds ++ List.replicate n 0x30
  | .negSucc n =>
    let k := n + 1
    if k < ds.length then ds.take (ds.length - k) ++ 0x2E :: ds.drop (ds.length - k)
    else lit "0." ++ List.replicate (k - ds.length) 0x30 ++ ds

/-- The shortest text of a fraction in double precision. -/
def shortest (d : Decimal) : Text :=
  let sign := if d.negative then lit "-" else []
  let r := d.toDouble
  if r.mantissa == 0 then sign ++ lit "0"
  else
    let (n, e) := r.digits
    let ds := Text.ofNat n
    let trimmed := Text.trimRightBy (· == 0x30) ds
    let e := e + (ds.length - trimmed.length : Nat)
    let first : Int := e + trimmed.length - 1
    if first < -4 || 6 ≤ first then sign ++ pointed trimmed ++ exponentText first
    else sign ++ positional trimmed e

end Decimal

end ReflectGen
