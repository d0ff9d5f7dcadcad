import ReflectGen.Moment

/-!
# Timestamps

The texts that stand for points in time: a date, or a date and a time of day.  Month, day, hours,
minutes and seconds may have one digit or two.

A reader is a function from a text to what it has read and what follows, if the part is there.

* `Timestamp.read?`: the moment that a text stands for.
-/

namespace ReflectGen

namespace Timestamp

/-- A number of one or two digits; a second digit is taken if there is one. -/
def number? : Text → Option (Nat × Text)
  | a :: b :: t =>
    if !Decimal.isDigit a then none
    else if Decimal.isDigit b then some ((a.toNat - 0x30) * 10 + (b.toNat - 0x30), t)
    else some (a.toNat - 0x30, b :: t)
  | [a] => if Decimal.isDigit a then some (a.toNat - 0x30, []) else none
  | [] => none

/-- The given byte. -/
def byte? (b : UInt8) : Text → Option Text
  | c :: t => if c == b then some t else none
  | [] => none

/-- A number below a bound. -/
def below? (bound : Nat) (t : Text) : Option (Nat × Text) :=
  match number? t with
  | some (n, t) => if n < bound then some (n, t) else none
  | none => none

/-- A date: four digits of the year, month and day. -/
def date? (t : Text) : Option (Date × Text) := do
  let year ← Number.digits? 10 (t.take 4)
  let t ← byte? 0x2D (t.drop 4)
  let (month, t) ← number? t
  let t ← byte? 0x2D t
  let (day, t) ← number? t
  let d : Date := { year, month, day }
  if d.isValid then some (d, t) else none

/-- The nanoseconds that the digits behind a point stand for; those behind the ninth are
dropped. -/
def nanoseconds (ds : Text) : Nat :=
  let ds := ds.take 9
  (Number.digits? 10 (ds ++ List.replicate (9 - ds.length) 0x30)).getD 0

/-- The digits behind a point or comma, if there are some. -/
def fraction : Text → Nat × Text
  | p :: t =>
    match t.span Decimal.isDigit with
    | ([], _) => (0, p :: t)
    | (ds, rest) => if p == 0x2E || p == 0x2C then (nanoseconds ds, rest) else (0, p :: t)
  | [] => (0, [])

/-- Hours, minutes and seconds. -/
def clock? (t : Text) : Option (Clock × Text) := do
  let (hour, t) ← below? 24 t
  let t ← byte? 0x3A t
  let (minute, t) ← below? 60 t
  let t ← byte? 0x3A t
  let (second, t) ← below? 60 t
  let (nanosecond, t) := fraction t
  some ({ hour, minute, second, nanosecond }, t)

/-- The number of exactly two digits up to a bound. -/
def twoDigits? (bound : Nat) (a b : UInt8) : Option Nat :=
  match Number.digits? 10 [a, b] with
  | some n => if n ≤ bound then some n else none
  | none => none

/-- A time zone: `Z`, or hours and minutes with a sign; `nothing` is what an offset of nothing
means. -/
def zone? (nothing : Zone) : Text → Option Zone
  | [0x5A] => some .utc
  | [s, a, b, 0x3A, c, d] =>
    if s == 0x2B || s == 0x2D then do
      let hours ← twoDigits? 24 a b
      let minutes ← twoDigits? 60 c d
      some (Zone.ofMinutes nothing (Number.signed (s == 0x2D) (hours * 60 + minutes)))
    else none
  | _ => none

/-- Does the text start like a date: four digits and a hyphen? -/
def startsLikeDate (t : Text) : Bool :=
  (t.takeWhile Decimal.isDigit).length == 4 && (t.drop 4).head? == some 0x2D

/-- The moment that a text stands for.  A time of day stands behind a `T` with a time zone, or
behind spaces without one; without a zone UTC is meant. -/
def read? (t : Text) : Option Moment :=
  if !startsLikeDate t then none
  else
    match date? t with
    | none => none
    | some (d, []) => some (.instant d {} .utc)
    | some (d, c :: rest) =>
      if c == 0x54 || c == 0x74 then do
        let (time, rest) ← clock? rest
        let zone ← zone? .here rest
        some (.instant d time zone)
      else if c == 0x20 then
        match clock? (rest.dropWhile (· == 0x20)) with
        | some (time, []) => some (.instant d time .utc)
        | _ => none
      else none

end Timestamp

end ReflectGen
