import ReflectGen.Number

/-!
# Dates and times of day

Configuration files can name points in time: a date, a time of day, both together, or both with a
time zone.  A moment keeps the numbers that were written, and has three texts.

* `Moment.text`: what stands in a document.
* `Moment.shown`: what a message shows between quotes.
* `Moment.literal`: what a message shows of a value and its parts.
-/

namespace ReflectGen

/-- A day of the calendar. -/
structure Date where
  year : Nat
  month : Nat
  day : Nat
  deriving DecidableEq, Repr

/-- A time of day. -/
structure Clock where
  hour : Nat := 0
  minute : Nat := 0
  second : Nat := 0
  nanosecond : Nat := 0
  deriving DecidableEq, Repr

/-- A time zone. -/
inductive Zone where
  | utc
  /-- The zone of the machine, which is meant by an offset of nothing. -/
  | here
  /-- An offset from UTC in minutes. -/
  | offset (minutes : Int)
  deriving DecidableEq, Repr

/-- A point in time, as far as it is given. -/
inductive Moment where
  | instant (d : Date) (c : Clock) (z : Zone)
  | date (d : Date)
  | clock (c : Clock)
  | dateAndClock (d : Date) (c : Clock)
  deriving DecidableEq, Repr

/-- The digits of a number with zeros in front, `width` of them at least. -/
def padded (width n : Nat) : Text :=
  let ds := Text.ofNat n
  List.replicate (width - ds.length) 0x30 ++ ds

namespace Date

/-- Is it a leap year? -/
def isLeap (year : Nat) : Bool := year % 4 == 0 && (year % 100 != 0 || year % 400 == 0)

/-- The number of days of a month. -/
def daysIn (year month : Nat) : Nat :=
  if month == 2 then if isLeap year then 29 else 28
  else if month == 4 || month == 6 || month == 9 || month == 11 then 30
  else 31

/-- Does the calendar have this day? -/
def isValid (d : Date) : Bool :=
  1 ≤ d.month && d.month ≤ 12 && 1 ≤ d.day && d.day ≤ daysIn d.year d.month

/-- Year, month and day. -/
def text (d : Date) : Text :=
  padded 4 d.year ++ lit "-" ++ padded 2 d.month ++ lit "-" ++ padded 2 d.day

/-- The names of the months. -/
def monthNames : List String :=
  ["January", "February", "March", "April", "May", "June", "July", "August", "September",
    "October", "November", "December"]

/-- The name of the month. -/
def monthName (d : Date) : Text := lit (monthNames.getD (d.month - 1) "")

/-- The date as a value with its parts. -/
def literal (d : Date) : Text :=
  lit "toml.LocalDate\x7bYear:" ++ Text.ofNat d.year ++ lit ", Month:" ++ Text.ofNat d.month ++
    lit ", Day:" ++ Text.ofNat d.day ++ lit "\x7d"

end Date

namespace Clock

/-- Hours, minutes and seconds. -/
def wholeText (c : Clock) : Text :=
  padded 2 c.hour ++ lit ":" ++ padded 2 c.minute ++ lit ":" ++ padded 2 c.second

/-- The time with nine places behind the point, or with none if they are all zero. -/
def text (c : Clock) : Text :=
  c.wholeText ++ if c.nanosecond == 0 then [] else lit "." ++ padded 9 c.nanosecond

/-- The time without the zeros at the end of its fraction. -/
def shortText (c : Clock) : Text :=
  if c.nanosecond == 0 then c.wholeText else Text.trimRightBy (· == 0x30) c.text

/-- The numbers of the time, separated by commas. -/
def numbers (c : Clock) : Text :=
  Text.join (lit ", ") ([c.hour, c.minute, c.second, c.nanosecond].map Text.ofNat)

/-- The time as a value with its parts. -/
def literal (c : Clock) : Text :=
  lit "toml.LocalTime\x7bHour:" ++ Text.ofNat c.hour ++ lit ", Minute:" ++ Text.ofNat c.minute ++
    lit ", Second:" ++ Text.ofNat c.second ++ lit ", Nanosecond:" ++ Text.ofNat c.nanosecond ++
    lit "\x7d"

end Clock

namespace Zone

/-- The offset in minutes. -/
def minutes : Zone → Int
  | .offset m => m
  | _ => 0

/-- The zone with an offset; `none` is the zone that an offset of nothing means. -/
def ofMinutes (none : Zone) (m : Int) : Zone := if m == 0 then none else .offset m

/-- An offset with its sign, and with `separator` between hours and minutes. -/
def offsetText (separator : Text) (m : Int) : Text :=
  (if m < 0 then lit "-" else lit "+") ++ padded 2 (m.natAbs / 60) ++ separator ++
    padded 2 (m.natAbs % 60)

/-- The zone in a document. -/
def text (z : Zone) : Text := if z.minutes == 0 then lit "Z" else offsetText (lit ":") z.minutes

/-- The zone in a message: its offset, and its name or the offset again. -/
def shown (z : Zone) : Text :=
  offsetText [] z.minutes ++ lit " " ++
    match z with
    | .offset m => offsetText [] m
    | _ => lit "UTC"

/-- The zone as a part of a value. -/
def literal : Zone → Text
  | .utc => lit "time.UTC"
  | .here => lit "time.Local"
  | .offset _ => lit "time.Location(\"\")"

/-- Can the zone stand in a document?  Its offset must be less than a day. -/
def isWritable (z : Zone) : Bool := z.minutes.natAbs < 24 * 60

end Zone

namespace Moment

/-- The name of the kind of a moment. -/
def kindName : Moment → Text
  | .instant _ _ _ => lit "time.Time"
  | .date _ => lit "toml.LocalDate"
  | .clock _ => lit "toml.LocalTime"
  | .dateAndClock _ _ => lit "toml.LocalDateTime"

/-- A moment in a document. -/
def text : Moment → Text
  | .instant d c z => d.text ++ lit "T" ++ c.shortText ++ z.text
  | .date d => d.text
  | .clock c => c.text
  | .dateAndClock d c => d.text ++ lit "T" ++ c.text

/-- A moment in a message. -/
def shown : Moment → Text
  | .instant d c z => d.text ++ lit " " ++ c.shortText ++ lit " " ++ z.shown
  | m => m.text

/-- A moment as a value with its parts. -/
def literal : Moment → Text
  | .instant d c z =>
    lit "time.Date(" ++ Text.ofNat d.year ++ lit ", time." ++ d.monthName ++ lit ", " ++
      Text.ofNat d.day ++ lit ", " ++ c.numbers ++ lit ", " ++ z.literal ++ lit ")"
  | .date d => d.literal
  | .clock c => c.literal
  | .dateAndClock d c =>
    lit "toml.LocalDateTime\x7bDate:" ++ d.literal ++ lit ", Time:" ++ c.literal ++ lit "\x7d"

/-- Can the moment stand in a document? -/
def isWritable : Moment → Bool
  | .instant _ _ z => z.isWritable
  | _ => true

end Moment

end ReflectGen
