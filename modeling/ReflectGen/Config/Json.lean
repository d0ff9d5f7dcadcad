import ReflectGen.Config.Value

/-!
# Reading JSON configuration

The first value in the file is read, and what follows it is not looked at.  It must be an object,
or `null` for none.  Of several fields with one name the last counts.

A reader takes a text and gives what it has read and the rest, or nothing if the text is not well
formed.  Of the numbers it takes, `fuel` bounds the steps, and `depth` tells how many more objects
and lists may be opened.
-/

namespace ReflectGen

namespace Config.Json

/-- The text without the blanks in front. -/
def skip (t : Text) : Text :=
  t.dropWhile fun b => b == 0x20 || b == 0x09 || b == 0x0A || b == 0x0D

/-- The character for the number of an escape: a pair of surrogates makes one character, and a
surrogate alone gives U+FFFD.  The text behind the escape is returned too. -/
def unicode? (t : Text) : Option (Char × Text) :=
  match Quoted.hexNumber? 4 0 t with
  | none => none
  | some (n, rest) =>
    if 0xD800 ≤ n && n < 0xDC00 then
      match rest with
      | 0x5C :: 0x75 :: more =>
        match Quoted.hexNumber? 4 0 more with
        | none => none
        | some (m, after) =>
          if 0xDC00 ≤ m && m < 0xE000 then
            some (Char.ofNat (0x10000 + (n - 0xD800) * 0x400 + (m - 0xDC00)), after)
          else some (Rune.replacement, rest)
      | _ => some (Rune.replacement, rest)
    else some ((Text.scalar? 0 n).getD Rune.replacement, rest)

/-- The byte that a letter stands for behind a backslash. -/
def escaped? (b : UInt8) : Option UInt8 :=
  match b with
  | 0x22 => some 0x22
  | 0x5C => some 0x5C
  | 0x2F => some 0x2F
  | 0x62 => some 0x08
  | 0x66 => some 0x0C
  | 0x6E => some 0x0A
  | 0x72 => some 0x0D
  | 0x74 => some 0x09
  | _ => none

/-- The inside of a string up to its closing quote. -/
def string? : (fuel : Nat) → Text → (done : Text) → Option (Text × Text)
  | 0, _, _ => none
  | _ + 1, [], _ => none
  | n + 1, b :: t, done =>
    if b == 0x22 then some (Text.repaired done.reverse, t)
    else if b < 0x20 then none
    else if b == 0x5C then
      match t with
      | 0x75 :: t =>
        match unicode? t with
        | some (c, t) => string? n t ((String.utf8EncodeChar c).reverse ++ done)
        | none => none
      | e :: t =>
        match escaped? e with
        | some c => string? n t (c :: done)
        | none => none
      | [] => none
    else string? n t (b :: done)

/-- The digits in front of a text; there must be one. -/
def digits? (t : Text) : Option (Text × Text) :=
  match t.span Decimal.isDigit with
  | ([], _) => none
  | (ds, rest) => some (ds, rest)

/-- A minus in front of a text, and the rest. -/
def minus : Text → Text × Text
  | 0x2D :: t => ([0x2D], t)
  | t => ([], t)

/-- A sign in front of a text, and the rest. -/
def sign : Text → Text × Text
  | 0x2B :: t => ([0x2B], t)
  | t => minus t

/-- The digits in front of the point: a zero stands alone. -/
def whole? : Text → Option (Text × Text)
  | 0x30 :: t => some ([0x30], t)
  | t => digits? t

/-- A point and the digits behind it, if there is a point. -/
def fraction? : Text → Option (Text × Text)
  | 0x2E :: t => (digits? t).map fun (ds, t) => (0x2E :: ds, t)
  | t => some ([], t)

/-- An exponent, if there is one. -/
def exponent? : Text → Option (Text × Text)
  | [] => some ([], [])
  | e :: t =>
    if e == 0x65 || e == 0x45 then
      let (s, t) := sign t
      (digits? t).map fun (ds, t) => (e :: s ++ ds, t)
    else some ([], e :: t)

/-- A number: no needless zero in front, and digits on both sides of a point. -/
def number? (t : Text) : Option (ConfigValue × Text) := do
  let (m, t) := minus t
  let (whole, t) ← whole? t
  let (fraction, t) ← fraction? t
  let (exponent, t) ← exponent? t
  let d ← Decimal.read? (m ++ whole ++ fraction ++ exponent)
  if d.isFinite then some (.scalar (.real d.shortest), t) else none

/-- A word. -/
def word? (w : String) (v : ConfigValue) (t : Text) : Option (ConfigValue × Text) :=
  (Text.after? (lit w) t).map fun rest => (v, rest)

/-- How deep objects and lists may be nested. -/
def maxDepth : Nat := 10000

mutual

/-- A value, with blanks in front. -/
def value? : (fuel depth : Nat) → Text → Option (ConfigValue × Text)
  | 0, _, _ => none
  | n + 1, depth, t =>
    match skip t, depth with
    | 0x7B :: r, d + 1 =>
      match skip r with
      | 0x7D :: r => some (.object [], r)
      | r => fields? n d r []
    | 0x5B :: r, d + 1 =>
      match skip r with
      | 0x5D :: r => some (.list [], r)
      | r => items? n d r []
    | 0x22 :: r, _ => (string? n r []).map fun (s, r) => (.text s, r)
    | 0x74 :: r, _ => word? "true" (.bool true) (0x74 :: r)
    | 0x66 :: r, _ => word? "false" (.bool false) (0x66 :: r)
    | 0x6E :: r, _ => word? "null" .null (0x6E :: r)
    | r, _ => number? r

/-- The items of a list up to its end. -/
def items? : (fuel depth : Nat) → Text → (done : List ConfigValue) → Option (ConfigValue × Text)
  | 0, _, _, _ => none
  | n + 1, depth, t, done =>
    match value? n depth t with
    | none => none
    | some (v, r) =>
      match skip r with
      | 0x2C :: r => items? n depth r (v :: done)
      | 0x5D :: r => some (.list (v :: done).reverse, r)
      | _ => none

/-- The fields of an object up to its end. -/
def fields? : (fuel depth : Nat) → Text → (done : List (Text × ConfigValue)) →
    Option (ConfigValue × Text)
  | 0, _, _, _ => none
  | n + 1, depth, t, done =>
    match skip t with
    | 0x22 :: r =>
      match string? n r [] with
      | none => none
      | some (name, r) =>
        match skip r with
        | 0x3A :: r =>
          match value? n depth r with
          | none => none
          | some (v, r) =>
            match skip r with
            | 0x2C :: r => fields? n depth r (setField done name v)
            | 0x7D :: r => some (.object (setField done name v), r)
            | _ => none
        | _ => none
    | _ => none

end

/-- The fields that a file sets, or nothing if it is not well formed. -/
def read (t : Text) : Option ConfigValue :=
  match value? (2 * t.length + 2) maxDepth t with
  | some (.object fs, _) => some (.object fs)
  | some (.null, _) => some (.object [])
  | _ => none

end Config.Json

end ReflectGen
