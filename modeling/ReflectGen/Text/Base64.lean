import ReflectGen.Text.Basic

/-!
# Base 64

Bytes as letters, digits, `+` and `/`: three bytes give four characters, and the last group is
filled up with `=`.

* `Base64.encode`: the characters for bytes.
* `Base64.decode?`: the bytes that characters stand for; ends of lines among them do not count.
-/

namespace ReflectGen

namespace Base64

/-- The character for six bits. -/
def char (n : Nat) : UInt8 :=
  if n < 26 then (0x41 + n).toUInt8
  else if n < 52 then (0x61 + (n - 26)).toUInt8
  else if n < 62 then (0x30 + (n - 52)).toUInt8
  else if n == 62 then 0x2B
  else 0x2F

/-- The base 64 text of bytes. -/
def encode : Text → Text
  | a :: b :: c :: t =>
    let n := (a.toNat * 256 + b.toNat) * 256 + c.toNat
    char (n / 262144) :: char (n / 4096 % 64) :: char (n / 64 % 64) :: char (n % 64) :: encode t
  | [a, b] =>
    let n := (a.toNat * 256 + b.toNat) * 256
    [char (n / 262144), char (n / 4096 % 64), char (n / 64 % 64), 0x3D]
  | [a] =>
    let n := a.toNat * 65536
    [char (n / 262144), char (n / 4096 % 64), 0x3D, 0x3D]
  | [] => []

/-- The six bits that a character stands for. -/
def bits? (b : UInt8) : Option Nat :=
  if 0x41 ≤ b && b ≤ 0x5A then some (b.toNat - 0x41)
  else if 0x61 ≤ b && b ≤ 0x7A then some (b.toNat - 0x61 + 26)
  else if 0x30 ≤ b && b ≤ 0x39 then some (b.toNat - 0x30 + 52)
  else if b == 0x2B then some 62
  else if b == 0x2F then some 63
  else none

/-- The number that four characters stand for. -/
def group? (a b c d : UInt8) : Option Nat := do
  some ((((← bits? a) * 64 + (← bits? b)) * 64 + (← bits? c)) * 64 + (← bits? d))

/-- The bytes of groups of four characters; `done` holds those in front in reverse.  Only the last
group may be filled up. -/
def groups? : Text → (done : Text) → Option Text
  | [], done => some done.reverse
  | [a, b, 0x3D, 0x3D], done =>
    (group? a b 0x41 0x41).map fun n => ((n / 65536).toUInt8 :: done).reverse
  | [a, b, c, 0x3D], done =>
    (group? a b c 0x41).map fun n => ((n / 256 % 256).toUInt8 :: (n / 65536).toUInt8 :: done).reverse
  | a :: b :: c :: d :: t, done =>
    match group? a b c d with
    | some n =>
      groups? t ((n % 256).toUInt8 :: (n / 256 % 256).toUInt8 :: (n / 65536).toUInt8 :: done)
    | none => none
  | _, _ => none

/-- The bytes that a text stands for. -/
def decode? (t : Text) : Option Text := groups? (t.filter fun b => b != 0x0A && b != 0x0D) []

end Base64

end ReflectGen
