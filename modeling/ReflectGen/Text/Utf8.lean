import ReflectGen.Text.Basic

/-!
# Characters of a byte text

A text is read as UTF-8 from the front.  Where the bytes form a character in its shortest form,
the character is read; where they do not, the byte in front stands alone as a *stray* byte and
reading goes on behind it.  So every text is a sequence of runes, and no byte is lost.

* `Rune`, `Text.runes`, `Text.ofRunes`: the view and its inverse.
* `Text.chars`: the view in which a stray byte is the replacement character U+FFFD.
* `Text.isUtf8`: no stray byte.
-/

namespace ReflectGen

/-- A piece of a byte text: a character, or a byte that is part of none. -/
inductive Rune where
  | char (c : Char)
  | stray (b : UInt8)
  deriving DecidableEq, Repr, Inhabited

namespace Rune

/-- The bytes that a rune was read from. -/
def bytes : Rune → Text
  | .char c => String.utf8EncodeChar c
  | .stray b => [b]

/-- The replacement character, which stands for a stray byte. -/
def replacement : Char := Char.ofNat 0xFFFD

/-- The rune as a character. -/
def toChar : Rune → Char
  | .char c => c
  | .stray _ => replacement

/-- Is the rune a character that satisfies `p`? -/
def isCharWith (p : Char → Bool) : Rune → Bool
  | .char c => p c
  | .stray _ => false

end Rune

namespace Text

/-- Continuation bytes are those from `0x80` to `0xBF`. -/
def isContinuation (b : UInt8) : Bool := 0x80 ≤ b && b ≤ 0xBF

/-- The character with number `n`, if `n` is at least `least` and a scalar value. -/
def scalar? (least n : Nat) : Option Char :=
  if least ≤ n then if h : n.isValidChar then some (Char.ofNatAux n h) else none else none

/-- The six low bits of a continuation byte. -/
def low6 (b : UInt8) : Nat := b.toNat % 64

/-- The character that starts with the lead byte `b` when `rest` follows, with the number of
continuation bytes it takes. -/
def multibyte? (b : UInt8) (rest : Text) : Option (Char × Nat) :=
  if 0xC0 ≤ b && b ≤ 0xDF then
    match rest with
    | c₁ :: _ =>
      if isContinuation c₁ then
        (scalar? 0x80 (b.toNat % 32 * 64 + low6 c₁)).map (·, 1)
      else none
    | _ => none
  else if 0xE0 ≤ b && b ≤ 0xEF then
    match rest with
    | c₁ :: c₂ :: _ =>
      if isContinuation c₁ && isContinuation c₂ then
        (scalar? 0x800 ((b.toNat % 16 * 64 + low6 c₁) * 64 + low6 c₂)).map (·, 2)
      else none
    | _ => none
  else if 0xF0 ≤ b && b ≤ 0xF7 then
    match rest with
    | c₁ :: c₂ :: c₃ :: _ =>
      if isContinuation c₁ && isContinuation c₂ && isContinuation c₃ then
        (scalar? 0x10000
          (((b.toNat % 8 * 64 + low6 c₁) * 64 + low6 c₂) * 64 + low6 c₃)).map (·, 3)
      else none
    | _ => none
  else none

/-- The rune that starts with `b` when `rest` follows, and how many bytes of `rest` belong
to it. -/
def lead (b : UInt8) (rest : Text) : Rune × Nat :=
  if b < 0x80 then (.char (Char.ofNat b.toNat), 0)
  else
    match multibyte? b rest with
    | some (c, k) => (.char c, k)
    | none => (.stray b, 0)

/-- Reads runes; `skip` bytes in front belong to the rune read last, and `done` holds the runes
read so far in reverse. -/
def runesLoop : Text → (skip : Nat) → (done : List Rune) → List Rune
  | [], _, done => done.reverse
  | _ :: t, k + 1, done => runesLoop t k done
  | b :: t, 0, done => runesLoop t (lead b t).2 ((lead b t).1 :: done)

/-- The runes of a text. -/
def runes (t : Text) : List Rune := runesLoop t 0 []

/-- The text of a list of runes. -/
def ofRunes (rs : List Rune) : Text := rs.flatMap Rune.bytes

/-- The characters of a text, with U+FFFD for every stray byte. -/
def chars (t : Text) : List Char := t.runes.map Rune.toChar

/-- The UTF-8 text of a list of characters. -/
def ofChars (cs : List Char) : Text := cs.flatMap String.utf8EncodeChar

/-- Is the text UTF-8 throughout? -/
def isUtf8 (t : Text) : Bool := t.runes.all (Rune.isCharWith fun _ => true)

/-- The text with U+FFFD in place of every stray byte. -/
def repaired (t : Text) : Text := ofChars t.chars

/-! ## Reading loses nothing -/

/-- The rune in front and the bytes it takes are the bytes read. -/
theorem bytes_lead_ascii {b : UInt8} (h : b < 0x80) :
    (Rune.char (Char.ofNat b.toNat)).bytes = [b] := by
  have key : ∀ n : Fin 128, String.utf8EncodeChar (Char.ofNat n.val) = [UInt8.ofNat n.val] := by
    decide
  have hb : b.toNat < 128 := by simpa [UInt8.lt_iff_toNat_lt] using h
  simpa [Rune.bytes] using key ⟨b.toNat, hb⟩

end Text

end ReflectGen
