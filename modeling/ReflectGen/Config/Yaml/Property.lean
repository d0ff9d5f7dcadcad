import ReflectGen.Config.Yaml.ScalarText
import ReflectGen.Number

/-!
# Anchors, tags and directives

What can stand in front of a YAML node to name it or to tell its type, and the lines in front of a
document that declare abbreviations for types.

* `anchorName?`: the name behind `&` or `*`.
* `tag?`: a tag, as a handle and a suffix.
* `directive?`: a line that starts with a percent sign.
-/

namespace ReflectGen

namespace Config.Yaml

/-- A tag: a handle that a directive can explain, and what follows it.  A tag that is written in
full has no handle. -/
structure Tag where
  handle : Text
  suffix : Text
  deriving DecidableEq, Repr

/-- A directive. -/
inductive Directive where
  | version (major minor : Nat)
  /-- What a handle stands for. -/
  | abbreviation (handle expansion : Text)
  deriving DecidableEq, Repr

/-! ## Anchors -/

/-- The characters at a cursor that belong to a class, and the cursor behind them. -/
def takeChars (k : Cursor) (p : Char → Bool) : List Char × Cursor :=
  (k.rest.takeWhile p, k.skipWhile p)

/-- May these characters follow an anchor? -/
def endsAnchor : List Char → Bool
  | [] => true
  | c :: _ => isGap c || isBreak c || "?:,]\x7d%@\x60".toList.contains c

/-- The name of an anchor or alias, at whose first character the cursor stands. -/
def anchorName? (k : Cursor) : Option (Text × Cursor) :=
  let (name, k) := takeChars k.skip isWordChar
  if name.isEmpty || !endsAnchor k.rest then none else some (Text.ofChars name, k)

/-! ## Tags -/

/-- The characters of tags that stand for themselves. -/
def isTagChar (c : Char) : Bool := isWordChar c || ";/?:@&=+$.!~*'()[],".toList.contains c

/-- A byte that a percent sign and two digits write. -/
def escapedByte? : List Char → Option UInt8
  | '%' :: rest => (hexFrom? 2 0 rest).map Nat.toUInt8
  | _ => none

/-- The number of bytes of the character that a byte starts. -/
def byteWidth? (b : UInt8) : Option Nat :=
  if b < 0x80 then some 1
  else if 0xC0 ≤ b && b < 0xE0 then some 2
  else if 0xE0 ≤ b && b < 0xF0 then some 3
  else if 0xF0 ≤ b && b < 0xF8 then some 4
  else none

/-- Reads the `n` bytes that continue a character. -/
def escapedTail? : (n : Nat) → Cursor → (done : Text) → Option (Text × Cursor)
  | 0, k, done => some (done, k)
  | n + 1, k, done =>
    match escapedByte? k.rest with
    | some b => if Text.isContinuation b then escapedTail? n (k.skips 3) (done ++ [b]) else none
    | none => none

/-- Reads a character whose bytes are escaped. -/
def escapedChar? (k : Cursor) : Option (Text × Cursor) := do
  let b ← escapedByte? k.rest
  let width ← byteWidth? b
  escapedTail? (width - 1) (k.skips 3) [b]

/-- Reads the characters of a tag. -/
def tagText? : (fuel : Nat) → Cursor → (done : Text) → Option (Text × Cursor)
  | 0, _, _ => none
  | n + 1, k, done =>
    match k.rest with
    | [] => some (done, k)
    | c :: rest =>
      if c == '%' then
        match escapedChar? k with
        | some (bytes, k) => tagText? n k (done ++ bytes)
        | none => none
      else if isTagChar c then tagText? n (k.step c rest) (done ++ String.utf8EncodeChar c)
      else some (done, k)

/-- Reads the characters of a tag; there must be one. -/
def someTagText? (k : Cursor) : Option (Text × Cursor) :=
  match tagText? (k.size + 1) k [] with
  | some ([], _) => none
  | r => r

/-- A handle, or the start of a tag that has none: an exclamation mark, a word, and perhaps a second
exclamation mark. -/
def handle? (k : Cursor) : Option (List Char × Cursor) :=
  if !k.isAt '!' then none
  else
    let (word, k) := takeChars k.skip isWordChar
    if k.isAt '!' then some ('!' :: word ++ ['!'], k.skip) else some ('!' :: word, k)

/-- Is the handle closed by a second exclamation mark? -/
def isClosedHandle (h : List Char) : Bool := 1 < h.length && h.getLast? == some '!'

/-- A tag that is not written in full. -/
def shortTag? (k : Cursor) : Option (Tag × Cursor) := do
  let (h, k) ← handle? k
  if isClosedHandle h then
    let (suffix, k) ← someTagText? k
    some ({ handle := Text.ofChars h, suffix }, k)
  else
    let (suffix, k) ← tagText? (k.size + 1) k (Text.ofChars (h.drop 1))
    if suffix.isEmpty then some ({ handle := [], suffix := lit "!" }, k)
    else some ({ handle := lit "!", suffix }, k)

/-- A tag that is written in full between angle brackets. -/
def fullTag? (k : Cursor) : Option (Tag × Cursor) := do
  let (suffix, k) ← someTagText? (k.skips 2)
  if k.isAt '>' then some ({ handle := [], suffix }, k.skip) else none

/-- A tag, at whose exclamation mark the cursor stands; a blank character must follow. -/
def tag? (k : Cursor) : Option (Tag × Cursor) := do
  let (tag, k) ← if (k.rest.drop 1).head? == some '<' then fullTag? k else shortTag? k
  if blankNext k.rest then some (tag, k) else none

/-! ## Directives -/

/-- The number of a version, of one or two digits. -/
def versionNumber? (k : Cursor) : Option (Nat × Cursor) :=
  let (ds, k) := takeChars k Char.isDigit
  if 2 < ds.length then none
  else (Number.digits? 10 (Text.ofChars ds)).map (·, k)

/-- The version behind the name of its directive. -/
def versionDirective? (k : Cursor) : Option (Directive × Cursor) := do
  let (major, k) ← versionNumber? (k.skipWhile isGap)
  if k.isAt '.' then
    let (minor, k) ← versionNumber? k.skip
    some (.version major minor, k)
  else none

/-- The handle and its expansion behind the name of their directive. -/
def tagDirective? (k : Cursor) : Option (Directive × Cursor) := do
  let (h, k) ← handle? (k.skipWhile isGap)
  if !(isClosedHandle h || h == ['!']) || !k.next?.any isGap then none
  else
    let (expansion, k) ← someTagText? (k.skipWhile isGap)
    if blankNext k.rest then some (.abbreviation (Text.ofChars h) expansion, k) else none

/-- A directive, at whose percent sign the cursor stands, with the rest of its line. -/
def directive? (k : Cursor) : Option (Directive × Cursor) := do
  let (name, k) := takeChars k.skip isWordChar
  if name.isEmpty || !blankNext k.rest then none
  else
    let (d, k) ←
      if name == "YAML".toList then versionDirective? k
      else if name == "TAG".toList then tagDirective? k
      else none
    let k ← headerEnd? k
    some (d, k)

end Config.Yaml

end ReflectGen
