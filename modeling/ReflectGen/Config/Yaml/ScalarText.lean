import ReflectGen.Config.Yaml.Cursor
import ReflectGen.Text.Quoted

/-!
# The texts of YAML scalars

A scalar is written plainly, between quotes, or as a block of lines.  In the first two forms blank
characters around a line break are dropped, one line break counts as a space, and of several the
first is dropped; a block keeps its lines, or folds them in the same manner.

* `plain?`: a scalar without quotes, which ends where something else starts.
* `quoted?`: a scalar between single or double quotes.
* `block?`: a literal or folded block.

Each reader takes a cursor and gives the text and the cursor behind it, or nothing if the text is
not well formed.  The numbers the readers take bound their steps.
-/

namespace ReflectGen

namespace Config.Yaml

/-! ## Blank characters inside scalars -/

/-- The blank characters behind a part of a scalar, the last one first: gaps on its line, or line
breaks, the first of which is kept apart. -/
inductive Blank where
  | gaps (cs : List Char)
  | breaks (first more : List Char)
  deriving DecidableEq, Repr

namespace Blank

/-- No blank characters. -/
def none : Blank := .gaps []

/-- Is there a line break? -/
def hasBreak : Blank → Bool
  | .gaps _ => false
  | .breaks _ _ => true

/-- With one more gap, which counts only in front of the first line break. -/
def withGap (c : Char) : Blank → Blank
  | .gaps cs => .gaps (c :: cs)
  | b => b

/-- With one more line break; it drops the gaps in front of it. -/
def withBreak (nl : List Char) : Blank → Blank
  | .gaps _ => .breaks nl []
  | .breaks first more => .breaks first (nl ++ more)

/-- What the blank characters count as between two parts of a scalar, the last one first. -/
def folded : Blank → List Char
  | .gaps cs => cs
  | .breaks first more =>
    if first.head? == some '\n' then if more.isEmpty then [' '] else more else more ++ first

/-- Reads blank characters.  On later lines no tab may stand in a column below `least`. -/
def read? (least : Nat) : (fuel : Nat) → Cursor → Blank → Option (Cursor × Blank)
  | 0, _, _ => Option.none
  | n + 1, k, b =>
    match k.rest with
    | [] => some (k, b)
    | c :: rest =>
      if isGap c then
        if b.hasBreak && k.column < least && c == '\t' then Option.none
        else read? least n (k.step c rest) (b.withGap c)
      else if isBreak c then read? least n k.newLine.2 (b.withBreak k.newLine.1)
      else some (k, b)

/-- Reads all blank characters at a cursor. -/
def readAll? (least : Nat) (k : Cursor) (b : Blank) : Option (Cursor × Blank) :=
  read? least (k.size + 1) k b

end Blank

/-! ## Plain scalars -/

/-- Does a plain scalar end in front of these characters?  It does in front of a colon that ends a
key and, within brackets, in front of what belongs to them. -/
def endsPlain (inFlow : Bool) : List Char → Bool
  | [] => true
  | c :: rest =>
    isGap c || isBreak c || (c == ':' && blankNext rest) ||
      (inFlow && (c == ',' || c == '?' || c == '[' || c == ']' || c == '{' || c == '}'))

/-- The characters of a plain scalar up to the next blank one or to its end; `done` holds those
read so far, the last one first. -/
def plainRun (inFlow : Bool) : List Char → Cursor → (done : List Char) → List Char × Cursor
  | [], k, done => (done, k)
  | c :: rest, k, done =>
    if endsPlain inFlow (c :: rest) then (done, k)
    else plainRun inFlow rest (k.step c rest) (c :: done)

/-- A plain scalar: its text, whether line breaks have been read behind it, and the cursor. -/
structure PlainScalar where
  text : List Char
  afterBreak : Bool
  cursor : Cursor
  deriving Repr

/-- The plain scalar with these characters, the last one first, and these blank characters behind
them. -/
def PlainScalar.of (done : List Char) (b : Blank) (k : Cursor) : PlainScalar where
  text := done.reverse
  afterBreak := b.hasBreak
  cursor := k

/-- Reads a plain scalar part by part; `done` holds its characters, the last one first, and `b` the
blank characters behind them. -/
def plainFrom? (inFlow : Bool) (least : Nat) : (fuel : Nat) → Cursor → (done : List Char) →
    Blank → Option PlainScalar
  | 0, _, _, _ => none
  | n + 1, k, done, b =>
    if k.isAtDocumentMark || k.isAt '#' then some (.of done b k)
    else
      match plainRun inFlow k.rest k [] with
      | ([], _) => some (.of done b k)
      | (run, k) =>
        let done := run ++ b.folded ++ done
        if !k.rest.isEmpty && blankNext k.rest then
          match Blank.readAll? least k .none with
          | none => none
          | some (k, b) =>
            if !inFlow && k.column < least then some (.of done b k)
            else plainFrom? inFlow least n k done b
        else some (.of done .none k)

/-- Reads a plain scalar.  Its later lines start in column `least` or behind it, unless it stands
within brackets. -/
def plain? (inFlow : Bool) (least : Nat) (k : Cursor) : Option PlainScalar :=
  plainFrom? inFlow least (k.size + 1) k [] .none

/-! ## Quoted scalars -/

/-- The characters that an escape of one letter stands for. -/
def escapes : List (Char × Nat) :=
  [('0', 0), ('a', 7), ('b', 8), ('t', 9), ('\t', 9), ('n', 10), ('v', 11), ('f', 12), ('r', 13),
    ('e', 27), (' ', 0x20), ('"', 0x22), ('\'', 0x27), ('\\', 0x5C), ('N', 0x85), ('_', 0xA0),
    ('L', 0x2028), ('P', 0x2029)]

/-- The number of digits behind the letter of an escape that has digits. -/
def escapeWidths : List (Char × Nat) := [('x', 2), ('u', 4), ('U', 8)]

/-- The number that the next `n` digits write to the base sixteen, continued from `acc`. -/
def hexFrom? : (n : Nat) → (acc : Nat) → List Char → Option Nat
  | 0, acc, _ => some acc
  | _ + 1, _, [] => none
  | n + 1, acc, c :: rest =>
    match (if c.toNat < 0x80 then Quoted.hexValue? c.toUInt8 else none) with
    | some v => hexFrom? n (acc * 16 + v) rest
    | none => none

/-- The character for an escape, given what stands behind the backslash, and the length of that. -/
def escape? : List Char → Option (Char × Nat)
  | [] => none
  | c :: rest =>
    match escapes.lookup c with
    | some n => some (Char.ofNat n, 1)
    | none =>
      match escapeWidths.lookup c with
      | none => none
      | some width =>
        match (hexFrom? width 0 rest).bind (Text.scalar? 0) with
        | some d => some (d, width + 1)
        | none => none

/-- A part of a quoted scalar: its characters, the last one first, whether an escaped line break
ends it, and the cursor. -/
structure QuotedPart where
  done : List Char
  joined : Bool
  cursor : Cursor
  deriving Repr

/-- Reads a quoted scalar up to the next blank character, to an escaped line break or to the
closing quote. -/
def quotedRun? (quote : Char) : (fuel : Nat) → Cursor → (done : List Char) → Option QuotedPart
  | 0, _, _ => none
  | n + 1, k, done =>
    match k.rest with
    | [] => some { done, joined := false, cursor := k }
    | c :: rest =>
      if isGap c || isBreak c then some { done, joined := false, cursor := k }
      else if c == quote then
        -- A single quote is written twice.
        if quote == '\'' && rest.head? == some '\'' then quotedRun? quote n (k.skips 2) (c :: done)
        else some { done, joined := false, cursor := k }
      else if c == '\\' && quote == '"' then
        if rest.head?.any isBreak then
          some { done, joined := true, cursor := k.skip.newLine.2 }
        else
          match escape? rest with
          | some (d, length) => quotedRun? quote n (k.skips (length + 1)) (d :: done)
          | none => none
      else quotedRun? quote n (k.step c rest) (c :: done)

/-- Reads a quoted scalar part by part up to its closing quote. -/
def quotedFrom? (quote : Char) : (fuel : Nat) → Cursor → (done : List Char) →
    Option (List Char × Cursor)
  | 0, _, _ => none
  | n + 1, k, done =>
    if k.isAtDocumentMark || k.rest.isEmpty then none
    else
      match quotedRun? quote (k.size + 1) k done with
      | none => none
      | some p =>
        if p.cursor.isAt quote then some (p.done.reverse, p.cursor.skip)
        else
          match Blank.readAll? 0 p.cursor (if p.joined then .breaks [] [] else .none) with
          | none => none
          | some (k, b) => quotedFrom? quote n k (b.folded ++ p.done)

/-- Reads a quoted scalar, at whose opening quote the cursor stands. -/
def quoted? (quote : Char) (k : Cursor) : Option (List Char × Cursor) :=
  quotedFrom? quote (k.size + 1) k.skip []

/-! ## Blocks -/

/-- How the line breaks at the end of a block are treated. -/
inductive Chomp where
  | clip
  | strip
  | keep
  deriving DecidableEq, Repr

/-- The mark for the end of a block, if there is one. -/
def chomp (k : Cursor) : Chomp × Cursor :=
  if k.isAt '+' then (.keep, k.skip) else if k.isAt '-' then (.strip, k.skip) else (.clip, k)

/-- The indentation that a header tells, if it does; it must not be zero. -/
def increment? (k : Cursor) : Option (Nat × Cursor) :=
  match k.next? with
  | some c =>
    if c == '0' then none
    else if c.isDigit then some (c.toNat - 0x30, k.skip)
    else some (0, k)
  | none => some (0, k)

/-- The two marks of a header, in any order. -/
def blockMarks? (k : Cursor) : Option (Chomp × Nat × Cursor) :=
  if k.isAt '+' || k.isAt '-' then do
    let (c, k) := chomp k
    let (n, k) ← increment? k
    some (c, n, k)
  else do
    let (n, k) ← increment? k
    if n == 0 then some (.clip, 0, k)
    else
      let (c, k) := chomp k
      some (c, n, k)

/-- The rest of the line of a header: blanks and a comment. -/
def headerEnd? (k : Cursor) : Option Cursor :=
  let k := k.skipWhile isGap
  let k := if k.isAt '#' then k.toLineEnd else k
  if breakNext k.rest then some k.newLine.2 else none

/-- Is a space at the cursor part of the indentation?  It is not known as long as it is zero. -/
def inIndent (indent : Nat) (k : Cursor) : Bool := indent == 0 || k.column < indent

/-- Moves over the spaces of an indentation. -/
def skipIndent (indent : Nat) : List Char → Cursor → Cursor
  | [], k => k
  | c :: rest, k =>
    if inIndent indent k && c == ' ' then skipIndent indent rest (k.step c rest) else k

/-- Reads empty lines and the indentation of the next line: their line breaks, the last one first,
the greatest indentation, and the cursor.  There must be no tab in the indentation. -/
def emptyLines? (indent : Nat) : (fuel : Nat) → Cursor → (done : List Char) → (widest : Nat) →
    Option (List Char × Nat × Cursor)
  | 0, _, _, _ => none
  | n + 1, k, done, widest =>
    let k := skipIndent indent k.rest k
    let widest := max widest k.column
    if inIndent indent k && k.isAt '\t' then none
    else if !k.rest.isEmpty && breakNext k.rest then
      emptyLines? indent n k.newLine.2 (k.newLine.1 ++ done) widest
    else some (done, widest, k)

/-- Reads the lines of a block.  `done` holds its characters, the last one first, `lead` the break
behind the last line and `empty` the breaks behind that, the last one first; `indented` tells whether the last line
starts with a blank. -/
def blockLines? (isFolded : Bool) (indent : Nat) : (fuel : Nat) → Cursor →
    (done lead empty : List Char) → (indented : Bool) →
    Option (List Char × List Char × List Char × Cursor)
  | 0, _, _, _, _, _ => none
  | n + 1, k, done, lead, empty, indented =>
    if k.column != indent || k.rest.isEmpty then some (done, lead, empty, k)
    else
      let blank := k.next?.any isGap
      let joint :=
        if isFolded && !indented && !blank && lead.head? == some '\n' then
          if empty.isEmpty then [' '] else []
        else lead
      let line := k.rest.takeWhile fun c => !isBreak c
      let (lead, k) := k.toLineEnd.newLine
      let done := line.reverse ++ empty ++ joint ++ done
      match emptyLines? indent (k.size + 1) k [] 0 with
      | none => none
      | some (empty, _, k) => blockLines? isFolded indent n k done lead empty blank

/-- The characters of a block with the line breaks at its end. -/
def chomped (c : Chomp) (done lead empty : List Char) : List Char :=
  done.reverse ++
    match c with
    | .strip => []
    | .clip => lead
    | .keep => lead ++ empty.reverse

/-- Reads a block, at whose first character the cursor stands, below something that is indented by
`outer`. -/
def block? (isFolded : Bool) (outer : Int) (k : Cursor) : Option (List Char × Cursor) := do
  let (c, increment, k) ← blockMarks? k.skip
  let k ← headerEnd? k
  let told := if increment == 0 then 0 else (max outer 0).toNat + increment
  let (empty, widest, k) ← emptyLines? told (k.size + 1) k [] 0
  let indent := if told == 0 then max (max widest (outer + 1).toNat) 1 else told
  let (done, lead, empty, k) ← blockLines? isFolded indent (k.size + 1) k [] [] empty false
  some (chomped c done lead empty, k)

end Config.Yaml

end ReflectGen
