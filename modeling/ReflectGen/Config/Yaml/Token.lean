import ReflectGen.Config.Yaml.Property

/-!
# The tokens of a YAML file

Tokens are read one after the other.  Indentation becomes tokens too: a block starts in front of
the first token that is indented more than what surrounds it, and ends in front of the first one
that is indented less.  A key is recognised only at the colon behind it; the token that tells of
the key is then put in front of it, so a token may be handed out only when no colon can follow any
more.

* `Token`: the tokens.
* `Scanner.fetch?`: reads one more token.
* `Scanner.peek?`, `Scanner.drop`: the stream of tokens, in which two tokens are read ahead.
-/

namespace ReflectGen

namespace Config.Yaml

/-- A token. -/
inductive Token where
  | streamStart
  | streamEnd
  | directive (d : Directive)
  | documentStart
  | documentEnd
  | blockSequence
  | blockMapping
  | blockEnd
  | flowSequence
  | flowSequenceEnd
  | flowMapping
  | flowMappingEnd
  /-- A hyphen in front of an item. -/
  | entry
  /-- A comma within brackets. -/
  | flowEntry
  | key
  | value
  | alias (name : Text)
  | anchor (name : Text)
  | tag (t : Tag)
  | scalar (isPlain : Bool) (text : Text)
  deriving DecidableEq, Repr

/-- A place at which a key may have started. -/
structure KeyStart where
  /-- Can it still become a key? -/
  isPossible : Bool
  /-- Does the block need a key here? -/
  isRequired : Bool
  /-- The number of the token in front of which the key would be told of. -/
  token : Nat
  index : Nat
  line : Nat
  column : Nat
  deriving DecidableEq, Repr

/-- No key has started. -/
def KeyStart.none : KeyStart where
  isPossible := false
  isRequired := false
  token := 0
  index := 0
  line := 0
  column := 0

/-- A key stands on one line and is not longer than this. -/
def maxKey : Nat := 1024

/-- Is the cursor too far away for a colon that ends the key? -/
def KeyStart.isPassed (s : KeyStart) (k : Cursor) : Bool :=
  s.line < k.line || s.index + maxKey < k.index

/-- What is read so far, and what is known about what follows. -/
structure Scanner where
  cursor : Cursor
  /-- The tokens that are read and not dropped. -/
  queue : List Token := []
  /-- The number of tokens that are dropped. -/
  dropped : Nat := 0
  isStarted : Bool := false
  /-- The indentation of the current block; -1 outside of all. -/
  indent : Int := -1
  /-- The indentations of the blocks around it. -/
  indents : List Int := []
  /-- May a key start at the next token? -/
  keyAllowed : Bool := true
  /-- The last places at which a key may have started, for the innermost brackets and for those
  around them. -/
  keys : List KeyStart := [KeyStart.none]
  deriving Repr

namespace Scanner

/-- The number of brackets around the cursor. -/
def depth (s : Scanner) : Nat := s.keys.length - 1

/-- Is the cursor within brackets? -/
def inFlow (s : Scanner) : Bool :=
  match s.keys with
  | _ :: _ :: _ => true
  | _ => false

/-- How deep brackets and blocks may be nested. -/
def maxDepth : Nat := 10000

/-- The number of the next token. -/
def nextToken (s : Scanner) : Nat := s.dropped + s.queue.length

/-- With one more token. -/
def push (s : Scanner) (t : Token) : Scanner := { s with queue := s.queue ++ [t] }

/-- With a token in front of the one with the given number. -/
def insert (s : Scanner) (number : Nat) (t : Token) : Scanner :=
  let n := number - s.dropped
  { s with queue := s.queue.take n ++ t :: s.queue.drop n }

/-- With the cursor elsewhere. -/
def moveTo (s : Scanner) (k : Cursor) : Scanner := { s with cursor := k }

/-- With the cursor behind the next character, and a token for it. -/
def pushSkip (s : Scanner) (t : Token) : Scanner := (s.moveTo s.cursor.skip).push t

/-- With a decision whether a key may start at the next token. -/
def allowKey (s : Scanner) (b : Bool) : Scanner := { s with keyAllowed := b }

/-! ## Keys -/

/-- The last place at which a key may have started. -/
def keyStart (s : Scanner) : KeyStart := s.keys.headD KeyStart.none

/-- With another last place. -/
def withKeyStart (s : Scanner) (k : KeyStart) : Scanner := { s with keys := k :: s.keys.drop 1 }

/-- Gives the last place up; nothing if a key is required there. -/
def dropKey? (s : Scanner) : Option Scanner :=
  let k := s.keyStart
  if k.isPossible && k.isRequired then none else some (s.withKeyStart { k with isPossible := false })

/-- Notes that a key may start here, if one may. -/
def noteKey? (s : Scanner) : Option Scanner :=
  if !s.keyAllowed then some s
  else
    s.dropKey?.map fun s => s.withKeyStart
      { isPossible := true, isRequired := !s.inFlow && s.indent == s.cursor.column,
        token := s.nextToken, index := s.cursor.index, line := s.cursor.line,
        column := s.cursor.column }

/-- Does the token with this number wait for a colon? -/
def isWaiting (s : Scanner) (number : Nat) : Bool :=
  s.keys.any fun k => k.isPossible && k.token == number && !k.isPassed s.cursor

/-! ## Indentation -/

/-- Ends the blocks that are indented by more than `column`. -/
def endBlocks (column : Int) : List Int → Scanner → Scanner
  | [], s => s
  | outer :: outers, s =>
    if column < s.indent then
      endBlocks column outers { s.push .blockEnd with indent := outer, indents := outers }
    else s

/-- Ends the blocks that are indented by more than `column`; within brackets there are none. -/
def unroll (s : Scanner) (column : Int) : Scanner :=
  if s.inFlow then s else endBlocks column s.indents s

/-- Starts a block in front of the token with this number if `column` is indented more than the
current one; nothing if blocks are nested too deep. -/
def roll? (s : Scanner) (column number : Nat) (t : Token) : Option Scanner :=
  if s.inFlow || (column : Int) ≤ s.indent then some s
  else if maxDepth ≤ s.indents.length then none
  else some { s.insert number t with indent := column, indents := s.indent :: s.indents }

/-! ## Characters between tokens -/

/-- With the cursor behind blank characters, line breaks and comments. -/
def skipBlanks : (fuel : Nat) → Scanner → Scanner
  | 0, s => s
  | n + 1, s =>
    let k := s.cursor
    let k := if k.column == 0 && k.isAt orderMark then k.skip else k
    -- A tab must not stand where a key could start.
    let k := k.skipWhile fun c => c == ' ' || (c == '\t' && (s.inFlow || !s.keyAllowed))
    let k := if k.isAt '#' then k.comments else k
    if !k.rest.isEmpty && breakNext k.rest then
      skipBlanks n { s with cursor := k.newLine.2, keyAllowed := s.keyAllowed || !s.inFlow }
    else { s with cursor := k }

/-! ## Tokens -/

/-- The end of the file. -/
def fetchEnd? (s : Scanner) : Option Scanner :=
  let k := s.cursor
  let k := if k.column == 0 then k else { k with column := 0, line := k.line + 1 }
  ((s.moveTo k).unroll (-1)).dropKey?.map fun s => (s.allowKey false).push .streamEnd

/-- A directive. -/
def fetchDirective? (s : Scanner) : Option Scanner := do
  let s ← (s.unroll (-1)).dropKey?
  let (d, k) ← directive? s.cursor
  some (((s.allowKey false).moveTo k).push (.directive d))

/-- A mark that starts or ends a document. -/
def fetchMark? (s : Scanner) (t : Token) : Option Scanner :=
  (s.unroll (-1)).dropKey?.map fun s =>
    ((s.allowKey false).moveTo (s.cursor.skips 3)).push t

/-- Within one more pair of brackets. -/
def enter (s : Scanner) : Scanner := { s with keys := KeyStart.none :: s.keys }

/-- Without the innermost brackets, if there are some. -/
def leave (s : Scanner) : Scanner := { s with keys := if s.inFlow then s.keys.drop 1 else s.keys }

/-- An opening bracket. -/
def fetchOpening? (s : Scanner) (t : Token) : Option Scanner :=
  match s.noteKey? with
  | none => none
  | some s =>
    if maxDepth ≤ s.depth then none
    else some ((s.enter.allowKey true).pushSkip t)

/-- A closing bracket. -/
def fetchClosing? (s : Scanner) (t : Token) : Option Scanner :=
  s.dropKey?.map fun s => (s.leave.allowKey false).pushSkip t

/-- A comma within brackets. -/
def fetchComma? (s : Scanner) : Option Scanner :=
  s.dropKey?.map fun s => (s.allowKey true).pushSkip .flowEntry

/-- A hyphen in front of an item. -/
def fetchEntry? (s : Scanner) : Option Scanner :=
  if !s.inFlow && !s.keyAllowed then none
  else do
    let s ← s.roll? s.cursor.column s.nextToken .blockSequence
    let s ← s.dropKey?
    some ((s.allowKey true).pushSkip .entry)

/-- A question mark in front of a key. -/
def fetchKey? (s : Scanner) : Option Scanner :=
  if !s.inFlow && !s.keyAllowed then none
  else do
    let s ← s.roll? s.cursor.column s.nextToken .blockMapping
    let s ← s.dropKey?
    some ((s.allowKey !s.inFlow).pushSkip .key)

/-- A colon in front of a value.  If a key can have ended here, it is told of now. -/
def fetchValue? (s : Scanner) : Option Scanner :=
  let k := s.keyStart
  if k.isPossible && !k.isPassed s.cursor then do
    let s := s.insert k.token .key
    let s ← s.roll? k.column k.token .blockMapping
    let s := s.withKeyStart { k with isPossible := false }
    some ((s.allowKey false).pushSkip .value)
  else if k.isPossible && k.isRequired then none
  else if s.inFlow then
    some (((s.withKeyStart { k with isPossible := false }).allowKey false).pushSkip .value)
  else if !s.keyAllowed then none
  else do
    let s := s.withKeyStart { k with isPossible := false }
    let s ← s.roll? s.cursor.column s.nextToken .blockMapping
    some ((s.allowKey true).pushSkip .value)

/-- A token that may start a key, read by the given reader. -/
def fetchKeyPart? (s : Scanner) (read : Cursor → Option (Token × Cursor)) : Option Scanner := do
  let s ← s.noteKey?
  let (t, k) ← read s.cursor
  some (((s.allowKey false).moveTo k).push t)

/-- A scalar that is a block. -/
def fetchBlock? (s : Scanner) (isFolded : Bool) : Option Scanner := do
  let s ← s.dropKey?
  let (t, k) ← block? isFolded s.indent s.cursor
  some (((s.allowKey true).moveTo k).push (.scalar false (Text.ofChars t)))

/-- A scalar between quotes. -/
def fetchQuoted? (s : Scanner) (quote : Char) : Option Scanner :=
  s.fetchKeyPart? fun k =>
    (quoted? quote k).map fun (t, k) => (.scalar false (Text.ofChars t), k)

/-- A plain scalar. -/
def fetchPlain? (s : Scanner) : Option Scanner := do
  let s ← s.noteKey?
  let p ← plain? s.inFlow (s.indent + 1).toNat s.cursor
  some (((s.allowKey p.afterBreak).moveTo p.cursor).push (.scalar true (Text.ofChars p.text)))

/-- The characters that cannot start a plain scalar, at least not in front of a blank one. -/
def indicators : List Char := "-?:,[]\x7b\x7d#&*!|>'\"%@\x60".toList

/-- May a plain scalar start with these characters? -/
def startsPlain (inFlow : Bool) : List Char → Bool
  | [] => false
  | c :: rest =>
    !(isGap c || isBreak c || indicators.contains c) ||
      (c == '-' && !rest.head?.any isGap) ||
      (!inFlow && (c == '?' || c == ':') && !blankNext rest)

/-- Reads the token at the cursor. -/
def fetchHere? (s : Scanner) : Option Scanner :=
  match s.cursor.rest with
  | [] => none
  | c :: rest =>
    if c == '[' then s.fetchOpening? .flowSequence
    else if c == '{' then s.fetchOpening? .flowMapping
    else if c == ']' then s.fetchClosing? .flowSequenceEnd
    else if c == '}' then s.fetchClosing? .flowMappingEnd
    else if c == ',' then s.fetchComma?
    else if c == '-' && blankNext rest then s.fetchEntry?
    else if c == '?' && (s.inFlow || blankNext rest) then s.fetchKey?
    else if c == ':' && (s.inFlow || blankNext rest) then s.fetchValue?
    else if c == '*' then
      s.fetchKeyPart? fun k => (anchorName? k).map fun (name, k) => (.alias name, k)
    else if c == '&' then
      s.fetchKeyPart? fun k => (anchorName? k).map fun (name, k) => (.anchor name, k)
    else if c == '!' then s.fetchKeyPart? fun k => (tag? k).map fun (t, k) => (.tag t, k)
    else if c == '|' && !s.inFlow then s.fetchBlock? false
    else if c == '>' && !s.inFlow then s.fetchBlock? true
    else if c == '\'' || c == '"' then s.fetchQuoted? c
    else if startsPlain s.inFlow (c :: rest) then s.fetchPlain?
    else none

/-- With the cursor behind a comment that follows the last token on its line; behind a hyphen the
comment belongs to what follows. -/
def skipLineComment (s : Scanner) : Scanner :=
  if s.queue.getLast? == some .entry then s else { s with cursor := s.cursor.lineComment }

/-- Reads one more token, and perhaps some in front of it. -/
def fetch? (s : Scanner) : Option Scanner :=
  if !s.isStarted then some (({ s with isStarted := true } : Scanner).push .streamStart)
  else
    let s := skipBlanks (s.cursor.size + 1) s
    let s := s.unroll s.cursor.column
    let k := s.cursor
    if k.rest.isEmpty then s.fetchEnd?
    else if k.column == 0 && k.isAt '%' then s.fetchDirective?
    else if k.isAtMark '-' then s.fetchMark? .documentStart
    else if k.isAtMark '.' then s.fetchMark? .documentEnd
    else s.fetchHere?.map skipLineComment

/-! ## The stream -/

/-- How many tokens are read before one is handed out. -/
def ahead : Nat := 3

/-- Reads tokens until the next one can be handed out. -/
def fill? : (fuel : Nat) → Scanner → Option Scanner
  | 0, _ => none
  | n + 1, s =>
    if s.queue.length < ahead || s.isWaiting s.dropped then
      match s.fetch? with
      | some s => fill? n s
      | none => none
    else some s

/-- The next token, and the scanner that still has it. -/
def peek? (s : Scanner) : Option (Token × Scanner) :=
  match fill? (s.cursor.size + 2 * ahead) s with
  | some s => (s.queue.head?).map (·, s)
  | none => none

/-- Without the next token. -/
def drop (s : Scanner) : Scanner :=
  { s with queue := s.queue.drop 1, dropped := s.dropped + 1 }

/-- A scanner at the start of a file. -/
def start (cs : List Char) : Scanner := { cursor := Cursor.start cs }

end Scanner

end Config.Yaml

end ReflectGen
