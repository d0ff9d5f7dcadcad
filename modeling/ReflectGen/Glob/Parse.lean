import ReflectGen.Glob.Basic

/-!
# Reading glob patterns

Outside of braces `,` and `}` are ordinary characters, and so is `]` outside of a class.  A brace
that is not closed ends with the pattern.  A class holds either characters or one range; it may be
negated by `!`.  A backslash takes the meaning from the character behind it.

Two characters have no place in a pattern.  The null character ends what is being read: a text, or
the pattern if nothing is being read.  U+FFFD cannot be read at all.
-/

namespace ReflectGen

/-- What is wrong with a pattern. -/
inductive GlobError where
  | unreadable
  | unexpectedEnd
  | emptyClass
  | expectedClose
  | reversedRange (lo hi : Char)
  deriving DecidableEq, Repr

/-- The message for a pattern error. -/
def GlobError.message : GlobError → Text
  | .unreadable => lit "could not read rune"
  | .unexpectedEnd => lit "unexpected end of input"
  | .emptyClass => lit "could not parse range"
  | .expectedClose => lit "expected close range character"
  | .reversedRange lo hi =>
    lit "hi character '" ++ Text.ofChars [hi] ++ lit "' should be greater than lo '" ++
      Text.ofChars [lo] ++ lit "'"

namespace Glob

/-- The next character of a pattern, unless it ends here. -/
def next? : List Char → Option (Char × List Char)
  | [] => none
  | c :: cs => if c.toNat == 0 || c == Rune.replacement then none else some (c, cs)

/-- Reads a text up to a character at which `stops` holds, and gives the rest. -/
def readText (stops : Char → Bool) : (escaped : Bool) → List Char → (done : List Char) →
    List Char × List Char
  | _, [], done => (done.reverse, [])
  | escaped, c :: cs, done =>
    if c == Rune.replacement then (done.reverse, c :: cs)
    else if c.toNat == 0 then (done.reverse, cs)
    else if !escaped && c == '\\' then readText stops true cs done
    else if !escaped && stops c then (done.reverse, c :: cs)
    else readText stops false cs (c :: done)

/-- Reads the bracket that closes a class with this content. -/
def closeClass (content : Except GlobError Glob) (cs : List Char) :
    Except GlobError (Glob × List Char) :=
  match next? cs with
  | none => .error .unexpectedEnd
  | some (c, cs) => if c == ']' then content.map (·, cs) else .error .expectedClose

/-- Reads a class behind its opening bracket and its negation. -/
def readContent (negated : Bool) (cs : List Char) : Except GlobError (Glob × List Char) :=
  match next? cs with
  | none => .error .unexpectedEnd
  | some (lo, '-' :: rest) =>
    match next? rest with
    | none => .error .unexpectedEnd
    | some (hi, rest) =>
      closeClass
        (if hi < lo then .error (.reversedRange lo hi) else .ok (.range negated lo hi)) rest
  | some _ =>
    let (chars, rest) := readText (· == ']') false cs []
    closeClass (if chars.isEmpty then .error .emptyClass else .ok (.list negated chars)) rest

/-- Reads a class behind its opening bracket. -/
def readClass : List Char → Except GlobError (Glob × List Char)
  | '!' :: cs => readContent true cs
  | cs => readContent false cs

/-- An open brace: the parts in front of it and the finished alternatives, the last of them
first. -/
structure Frame where
  before : List Glob
  done : List Glob

/-- The parts in front of a brace together with its alternatives, of which `cur` is the last.  Parts
are listed from the last to the first. -/
def Frame.close (f : Frame) (cur : List Glob) : List Glob :=
  .choice (.sequence cur.reverse :: f.done).reverse :: f.before

/-- The characters that end a text: those with a meaning of their own. -/
def isSpecial (inBraces : Bool) (c : Char) : Bool :=
  c == '?' || c == '*' || c == '[' || c == '\x7b' || (inBraces && (c == '\x7d' || c == ','))

/-- Reads the rest of a pattern; `stack` holds the open braces and `cur` the parts behind the
innermost of them, the last of them first.  The number bounds the steps. -/
def parseLoop : (fuel : Nat) → List Char → (stack : List Frame) → (cur : List Glob) →
    Except GlobError Glob
  | 0, _, stack, cur => .ok (.sequence (stack.foldl (fun g f => f.close g) cur).reverse)
  | n + 1, cs, stack, cur =>
    match cs, stack with
    | [], _ => .ok (.sequence (stack.foldl (fun g f => f.close g) cur).reverse)
    | '\x7b' :: cs, _ => parseLoop n cs ({ before := cur, done := [] } :: stack) []
    | ',' :: cs, f :: fs =>
      parseLoop n cs ({ f with done := .sequence cur.reverse :: f.done } :: fs) []
    | '\x7d' :: cs, f :: fs => parseLoop n cs fs (f.close cur)
    | '[' :: cs, _ =>
      match readClass cs with
      | .error e => .error e
      | .ok (g, cs) => parseLoop n cs stack (g :: cur)
    | '?' :: cs, _ => parseLoop n cs stack (.single :: cur)
    | '*' :: '*' :: cs, _ => parseLoop n cs stack (.super :: cur)
    | '*' :: cs, _ => parseLoop n cs stack (.any :: cur)
    | c :: cs, _ =>
      if c == Rune.replacement then .error .unreadable
      else if c.toNat == 0 then
        .ok (.sequence (stack.foldl (fun g f => f.close g) cur).reverse)
      else
        let (chars, cs) := readText (isSpecial !stack.isEmpty) false (c :: cs) []
        parseLoop n cs stack (if chars.isEmpty then cur else .text (Text.ofChars chars) :: cur)

/-- The pattern that a text describes. -/
def parse (t : Text) : Except GlobError Glob :=
  let cs := t.chars
  parseLoop (cs.length + 1) cs [] []

end Glob

end ReflectGen
