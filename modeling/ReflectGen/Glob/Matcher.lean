import ReflectGen.Glob.Basic

/-!
# Matchers

A matcher decides whether a text matches, and finds matches inside of a text.  A match inside of a
text is given by its position and by the lengths that it can have, all in bytes.

* `Matcher`: the matchers, most of them for one frequent shape of a pattern.
* `Matcher.length?`: the number of characters that every match has, if it is fixed.
* `Matcher.behaviour`: what a matcher does.  A `pivot` is matched first wherever it fits, and the
  parts to its left and right are left with what stands before and behind it.

A byte that belongs to no character counts as U+FFFD, and in a length as the three bytes that
U+FFFD has.
-/

namespace ReflectGen

/-- A matcher for a pattern. -/
inductive Matcher where
  /-- Matches the empty text. -/
  | nothing
  | text (t : Text)
  | single (separators : List Char)
  | list (negated : Bool) (cs : List Char)
  | range (negated : Bool) (lo hi : Char)
  /-- Matches texts without separators. -/
  | any (separators : List Char)
  /-- Matches all texts. -/
  | super
  /-- Matches texts with at least so many characters. -/
  | least (count : Nat)
  /-- Matches texts with at most so many characters. -/
  | most (count : Nat)
  /-- Matches the texts that contain `needle`, or those that do not. -/
  | contains (needle : Text) (negated : Bool)
  | starting (front : Text)
  | ending (back : Text)
  | startingEnding (front back : Text)
  /-- Matches `front` and a text without separators. -/
  | startingAny (front : Text) (separators : List Char)
  /-- Matches a text without separators and `back`. -/
  | endingAny (back : Text) (separators : List Char)
  /-- Matches what one of the matchers matches. -/
  | anyOf (ms : List Matcher)
  /-- Matches what all matchers match. -/
  | everyOf (ms : List Matcher)
  /-- Matches one matcher behind the other, all of them with a fixed length. -/
  | row (count : Nat) (ms : List Matcher)
  | pivot (value : Matcher) (left right : Option Matcher)
  deriving Repr, Inhabited

namespace Matcher

/-! ## Lengths -/

/-- The sum of two lengths, if both are fixed. -/
def sum? : Option Nat → Option Nat → Option Nat
  | some a, some b => some (a + b)
  | _, _ => none

/-- The common length of alternatives, where `l` is that of the first ones.  As long as none has a
fixed length the next one decides. -/
def common? : (l : Option Nat) → List (Option Nat) → Option Nat
  | l, [] => l
  | none, m :: ms => common? m ms
  | some _, none :: _ => none
  | some a, some b :: ms => if a == b then common? (some a) ms else none

mutual

/-- The number of characters of every match, if it is fixed. -/
def length? : Matcher → Option Nat
  | .nothing => some 0
  | .text t => some t.runes.length
  | .single _ => some 1
  | .list _ _ => some 1
  | .range _ _ _ => some 1
  | .anyOf ms => common? none (lengths ms)
  | .everyOf ms => if ms.isEmpty then some 0 else none
  | .row n _ => some n
  | .pivot v l r => sum? (partLength? l) (sum? (length? v) (partLength? r))
  | _ => none

/-- The length of a part that may be missing. -/
def partLength? : Option Matcher → Option Nat
  | none => some 0
  | some m => length? m

/-- The lengths of matchers. -/
def lengths : List Matcher → List (Option Nat)
  | [] => []
  | m :: ms => length? m :: lengths ms

end

/-! ## Texts -/

/-- The position of the first place where `needle` stands, counted from `n`. -/
def findFrom (needle : Text) : (n : Nat) → Text → Option Nat
  | n, [] => if needle.isEmpty then some n else none
  | n, b :: t =>
    if Text.startsWith (b :: t) needle then some n else findFrom needle (n + 1) t

/-- The position of the first place where `needle` stands. -/
def find? (needle t : Text) : Option Nat := findFrom needle 0 t

/-- The position of the last place where `needle` stands. -/
def findLast? (needle t : Text) : Option Nat :=
  (find? needle.reverse t.reverse).map fun i => t.length - i - needle.length

/-- The position of the first separator that occurs; earlier ones in the list count first. -/
def findSeparator? (separators : List Char) (t : Text) : Option Nat :=
  separators.findSome? fun c => find? (String.utf8EncodeChar c) t

/-- The position of the last place where a separator stands. -/
def findLastSeparator? (separators : List Char) (t : Text) : Option Nat :=
  separators.findSome? fun c => findLast? (String.utf8EncodeChar c) t

/-- The number of bytes that a rune counts for in a length. -/
def runeLength (r : Rune) : Nat := (String.utf8EncodeChar r.toChar).length

/-- The positions of runes, counted from `n`. -/
def startsFrom : (n : Nat) → List Rune → List (Nat × Rune)
  | _, [] => []
  | n, r :: rs => (n, r) :: startsFrom (n + r.bytes.length) rs

/-- The runes of a text with their positions. -/
def starts (t : Text) : List (Nat × Rune) := startsFrom 0 t.runes

/-- The position where each rune starts, and the end of the text. -/
def boundaries (t : Text) : List Nat := (starts t).map (·.1) ++ [t.length]

/-- The lengths up to the end of each rune, with `n` in front of all. -/
def ends (n : Nat) (t : Text) : List Nat := (starts t).map fun (i, r) => n + i + runeLength r

/-- Is the text at most one character long, and does that character satisfy `p`?  The empty text
has the character U+FFFD. -/
def isOne (p : Char → Bool) (t : Text) : Bool :=
  match t.runes with
  | [] => p Rune.replacement
  | [r] => p r.toChar
  | _ => false

/-- The first character that satisfies `p`. -/
def locateOne (p : Char → Bool) (t : Text) : Option (Nat × List Nat) :=
  ((starts t).find? fun (_, r) => p r.toChar).map fun (i, r) => (i, [runeLength r])

/-! ## Behaviour -/

/-- What a matcher does. -/
structure Behaviour where
  /-- The number of characters of every match, if it is fixed. -/
  length? : Option Nat
  /-- Does a text match? -/
  accepts : Text → Bool
  /-- The position of the first match inside of a text, and its possible lengths. -/
  locate : Text → Option (Nat × List Nat)

instance : Inhabited Behaviour := ⟨⟨none, fun _ => false, fun _ => none⟩⟩

namespace Behaviour

/-- Sorted lists as one. -/
def merge : List Nat → List Nat → List Nat
  | [], ys => ys
  | xs, [] => xs
  | x :: xs, y :: ys =>
    if x == y then x :: merge xs ys
    else if x < y then x :: merge xs (y :: ys)
    else y :: merge (x :: xs) ys
termination_by xs ys => xs.length + ys.length

/-- The first of two matches; lengths of matches at one position are put together. -/
def earlier : Option (Nat × List Nat) → Option (Nat × List Nat) → Option (Nat × List Nat)
  | none, b => b
  | a, none => a
  | some (i, xs), some (j, ys) =>
    if j < i then some (j, ys)
    else if i < j then some (i, xs)
    else some (i, merge xs ys)

/-- The match of a matcher at `index`, seen together with further matchers.  Each of them looks at
the text behind the position of the one before it, and must end where that one ends; `found` holds
the lengths that are left. -/
def locateEvery (t : Text) : (index : Nat) → (found : List Nat) → List Behaviour →
    Option (Nat × List Nat)
  | index, found, [] => some (index, found)
  | index, found, b :: bs =>
    match b.locate (t.drop index) with
    | none => none
    | some (i, lengths) =>
      let common := found.flatMap fun x => lengths.filter fun n => n + i == x
      if common.isEmpty then none else locateEvery t (index + i) common bs

/-- The first match of all matchers together. -/
def locateAll (t : Text) : List Behaviour → Option (Nat × List Nat)
  | [] => some (0, [])
  | b :: bs =>
    match b.locate t with
    | none => none
    | some (i, lengths) => locateEvery t i lengths bs

/-- Matches matchers one behind the other at the front of a text.  A piece ends with the first byte
of its last character. -/
def rowAccepts : List Behaviour → Text → Bool
  | [], _ => true
  | b :: bs, t =>
    let count := b.length?.getD 0
    let positions := (starts t).map (·.1)
    let upTo := if count == 0 then positions else positions.take count
    match upTo.getLast? with
    | none => false
    | some last =>
      count ≤ upTo.length && b.accepts (t.take (last + 1)) && rowAccepts bs (t.drop (last + 1))

/-- The first position from `n` on where a row matches. -/
def locateRow (count : Nat) (bs : List Behaviour) (t : Text) : List Nat → Option (Nat × List Nat)
  | [] => none
  | i :: is =>
    if (t.drop i).length < count then none
    else if rowAccepts bs (t.drop i) then some (i, [count])
    else locateRow count bs t is

/-- The number of bytes of the first character. -/
def firstLength : Text → Nat
  | [] => 0
  | b :: t => (Text.lead b t).2 + 1

/-- Does a part that may be missing match?  A missing part stands for the empty text. -/
def partAccepts : Option Behaviour → Text → Bool
  | none, t => t.isEmpty
  | some b, t => b.accepts t

/-- Tries the places of a pivot between `offset` and `limit`, from left to right; at each place the
longer matches first.  The number bounds the places. -/
def pivotAccepts (v : Behaviour) (l r : Option Behaviour) (t : Text) (limit : Nat) :
    (fuel : Nat) → (offset : Nat) → Bool
  | 0, _ => false
  | n + 1, offset =>
    if limit ≤ offset then false
    else
      match v.locate ((t.take limit).drop offset) with
      | none => false
      | some (i, lengths) =>
        let start := offset + i
        (partAccepts l (t.take start) &&
            lengths.reverse.any fun length => partAccepts r (t.drop (start + length))) ||
          pivotAccepts v l r t limit n
            (start + firstLength (t.drop start))

/-- The length of a part that may be missing. -/
def partLength? (b : Option Behaviour) : Option Nat := b.elim (some 0) (·.length?)

/-- A pivot with what stands to its left and right. -/
def pivot (v : Behaviour) (l r : Option Behaviour) : Behaviour where
  length? := sum? (partLength? l) (sum? v.length? (partLength? r))
  accepts t :=
    let tooShort := (sum? (partLength? l) (sum? v.length? (partLength? r))).any (t.length < ·)
    !tooShort &&
      pivotAccepts v l r t (t.length - (partLength? r).getD 0) (t.length + 1)
        ((partLength? l).getD 0)
  locate _ := none

end Behaviour

/-- The lengths of a match of `front` and a tail. -/
def tailLengths (front tail : Text) : List Nat := front.length :: ends front.length tail

/-- The lengths at which `back` ends in a text, from the shortest on; the number bounds them. -/
def backEnds (back : Text) : (fuel : Nat) → Text → (done : List Nat) → List Nat
  | 0, _, done => done
  | n + 1, t, done =>
    match findLast? back t with
    | none => done
    | some i => backEnds back n (t.take i) ((i + back.length) :: done)

mutual

/-- What a matcher does. -/
def behaviour : Matcher → Behaviour
  | .nothing => ⟨some 0, List.isEmpty, fun _ => some (0, [0])⟩
  | .text x => ⟨some x.runes.length, (· == x), fun t => (find? x t).map (·, [x.length])⟩
  | .single seps =>
    ⟨some 1, isOne fun c => !seps.contains c, locateOne fun c => !seps.contains c⟩
  | .list negated cs =>
    ⟨some 1, isOne fun c => cs.contains c != negated, locateOne fun c => cs.contains c != negated⟩
  | .range negated lo hi =>
    ⟨some 1, isOne fun c => (lo ≤ c && c ≤ hi) != negated,
      locateOne fun c => (lo ≤ c && c ≤ hi) != negated⟩
  | .any seps =>
    ⟨none, fun t => (findSeparator? seps t).isNone, fun t =>
      match findSeparator? seps t with
      | none => some (0, boundaries t)
      | some i => some (0, boundaries (t.take i))⟩
  | .super => ⟨none, fun _ => true, fun t => some (0, boundaries t)⟩
  | .least n =>
    ⟨none, fun t => n ≤ t.runes.length && !t.isEmpty, fun t =>
      if t.length < n then none
      else
        let lengths := (ends 0 t).drop (n - 1)
        if lengths.isEmpty then none else some (0, lengths)⟩
  | .most n => ⟨none, fun t => t.runes.length ≤ n, fun t => some (0, 0 :: (ends 0 t).take n)⟩
  | .contains needle negated =>
    ⟨none, fun t => (find? needle t).isSome != negated, fun t =>
      match find? needle t, negated with
      | none, false => none
      | some i, false =>
        let offset := i + needle.length
        some (0, (boundaries (t.drop offset)).map (offset + ·))
      | some i, true => some (0, boundaries (t.take i))
      | none, true => some (0, boundaries t)⟩
  | .starting front =>
    ⟨none, fun t => Text.startsWith t front, fun t =>
      (find? front t).map fun i => (i, tailLengths front (t.drop (i + front.length)))⟩
  | .ending back =>
    ⟨none, fun t => Text.endsWith t back, fun t =>
      (find? back t).map fun i => (0, [i + back.length])⟩
  | .startingEnding front back =>
    ⟨none, fun t => Text.startsWith t front && Text.endsWith t back, fun t =>
      match find? front t with
      | none => none
      | some i =>
        let lengths := backEnds back (t.length + 1) (t.drop i) []
        if lengths.isEmpty then none else some (i, lengths)⟩
  | .startingAny front seps =>
    ⟨none, fun t =>
      Text.startsWith t front && (findSeparator? seps (t.drop front.length)).isNone, fun t =>
      (find? front t).map fun i =>
        let tail := t.drop (i + front.length)
        let tail := match findSeparator? seps tail with
          | some j => tail.take j
          | none => tail
        (i, tailLengths front tail)⟩
  | .endingAny back seps =>
    ⟨none, fun t =>
      Text.endsWith t back &&
        (findSeparator? seps (t.take (t.length - back.length))).isNone, fun t =>
      (find? back t).map fun i =>
        let start := (findLastSeparator? seps (t.take i)).elim 0 (· + 1)
        (start, [i + back.length - start])⟩
  | .anyOf ms =>
    ⟨common? none (lengths ms), fun t => (behaviours ms).any (·.accepts t), fun t =>
      (behaviours ms).foldl (fun found b => Behaviour.earlier found (b.locate t)) none⟩
  | .everyOf ms =>
    ⟨if ms.isEmpty then some 0 else none, fun t => (behaviours ms).all (·.accepts t), fun t =>
      Behaviour.locateAll t (behaviours ms)⟩
  | .row n ms =>
    ⟨some n, fun t => t.runes.length == n && Behaviour.rowAccepts (behaviours ms) t, fun t =>
      Behaviour.locateRow n (behaviours ms) t ((starts t).map (·.1))⟩
  | .pivot v l r => Behaviour.pivot (behaviour v) (partBehaviour l) (partBehaviour r)

/-- What a part does that may be missing. -/
def partBehaviour : Option Matcher → Option Behaviour
  | none => none
  | some m => some (behaviour m)

/-- What matchers do. -/
def behaviours : List Matcher → List Behaviour
  | [] => []
  | m :: ms => behaviour m :: behaviours ms

end

/-- Does the whole text match? -/
def accepts (m : Matcher) (t : Text) : Bool := m.behaviour.accepts t

end Matcher

end ReflectGen
