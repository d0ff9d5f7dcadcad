import ReflectGen.Glob.Parse
import ReflectGen.Glob.Matcher

/-!
# From patterns to matchers

A sequence of parts becomes one matcher.  Neighbours that are all of one kind, or all of a fixed
length, are glued together first.  Then the longest part of a fixed length is the pivot, and what
stands left and right of it is treated alike.  Frequent shapes have matchers of their own.

* `Matcher.simplify`: the matcher for a frequent shape.
* `Matcher.glue?`: neighbours as one matcher.
* `Matcher.join`: a sequence of matchers as one matcher.
* `Glob.factor?`: a choice in which common first and last parts are taken out.
* `Glob.compile`: the matcher of a pattern.
-/

namespace ReflectGen

namespace Matcher

/-- The matcher for a text between two parts, if it has a shape of its own. -/
def aroundText (t : Text) (left right : Option Matcher) : Matcher :=
  match left, right with
  | none, none => .text t
  | some .super, some .super => .contains t false
  | some .super, none => .ending t
  | none, some .super => .starting t
  | none, some (.ending back) => .startingEnding t back
  | some (.starting front), none => .startingEnding front t
  | some (.any seps), none => .endingAny t seps
  | none, some (.any seps) => .startingAny t seps
  | left, right => .pivot (.text t) left right

mutual

/-- The matcher for a frequent shape. -/
def simplify : Matcher → Matcher
  | .any [] => .super
  | .anyOf [m] => m
  | .list false [c] => .text (String.utf8EncodeChar c)
  | .pivot (.text t) left right => aroundText t (simplifyPart left) (simplifyPart right)
  | .pivot v left right => .pivot v (simplifyPart left) (simplifyPart right)
  | m => m

/-- The same for a part that may be missing. -/
def simplifyPart : Option Matcher → Option Matcher
  | none => none
  | some m => some (simplify m)

end

/-! ## Gluing -/

/-- What is known about neighbours that stand for runs and single characters: the characters they
all exclude, whether runs are among them, and how many single characters. -/
structure Run where
  separators : List Char
  hasAny : Bool := false
  hasSuper : Bool := false
  singles : Nat := 0

/-- A run with one more neighbour that excludes the same characters. -/
def Run.extend? (r : Run) : Matcher → Option Run
  | .super => if r.separators.isEmpty then some { r with hasSuper := true } else none
  | .any seps => if seps == r.separators then some { r with hasAny := true } else none
  | .single seps =>
    if seps == r.separators then some { r with singles := r.singles + 1 } else none
  | .list true cs => if cs == r.separators then some { r with singles := r.singles + 1 } else none
  | _ => none

/-- The characters that the first neighbour of a run excludes. -/
def excluded : Matcher → List Char
  | .any seps => seps
  | .single seps => seps
  | .list _ cs => cs
  | _ => []

/-- The matcher for a run. -/
def Run.matcher (r : Run) : Matcher :=
  if r.hasSuper && !r.hasAny && r.singles == 0 then .super
  else if r.hasAny && !r.hasSuper && r.singles == 0 then .any r.separators
  else if (r.hasAny || r.hasSuper) && 0 < r.singles && r.separators.isEmpty then .least r.singles
  else
    .everyOf <|
      (if 0 < r.singles then [.least r.singles] else []) ++
      (if 0 < r.singles && !r.hasAny && !r.hasSuper then [.most r.singles] else []) ++
      (if r.separators.isEmpty then [] else [.contains (Text.ofChars r.separators) true])

/-- Neighbours as a run of characters. -/
def glueRun? (ms : List Matcher) : Option Matcher :=
  (ms.foldlM Run.extend? { separators := (ms.head?.map excluded).getD [] }).map Run.matcher

/-- Neighbours of fixed lengths as a row. -/
def glueRow? (ms : List Matcher) : Option Matcher :=
  (ms.mapM length?).map fun lengths => .row (lengths.foldl (· + ·) 0) ms

/-- Two or more neighbours as one matcher. -/
def glue? (ms : List Matcher) : Option Matcher :=
  if ms.length < 2 then none else (glueRun? ms).orElse fun _ => glueRow? ms

/-- A glued part of a list: where it starts, where it ends, and its matcher. -/
structure Glued where
  start : Nat
  stop : Nat
  matcher : Matcher

/-- Is the second part better?  It is if it has more neighbours, or a greater fixed length. -/
def Glued.isBetter (old new : Glued) : Bool :=
  (match old.matcher.length?, new.matcher.length? with
    | some a, some b => a < b
    | _, _ => false) ||
    old.stop - old.start < new.stop - new.start

/-- The better of two parts. -/
def Glued.pick : Option Glued → Glued → Option Glued
  | none, new => some new
  | some old, new => if old.isBetter new then some new else some old

/-- The parts that can be glued, by their starts and the longer ones first. -/
def glueable (ms : List Matcher) : List Glued :=
  (List.range ms.length).flatMap fun start =>
    (List.range (ms.length - start)).filterMap fun k =>
      let stop := ms.length - k
      (glue? ((ms.take stop).drop start)).map fun matcher => { start, stop, matcher }

/-- Glues neighbours until nothing more can be glued; the number bounds the steps. -/
def minimize : (fuel : Nat) → List Matcher → List Matcher
  | 0, ms => ms
  | n + 1, ms =>
    match (glueable ms).foldl Glued.pick none with
    | none => ms
    | some g => minimize n (ms.take g.start ++ [g.matcher] ++ ms.drop g.stop)

/-- The position of the last matcher among those with the greatest fixed length. -/
def pivotIndex? (ms : List Matcher) : Option Nat :=
  (ms.zipIdx.foldl (fun (best : Option (Nat × Nat)) (m, i) =>
    match m.length?, best with
    | none, _ => best
    | some l, none => some (l, i)
    | some l, some (l', i') => if l' ≤ l then some (l, i) else some (l', i')) none).map (·.2)

/-- A sequence of matchers as one matcher; an empty one is missing.  The number bounds the
matchers. -/
def join : (fuel : Nat) → List Matcher → Option Matcher
  | 0, _ => none
  | _ + 1, [] => none
  | _ + 1, [m] => some m
  | n + 1, ms =>
    match glue? ms with
    | some m => some m
    | none =>
      match pivotIndex? ms with
      | none => ms.head?.map fun m => .pivot m none (join n ms.tail)
      | some i =>
        ms[i]?.map fun m => .pivot m (join n (ms.take i)) (join n (ms.drop (i + 1)))

end Matcher

namespace Glob

/-! ## Common parts of alternatives -/

/-- The position of the alternative with the fewest parts, the first of several. -/
def shortestIndex (gs : List Glob) : Nat :=
  let counts := gs.map (·.parts.length)
  counts.findIdx fun n => counts.all (n ≤ ·)

/-- The numbers of first and last parts that alternatives have in common, and whether there may be
more of them. -/
structure Common where
  left : Nat := 0
  right : Nat := 0
  leftOpen : Bool := true
  rightOpen : Bool := true

/-- Compares the parts `i` places from both ends of a shortest alternative `g` with those of
another.  A part that is taken from the left is not taken from the right. -/
def Common.compare (g : Glob) (i : Nat) (c : Common) (other : Glob) : Common :=
  let leftOpen := c.leftOpen && g.parts[i]? == other.parts[i]?
  { c with
    leftOpen
    rightOpen :=
      c.rightOpen && !(leftOpen && g.parts.length ≤ 2 * i + 1) &&
        g.parts.reverse[i]? == other.parts.reverse[i]? }

/-- Looks at the parts `i` places from both ends. -/
def Common.step (g : Glob) (others : List Glob) (c : Common) (i : Nat) : Common :=
  if g.parts.length ≤ c.left + c.right then c
  else
    let c := others.foldl (Common.compare g i) c
    { c with
      left := if c.leftOpen then c.left + 1 else c.left
      right := if c.rightOpen then c.right + 1 else c.right }

/-- The numbers of first and last parts that alternatives have in common. -/
def common (gs : List Glob) : Common :=
  let i := shortestIndex gs
  match gs[i]?, gs.eraseIdx i with
  | some g, other :: others =>
    (List.range g.parts.length).foldl (Common.step g (other :: others)) {}
  | _, _ => {}

/-- Parts as a sequence; no parts are nothing. -/
def ofParts (gs : List Glob) : Glob := if gs.isEmpty then .nothing else .sequence gs

/-- The list without repetitions. -/
def distinct (gs : List Glob) : List Glob :=
  gs.foldl (fun done g => if done.contains g then done else done ++ [g]) []

/-- A choice in which common first and last parts are taken out of the alternatives; nothing if
there are none. -/
def factor? (gs : List Glob) : Option Glob :=
  let c := common gs
  match gs.all isSequence, gs with
  | true, g :: _ =>
    if c.left == 0 && c.right == 0 then none
    else
      let rests := distinct (gs.map fun h =>
        ofParts ((h.parts.take (h.parts.length - c.right)).drop c.left))
      let middle := match rests with
        | [.nothing] => []
        | [h] => [h]
        | rests => [.choice rests]
      some (.sequence
        ((if c.left == 0 then [] else [.sequence (g.parts.take c.left)]) ++ middle ++
          (if c.right == 0 then [] else
            [.sequence (g.parts.drop (g.parts.length - c.right))])))
  | _, _ => none

/-- The matcher of a pattern.  The number bounds the depth. -/
def compileWithin : (fuel : Nat) → Glob → Matcher
  | 0, _ => .nothing
  | _ + 1, .nothing => .nothing
  | _ + 1, .text t => .text t
  | _ + 1, .single => .single [separator]
  | _ + 1, .any => .any [separator]
  | _ + 1, .super => .super
  | _ + 1, .list negated cs => Matcher.simplify (.list negated cs)
  | _ + 1, .range negated lo hi => .range negated lo hi
  | n + 1, .sequence gs =>
    let ms := gs.map fun g => Matcher.simplify (compileWithin n g)
    match Matcher.join (ms.length + 1) (Matcher.minimize ms.length ms) with
    | none => .nothing
    | some m => Matcher.simplify m
  | n + 1, .choice gs =>
    match factor? gs with
    | some g => compileWithin n g
    | none => .anyOf (gs.map fun g => Matcher.simplify (compileWithin n g))

/-- The matcher of a pattern. -/
def compile (g : Glob) : Matcher := compileWithin (3 * g.size + 1) g

end Glob

end ReflectGen
