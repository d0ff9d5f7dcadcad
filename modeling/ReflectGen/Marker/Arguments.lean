import ReflectGen.Text.CharClass

/-!
# Marker arguments

The text behind the opening parenthesis of a marker is cut at its *top-level* commas: those that
stand inside no parenthesis, angle bracket, square bracket or brace.  It ends at the parenthesis
that closes the marker.  A closing bracket of the other three kinds that closes nothing is an
ordinary character, because `>` and `->` occur in C++ types.

* `Depths`, `Depths.after`: how deep a position is nested in each kind of bracket.
* `Arguments.split`: the trimmed arguments, and whether the marker is closed on its line.
-/

namespace ReflectGen

/-- How many brackets of each kind are open. -/
structure Depths where
  paren : Nat := 0
  angle : Nat := 0
  square : Nat := 0
  brace : Nat := 0
  deriving DecidableEq, Repr, Inhabited

namespace Depths

/-- Is a position inside no bracket? -/
def isTop (d : Depths) : Bool := d.paren == 0 && d.angle == 0 && d.square == 0 && d.brace == 0

/-- The depths behind one more character. -/
def after (d : Depths) (c : Char) : Depths :=
  match c with
  | '(' => { d with paren := d.paren + 1 }
  | ')' => { d with paren := d.paren - 1 }
  | '<' => { d with angle := d.angle + 1 }
  | '>' => { d with angle := d.angle - 1 }
  | '[' => { d with square := d.square + 1 }
  | ']' => { d with square := d.square - 1 }
  | '\x7b' => { d with brace := d.brace + 1 }
  | '\x7d' => { d with brace := d.brace - 1 }
  | _ => d

end Depths

namespace Arguments

/-- Cuts the rest of a marker: `cur` is the current argument and `done` the finished ones, both in
reverse.  The result says whether the closing parenthesis was found. -/
def loop : List Char → Depths → (cur : List Char) → (done : List (List Char)) →
    List (List Char) × Bool
  | [], _, cur, done => ((cur.reverse :: done).reverse, false)
  | c :: cs, d, cur, done =>
    if c == ')' && d.paren == 0 then ((cur.reverse :: done).reverse, true)
    else if c == ',' && d.isTop then loop cs d [] (cur.reverse :: done)
    else loop cs (d.after c) (c :: cur) done

/-- The untrimmed pieces of the text behind an opening parenthesis, and whether it is closed. -/
def pieces (cs : List Char) : List (List Char) × Bool := loop cs {} [] []

/-- The arguments of a marker, given the text behind its opening parenthesis, and whether the
marker is closed. -/
def split (t : Text) : List Text × Bool :=
  let (ps, closed) := pieces t.chars
  (ps.map fun p => Text.ofChars (trimChars p), closed)

end Arguments

end ReflectGen
