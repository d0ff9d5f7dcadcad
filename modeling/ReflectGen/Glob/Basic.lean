import ReflectGen.Text.Quoted

/-!
# Glob patterns

A glob pattern selects paths.  `*` stands for any run of characters without a slash, `**` for any
run at all, `?` for one character other than the slash, `[...]` for one character of a class, and
`{a,b}` for one of several patterns.

* `Glob`: patterns as trees of parts, sequences and choices.
* `Glob.same`: equality of trees.
* `Glob.size`: the number of nodes of a tree.
-/

namespace ReflectGen

/-- A glob pattern. -/
inductive Glob where
  /-- The pattern for the empty path. -/
  | nothing
  | text (t : Text)
  /-- One character other than the slash. -/
  | single
  /-- A run of characters without a slash. -/
  | any
  /-- A run of characters. -/
  | super
  | list (negated : Bool) (cs : List Char)
  | range (negated : Bool) (lo hi : Char)
  | sequence (parts : List Glob)
  | choice (alternatives : List Glob)
  deriving Repr, Inhabited

namespace Glob

/-- The character that `*` and `?` do not stand for. -/
def separator : Char := '/'

mutual

/-- Are two patterns the same tree? -/
def same : Glob → Glob → Bool
  | .nothing, .nothing => true
  | .text t, .text u => t == u
  | .single, .single => true
  | .any, .any => true
  | .super, .super => true
  | .list negated cs, .list negated' cs' => negated == negated' && cs == cs'
  | .range negated lo hi, .range negated' lo' hi' =>
    negated == negated' && lo == lo' && hi == hi'
  | .sequence gs, .sequence hs => sameAll gs hs
  | .choice gs, .choice hs => sameAll gs hs
  | _, _ => false

/-- Are the patterns of two lists the same one by one? -/
def sameAll : List Glob → List Glob → Bool
  | [], [] => true
  | g :: gs, h :: hs => same g h && sameAll gs hs
  | _, _ => false

end

instance : BEq Glob := ⟨same⟩

mutual

/-- The number of nodes of a pattern. -/
def size : Glob → Nat
  | .sequence gs => sizeAll gs + 1
  | .choice gs => sizeAll gs + 1
  | _ => 1

/-- The number of nodes of patterns. -/
def sizeAll : List Glob → Nat
  | [] => 0
  | g :: gs => size g + sizeAll gs

end

/-- The parts of a sequence. -/
def parts : Glob → List Glob
  | .sequence gs => gs
  | _ => []

/-- Is the pattern a sequence? -/
def isSequence : Glob → Bool
  | .sequence _ => true
  | _ => false

end Glob

end ReflectGen
