import ReflectGen.Glob.Parse

/-!
# What patterns are meant to match

A pattern is made of characters that stand for themselves, of escaped characters, of question marks
and stars, and of alternatives in braces.  The rules say which paths such a pattern is meant to
match: `?` is one character other than the slash, `*` is a run of such characters, `**` is any run,
braces are one of their alternatives, and what is written one behind the other is matched one behind
the other.  A byte that is part of no character counts as a character.

A matcher is made from a pattern in many steps, and it is these rules that it is made for.

* `PatternPart`, `PatternPart.writtenAll`: parts of patterns, and how they are written.
* `PatternPart.DenotesAll`: what parts are meant to match, one behind the other.
* `PatternPart.isNameRow`: patterns for the names of files, in which no slash can be matched
  (`PatternPart.slash_notMem_of_denotesAll`).
-/

namespace ReflectGen

/-- A part of a pattern. -/
inductive PatternPart where
  /-- A character that stands for itself. -/
  | plain (c : Char)
  /-- A character behind a backslash. -/
  | escaped (c : Char)
  | single
  | star
  | doubleStar
  /-- Alternatives in braces, with commas between them. -/
  | choice (first : List PatternPart) (others : List (List PatternPart))
  deriving Repr, Inhabited

namespace PatternPart

/-! ## How patterns are written -/

mutual

/-- How a part is written. -/
def written : PatternPart → List Char
  | .plain c => [c]
  | .escaped c => ['\\', c]
  | .single => ['?']
  | .star => ['*']
  | .doubleStar => ['*', '*']
  | .choice first others => '\x7b' :: writtenAll first ++ writtenOthers others

/-- How parts are written, one behind the other. -/
def writtenAll : List PatternPart → List Char
  | [] => []
  | p :: ps => written p ++ writtenAll ps

/-- How the alternatives behind the first one are written, and the end of the braces. -/
def writtenOthers : List (List PatternPart) → List Char
  | [] => ['\x7d']
  | alternative :: alternatives =>
    ',' :: writtenAll alternative ++ writtenOthers alternatives

end

/-- The text of a pattern. -/
def spelling (ps : List PatternPart) : Text := Text.ofChars (writtenAll ps)

theorem writtenAll_append (ps qs : List PatternPart) :
    writtenAll (ps ++ qs) = writtenAll ps ++ writtenAll qs := by
  induction ps with
  | nil => rfl
  | cons p ps ih => rw [List.cons_append, writtenAll, writtenAll, ih, List.append_assoc]

/-! ## What patterns are meant to match -/

/-- The character that separates the components of a path. -/
def slash : Rune := .char Glob.separator

mutual

/-- Is the part meant to match the whole piece? -/
def Denotes : PatternPart → List Rune → Prop
  | .plain c, rs => rs = [.char c]
  | .escaped c, rs => rs = [.char c]
  | .single, rs => ∃ r, rs = [r] ∧ r ≠ slash
  | .star, rs => slash ∉ rs
  | .doubleStar, _ => True
  | .choice first others, rs => DenotesAll first rs ∨ DenotesSome others rs

/-- Are the parts meant to match the whole piece, one behind the other? -/
def DenotesAll : List PatternPart → List Rune → Prop
  | [], rs => rs = []
  | p :: ps, rs => ∃ a b, rs = a ++ b ∧ Denotes p a ∧ DenotesAll ps b

/-- Is one of the alternatives meant to match the whole piece? -/
def DenotesSome : List (List PatternPart) → List Rune → Prop
  | [], _ => False
  | alternative :: alternatives, rs =>
    DenotesAll alternative rs ∨ DenotesSome alternatives rs

end

/-- A piece is cut into two at one of its places. -/
theorem exists_cut_iff {P : List Rune → List Rune → Prop} {rs : List Rune} :
    (∃ a b, rs = a ++ b ∧ P a b) ↔ ∃ n ∈ List.range (rs.length + 1), P (rs.take n) (rs.drop n) := by
  constructor
  · rintro ⟨a, b, rfl, h⟩
    refine ⟨a.length, ?_, ?_⟩
    · rw [List.mem_range, List.length_append]
      omega
    · rwa [List.take_left, List.drop_left]
  · rintro ⟨n, -, h⟩
    exact ⟨_, _, (List.take_append_drop n rs).symm, h⟩

mutual

/-- What a part is meant to match can be found out by trying all cuts. -/
def decidableDenotes : (p : PatternPart) → (rs : List Rune) → Decidable (Denotes p rs)
  | .plain c, rs => inferInstanceAs (Decidable (rs = [.char c]))
  | .escaped c, rs => inferInstanceAs (Decidable (rs = [.char c]))
  | .single, [] => .isFalse fun ⟨_, h, _⟩ => nomatch h
  | .single, [r] => decidable_of_iff (r ≠ slash)
      ⟨fun h => ⟨r, rfl, h⟩, fun ⟨_, hr, h⟩ => (List.cons.inj hr).1 ▸ h⟩
  | .single, _ :: _ :: _ => .isFalse fun ⟨_, h, _⟩ => nomatch h
  | .star, rs => inferInstanceAs (Decidable (slash ∉ rs))
  | .doubleStar, _ => .isTrue trivial
  | .choice first others, rs =>
    have := decidableDenotesAll first rs
    have := decidableDenotesSome others rs
    inferInstanceAs (Decidable (DenotesAll first rs ∨ DenotesSome others rs))

def decidableDenotesAll : (ps : List PatternPart) → (rs : List Rune) → Decidable (DenotesAll ps rs)
  | [], rs => inferInstanceAs (Decidable (rs = []))
  | p :: ps, rs =>
    have (n : Nat) := decidableDenotes p (rs.take n)
    have (n : Nat) := decidableDenotesAll ps (rs.drop n)
    decidable_of_iff' _ exists_cut_iff

def decidableDenotesSome :
    (alternatives : List (List PatternPart)) → (rs : List Rune) →
      Decidable (DenotesSome alternatives rs)
  | [], _ => .isFalse id
  | alternative :: alternatives, rs =>
    have := decidableDenotesAll alternative rs
    have := decidableDenotesSome alternatives rs
    inferInstanceAs (Decidable (DenotesAll alternative rs ∨ DenotesSome alternatives rs))

end

instance (ps : List PatternPart) : DecidablePred (DenotesAll ps) := decidableDenotesAll ps

/-! ## Patterns for names -/

/-- Is the part a star? -/
def isStar : PatternPart → Bool
  | .star => true
  | .doubleStar => true
  | _ => false

mutual

/-- Can the part stand in a pattern for names?  It has no slash and no double star in it, and its
plain characters have no meaning of their own. -/
def isName (inBraces : Bool) : PatternPart → Bool
  | .plain c => c != Glob.separator && c != '\\' && !Glob.isSpecial inBraces c
  | .escaped c => c != Glob.separator
  | .single => true
  | .star => true
  | .doubleStar => false
  | .choice first others => isNameRow true first && areNameRows others

/-- Are the parts a pattern for names?  No star stands beside another one. -/
def isNameRow (inBraces : Bool) : List PatternPart → Bool
  | [] => true
  | p :: ps => isName inBraces p && !(p.isStar && ps.head?.any isStar) && isNameRow inBraces ps

/-- Are all alternatives patterns for names? -/
def areNameRows : List (List PatternPart) → Bool
  | [] => true
  | alternative :: alternatives => isNameRow true alternative && areNameRows alternatives

end

/-- Characters are different pieces if they are different. -/
theorem slash_notMem_singleton {c : Char} (h : c ≠ Glob.separator) : slash ∉ [Rune.char c] := by
  rw [List.mem_singleton, slash]
  exact fun heq => h (Rune.char.inj heq).symm

mutual

/-- A part of a pattern for names matches no slash.  The recursion is that of the rules. -/
theorem slash_notMem_of_denotes {inBraces : Bool} :
    ∀ {p : PatternPart} {rs : List Rune}, isName inBraces p = true → Denotes p rs → slash ∉ rs
  | .plain c, rs, h, hrs => by
    rw [isName, Bool.and_eq_true, Bool.and_eq_true, bne_iff_ne] at h
    rw [Denotes] at hrs
    rw [hrs]
    exact slash_notMem_singleton h.1.1
  | .escaped c, rs, h, hrs => by
    rw [isName, bne_iff_ne] at h
    rw [Denotes] at hrs
    rw [hrs]
    exact slash_notMem_singleton h
  | .single, rs, _, hrs => by
    obtain ⟨r, rfl, hr⟩ := hrs
    rw [List.mem_singleton]
    exact hr.symm
  | .star, rs, _, hrs => hrs
  | .choice first others, rs, h, hrs => by
    rw [isName, Bool.and_eq_true] at h
    rcases hrs with hrs | hrs
    · exact slash_notMem_of_denotesAll h.1 hrs
    · exact slash_notMem_of_denotesSome h.2 hrs

/-- A pattern for names matches no slash. -/
theorem slash_notMem_of_denotesAll {inBraces : Bool} :
    ∀ {ps : List PatternPart} {rs : List Rune}, isNameRow inBraces ps = true →
      DenotesAll ps rs → slash ∉ rs
  | [], rs, _, hrs => by
    rw [DenotesAll] at hrs
    rw [hrs]
    exact List.not_mem_nil
  | p :: ps, rs, h, hrs => by
    rw [isNameRow, Bool.and_eq_true, Bool.and_eq_true] at h
    obtain ⟨a, b, rfl, ha, hb⟩ := hrs
    rw [List.mem_append, not_or]
    exact ⟨slash_notMem_of_denotes h.1.1 ha, slash_notMem_of_denotesAll h.2 hb⟩

theorem slash_notMem_of_denotesSome :
    ∀ {alternatives : List (List PatternPart)} {rs : List Rune},
      areNameRows alternatives = true → DenotesSome alternatives rs → slash ∉ rs
  | alternative :: alternatives, rs, h, hrs => by
    rw [areNameRows, Bool.and_eq_true] at h
    rcases hrs with hrs | hrs
    · exact slash_notMem_of_denotesAll h.1 hrs
    · exact slash_notMem_of_denotesSome h.2 hrs

end

/-! ## Patterns for names in every directory -/

/-- The pattern behind a double star and a slash. -/
def inEveryDirectory (ps : List PatternPart) : List PatternPart :=
  .doubleStar :: .plain Glob.separator :: ps

theorem spelling_inEveryDirectory (ps : List PatternPart) :
    spelling (inEveryDirectory ps) = lit "**/" ++ spelling ps := rfl

/-- A double star and a slash stand for everything up to some slash. -/
theorem denotesAll_inEveryDirectory_iff {ps : List PatternPart} {rs : List Rune} :
    DenotesAll (inEveryDirectory ps) rs ↔ ∃ a b, rs = a ++ slash :: b ∧ DenotesAll ps b := by
  constructor
  · rintro ⟨a, _, rfl, -, _, b, rfl, hslash, hb⟩
    rw [Denotes] at hslash
    exact ⟨a, b, by rw [hslash]; rfl, hb⟩
  · rintro ⟨a, b, rfl, hb⟩
    exact ⟨a, slash :: b, rfl, trivial, [slash], b, rfl, rfl, hb⟩

/-- Only one slash is the last one. -/
theorem eq_of_append_slash {a b c d : List Rune} (h : a ++ slash :: b = c ++ slash :: d)
    (hb : slash ∉ b) (hd : slash ∉ d) : b = d := by
  have key : ∀ {m u v : List Rune}, slash :: u = m ++ slash :: v → slash ∉ u → u = v := by
    intro m u v h hu
    cases m with
    | nil => exact (List.cons.inj h).2
    | cons x m =>
      rw [(List.cons.inj h).2] at hu
      exact absurd (by simp) hu
  rcases List.append_eq_append_iff.mp h with ⟨m, -, h⟩ | ⟨m, -, h⟩
  · exact key h hb
  · exact (key h hd).symm

/-- In a path that is cut at its last slash, a pattern for names in every directory matches what
the pattern for names matches behind the slash. -/
theorem denotesAll_inEveryDirectory_append_iff {inBraces : Bool} {ps : List PatternPart}
    (hps : isNameRow inBraces ps = true) {front name : List Rune} (hname : slash ∉ name) :
    DenotesAll (inEveryDirectory ps) (front ++ slash :: name) ↔ DenotesAll ps name := by
  rw [denotesAll_inEveryDirectory_iff]
  constructor
  · rintro ⟨a, b, hcut, hb⟩
    rwa [eq_of_append_slash hcut hname (slash_notMem_of_denotesAll hps hb)]
  · exact fun h => ⟨front, name, rfl, h⟩

/-- Without a slash there is no directory. -/
theorem not_denotesAll_inEveryDirectory {ps : List PatternPart} {rs : List Rune}
    (h : slash ∉ rs) : ¬ DenotesAll (inEveryDirectory ps) rs := by
  rw [denotesAll_inEveryDirectory_iff]
  rintro ⟨a, b, rfl, -⟩
  exact h (by simp)

end PatternPart

end ReflectGen
