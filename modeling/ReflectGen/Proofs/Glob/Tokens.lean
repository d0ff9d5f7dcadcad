import ReflectGen.Proofs.Glob.Rules
import ReflectGen.Proofs.Glob.Stars

/-!
# How patterns are read

The parts of a pattern are read as tokens: characters that stand side by side are one text, and the
alternatives in braces are the texts of a choice.  This is so for patterns with flat braces, in which
every alternative is a row of characters and there is at least one of them.

* `PatternPart.isFlat`: parts that can be read, with flat braces.
* `Token`, `PatternPart.tokens`: what is read.
* `PatternPart.parse_spelling`: patterns with flat braces are read as their tokens.
-/

namespace ReflectGen

/-- What is read of a pattern. -/
inductive Token where
  | text (x : Text)
  | single
  | any
  | super
  /-- One of several texts. -/
  | choice (first : Text) (others : List Text)
  deriving DecidableEq, Repr

namespace Token

/-- The token as a part of a pattern. -/
def glob : Token → Glob
  | .text x => .text x
  | .single => .single
  | .any => .any
  | .super => .super
  | .choice first others => .choice ((first :: others).map fun x => .sequence [.text x])

/-- The texts of a token. -/
def texts : Token → List Text
  | .text x => [x]
  | .choice first others => first :: others
  | _ => []

/-- Tokens behind a character, which belongs to the text in front if there is one. -/
def push (c : Char) : List Token → List Token
  | .text x :: tokens => .text (String.utf8EncodeChar c ++ x) :: tokens
  | tokens => .text (String.utf8EncodeChar c) :: tokens

end Token

namespace PatternPart

/-! ## Flat braces -/

/-- Can the character stand in a pattern?  The null character ends a text, and U+FFFD cannot be
read. -/
def isReadable (c : Char) : Bool := c.toNat != 0 && c != Rune.replacement

/-- Is the part read as one character? -/
def isLiteral (inBraces : Bool) : PatternPart → Bool
  | .plain c => isReadable c && c != '\\' && !Glob.isSpecial inBraces c
  | .escaped c => isReadable c
  | _ => false

/-- Is the part read as it is meant, and are its alternatives rows of characters, if it has any? -/
def isFlat : PatternPart → Bool
  | .single => true
  | .star => true
  | .doubleStar => true
  | .choice first others => (first :: others).all fun row => !row.isEmpty && row.all (isLiteral true)
  | p => isLiteral false p

/-- The character that a part stands for. -/
def char? : PatternPart → Option Char
  | .plain c => some c
  | .escaped c => some c
  | _ => none

/-- The text of a row of characters. -/
def rowText (row : List PatternPart) : Text := Text.ofChars (row.filterMap char?)

/-- What the part is read as, if it stands alone. -/
def token : PatternPart → Token
  | .plain c => .text (String.utf8EncodeChar c)
  | .escaped c => .text (String.utf8EncodeChar c)
  | .single => .single
  | .star => .any
  | .doubleStar => .super
  | .choice first others => .choice (rowText first) (others.map rowText)

/-- The tokens of a pattern with flat braces. -/
def tokens : List PatternPart → List Token
  | [] => []
  | p :: ps =>
    match p.char? with
    | some c => Token.push c (tokens ps)
    | none => p.token :: tokens ps

/-- Parts whose alternatives are rows of characters, with no star beside another one. -/
structure IsFlatRow (ps : List PatternPart) : Prop where
  isFlat : ∀ p ∈ ps, p.isFlat = true
  stars : ps.IsChain fun p q => ¬ (p.isStar = true ∧ q.isStar = true)

theorem IsFlatRow.tail {p : PatternPart} {ps : List PatternPart} (h : IsFlatRow (p :: ps)) :
    IsFlatRow ps where
  isFlat := (List.forall_mem_cons.mp h.isFlat).2
  stars := h.stars.of_cons

theorem isLiteral_cases {inBraces : Bool} {p : PatternPart} (h : p.isLiteral inBraces = true) :
    ∃ c, p.char? = some c ∧ isReadable c = true ∧
      (p = .escaped c ∨ p = .plain c ∧ c ≠ '\\' ∧ Glob.isSpecial inBraces c = false) := by
  cases p with
  | plain c =>
    rw [isLiteral, Bool.and_eq_true, Bool.and_eq_true, bne_iff_ne, Bool.not_eq_true'] at h
    exact ⟨c, rfl, h.1.1, .inr ⟨rfl, h.1.2, h.2⟩⟩
  | escaped c => exact ⟨c, rfl, h, .inl rfl⟩
  | _ => exact absurd h (by simp [isLiteral])

/-- The tokens behind a part that stands for a character. -/
theorem tokens_cons_of_char? {p : PatternPart} {c : Char} (h : p.char? = some c)
    (ps : List PatternPart) : tokens (p :: ps) = Token.push c (tokens ps) := by
  rw [tokens, h]

theorem tokens_cons_of_char?_eq_none {p : PatternPart} (h : p.char? = none)
    (ps : List PatternPart) : tokens (p :: ps) = p.token :: tokens ps := by
  rw [tokens, h]

theorem rowText_cons {p : PatternPart} {c : Char} (h : p.char? = some c) (row : List PatternPart) :
    rowText (p :: row) = String.utf8EncodeChar c ++ rowText row := by
  rw [rowText, List.filterMap_cons_some h, Text.ofChars_cons, rowText]

/-! ## Reading characters -/

open Glob (isSpecial parseLoop readText)

/-- A character with a meaning of its own ends a text. -/
theorem readText_of_isSpecial {inBraces : Bool} {c : Char} (h : isSpecial inBraces c = true)
    (cs done : List Char) :
    readText (isSpecial inBraces) false (c :: cs) done = (done.reverse, c :: cs) := by
  have hc : c ≠ Rune.replacement ∧ c.toNat ≠ 0 ∧ c ≠ '\\' := by
    simp only [isSpecial, Bool.or_eq_true, Bool.and_eq_true, beq_iff_eq] at h
    rcases h with (((rfl | rfl) | rfl) | rfl) | ⟨-, rfl | rfl⟩ <;> decide
  rw [readText]
  simp [hc, h]

/-- A row of characters is read up to its end. -/
theorem readText_row {inBraces : Bool} {rest : List Char}
    (hrest : rest = [] ∨ ∃ c cs, rest = c :: cs ∧ isSpecial inBraces c = true)
    {row : List PatternPart} (hrow : ∀ p ∈ row, p.isLiteral inBraces = true) :
    ∀ done : List Char, readText (isSpecial inBraces) false (writtenAll row ++ rest) done =
      (done.reverse ++ row.filterMap char?, rest) := by
  induction row with
  | nil =>
    intro done
    rw [writtenAll, List.nil_append, List.filterMap_nil, List.append_nil]
    rcases hrest with rfl | ⟨c, cs, rfl, hc⟩
    · rfl
    · exact readText_of_isSpecial hc cs done
  | cons p row ih =>
    intro done
    rw [List.forall_mem_cons] at hrow
    obtain ⟨c, hchar, hreadable, hp⟩ := isLiteral_cases hrow.1
    have hrest := ih hrow.2 (c :: done)
    rw [List.reverse_cons, List.append_assoc, List.singleton_append] at hrest
    rw [isReadable, Bool.and_eq_true, bne_iff_ne, bne_iff_ne] at hreadable
    rw [List.filterMap_cons_some hchar, ← hrest, writtenAll, List.append_assoc]
    rcases hp with rfl | ⟨rfl, hslash, hspecial⟩
    · rw [written, List.cons_append, List.singleton_append, readText]
      have hbackslash : ('\\' : Char) ≠ Rune.replacement ∧ ('\\' : Char).toNat ≠ 0 := by decide
      simp only [hbackslash, beq_iff_eq, if_false, Bool.not_false, Bool.true_and, if_true]
      rw [readText]
      simp [hreadable]
    · rw [written, List.singleton_append, readText]
      simp [hreadable, hslash, hspecial]

/-- A row of characters is read as one text. -/
theorem parseLoop_row (stack : List Glob.Frame) {rest : List Char}
    (hrest : rest = [] ∨ ∃ c cs, rest = c :: cs ∧ isSpecial (!stack.isEmpty) c = true)
    {row : List PatternPart} (hne : row ≠ [])
    (hrow : ∀ p ∈ row, p.isLiteral (!stack.isEmpty) = true) (fuel : Nat) (cur : List Glob) :
    parseLoop (fuel + 1) (writtenAll row ++ rest) stack cur =
      parseLoop fuel rest stack (.text (rowText row) :: cur) := by
  have hread := readText_row hrest hrow []
  obtain ⟨p, row, rfl⟩ := List.exists_cons_of_ne_nil hne
  obtain ⟨c, hchar, hreadable, hp⟩ := isLiteral_cases (hrow p List.mem_cons_self)
  have htext : ((p :: row).filterMap char?).isEmpty = false := by
    rw [List.filterMap_cons_some hchar]
    rfl
  rw [List.reverse_nil, List.nil_append] at hread
  -- The text begins with a character without a meaning of its own, or with a backslash.
  obtain ⟨d, cs, hcs, hd⟩ : ∃ d cs, writtenAll (p :: row) ++ rest = d :: cs ∧
      d ≠ Rune.replacement ∧ d.toNat ≠ 0 ∧ isSpecial (!stack.isEmpty) d = false := by
    rcases hp with rfl | ⟨rfl, -, hspecial⟩
    · exact ⟨'\\', _, rfl, by decide, by decide, by cases stack <;> rfl⟩
    · rw [isReadable, Bool.and_eq_true, bne_iff_ne, bne_iff_ne] at hreadable
      exact ⟨c, _, rfl, hreadable.2, hreadable.1, hspecial⟩
  rw [hcs] at hread ⊢
  obtain ⟨hreplacement, hnull, hspecial⟩ := hd
  simp only [isSpecial, Bool.or_eq_false_iff, beq_eq_false_iff_ne] at hspecial
  obtain ⟨⟨⟨⟨hquestion, hstar⟩, hclass⟩, hbrace⟩, hclose⟩ := hspecial
  rw [parseLoop]
  · simp [hreplacement, hnull, hread, htext, rowText]
  · exact hbrace
  · exact hclass
  · exact hquestion
  · exact fun _ h _ => hstar h
  · exact hstar
  · rintro f fs rfl rfl
    exact absurd hclose (by simp)
  · rintro f fs rfl rfl
    exact absurd hclose (by simp)

/-! ## Reading braces -/

/-- Alternatives are read one by one, up to the end of the braces. -/
theorem parseLoop_alternatives {rest : List Char} {before : List Glob} :
    ∀ {others : List (List PatternPart)} {first : List PatternPart} {done : List Glob} {fuel : Nat},
      (∀ row ∈ first :: others, row ≠ [] ∧ ∀ p ∈ row, p.isLiteral true = true) →
      parseLoop (fuel + 2 * (others.length + 1)) (writtenAll first ++ writtenOthers others ++ rest)
          [{ before, done }] [] =
        parseLoop fuel rest []
          (.choice (done.reverse ++ (first :: others).map fun row =>
            .sequence [.text (rowText row)]) :: before)
  | [], first, done, fuel, h => by
    obtain ⟨hne, hrow⟩ := h first List.mem_cons_self
    rw [List.append_assoc, show fuel + 2 * ([].length + 1) = fuel + 1 + 1 from rfl,
      writtenOthers, List.singleton_append, parseLoop_row [_] (.inr ⟨_, _, rfl, rfl⟩) hne hrow,
      parseLoop, Glob.Frame.close, List.reverse_cons]
    rfl
  | second :: others, first, done, fuel, h => by
    obtain ⟨hne, hrow⟩ := h first List.mem_cons_self
    rw [List.append_assoc, List.length_cons,
      show fuel + 2 * (others.length + 1 + 1) = fuel + 2 * (others.length + 1) + 1 + 1 by omega,
      writtenOthers, List.cons_append, List.cons_append,
      parseLoop_row [_] (.inr ⟨_, _, rfl, rfl⟩) hne hrow, parseLoop, List.reverse_singleton,
      parseLoop_alternatives fun row hmem => h row (List.mem_cons_of_mem first hmem),
      List.reverse_cons, List.append_assoc]
    rfl

theorem length_written_pos (p : PatternPart) : 0 < (written p).length := by
  cases p <;> simp [written]

theorem length_writtenAll_pos {row : List PatternPart} (hne : row ≠ []) :
    0 < (writtenAll row).length := by
  obtain ⟨p, row, rfl⟩ := List.exists_cons_of_ne_nil hne
  have hp := length_written_pos p
  rw [writtenAll, List.length_append]
  omega

/-- There are at least two characters for each alternative. -/
theorem length_le_length_written {others : List (List PatternPart)} :
    ∀ {first : List PatternPart}, (∀ row ∈ first :: others, row ≠ []) →
      2 * (others.length + 1) ≤ (writtenAll first ++ writtenOthers others).length := by
  induction others with
  | nil =>
    intro first h
    have hfirst := length_writtenAll_pos (h first List.mem_cons_self)
    rw [List.length_append, writtenOthers, List.length_nil, List.length_singleton]
    omega
  | cons second others ih =>
    intro first h
    rw [List.forall_mem_cons] at h
    have hfirst := length_writtenAll_pos h.1
    have hrest := ih h.2
    rw [List.length_append, writtenOthers, List.cons_append, List.length_cons, List.length_cons]
    omega

/-! ## Reading patterns -/

/-- A row of characters stands in front of another part. -/
theorem exists_row (ps : List PatternPart) : ∃ row rest, ps = row ++ rest ∧
    (∀ p ∈ row, p.char? ≠ none) ∧ ∀ q ∈ rest.head?, q.char? = none := by
  induction ps with
  | nil => exact ⟨[], [], rfl, by simp, by simp⟩
  | cons p ps ih =>
    by_cases hp : p.char? = none
    · exact ⟨[], p :: ps, rfl, by simp, by simpa using hp⟩
    · obtain ⟨row, rest, rfl, hrow, hrest⟩ := ih
      exact ⟨p :: row, rest, rfl, List.forall_mem_cons.mpr ⟨hp, hrow⟩, hrest⟩

/-- A row of characters is one token. -/
theorem tokens_row {rest : List PatternPart} (hrest : ∀ q ∈ rest.head?, q.char? = none) :
    ∀ {row : List PatternPart}, row ≠ [] → (∀ p ∈ row, p.char? ≠ none) →
      tokens (row ++ rest) = .text (rowText row) :: tokens rest
  | [p], _, h => by
    obtain ⟨c, hc⟩ := Option.ne_none_iff_exists'.mp (h p List.mem_cons_self)
    rw [List.singleton_append, tokens_cons_of_char? hc, rowText_cons hc]
    have hnil : rowText [] = [] := rfl
    rw [hnil, List.append_nil]
    cases rest with
    | nil => rfl
    | cons q rest =>
      have hq : q.char? = none := hrest q rfl
      rw [tokens_cons_of_char?_eq_none hq]
      cases q <;> first | rfl | exact absurd hq (by simp [char?])
  | p :: q :: row, _, h => by
    rw [List.forall_mem_cons] at h
    obtain ⟨c, hc⟩ := Option.ne_none_iff_exists'.mp h.1
    rw [List.cons_append, tokens_cons_of_char? hc, tokens_row hrest (List.cons_ne_nil q row) h.2,
      rowText_cons hc, Token.push]

theorem isLiteral_of_isFlat {p : PatternPart} (h : p.isFlat = true) (hp : p.char? ≠ none) :
    p.isLiteral false = true := by
  cases p with
  | plain c => exact h
  | escaped c => exact h
  | _ => exact absurd rfl hp

/-- Behind a row of characters there is a character with a meaning of its own, or nothing. -/
theorem writtenAll_cases {ps : List PatternPart} (h : ∀ q ∈ ps.head?, q.char? = none) :
    writtenAll ps = [] ∨ ∃ c cs, writtenAll ps = c :: cs ∧ isSpecial false c = true := by
  cases ps with
  | nil => exact .inl rfl
  | cons p ps =>
    have hp : p.char? = none := h p rfl
    cases p with
    | plain _ => exact absurd hp (by simp [char?])
    | escaped _ => exact absurd hp (by simp [char?])
    | _ => exact .inr ⟨_, _, rfl, rfl⟩

/-- Behind a star no other one is written. -/
theorem writtenAll_ne_star {ps : List PatternPart} (h : IsFlatRow (.star :: ps)) (cs : List Char) :
    writtenAll ps ≠ '*' :: cs := by
  cases ps with
  | nil => exact fun hnil => absurd hnil (by simp [writtenAll])
  | cons p ps =>
    have hstar := (List.isChain_cons_cons.mp h.stars).1
    have hp := h.tail.isFlat p List.mem_cons_self
    intro hcs
    cases p with
    | plain c =>
      have hc : c = '*' := (List.cons.inj hcs).1
      rw [hc] at hp
      exact absurd hp (by decide)
    | star => exact hstar ⟨rfl, rfl⟩
    | doubleStar => exact hstar ⟨rfl, rfl⟩
    | _ => exact absurd (List.cons.inj hcs).1 (by decide)

theorem rows_of_isFlat {first : List PatternPart} {others : List (List PatternPart)}
    (h : (PatternPart.choice first others).isFlat = true) :
    ∀ row ∈ first :: others, row ≠ [] ∧ ∀ p ∈ row, p.isLiteral true = true := by
  intro row hrow
  have hall := List.all_eq_true.mp h row hrow
  rw [Bool.and_eq_true, Bool.not_eq_true', List.isEmpty_eq_false_iff, List.all_eq_true] at hall
  exact hall

/-- A part other than a character is one token. -/
theorem parseLoop_cons {p : PatternPart} {ps : List PatternPart} {fuel : Nat}
    (hp : p.char? = none) (h : IsFlatRow (p :: ps)) (hfuel : (writtenAll (p :: ps)).length ≤ fuel) :
    ∃ f, (writtenAll ps).length ≤ f ∧ ∀ cur, parseLoop fuel (writtenAll (p :: ps)) [] cur =
      parseLoop f (writtenAll ps) [] (p.token.glob :: cur) := by
  rw [writtenAll, List.length_append] at hfuel
  have hpos := length_written_pos p
  obtain ⟨f, rfl⟩ : ∃ f, fuel = f + 1 := ⟨fuel - 1, by omega⟩
  cases p with
  | plain _ => exact absurd hp (by simp [char?])
  | escaped _ => exact absurd hp (by simp [char?])
  | single => exact ⟨f, by omega, fun _ => rfl⟩
  | star => exact ⟨f, by omega, Glob.parseLoop_any (writtenAll_ne_star h) f⟩
  | doubleStar => exact ⟨f, by omega, fun _ => rfl⟩
  | choice first others =>
    have hrows := rows_of_isFlat (h.isFlat _ List.mem_cons_self)
    have hlength := length_le_length_written fun row hmem => (hrows row hmem).1
    rw [written, List.cons_append, List.length_cons] at hfuel
    obtain ⟨k, rfl⟩ : ∃ k, f = k + 2 * (others.length + 1) :=
      ⟨f - 2 * (others.length + 1), by omega⟩
    refine ⟨k, by omega, fun cur => ?_⟩
    rw [writtenAll, written, List.cons_append, List.cons_append, parseLoop,
      parseLoop_alternatives hrows, token, Token.glob, ← List.map_cons, List.map_map]
    rfl

/-- What stands at the front of a pattern is read as one token. -/
theorem parseLoop_front {ps : List PatternPart} {fuel : Nat} (hne : ps ≠ []) (h : IsFlatRow ps)
    (hfuel : (writtenAll ps).length ≤ fuel) :
    ∃ rest q f, rest.length < ps.length ∧ IsFlatRow rest ∧ tokens ps = q :: tokens rest ∧
      (writtenAll rest).length ≤ f ∧
      ∀ cur, parseLoop fuel (writtenAll ps) [] cur =
        parseLoop f (writtenAll rest) [] (q.glob :: cur) := by
  obtain ⟨row, rest, rfl, hrow, hrest⟩ := exists_row ps
  by_cases hrow' : row = []
  · subst hrow'
    rw [List.nil_append] at hne h hfuel ⊢
    obtain ⟨p, ps, rfl⟩ := List.exists_cons_of_ne_nil hne
    have hp : p.char? = none := hrest p rfl
    obtain ⟨f, hf, hstep⟩ := parseLoop_cons hp h hfuel
    exact ⟨ps, p.token, f, Nat.lt_succ_self _, h.tail, tokens_cons_of_char?_eq_none hp ps, hf, hstep⟩
  · have hliteral : ∀ p ∈ row, p.isLiteral false = true := fun p hp =>
      isLiteral_of_isFlat (h.isFlat p (List.mem_append_left rest hp)) (hrow p hp)
    have hpos := length_writtenAll_pos hrow'
    have hlength := List.length_pos_iff.mpr hrow'
    rw [writtenAll_append, List.length_append] at hfuel
    obtain ⟨f, rfl⟩ : ∃ f, fuel = f + 1 := ⟨fuel - 1, by omega⟩
    refine ⟨rest, .text (rowText row), f, ?_, ?_, tokens_row hrest hrow' hrow, by omega,
      fun cur => ?_⟩
    · rw [List.length_append]
      omega
    · exact ⟨fun p hp => h.isFlat p (List.mem_append_right row hp), h.stars.right_of_append⟩
    · rw [writtenAll_append, parseLoop_row [] (writtenAll_cases hrest) hrow' hliteral]
      rfl

/-- Patterns with flat braces are read as their tokens, behind those that are read already.  The
induction is on the number of parts. -/
theorem parseLoop_writtenAll : ∀ (n : Nat) {ps : List PatternPart}, ps.length ≤ n → IsFlatRow ps →
    ∀ {fuel : Nat} {cur : List Glob}, (writtenAll ps).length ≤ fuel →
      parseLoop fuel (writtenAll ps) [] cur =
        .ok (.sequence (cur.reverse ++ (tokens ps).map Token.glob)) := by
  intro n
  induction n with
  | zero =>
    intro ps hn _ fuel cur _
    obtain rfl := List.length_eq_zero_iff.mp (Nat.le_zero.mp hn)
    rw [writtenAll, Glob.parseLoop_nil, tokens, List.map_nil, List.append_nil]
  | succ n ih =>
    intro ps hn h fuel cur hfuel
    by_cases hne : ps = []
    · exact ih (by rw [hne]; exact Nat.zero_le n) h hfuel
    · obtain ⟨rest, q, f, hlength, hflat, htokens, hf, hstep⟩ := parseLoop_front hne h hfuel
      rw [hstep, ih (by omega) hflat hf, htokens, List.reverse_cons, List.append_assoc,
        List.map_cons, List.singleton_append]

/-- **Patterns with flat braces are read as their tokens.** -/
theorem parse_spelling {ps : List PatternPart} (h : IsFlatRow ps) :
    Glob.parse (spelling ps) = .ok (.sequence ((tokens ps).map Token.glob)) := by
  rw [Glob.parse, spelling, Text.chars_ofChars]
  exact parseLoop_writtenAll ps.length (Nat.le_refl _) h (Nat.le_succ _)

end PatternPart

end ReflectGen
