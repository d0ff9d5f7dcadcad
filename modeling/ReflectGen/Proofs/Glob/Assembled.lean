import ReflectGen.Proofs.Glob.Joined
import ReflectGen.Proofs.Glob.Tokens

/-!
# The matcher of tokens

Each token has a matcher of its own; a choice between equal texts is one of them.  The matcher of a
pattern is assembled from those of its tokens, and it matches a path if they fit it, one behind the
other.

* `Token.matcher`, `Token.compile_glob`: the matchers of tokens.
* `Token.fitting_matchers`: they can be put together.
* `Token.accepts_compile_iff`: the matcher of a pattern.
-/

namespace ReflectGen

namespace Token

open Matcher (Cuts Fitting FitsAll Meets Piece Within)

/-! ## Choices -/

/-- A text as an alternative. -/
def row (x : Text) : Glob := .sequence [.text x]

theorem text_beq (x y : Text) : (Glob.text x == Glob.text y) = (x == y) := rfl

theorem compare_row (x y : Text) (leftOpen rightOpen : Bool) :
    Glob.Common.compare (row x) 0 { leftOpen, rightOpen } (row y) =
      { leftOpen := leftOpen && x == y,
        rightOpen := rightOpen && !(leftOpen && x == y) && x == y } := by
  simp [Glob.Common.compare, row, Glob.parts, text_beq]

/-- Once the right end is closed, the left one stays open as long as texts are the same. -/
theorem foldl_compare_row (x : Text) (ys : List Text) : ∀ leftOpen : Bool,
    (ys.map row).foldl (Glob.Common.compare (row x) 0) { leftOpen, rightOpen := false } =
      { leftOpen := leftOpen && ys.all (x == ·), rightOpen := false } := by
  induction ys with
  | nil =>
    intro leftOpen
    rw [List.all_nil, Bool.and_true]
    rfl
  | cons y ys ih =>
    intro leftOpen
    rw [List.map_cons, List.foldl_cons, compare_row, Bool.false_and, Bool.false_and, ih,
      List.all_cons, Bool.and_assoc]

theorem shortestIndex_rows (x : Text) (xs : List Text) :
    Glob.shortestIndex ((x :: xs).map row) = 0 := by
  have hcounts : ((x :: xs).map row).map (·.parts.length) = 1 :: xs.map fun _ => 1 := by
    rw [List.map_map]
    rfl
  rw [Glob.shortestIndex, hcounts, List.findIdx_cons]
  simp

/-- What texts have in common is all or nothing. -/
theorem common_rows (x y : Text) (ys : List Text) :
    Glob.common ((x :: y :: ys).map row) =
      { left := if (y :: ys).all (x == ·) then 1 else 0,
        leftOpen := (y :: ys).all (x == ·), rightOpen := false } := by
  have hfold : ((y :: ys).map row).foldl (Glob.Common.compare (row x) 0) {} =
      { leftOpen := (y :: ys).all (x == ·), rightOpen := false } := by
    rw [List.map_cons, List.foldl_cons, compare_row, Bool.true_and, Bool.true_and,
      Bool.not_and_self, foldl_compare_row, List.all_cons]
  have hopen : ¬ (row x).parts.length ≤ ({} : Glob.Common).left + ({} : Glob.Common).right :=
    Nat.not_succ_le_zero 0
  rw [Glob.common, shortestIndex_rows]
  show Glob.Common.step (row x) ((y :: ys).map row) {} 0 = _
  rw [Glob.Common.step, if_neg hopen, hfold]
  rfl

theorem distinct_eq_singleton {g : Glob} (hg : (g == g) = true) {gs : List Glob}
    (h : ∀ k ∈ gs, k = g) : Glob.distinct (g :: gs) = [g] := by
  have hfold : gs.foldl (fun done g => if done.contains g then done else done ++ [g]) [g] = [g] := by
    induction gs with
    | nil => rfl
    | cons k gs ih =>
      rw [List.forall_mem_cons] at h
      rw [List.foldl_cons, h.1, if_pos (by simp [hg]), ih h.2]
  exact hfold

/-- Texts are factored only if all of them are the same. -/
theorem factor?_rows (x : Text) (xs : List Text) :
    Glob.factor? ((x :: xs).map row) =
      if xs ≠ [] ∧ ∀ y ∈ xs, y = x then some (.sequence [row x]) else none := by
  cases xs with
  | nil => rfl
  | cons y ys =>
    have hsequences : ((x :: y :: ys).map row).all Glob.isSequence = true := by
      rw [List.all_map]
      exact List.all_eq_true.mpr fun _ _ => rfl
    have hall : (y :: ys).all (x == ·) = true ↔ y :: ys ≠ [] ∧ ∀ z ∈ y :: ys, z = x := by
      rw [List.all_eq_true, and_iff_right (List.cons_ne_nil y ys)]
      exact forall₂_congr fun z _ => beq_iff_eq.trans eq_comm
    unfold Glob.factor?
    rw [common_rows, hsequences]
    by_cases h : (y :: ys).all (x == ·) = true
    · rw [if_pos h, if_pos (hall.mp h)]
      have hrests : ((x :: y :: ys).map row).map (fun g =>
          Glob.ofParts ((g.parts.take (g.parts.length - 0)).drop 1)) =
            .nothing :: (y :: ys).map fun _ => .nothing := by
        rw [List.map_map]
        rfl
      have hdistinct : Glob.distinct (.nothing :: (y :: ys).map fun _ => .nothing) = [.nothing] :=
        distinct_eq_singleton rfl (by simp)
      dsimp only
      rw [hrests, hdistinct]
      rfl
    · rw [if_neg h, if_neg (mt hall.mpr h)]
      rfl

/-! ## The matchers of tokens -/

/-- The matcher of a token. -/
def matcher : Token → Matcher
  | .text x => .text x
  | .single => .single [Glob.separator]
  | .any => .any [Glob.separator]
  | .super => .super
  | .choice first others =>
    if ∀ y ∈ others, y = first then .text first else .anyOf ((first :: others).map .text)

/-- A token is compiled to its matcher. -/
theorem compile_glob (q : Token) (n : Nat) :
    Matcher.simplify (Glob.compileWithin (n + 4) q.glob) = q.matcher := by
  cases q with
  | choice first others =>
    have hglob : (Token.choice first others).glob = .choice ((first :: others).map row) := rfl
    have hrows : ((first :: others).map row).map (fun g =>
        Matcher.simplify (Glob.compileWithin (n + 3) g)) = (first :: others).map .text := by
      rw [List.map_map]
      rfl
    rw [hglob, Glob.compileWithin, factor?_rows, matcher]
    by_cases hsame : ∀ y ∈ others, y = first
    · rw [if_pos hsame]
      by_cases hne : others = []
      · rw [hne]
        rfl
      · rw [if_pos ⟨hne, hsame⟩]
        rfl
    · rw [if_neg hsame, if_neg (fun h => hsame h.2)]
      dsimp only
      rw [hrows]
      cases others with
      | nil => exact absurd (fun y hy => absurd hy List.not_mem_nil) hsame
      | cons y ys => rfl
  | _ => rfl

/-! ## Tokens as pieces -/

/-- Is the token a star? -/
def isStar : Token → Bool
  | .any => true
  | .super => true
  | _ => false

/-- Is the token a text? -/
def isText : Token → Bool
  | .text _ => true
  | _ => false

/-- Is the token a choice? -/
def isChoice : Token → Bool
  | .choice _ _ => true
  | _ => false

variable {ascii : Bool} {q : Token} {qs : List Token} {t u : Text}

/-- The texts of a token are texts of characters, and characters are counted like bytes if the token
is a question mark. -/
structure IsProper (ascii : Bool) (q : Token) : Prop where
  texts : ∀ x ∈ q.texts, x ≠ [] ∧ x.isUtf8 = true
  single : q = .single → ascii = true

/-- The matcher of a choice is a text or a choice of texts. -/
theorem matcher_choice_cases (first : Text) (others : List Text) :
    (matcher (.choice first others) = .text first ∧ ∀ y ∈ others, y = first) ∨
      matcher (.choice first others) = .anyOf ((first :: others).map .text) ∧
        1 < (first :: others).length := by
  rw [matcher]
  by_cases hsame : ∀ y ∈ others, y = first
  · exact .inl ⟨if_pos hsame, hsame⟩
  · refine .inr ⟨if_neg hsame, ?_⟩
    cases others with
    | nil => exact absurd (fun y hy => absurd hy List.not_mem_nil) hsame
    | cons y ys =>
      rw [List.length_cons, List.length_cons]
      omega

theorem IsProper.piece (h : IsProper ascii q) : Piece ascii q.matcher := by
  cases q with
  | text x => exact .text (h.texts x List.mem_cons_self)
  | single => exact .single (h.single rfl)
  | any => exact .any
  | super => exact .super
  | choice first others =>
    rcases matcher_choice_cases first others with ⟨heq, -⟩ | ⟨heq, hlength⟩
    · rw [heq]
      exact .text (h.texts first List.mem_cons_self)
    · rw [heq]
      exact .choice h.texts hlength

theorem isStar_matcher (q : Token) : q.matcher.isStar = q.isStar := by
  cases q with
  | choice first others =>
    rcases matcher_choice_cases first others with ⟨heq, -⟩ | ⟨heq, -⟩ <;> rw [heq] <;> rfl
  | _ => rfl

theorem matcher_eq_super (h : q.matcher = .super) : q = .super := by
  cases q with
  | super => rfl
  | choice first others =>
    rcases matcher_choice_cases first others with ⟨heq, -⟩ | ⟨heq, -⟩ <;>
      exact absurd (heq.symm.trans h) (by simp)
  | _ => exact absurd h (by simp [matcher])

/-- Tokens of a fixed length fit ASCII pieces only, if characters are counted like bytes. -/
theorem IsProper.cuts (h : IsProper ascii q)
    (hascii : ascii = true ∨ ∀ x ∈ q.texts, x.IsAscii) (hfixed : q.matcher.length? ≠ none) :
    ∃ n, Cuts ascii q.matcher n := by
  have htext : ∀ x ∈ q.texts, Cuts ascii (.text x) x.runes.length := fun x hx =>
    Matcher.cuts_text (h.texts x hx).1 (hascii.imp_right fun hall => hall x hx)
  cases q with
  | text x => exact ⟨_, htext x List.mem_cons_self⟩
  | single =>
    obtain rfl := h.single rfl
    exact ⟨1, Matcher.cuts_single⟩
  | any => exact absurd rfl hfixed
  | super => exact absurd rfl hfixed
  | choice first others =>
    rcases matcher_choice_cases first others with ⟨heq, -⟩ | ⟨heq, -⟩
    · rw [heq]
      exact ⟨_, htext first List.mem_cons_self⟩
    · rw [heq] at hfixed ⊢
      obtain ⟨n, hn⟩ := Option.ne_none_iff_exists'.mp hfixed
      exact ⟨n, Matcher.cuts_choice (fun x hx => (h.texts x hx).1) (List.cons_ne_nil _ _) hascii hn⟩

/-- Characters are counted like bytes: in the path, or in the tokens.  If there is no choice, there
is nothing to be counted. -/
def Counts (ascii : Bool) (qs : List Token) : Prop :=
  ascii = true ∨ (∀ q ∈ qs, ∀ x ∈ q.texts, x.IsAscii) ∨ ∀ q ∈ qs, q.isChoice = false

/-- Tokens that can be put together. -/
structure IsRow (ascii : Bool) (qs : List Token) : Prop where
  isProper : ∀ q ∈ qs, IsProper ascii q
  counts : Counts ascii qs
  turns : qs.IsChain fun q r => ¬ (q.isStar = true ∧ r.isStar = true) ∧
    ¬ (q.isText = true ∧ r.isText = true)
  super_notMem : Token.super ∉ qs.tail

/-- Neighbours of fixed lengths fit ASCII pieces only, since no text stands beside another one. -/
theorem IsRow.meets (h : IsRow ascii qs) {q r : Token} (hq : q ∈ qs) (hr : r ∈ qs)
    (hstars : ¬ (q.isStar = true ∧ r.isStar = true)) (htexts : ¬ (q.isText = true ∧ r.isText = true)) :
    Meets ascii q.matcher r.matcher := by
  refine ⟨by rwa [isStar_matcher, isStar_matcher], fun hqn hrn => ?_⟩
  rcases h.counts with hascii | hascii | hchoice
  · exact ⟨(h.isProper q hq).cuts (.inl hascii) hqn, (h.isProper r hr).cuts (.inl hascii) hrn⟩
  · exact ⟨(h.isProper q hq).cuts (.inr (hascii q hq)) hqn,
      (h.isProper r hr).cuts (.inr (hascii r hr)) hrn⟩
  · -- One of them is a question mark, and so the path is an ASCII text.
    have hkind : ∀ {p : Token}, p ∈ qs → p.matcher.length? ≠ none → p.isText = true ∨ p = .single := by
      intro p hp hfixed
      cases p with
      | text x => exact .inl rfl
      | single => exact .inr rfl
      | any => exact absurd rfl hfixed
      | super => exact absurd rfl hfixed
      | choice _ _ => exact absurd (hchoice _ hp) (by simp [isChoice])
    have hascii : ascii = true := by
      rcases hkind hq hqn with hq' | hq'
      · rcases hkind hr hrn with hr' | hr'
        · exact absurd ⟨hq', hr'⟩ htexts
        · exact (h.isProper r hr).single hr'
      · exact (h.isProper q hq).single hq'
    exact ⟨(h.isProper q hq).cuts (.inl hascii) hqn, (h.isProper r hr).cuts (.inl hascii) hrn⟩

/-- **The matchers of tokens can be put together.** -/
theorem fitting_matchers (h : IsRow ascii qs) : Fitting ascii (qs.map matcher) where
  pieces := List.forall_mem_map.mpr fun q hq => (h.isProper q hq).piece
  meets := by
    rw [List.isChain_map]
    exact h.turns.imp_of_mem_imp fun q r hq hr hturns => h.meets hq hr hturns.1 hturns.2
  super_notMem := by
    rw [List.map_tail.symm]
    intro hmem
    obtain ⟨q, hq, hsuper⟩ := List.mem_map.mp hmem
    exact h.super_notMem (matcher_eq_super hsuper ▸ hq)

/-- Behind a star or a question mark there is a character, or nothing. -/
theorem eq_nil_or_begins {rest : Text} (hproper : ∀ r ∈ q :: qs, IsProper ascii r)
    (hturns : ∀ r ∈ qs.head?, ¬ (q.isStar = true ∧ r.isStar = true))
    (hkind : q.isStar = true ∨ q = .single) (hrest : Within ascii rest)
    (hfits : FitsAll (qs.map matcher) rest) : rest = [] ∨ Matcher.Begins rest := by
  rw [List.forall_mem_cons] at hproper
  rcases hkind with hstar | rfl
  · cases qs with
    | nil => exact .inl hfits
    | cons r qs =>
      have hr : r.matcher.isStar = false := by
        rw [isStar_matcher]
        exact Bool.eq_false_iff.mpr fun hr => hturns r rfl ⟨hstar, hr⟩
      exact .inr (Matcher.begins_of_fitsAll (hproper.2 r List.mem_cons_self).piece hr hrest hfits)
  · exact or_iff_not_imp_left.mpr fun hne =>
      Matcher.begins_of_isAscii (hrest (hproper.1.single rfl)) hne

/-- **The matcher of a pattern** matches a path if the matchers of its tokens fit it, one behind the
other. -/
theorem accepts_compile_iff (h : IsRow ascii qs) (ht : Within ascii t) (hne : t ≠ []) :
    (Glob.compile (.sequence (qs.map glob))).accepts t = true ↔ FitsAll (qs.map matcher) t := by
  have hsize : qs ≠ [] → ∃ n, 3 * (Glob.sequence (qs.map glob)).size = n + 4 := by
    intro hqs
    obtain ⟨q, qs, rfl⟩ := List.exists_cons_of_ne_nil hqs
    have hpos : 0 < q.glob.size := by cases q <;> simp [glob, Glob.size]
    refine ⟨3 * (Glob.sequence ((q :: qs).map glob)).size - 4, ?_⟩
    rw [Glob.size, List.map_cons, Glob.sizeAll]
    omega
  have hmatchers : (qs.map glob).map (fun g => Matcher.simplify
      (Glob.compileWithin (3 * (Glob.sequence (qs.map glob)).size) g)) = qs.map matcher := by
    by_cases hqs : qs = []
    · rw [hqs]
      rfl
    · obtain ⟨n, hn⟩ := hsize hqs
      rw [List.map_map, hn]
      exact List.map_congr_left fun q _ => compile_glob q n
  obtain ⟨hfitting, hlength, hfits⟩ :=
    Matcher.minimize_spec (qs.map matcher).length (fitting_matchers h)
  have hjoins := Matcher.joins_join hfitting (Nat.lt_succ_of_le hlength)
  rw [Glob.compile, Glob.compileWithin, hmatchers, ← hfits ht, ← hjoins.fitsPart_iff ht]
  cases hjoin : Matcher.join ((qs.map matcher).length + 1)
      (Matcher.minimize (qs.map matcher).length (qs.map matcher)) with
  | none =>
    refine iff_of_false ?_ fun h => hne (Matcher.fitsPart_none_iff.mp h)
    exact fun h => hne (List.isEmpty_iff.mp h)
  | some m =>
    rw [hjoin] at hjoins
    exact ⟨fun hmatch => hjoins.fits_of_accepts hne hmatch, fun hmatch => hmatch.1⟩

end Token

end ReflectGen
