import ReflectGen.Glob.Selection
import ReflectGen.Proofs.Glob.Pivot
import ReflectGen.Proofs.Glob.Stars

/-!
# Matchers of texts and stars

A sequence of texts and stars by turns is compiled around its longest text, and what stands left and
right of it likewise.  The matcher does what the parts say, one behind the other, whatever bytes the
path has.

There is one exception.  A pattern of two texts with a double star between them also matches a path
in which the two texts overlap, because only the beginning and the end of the path are looked at.
Still every path that it matches ends in the second text.

* `Matcher.accepts_aroundText_iff`: the matcher of a text between two parts.
* `Glob.compiles_join`: the matcher of a sequence, by induction on its length.
* `Glob.accepts_iff_matches`: what a pattern with a star at one of its ends matches.
* `Glob.suffix_of_accepts`: what a pattern with a text at its end matches.
-/

namespace ReflectGen

namespace Glob

/-! ## Compiling -/

/-- The matcher of a text or a star. -/
def partMatcher : Glob → Matcher
  | .text x => .text x
  | .any => .any [separator]
  | .super => .super
  | _ => .nothing

theorem simplify_compileWithin {gs : List Glob} (h : Alternates gs) (n : Nat) :
    (gs.map fun g => Matcher.simplify (compileWithin (n + 1) g)) = gs.map partMatcher := by
  refine List.map_congr_left fun g hg => ?_
  rcases isPart_cases (h.isPart g hg) with hstar | ⟨x, -, rfl⟩
  · rcases isStar_iff.mp hstar with rfl | rfl <;> rfl
  · rfl

/-- Nothing is glued together: of two neighbours one is a text, the other has no fixed length. -/
theorem glue?_eq_none {gs : List Glob} (h : Alternates gs) :
    Matcher.glue? (gs.map partMatcher) = none := by
  match gs with
  | [] => rfl
  | [_] => rfl
  | g :: k :: gs =>
    have hlength : ¬ ((g :: k :: gs).map partMatcher).length < 2 := by
      rw [List.length_map, List.length_cons, List.length_cons]
      omega
    rw [Matcher.glue?, if_neg hlength, Matcher.glueRun?, Matcher.glueRow?]
    rcases h.pair with ⟨hg, x, -, rfl⟩ | ⟨⟨x, -, rfl⟩, hk⟩
    · rcases isStar_iff.mp hg with rfl | rfl <;> rfl
    · rcases isStar_iff.mp hk with rfl | rfl <;> rfl

theorem minimize_eq_self {gs : List Glob} (h : Alternates gs) (n : Nat) :
    Matcher.minimize n (gs.map partMatcher) = gs.map partMatcher := by
  have hglueable : Matcher.glueable (gs.map partMatcher) = [] := by
    rw [Matcher.glueable, List.flatMap_eq_nil_iff]
    intro start _
    rw [List.filterMap_eq_nil_iff]
    intro k _
    dsimp only
    rw [← List.map_take, ← List.map_drop, glue?_eq_none]
    · rfl
    · exact h.of_isInfix ((List.drop_suffix _ _).isInfix.trans (List.take_prefix _ _).isInfix)
  cases n with
  | zero => rfl
  | succ n => rw [Matcher.minimize, hglueable, List.foldl_nil]

end Glob

namespace Matcher

/-- The better of the best matcher so far, given by its length and its position, and one more. -/
def betterPivot (best : Option (Nat × Nat)) (p : Matcher × Nat) : Option (Nat × Nat) :=
  match p.1.length?, best with
  | none, _ => best
  | some l, none => some (l, p.2)
  | some l, some (l', i') => if l' ≤ l then some (l, p.2) else some (l', i')

theorem foldl_betterPivot_cases (ms : List Matcher) :
    (∃ l m r n, ms = l ++ m :: r ∧ m.length? ≠ none ∧
      ms.zipIdx.foldl betterPivot none = some (n, l.length)) ∨
    (∀ m ∈ ms, m.length? = none) ∧ ms.zipIdx.foldl betterPivot none = none := by
  induction ms using List.reverseRecOn with
  | nil => exact .inr ⟨by simp, rfl⟩
  | append_singleton ms m ih =>
    rw [List.zipIdx_append, List.foldl_append, Nat.zero_add]
    show (∃ l k r n, _ ∧ _ ∧ betterPivot _ (m, ms.length) = _) ∨
      _ ∧ betterPivot _ (m, ms.length) = none
    cases hm : m.length? with
    | none =>
      rcases ih with ⟨l, k, r, n, rfl, hk, hbest⟩ | ⟨hall, hbest⟩
      · refine .inl ⟨l, k, r ++ [m], n, by simp, hk, ?_⟩
        simp only [hbest, betterPivot, hm]
      · refine .inr ⟨?_, by simp only [hbest, betterPivot, hm]⟩
        rw [List.forall_mem_append, List.forall_mem_singleton]
        exact ⟨hall, hm⟩
    | some n =>
      have hnew : ms ++ [m] = ms ++ m :: [] ∧ m.length? ≠ none := ⟨rfl, by simp [hm]⟩
      rcases ih with ⟨l, k, r, n', rfl, hk, hbest⟩ | ⟨hall, hbest⟩
      · by_cases hle : n' ≤ n
        · refine .inl ⟨_, m, [], n, hnew.1, hnew.2, ?_⟩
          simp only [hbest, betterPivot, hm]
          exact if_pos hle
        · refine .inl ⟨l, k, r ++ [m], n', by simp, hk, ?_⟩
          simp only [hbest, betterPivot, hm]
          exact if_neg hle
      · refine .inl ⟨_, m, [], n, hnew.1, hnew.2, ?_⟩
        simp only [hbest, betterPivot, hm]

/-- The pivot of a sequence is one of the matchers with a fixed length, if there are any. -/
theorem pivotIndex?_cases (ms : List Matcher) :
    (∃ l m r, ms = l ++ m :: r ∧ m.length? ≠ none ∧ pivotIndex? ms = some l.length) ∨
      (∀ m ∈ ms, m.length? = none) ∧ pivotIndex? ms = none := by
  have heq : pivotIndex? ms = (ms.zipIdx.foldl betterPivot none).map (·.2) := rfl
  rw [heq]
  rcases foldl_betterPivot_cases ms with ⟨l, m, r, n, hms, hm, hbest⟩ | ⟨hall, hbest⟩
  · exact .inl ⟨l, m, r, hms, hm, by rw [hbest]; rfl⟩
  · exact .inr ⟨hall, by rw [hbest]; rfl⟩

/-- Matchers that cannot be glued together are joined around their pivot. -/
theorem join_of_glue?_eq_none {m k p : Matcher} {ms l r : List Matcher} {n : Nat}
    (hglue : glue? (m :: k :: ms) = none) (hms : m :: k :: ms = l ++ p :: r)
    (hpivot : pivotIndex? (m :: k :: ms) = some l.length) :
    join (n + 1) (m :: k :: ms) = some (.pivot p (join n l) (join n r)) := by
  rw [join]
  · rw [hglue, hpivot, hms]
    dsimp only
    rw [List.getElem?_append_right (Nat.le_refl _), Nat.sub_self, List.take_left,
      ← List.drop_drop, List.drop_left]
    rfl
  · exact fun h => absurd h (by simp)
  · exact fun _ h => absurd h (by simp)

/-! ## Texts between parts -/

variable {x t : Text} {left right : Option Matcher}

@[simp] theorem fitsPart_none_iff : Behaviour.FitsPart (partBehaviour none) t ↔ t = [] := by
  rw [IsOpen.fitsPart_iff (fun m hm => absurd hm (by simp))]
  exact List.isEmpty_iff

@[simp] theorem fitsPart_super : Behaviour.FitsPart (partBehaviour (some .super)) t :=
  ⟨rfl, fun _ hn => absurd hn (Option.not_mem_none _)⟩

theorem fitsPart_any_iff {seps : List Char} :
    Behaviour.FitsPart (partBehaviour (some (.any seps))) t ↔
      (findSeparator? seps t).isNone = true :=
  IsOpen.fitsPart_iff (by rintro _ ⟨⟩; rfl)

/-- With nothing behind the text, a path is cut in front of it. -/
theorem exists_cut_none_right {p : Text → Prop} :
    (∃ a b, t = a ++ x ++ b ∧ p a ∧ Behaviour.FitsPart (partBehaviour none) b) ↔
      ∃ a, t = a ++ x ∧ p a := by
  simp only [fitsPart_none_iff]
  constructor
  · rintro ⟨a, b, rfl, ha, rfl⟩
    exact ⟨a, by rw [List.append_nil], ha⟩
  · rintro ⟨a, rfl, ha⟩
    exact ⟨a, [], by rw [List.append_nil], ha, rfl⟩

/-- With nothing in front of the text, a path is cut behind it. -/
theorem exists_cut_none_left {p : Text → Prop} :
    (∃ a b, t = a ++ x ++ b ∧ Behaviour.FitsPart (partBehaviour none) a ∧ p b) ↔
      ∃ b, t = x ++ b ∧ p b := by
  simp only [fitsPart_none_iff]
  constructor
  · rintro ⟨a, b, rfl, rfl, hb⟩
    exact ⟨b, rfl, hb⟩
  · rintro ⟨b, rfl, hb⟩
    exact ⟨[], b, rfl, rfl, hb⟩

/-- What a text between two parts matches.  If one of the parts is missing, the other one must not
be a text itself with a double star between the two. -/
theorem accepts_aroundText_iff (hx : x ≠ []) (hutf : x.isUtf8 = true)
    (hstart : right = none → ∀ front, left ≠ some (.starting front))
    (hend : left = none → ∀ back, right ≠ some (.ending back)) :
    (aroundText x left right).accepts t = true ↔
      ∃ a b, t = a ++ x ++ b ∧ Behaviour.FitsPart (partBehaviour left) a ∧
        Behaviour.FitsPart (partBehaviour right) b := by
  unfold aroundText
  split
  · show (t == x) = true ↔ _
    simp
  · show ((find? x t).isSome != false) = true ↔ _
    rw [Bool.bne_false, isSome_find?_iff]
    simp only [fitsPart_super, and_true]
    exact exists_congr fun a => exists_congr fun b => eq_comm
  · show Text.endsWith t x = true ↔ _
    rw [exists_cut_none_right, Text.endsWith_iff]
    simp only [fitsPart_super, and_true]
    exact exists_congr fun a => eq_comm
  · show Text.startsWith t x = true ↔ _
    rw [exists_cut_none_left, Text.startsWith_iff]
    simp only [fitsPart_super, and_true]
    exact exists_congr fun b => eq_comm
  · exact absurd rfl (hend rfl _)
  · exact absurd rfl (hstart rfl _)
  · next seps =>
    show (Text.endsWith t x &&
      (findSeparator? seps (t.take (t.length - x.length))).isNone) = true ↔ _
    rw [exists_cut_none_right, Bool.and_eq_true, Text.endsWith_iff]
    simp only [fitsPart_any_iff]
    constructor
    · rintro ⟨⟨a, rfl⟩, ha⟩
      rw [List.length_append, Nat.add_sub_cancel, List.take_left] at ha
      exact ⟨a, rfl, ha⟩
    · rintro ⟨a, rfl, ha⟩
      rw [List.length_append, Nat.add_sub_cancel, List.take_left]
      exact ⟨List.suffix_append a x, ha⟩
  · next seps =>
    show (Text.startsWith t x && (findSeparator? seps (t.drop x.length)).isNone) = true ↔ _
    rw [exists_cut_none_left, Bool.and_eq_true, Text.startsWith_iff]
    simp only [fitsPart_any_iff]
    constructor
    · rintro ⟨⟨b, rfl⟩, hb⟩
      rw [List.drop_left] at hb
      exact ⟨b, rfl, hb⟩
    · rintro ⟨b, rfl, hb⟩
      rw [List.drop_left]
      exact ⟨List.prefix_append x b, hb⟩
  · exact accepts_pivot_text_iff hx hutf

/-- A path that a text and the part behind it match ends in a path that this part matches. -/
theorem exists_suffix_of_accepts_aroundText {m : Matcher} (hx : x ≠ []) (hutf : x.isUtf8 = true)
    (h : (aroundText x left (some m)).accepts t = true) :
    ∃ b, b <:+ t ∧ m.accepts b = true := by
  by_cases hend : left = none ∧ ∃ back, m = .ending back
  · obtain ⟨rfl, back, rfl⟩ := hend
    have hboth : (Text.startsWith t x && Text.endsWith t back) = true := h
    exact ⟨t, List.suffix_refl t, ((Bool.and_eq_true _ _).mp hboth).2⟩
  · have hnot : left = none → ∀ back, some m ≠ some (.ending back) := fun hl back hm =>
      hend ⟨hl, back, Option.some.inj hm⟩
    obtain ⟨a, b, rfl, -, hb⟩ :=
      (accepts_aroundText_iff hx hutf (fun hnil => absurd hnil (by simp)) hnot).mp h
    exact ⟨b, List.suffix_append _ b, hb.1⟩

/-- A path that a text at the end of a pattern matches ends in that text. -/
theorem suffix_of_accepts_aroundText (hx : x ≠ []) (hutf : x.isUtf8 = true)
    (h : (aroundText x left none).accepts t = true) : x <:+ t := by
  by_cases hstart : ∃ front, left = some (.starting front)
  · obtain ⟨front, rfl⟩ := hstart
    have hboth : (Text.startsWith t front && Text.endsWith t x) = true := h
    exact Text.endsWith_iff.mp ((Bool.and_eq_true _ _).mp hboth).2
  · have hnot : ∀ front, left ≠ some (.starting front) := fun front hl => hstart ⟨front, hl⟩
    obtain ⟨a, rfl, -⟩ := exists_cut_none_right.mp ((accepts_aroundText_iff hx hutf
      (fun _ => hnot) (fun _ back => by simp)).mp h)
    exact List.suffix_append a x

/-- A text with a part at one of its sides has no fixed length. -/
theorem isOpen_aroundText (hleft : IsOpen left) (hright : IsOpen right)
    (hsome : left ≠ none ∨ right ≠ none) : IsOpen (some (aroundText x left right)) := by
  rintro _ ⟨⟩
  unfold aroundText
  split
  · exact absurd hsome (by simp)
  case h_9 => exact length?_pivot hleft hright hsome
  all_goals rfl

theorem left_eq_none_of_starting {front : Text} (h : aroundText x left right = .starting front) :
    left = none := by
  unfold aroundText at h
  split at h
  case h_4 => rfl
  all_goals exact absurd h (by simp)

theorem right_eq_none_of_ending {back : Text} (h : aroundText x left right = .ending back) :
    right = none := by
  unfold aroundText at h
  split at h
  case h_3 => rfl
  all_goals exact absurd h (by simp)

end Matcher

namespace Glob

open ReflectGen.Matcher (IsOpen)
open ReflectGen.Matcher.Behaviour (partAccepts)

/-- Does a list of parts begin or end with a star? -/
def HasStarAtEnd (gs : List Glob) : Prop :=
  (∃ g ∈ gs.head?, isStar g = true) ∨ ∃ g ∈ gs.getLast?, isStar g = true

/-- What the matcher of texts and stars is like; nothing has none. -/
structure Compiles (gs : List Glob) (m : Option Matcher) : Prop where
  eq_none_iff : m = none ↔ gs = []
  isOpen : (∃ g ∈ gs, isStar g = true) → IsOpen m
  head_of_starting : ∀ front, m = some (.starting front) → ∃ x, gs.head? = some (.text x)
  last_of_ending : ∀ back, m = some (.ending back) → ∃ x, gs.getLast? = some (.text x)
  accepts_iff : gs = [] ∨ HasStarAtEnd gs →
    ∀ t, partAccepts (Matcher.partBehaviour m) t = true ↔ Matches gs t
  suffix : ∀ x, gs.getLast? = some (.text x) →
    ∀ t, partAccepts (Matcher.partBehaviour m) t = true → x <:+ t

theorem compiles_nil : Compiles [] none where
  eq_none_iff := by simp
  isOpen := by simp
  head_of_starting := by simp
  last_of_ending := by simp
  accepts_iff := fun _ _ => List.isEmpty_iff
  suffix := by simp

theorem compiles_star {g : Glob} (hg : isStar g = true) : Compiles [g] (some (partMatcher g)) := by
  have hopen : IsOpen (some (partMatcher g)) := by
    rintro _ ⟨⟩
    rcases isStar_iff.mp hg with rfl | rfl <;> rfl
  have haccepts : ∀ t, partAccepts (Matcher.partBehaviour (some (partMatcher g))) t = true ↔
      Matches [g] t := by
    intro t
    rw [matches_singleton_iff]
    rcases isStar_iff.mp hg with rfl | rfl
    · exact Matcher.isNone_findSeparator?_iff
    · exact ⟨fun _ => trivial, fun _ => rfl⟩
  refine ⟨by simp, fun _ => hopen, ?_, ?_, fun _ => haccepts, ?_⟩
  all_goals rcases isStar_iff.mp hg with rfl | rfl <;> simp [partMatcher]

theorem compiles_text (x : Text) : Compiles [.text x] (some (.text x)) where
  eq_none_iff := by simp
  isOpen := by simp [isStar]
  head_of_starting := by simp
  last_of_ending := by simp
  accepts_iff := by simp [HasStarAtEnd, isStar]
  suffix := by
    intro y hy t ht
    have hxy : x = y := by simpa using hy
    have heq : (t == x) = true := ht
    rw [beq_iff_eq.mp heq, hxy]

/-- What a list of parts compiles to has no fixed length, if one of its ends is a star. -/
theorem Compiles.isOpen_of_hasStarAtEnd {gs : List Glob} {m : Option Matcher} (h : Compiles gs m)
    (hgs : gs = [] ∨ HasStarAtEnd gs) : IsOpen m := by
  rcases hgs with rfl | ⟨g, hg, hstar⟩ | ⟨g, hg, hstar⟩
  · rw [h.eq_none_iff.mpr rfl]
    exact fun m hm => absurd hm (by simp)
  · exact h.isOpen ⟨g, List.mem_of_mem_head? hg, hstar⟩
  · exact h.isOpen ⟨g, List.mem_of_mem_getLast? hg, hstar⟩

/-! ### Texts with texts and stars on both sides -/

section Around

variable {l r : List Glob} {x t : Text} {left right : Option Matcher}

theorem Compiles.isOpen_left (h : Alternates (l ++ .text x :: r)) (hleft : Compiles l left) :
    IsOpen left :=
  hleft.isOpen_of_hasStarAtEnd (h.around.1.imp_right .inr)

theorem Compiles.isOpen_right (h : Alternates (l ++ .text x :: r)) (hright : Compiles r right) :
    IsOpen right :=
  hright.isOpen_of_hasStarAtEnd (h.around.2.imp_right .inl)

/-- With a star at one of its ends, such a sequence has no texts at both of them. -/
theorem Compiles.accepts_around_iff (h : Alternates (l ++ .text x :: r)) (hleft : Compiles l left)
    (hright : Compiles r right) (hends : HasStarAtEnd (l ++ .text x :: r)) :
    (Matcher.aroundText x left right).accepts t = true ↔ Matches (l ++ .text x :: r) t := by
  have hx : IsPlain x := h.isPart (.text x) (by simp)
  have hstart : right = none → ∀ front, left ≠ some (.starting front) := by
    intro hnone front hfront
    obtain ⟨y, hy⟩ := hleft.head_of_starting front hfront
    rw [hright.eq_none_iff.mp hnone] at hends
    simp [HasStarAtEnd, List.head?_append, hy, isStar] at hends
  have hend : left = none → ∀ back, right ≠ some (.ending back) := by
    intro hnone back hback
    obtain ⟨y, hy⟩ := hright.last_of_ending back hback
    rw [hleft.eq_none_iff.mp hnone] at hends
    simp [HasStarAtEnd, List.getLast?_cons, hy, isStar] at hends
  rw [matches_text_iff, Matcher.accepts_aroundText_iff hx.ne_nil hx.isUtf8 hstart hend]
  refine exists_congr fun a => exists_congr fun b => and_congr_right fun _ => ?_
  rw [(hleft.isOpen_left h).fitsPart_iff, (hright.isOpen_right h).fitsPart_iff,
    hleft.accepts_iff (h.around.1.imp_right .inr), hright.accepts_iff (h.around.2.imp_right .inl)]

/-- With a text at its end, such a sequence matches only paths that end in it. -/
theorem Compiles.suffix_around (h : Alternates (l ++ .text x :: r)) (hright : Compiles r right)
    {y : Text} (hy : (l ++ .text x :: r).getLast? = some (.text y))
    (ht : (Matcher.aroundText x left right).accepts t = true) : y <:+ t := by
  have hx : IsPlain x := h.isPart (.text x) (by simp)
  cases right with
  | none =>
    rw [hright.eq_none_iff.mp rfl, List.getLast?_concat] at hy
    obtain rfl := Glob.text.inj (Option.some.inj hy)
    exact Matcher.suffix_of_accepts_aroundText hx.ne_nil hx.isUtf8 ht
  | some m =>
    obtain ⟨b, hb, hm⟩ := Matcher.exists_suffix_of_accepts_aroundText hx.ne_nil hx.isUtf8 ht
    have hne : r ≠ [] := fun hnil => absurd (hright.eq_none_iff.mpr hnil) (by simp)
    have hlast : r.getLast? = some (.text y) := by
      rw [List.getLast?_append_of_ne_nil _ (List.cons_ne_nil _ _),
        List.getLast?_cons_of_ne_nil hne] at hy
      exact hy
    exact (hright.suffix y hlast b hm).trans hb

theorem Compiles.around (h : Alternates (l ++ .text x :: r)) (hleft : Compiles l left)
    (hright : Compiles r right) (hsome : l ≠ [] ∨ r ≠ []) :
    Compiles (l ++ .text x :: r) (some (Matcher.aroundText x left right)) where
  eq_none_iff := by simp
  isOpen := fun _ =>
    Matcher.isOpen_aroundText (hleft.isOpen_left h) (hright.isOpen_right h)
      (hsome.imp (mt hleft.eq_none_iff.mp) (mt hright.eq_none_iff.mp))
  head_of_starting := by
    intro front hfront
    have hnone := Matcher.left_eq_none_of_starting (Option.some.inj hfront)
    rw [hleft.eq_none_iff.mp hnone]
    exact ⟨x, rfl⟩
  last_of_ending := by
    intro back hback
    have hnone := Matcher.right_eq_none_of_ending (Option.some.inj hback)
    rw [hright.eq_none_iff.mp hnone]
    exact ⟨x, by simp⟩
  accepts_iff := fun hends _ => hleft.accepts_around_iff h hright (hends.resolve_left (by simp))
  suffix := fun _ hy _ ht => hright.suffix_around h hy ht

end Around

/-- Of two or more parts one is a text, and the longest text is the pivot of their matchers. -/
theorem exists_pivot {g k : Glob} {gs : List Glob} (h : Alternates (g :: k :: gs)) (n : Nat) :
    ∃ l x r, g :: k :: gs = l ++ .text x :: r ∧
      Matcher.join (n + 1) ((g :: k :: gs).map partMatcher) =
        some (.pivot (.text x) (Matcher.join n (l.map partMatcher))
          (Matcher.join n (r.map partMatcher))) := by
  rcases Matcher.pivotIndex?_cases ((g :: k :: gs).map partMatcher) with
    ⟨l', m, r', hms, hm, hpivot⟩ | ⟨hnone, -⟩
  · obtain ⟨l, r, hgs, rfl, hr⟩ := List.map_eq_append_iff.mp hms
    obtain ⟨p, r, rfl, rfl, rfl⟩ := List.map_eq_cons_iff.mp hr
    have hp : p ∈ g :: k :: gs := by rw [hgs]; simp
    obtain ⟨x, -, rfl⟩ : ∃ x, IsPlain x ∧ p = .text x := by
      refine (isPart_cases (h.isPart p hp)).resolve_left fun hstar => hm ?_
      rcases isStar_iff.mp hstar with rfl | rfl <;> rfl
    refine ⟨l, x, r, hgs, ?_⟩
    exact Matcher.join_of_glue?_eq_none (glue?_eq_none h) hms hpivot
  · exfalso
    have hg := hnone (partMatcher g) (by simp)
    have hk := hnone (partMatcher k) (by simp)
    rcases h.pair with ⟨-, x, -, rfl⟩ | ⟨⟨x, -, rfl⟩, -⟩
    · exact absurd hk (by simp [partMatcher, Matcher.length?])
    · exact absurd hg (by simp [partMatcher, Matcher.length?])

/-- **The matcher of texts and stars.** -/
theorem compiles_join {gs : List Glob} (h : Alternates gs) {n : Nat} (hn : gs.length < n) :
    Compiles gs (Matcher.simplifyPart (Matcher.join n (gs.map partMatcher))) := by
  induction n generalizing gs with
  | zero => exact absurd hn (Nat.not_lt_zero _)
  | succ n ih =>
    match gs with
    | [] => exact compiles_nil
    | [g] =>
      rcases isPart_cases (h.isPart g List.mem_cons_self) with hstar | ⟨x, -, rfl⟩
      · have hsimple : Matcher.simplify (partMatcher g) = partMatcher g := by
          rcases isStar_iff.mp hstar with rfl | rfl <;> rfl
        show Compiles [g] (some (Matcher.simplify (partMatcher g)))
        rw [hsimple]
        exact compiles_star hstar
      · exact compiles_text x
    | g :: k :: gs =>
      obtain ⟨l, x, r, hgs, hjoin⟩ := exists_pivot h n
      rw [hjoin, hgs]
      rw [hgs] at h hn
      rw [List.length_append, List.length_cons] at hn
      have hlength := congrArg List.length hgs
      rw [List.length_append, List.length_cons, List.length_cons, List.length_cons] at hlength
      refine Compiles.around h (ih (h.of_isInfix ?_) (by omega)) (ih (h.of_isInfix ?_) (by omega))
        ?_
      · exact (List.prefix_append l _).isInfix
      · exact ((List.suffix_cons _ r).trans (List.suffix_append l _)).isInfix
      · by_contra hnil
        rw [not_or, not_not, not_not] at hnil
        rw [hnil.1, hnil.2, List.length_nil] at hlength
        omega

/-- The matcher of a pattern of texts and stars; the empty pattern matches the empty path. -/
theorem compiles_compile {gs : List Glob} (h : Alternates gs) :
    (gs = [] ∧ compile (.sequence gs) = .nothing) ∨
      Compiles gs (some (compile (.sequence gs))) := by
  obtain ⟨n, hn⟩ : ∃ n, 3 * (Glob.sequence gs).size + 1 = n + 2 :=
    ⟨3 * (Glob.sequence gs).size - 1, by rw [size]; omega⟩
  have hjoined := compiles_join h (Nat.lt_succ_self gs.length)
  rw [compile, hn, compileWithin, simplify_compileWithin h, minimize_eq_self h, List.length_map]
  cases hm : Matcher.join (gs.length + 1) (gs.map partMatcher) with
  | none =>
    rw [hm] at hjoined
    exact .inl ⟨hjoined.eq_none_iff.mp rfl, rfl⟩
  | some m =>
    rw [hm] at hjoined
    exact .inr hjoined

/-- **Texts and stars match what they stand for**, if there is a star at one of the ends. -/
theorem accepts_iff_matches {gs : List Glob} (h : Alternates gs) (hend : HasStarAtEnd gs)
    (t : Text) : (compile (.sequence gs)).accepts t = true ↔ Matches gs t := by
  rcases compiles_compile h with ⟨rfl, -⟩ | hcompile
  · exact absurd hend (by simp [HasStarAtEnd])
  · exact hcompile.accepts_iff (.inr hend) t

/-- **A path that a pattern with a text at its end matches ends in that text.** -/
theorem suffix_of_accepts {gs : List Glob} (h : Alternates gs) {x t : Text}
    (hlast : gs.getLast? = some (.text x)) (haccepts : (compile (.sequence gs)).accepts t = true) :
    x <:+ t := by
  rcases compiles_compile h with ⟨rfl, -⟩ | hcompile
  · exact absurd hlast (by simp)
  · exact hcompile.suffix x hlast t haccepts

end Glob

namespace Pattern

/-- A pattern of texts and stars can be read. -/
theorem read_writtenAll {gs : List Glob} (h : Glob.Alternates gs) :
    read (Glob.writtenAll gs) =
      .ok { text := Glob.writtenAll gs, matcher := Glob.compile (.sequence gs) } := by
  rw [read, Glob.parse_writtenAll h]

end Pattern

end ReflectGen
