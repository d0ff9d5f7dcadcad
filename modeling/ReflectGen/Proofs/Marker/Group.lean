import ReflectGen.Proofs.Marker.Balance

/-!
# Groups of parentheses in arguments

A comma inside of parentheses does not cut, so it should not matter for the other arguments what
stands in a balanced group of parentheses.  The depths of the other brackets do not end with the
group, though: an opening angle bracket in it, as in a comparison, hides the commas behind the
group, and a closing one, as in an arrow, closes a bracket in front of it.  What stands in a group
is without effect on the other arguments exactly if the levels of the other brackets behind it do
not depend on it.

* `Arguments.withGroup`: a group of parentheses between two texts.
* `Arguments.CutAlike`: two texts have the same arguments up to one.
* `Arguments.exists_reads`, `Depths.unbroken_group`, `Arguments.exists_loop_eq`: how the loop reads
  the text in front of a group, the group, and the text behind it.
* `Depths.exists_isTop_ne`: different depths are told apart by closing brackets.
* `Arguments.cutAlike_withGroup_iff`: when the content of a group is without effect.
-/

namespace ReflectGen

namespace Arguments

/-! ## Groups -/

/-- A text between parentheses. -/
def enclosed (cs : List Char) : List Char := '(' :: cs ++ [')']

/-- A group of parentheses with the content `g` between the texts `a` and `b`. -/
def withGroup (a g b : Text) : Text := a ++ lit "(" ++ g ++ lit ")" ++ b

/-- Both texts are closed or none is, they have as many arguments, and all of these are the same
except for the one with the index `k`. -/
structure CutAlike (k : Nat) (s t : Text) : Prop where
  closed : (split s).2 = (split t).2
  length_eq : (split s).1.length = (split t).1.length
  agree : ∀ i, i ≠ k → (split s).1[i]? = (split t).1[i]?

/-- Behind both texts as many angle brackets, square brackets and braces are open. -/
def SameNesting (cs cs' : List Char) : Prop :=
  level '<' '>' cs = level '<' '>' cs' ∧ level '[' ']' cs = level '[' ']' cs' ∧
    level '\x7b' '\x7d' cs = level '\x7b' '\x7d' cs'

end Arguments

open Arguments

namespace Depths

variable {d d' : Depths} {cs cs' : List Char}

theorem afterAll_append (d : Depths) (cs cs' : List Char) :
    d.afterAll (cs ++ cs') = (d.afterAll cs).afterAll cs' := List.foldl_append

/-! ## A group of parentheses -/

/-- Behind `front` a balanced group of parentheses is unbroken. -/
theorem unbroken_group (front : List Char) {g : List Char} (h : Balanced '(' ')' g) :
    (afterAll {} front).Unbroken (enclosed g) := by
  intro u c back heq
  rw [enclosed] at heq
  cases u with
  | nil =>
    obtain ⟨rfl, -⟩ := List.cons.inj heq
    exact ⟨fun hc => absurd hc (by decide), fun hc => absurd hc (by decide)⟩
  | cons a u =>
    rw [List.cons_append, List.cons_append, List.cons.injEq] at heq
    obtain ⟨rfl, heq⟩ := heq
    have hu : u <+: g := by
      rcases List.prefix_concat_iff.mp ⟨c :: back, heq.symm⟩ with rfl | hu
      · exact absurd (List.append_right_eq_self.mp heq.symm) (by simp)
      · exact hu
    -- the parenthesis that opens the group is still open
    have hlevel := level_append_add (by decide) (fun v hv => h.count_le v (hv.trans hu))
      (front ++ ['('])
    have hle := h.count_le u hu
    rw [level_concat, if_pos rfl, List.append_assoc] at hlevel
    have hparen : ((afterAll {} front).afterAll ('(' :: u)).paren ≠ 0 := by
      rw [← afterAll_append, afterAll_eq]
      dsimp only
      rw [← List.singleton_append]
      omega
    refine ⟨fun _ => hparen, fun _ => ?_⟩
    rw [isTop, beq_eq_false_iff_ne.mpr hparen]
    rfl

/-! ## Telling depths apart -/

/-- The closing brackets for all that are open. -/
def closers (d : Depths) : List Char :=
  List.replicate d.paren ')' ++ List.replicate d.angle '>' ++ List.replicate d.square ']' ++
    List.replicate d.brace '\x7d'

/-- Two texts are unbroken one behind the other if each is where it stands. -/
theorem unbroken_append_iff :
    d.Unbroken (cs ++ cs') ↔ d.Unbroken cs ∧ (d.afterAll cs).Unbroken cs' := by
  induction cs generalizing d with
  | nil => exact ⟨fun h => ⟨unbroken_nil d, h⟩, fun h => h.2⟩
  | cons c cs ih =>
    rw [List.cons_append, unbroken_cons_iff, unbroken_cons_iff, ih]
    exact and_assoc.symm

theorem unbroken_of_notMem (hclose : ')' ∉ cs) (hcomma : ',' ∉ cs) : d.Unbroken cs := by
  rintro front c back rfl
  refine ⟨?_, ?_⟩
  · rintro rfl
    exact absurd (List.mem_append_right front List.mem_cons_self) hclose
  · rintro rfl
    exact absurd (List.mem_append_right front List.mem_cons_self) hcomma

theorem unbroken_replicate {n : Nat} (h : n ≤ d.paren) : d.Unbroken (List.replicate n ')') := by
  induction n generalizing d with
  | zero => exact unbroken_nil d
  | succ n ih =>
    rw [List.replicate_succ, unbroken_cons_iff]
    refine ⟨⟨fun _ => by omega, fun hc => absurd hc (by decide)⟩, ih ?_⟩
    show n ≤ d.paren - 1
    omega

theorem unbroken_closers (h : d'.paren ≤ d.paren) : d.Unbroken d'.closers := by
  rw [closers, List.append_assoc, List.append_assoc, unbroken_append_iff]
  refine ⟨unbroken_replicate h, unbroken_of_notMem ?_ ?_⟩ <;> simp [List.mem_replicate]

/-- Closing brackets close what is open of their kind. -/
theorem afterAll_of_closing (h : ∀ c ∈ cs, c ∈ [')', '>', ']', '\x7d']) (d : Depths) :
    d.afterAll cs =
      { paren := d.paren - cs.count ')', angle := d.angle - cs.count '>',
        square := d.square - cs.count ']', brace := d.brace - cs.count '\x7d' } := by
  induction cs generalizing d with
  | nil => rfl
  | cons c cs ih =>
    obtain ⟨hc, hcs⟩ := List.forall_mem_cons.mp h
    show (d.after c).afterAll cs = _
    rw [ih hcs]
    simp only [List.mem_cons, List.not_mem_nil, or_false] at hc
    rcases hc with rfl | rfl | rfl | rfl <;> simp [after] <;> omega

/-- The closing brackets for other depths bring all depths to zero if these are not below them. -/
theorem isTop_afterAll_closers (d d' : Depths) :
    (d.afterAll d'.closers).isTop = true ↔
      d.paren ≤ d'.paren ∧ d.angle ≤ d'.angle ∧ d.square ≤ d'.square ∧ d.brace ≤ d'.brace := by
  have hmem : ∀ c ∈ d'.closers, c ∈ [')', '>', ']', '\x7d'] := by
    intro c hc
    simp only [closers, List.mem_append, List.mem_replicate] at hc
    simp only [List.mem_cons, List.not_mem_nil, or_false]
    tauto
  rw [afterAll_of_closing hmem, isTop]
  simp [closers, List.count_append, List.count_replicate, and_assoc, Nat.sub_eq_zero_iff_le]

/-- Different depths with as many open parentheses are told apart by closing brackets: behind them
only one of the two is outside of all brackets. -/
theorem exists_isTop_ne (hparen : d.paren = d'.paren) (hne : d ≠ d') :
    ∃ cs, d.Unbroken cs ∧ d'.Unbroken cs ∧ (d.afterAll cs).isTop ≠ (d'.afterAll cs).isTop := by
  have hself : ∀ e : Depths, (e.afterAll e.closers).isTop = true := fun e =>
    (isTop_afterAll_closers e e).mpr ⟨Nat.le_refl _, Nat.le_refl _, Nat.le_refl _, Nat.le_refl _⟩
  by_cases hle : (d.afterAll d'.closers).isTop = true
  · refine ⟨d.closers, unbroken_closers (Nat.le_refl _), unbroken_closers hparen.le, fun heq => ?_⟩
    rw [hself d] at heq
    obtain ⟨-, hangle, hsquare, hbrace⟩ := (isTop_afterAll_closers d d').mp hle
    obtain ⟨-, hangle', hsquare', hbrace'⟩ := (isTop_afterAll_closers d' d).mp heq.symm
    refine hne ?_
    obtain ⟨paren, angle, square, brace⟩ := d
    obtain ⟨paren', angle', square', brace'⟩ := d'
    simp only [Depths.mk.injEq]
    exact ⟨hparen, Nat.le_antisymm hangle hangle', Nat.le_antisymm hsquare hsquare',
      Nat.le_antisymm hbrace hbrace'⟩
  · refine ⟨d'.closers, unbroken_closers hparen.ge, unbroken_closers (Nat.le_refl _), fun heq => ?_⟩
    exact hle (heq.trans (hself d'))

end Depths

namespace Arguments

/-! ## How the loop reads -/

/-- A text that closes nothing is read up to its end, whatever follows. -/
theorem exists_reads {front : List Char} (h : NeverCloses front) :
    ∃ d cur done, Reads front d cur done ∧
      ∀ rest, loop (front ++ rest) {} [] [] = loop rest d cur done := by
  induction front using List.reverseRecOn with
  | nil => exact ⟨{}, [], [], reads_nil, fun _ => rfl⟩
  | append_singleton front c ih =>
    obtain ⟨d, cur, done, hreads, hloop⟩ := ih (neverCloses_concat_iff.mp h).1
    obtain ⟨d', cur', done', hnext, hstep⟩ := hreads.next h
    refine ⟨d', cur', done', hnext, fun rest => ?_⟩
    rw [List.append_assoc, List.singleton_append, hloop, hstep]

theorem Reads.length_done {front cur : List Char} {d : Depths} {done : List (List Char)}
    (h : Reads front d cur done) : done.length = (topCommas front).length := by
  rw [← h.places, cutPlaces_concat, List.length_map, List.length_range, List.length_reverse]

/-- What a text adds to the pieces depends on the depths in front of it alone: it ends the current
piece somewhere, and more pieces may follow. -/
theorem exists_loop_eq (cs : List Char) (d : Depths) :
    ∃ p ps closed, ∀ cur done,
      loop cs d cur done = (done.reverse ++ (cur.reverse ++ p) :: ps, closed) := by
  induction cs generalizing d with
  | nil => exact ⟨[], [], false, fun cur done => by simp [loop]⟩
  | cons c cs ih =>
    by_cases hclose : (c == ')' && d.paren == 0) = true
    · exact ⟨[], [], true, fun cur done => by rw [loop, if_pos hclose]; simp⟩
    · by_cases hcut : (c == ',' && d.isTop) = true
      · obtain ⟨p, ps, closed, h⟩ := ih d
        refine ⟨[], p :: ps, closed, fun cur done => ?_⟩
        rw [loop, if_neg hclose, if_pos hcut, h]
        simp
      · obtain ⟨p, ps, closed, h⟩ := ih (d.after c)
        refine ⟨c :: p, ps, closed, fun cur done => ?_⟩
        rw [loop, if_neg hclose, if_neg hcut, h]
        simp

/-- A comma behind an unbroken text ends a piece exactly if it stands outside of all brackets. -/
theorem length_loop_comma {cs cur : List Char} {d : Depths} {done : List (List Char)}
    (h : d.Unbroken cs) :
    (loop (cs ++ [',']) d cur done).1.length =
      done.length + if (d.afterAll cs).isTop = true then 2 else 1 := by
  rw [loop_append h, loop, if_neg (by simp)]
  by_cases htop : (d.afterAll cs).isTop = true
  · simp [loop, htop]
  · simp [loop, htop]

/-! ## Texts with a group -/

variable {a g g' : Text} {k : Nat} {s t : Text}

theorem chars_withGroup (a g b : Text) :
    (withGroup a g b).chars = a.chars ++ (enclosed g.chars ++ b.chars) := by
  have heq : withGroup a g b = a ++ 0x28 :: (g ++ 0x29 :: b) := by
    simp [withGroup, show lit "(" = [0x28] from rfl, show lit ")" = [0x29] from rfl]
  rw [heq, Text.chars_append_ascii (by decide), Text.chars_append_ascii (by decide), enclosed]
  simp

theorem cutAlike_of_split_eq (h : split s = split t) : CutAlike k s t :=
  ⟨by rw [h], by rw [h], fun _ _ => by rw [h]⟩

/-- Texts whose pieces differ in one place are cut alike. -/
theorem cutAlike_of_pieces {front back : List (List Char)} {x y : List Char} {closed : Bool}
    (hs : pieces s.chars = (front ++ x :: back, closed))
    (ht : pieces t.chars = (front ++ y :: back, closed)) : CutAlike front.length s t := by
  have hsplit : ∀ {u : Text} {z : List Char}, pieces u.chars = (front ++ z :: back, closed) →
      split u = ((front ++ z :: back).map fun p => Text.ofChars (trimChars p), closed) := by
    intro u z hu
    rw [split, hu]
  constructor
  · rw [hsplit hs, hsplit ht]
  · rw [hsplit hs, hsplit ht]
    simp
  · intro i hi
    rw [hsplit hs, hsplit ht, List.getElem?_map, List.getElem?_map]
    rcases Nat.lt_or_gt_of_ne hi with hlt | hgt
    · rw [List.getElem?_append_left hlt, List.getElem?_append_left hlt]
    · obtain ⟨j, rfl⟩ := Nat.exists_eq_add_of_lt hgt
      rw [List.getElem?_append_right (by omega), List.getElem?_append_right (by omega)]
      simp [Nat.add_assoc]

/-! ## When the content of a group is without effect -/

/-- The text in front of a group closes nothing: the loop comes to the text behind the group with
the depths that are left there, and with as many finished pieces as there are top-level commas in
front of the group, whatever its content is. -/
theorem exists_pieces_withGroup (ha : NeverCloses a.chars) :
    ∃ done : List (List Char), done.length = (topCommas a.chars).length ∧
      ∀ g : Text, Balanced '(' ')' g.chars → ∃ cur, ∀ b : Text,
        pieces (withGroup a g b).chars =
          loop b.chars (Depths.afterAll {} (a.chars ++ enclosed g.chars)) cur done := by
  obtain ⟨d, cur, done, hreads, hloop⟩ := exists_reads ha
  refine ⟨done, hreads.length_done, fun g hg =>
    ⟨(enclosed g.chars).reverse ++ cur, fun b => ?_⟩⟩
  have hgroup := Depths.unbroken_group a.chars hg
  rw [← hreads.depths] at hgroup
  rw [chars_withGroup, pieces, hloop, loop_append hgroup, Depths.afterAll_append {} a.chars,
    ← hreads.depths]

theorem append_enclosed (front cs : List Char) :
    front ++ enclosed cs = front ++ ['('] ++ cs ++ [')'] := by
  simp [enclosed]

/-- The parentheses of a group leave nothing open. -/
theorem level_group (front : List Char) {cs : List Char} (h : Balanced '(' ')' cs) :
    level '(' ')' (front ++ enclosed cs) = level '(' ')' front := by
  rw [append_enclosed, level_concat, level_append_of_balanced (by decide) h, level_concat]
  simp

theorem afterAll_group_eq_iff (front : List Char) {cs cs' : List Char} (h : Balanced '(' ')' cs)
    (h' : Balanced '(' ')' cs') :
    Depths.afterAll {} (front ++ enclosed cs) = Depths.afterAll {} (front ++ enclosed cs') ↔
      SameNesting (front ++ enclosed cs) (front ++ enclosed cs') := by
  rw [afterAll_eq, afterAll_eq, Depths.mk.injEq, level_group front h, level_group front h',
    and_iff_right rfl]
  rfl

/-- Where the text in front of a group has an end of its own, the group is not read. -/
theorem split_withGroup_of_closesBehind {front : List Char} (h : ClosesBehind a.chars front)
    (g b : Text) : split (withGroup a g b) = split a := by
  have hcloses : ClosesBehind (withGroup a g b).chars front := by
    obtain ⟨⟨rest, hrest⟩, hend⟩ := h
    refine ⟨⟨rest ++ ('(' :: g.chars ++ [')'] ++ b.chars), ?_⟩, hend⟩
    rw [chars_withGroup, hrest, List.append_assoc]
    rfl
  rw [split, split, pieces_of_closesBehind hcloses, pieces_of_closesBehind h]

/-- If the levels behind the group are the same, only the argument with the group can differ. -/
theorem cutAlike_of_sameNesting (ha : NeverCloses a.chars) (hg : Balanced '(' ')' g.chars)
    (hg' : Balanced '(' ')' g'.chars)
    (h : SameNesting (a.chars ++ enclosed g.chars) (a.chars ++ enclosed g'.chars))
    (b : Text) : CutAlike (topCommas a.chars).length (withGroup a g b) (withGroup a g' b) := by
  obtain ⟨done, hlength, hpieces⟩ := exists_pieces_withGroup ha
  obtain ⟨cur, hcur⟩ := hpieces g hg
  obtain ⟨cur', hcur'⟩ := hpieces g' hg'
  have hdepths := (afterAll_group_eq_iff a.chars hg hg').mpr h
  obtain ⟨p, ps, closed, hloop⟩ := exists_loop_eq b.chars
    (Depths.afterAll {} (a.chars ++ enclosed g.chars))
  rw [← hlength, ← List.length_reverse]
  have hs : pieces (withGroup a g b).chars =
      (done.reverse ++ (cur.reverse ++ p) :: ps, closed) := by
    rw [hcur, hloop]
  have ht : pieces (withGroup a g' b).chars =
      (done.reverse ++ (cur'.reverse ++ p) :: ps, closed) := by
    rw [hcur', ← hdepths, hloop]
  exact cutAlike_of_pieces hs ht

/-- If the levels behind the group differ, closing brackets and a comma make a text behind the group
that is cut once more for one of the two contents. -/
theorem exists_not_cutAlike (ha : NeverCloses a.chars) (hg : Balanced '(' ')' g.chars)
    (hg' : Balanced '(' ')' g'.chars)
    (h : ¬ SameNesting (a.chars ++ enclosed g.chars) (a.chars ++ enclosed g'.chars)) (k : Nat) :
    ∃ b, ¬ CutAlike k (withGroup a g b) (withGroup a g' b) := by
  obtain ⟨done, -, hpieces⟩ := exists_pieces_withGroup ha
  obtain ⟨cur, hcur⟩ := hpieces g hg
  obtain ⟨cur', hcur'⟩ := hpieces g' hg'
  have hdepths := mt (afterAll_group_eq_iff a.chars hg hg').mp h
  have hparen : (Depths.afterAll {} (a.chars ++ enclosed g.chars)).paren =
      (Depths.afterAll {} (a.chars ++ enclosed g'.chars)).paren := by
    rw [afterAll_eq, afterAll_eq]
    exact (level_group a.chars hg).trans (level_group a.chars hg').symm
  obtain ⟨cs, hcs, hcs', hne⟩ := Depths.exists_isTop_ne hparen hdepths
  refine ⟨Text.ofChars (cs ++ [',']), fun halike => hne ?_⟩
  have hlength := halike.length_eq
  simp only [split, List.length_map] at hlength
  rw [hcur, hcur', Text.chars_ofChars, length_loop_comma hcs, length_loop_comma hcs'] at hlength
  rw [Bool.eq_iff_iff]
  split at hlength <;> split at hlength <;> simp_all

/-- A group whose content is balanced in some other brackets leaves their level as it was. -/
theorem level_append_enclosed {opening closing : Char} {cs : List Char} (hne : opening ≠ closing)
    (hparen : ∀ c ∈ ['(', ')'], c ≠ opening ∧ c ≠ closing) (h : Balanced opening closing cs)
    (front : List Char) :
    level opening closing (front ++ enclosed cs) = level opening closing front := by
  obtain ⟨hopen, hopen'⟩ := hparen '(' (by simp)
  obtain ⟨hclose, hclose'⟩ := hparen ')' (by simp)
  rw [append_enclosed, level_concat, if_neg hclose, if_neg hclose',
    level_append_of_balanced hne h, level_concat, if_neg hopen, if_neg hopen']

theorem sameNesting_of_balanced (front : List Char) {cs cs' : List Char}
    (h : ∀ u ∈ [cs, cs'], Balanced '<' '>' u ∧ Balanced '[' ']' u ∧ Balanced '\x7b' '\x7d' u) :
    SameNesting (front ++ enclosed cs) (front ++ enclosed cs') := by
  have hlevel : ∀ u ∈ [cs, cs'], SameNesting (front ++ enclosed u) front := by
    intro u hu
    obtain ⟨hangle, hsquare, hbrace⟩ := h u hu
    exact ⟨level_append_enclosed (by decide) (by simp) hangle front,
      level_append_enclosed (by decide) (by simp) hsquare front,
      level_append_enclosed (by decide) (by simp) hbrace front⟩
  obtain ⟨hangle, hsquare, hbrace⟩ := hlevel cs (by simp)
  obtain ⟨hangle', hsquare', hbrace'⟩ := hlevel cs' (by simp)
  exact ⟨hangle.trans hangle'.symm, hsquare.trans hsquare'.symm, hbrace.trans hbrace'.symm⟩

/-- **What stands in a balanced group of parentheses is without effect on the other arguments**
exactly if the arguments end in front of the group, or the levels of the other brackets behind the
group do not depend on it.  So it is for all contents that are balanced in the other brackets,
too. -/
theorem cutAlike_withGroup_iff (a g g' : Text) (hg : Balanced '(' ')' g.chars)
    (hg' : Balanced '(' ')' g'.chars) :
    ((∀ b, CutAlike (topCommas a.chars).length (withGroup a g b) (withGroup a g' b)) ↔
      (∃ front, ClosesBehind a.chars front) ∨
        SameNesting (a.chars ++ enclosed g.chars) (a.chars ++ enclosed g'.chars)) ∧
    ((∀ u ∈ [g.chars, g'.chars], Balanced '<' '>' u ∧ Balanced '[' ']' u ∧
        Balanced '\x7b' '\x7d' u) →
      ∀ b, CutAlike (topCommas a.chars).length (withGroup a g b) (withGroup a g' b)) := by
  have hiff : (∀ b, CutAlike (topCommas a.chars).length (withGroup a g b) (withGroup a g' b)) ↔
      (∃ front, ClosesBehind a.chars front) ∨
        SameNesting (a.chars ++ enclosed g.chars) (a.chars ++ enclosed g'.chars) := by
    rcases neverCloses_or_closesBehind a.chars with ha | ⟨front, hfront⟩
    · constructor
      · intro halike
        by_contra hneither
        obtain ⟨b, hb⟩ := exists_not_cutAlike ha hg hg' (mt Or.inr hneither) _
        exact hb (halike b)
      · rintro (⟨front, hfront⟩ | hsame)
        · exact absurd ha hfront.not_neverCloses
        · exact cutAlike_of_sameNesting ha hg hg' hsame
    · refine ⟨fun _ => .inl ⟨front, hfront⟩, fun _ b => cutAlike_of_split_eq ?_⟩
      rw [split_withGroup_of_closesBehind hfront, split_withGroup_of_closesBehind hfront]
  exact ⟨hiff, fun h => hiff.mpr (.inr (sameNesting_of_balanced a.chars h))⟩

/-- A template argument and a number can stand for each other in a group, whatever follows. -/
theorem cutAlike_withGroup_templateArgument :
    Balanced '(' ')' (lit "size<A, B>()").chars ∧ Balanced '(' ')' (lit "8").chars ∧
      (∀ b, CutAlike 1 (withGroup (lit "T, std::array<int, ") (lit "size<A, B>()") b)
        (withGroup (lit "T, std::array<int, ") (lit "8") b)) ∧
      (split (withGroup (lit "T, std::array<int, ") (lit "8") (lit ">, m)"))).1 =
        [lit "T", lit "std::array<int, (8)>", lit "m"] := by
  have hg : Balanced '(' ')' (lit "size<A, B>()").chars := by decide +kernel
  have hg' : Balanced '(' ')' (lit "8").chars := by decide +kernel
  refine ⟨hg, hg', ?_, by decide +kernel⟩
  exact (cutAlike_withGroup_iff (lit "T, std::array<int, ") _ _ hg hg').2 (by decide +kernel)

/-- An arrow in a group closes the angle bracket in front of it, so the comma behind the group
cuts. -/
theorem not_cutAlike_withGroup_arrow :
    Balanced '(' ')' (lit "p->x").chars ∧ Balanced '(' ')' (lit "p.x").chars ∧
      split (withGroup (lit "T, std::pair<decltype") (lit "p.x") (lit ", int>, m)")) =
        ([lit "T", lit "std::pair<decltype(p.x), int>", lit "m"], true) ∧
      split (withGroup (lit "T, std::pair<decltype") (lit "p->x") (lit ", int>, m)")) =
        ([lit "T", lit "std::pair<decltype(p->x)", lit "int>", lit "m"], true) ∧
      ¬ CutAlike 1 (withGroup (lit "T, std::pair<decltype") (lit "p.x") (lit ", int>, m)"))
        (withGroup (lit "T, std::pair<decltype") (lit "p->x") (lit ", int>, m)")) := by
  refine ⟨by decide +kernel, by decide +kernel, by decide +kernel, by decide +kernel, ?_⟩
  exact fun h => absurd h.length_eq (by decide +kernel)

end Arguments

end ReflectGen
