import Mathlib.Data.List.Infix
import ReflectGen.Proofs.Marker.Invocation

/-!
# Cutting arguments

The text behind the opening parenthesis of a marker is read up to the first parenthesis at which
more have been closed than opened, and cut at its top-level commas, those outside of all brackets.
Nothing is lost: the pieces with commas between them are the text that was cut, and the places
between them are those of the top-level commas.

How deep a place is nested is told by counting what stands in front of it.  A closing bracket that
closes nothing does not count, except for a parenthesis, which ends the arguments.

* `Arguments.ClosesBehind`, `Arguments.topCommas`: where the arguments end, and where they are cut.
* `Arguments.loop_reads`: what the loop keeps while it reads a text that closes nothing.
* `Arguments.loop_close`: what stands behind the closing parenthesis is not read.
* `Arguments.split_cuts`: the arguments of a text.
-/

namespace ReflectGen

namespace Arguments

/-! ## Ends and cuts -/

/-- More parentheses are closed than opened. -/
def Exceeds (cs : List Char) : Prop := cs.count '(' < cs.count ')'

/-- At no place of the text more parentheses have been closed than opened. -/
def NeverCloses (cs : List Char) : Prop := ∀ front, front <+: cs → ¬ Exceeds front

/-- Behind `body` stands the first parenthesis at which more have been closed than opened. -/
def ClosesBehind (cs body : List Char) : Prop :=
  (∃ rest, cs = body ++ ')' :: rest) ∧ Exceeds (body ++ [')']) ∧ NeverCloses body

/-- How many brackets are open behind a text; a closing one that closes nothing does not count. -/
def level (opening closing : Char) (front : List Char) : Nat :=
  front.foldl (fun n c => if c = opening then n + 1 else if c = closing then n - 1 else n) 0

/-- No bracket is open behind a text. -/
def IsTop (front : List Char) : Prop :=
  front.count '(' = front.count ')' ∧ level '<' '>' front = 0 ∧ level '[' ']' front = 0 ∧
    level '\x7b' '\x7d' front = 0

instance : DecidablePred IsTop := fun front =>
  inferInstanceAs (Decidable (front.count '(' = front.count ')' ∧ level '<' '>' front = 0 ∧
    level '[' ']' front = 0 ∧ level '\x7b' '\x7d' front = 0))

/-- The places of the commas that stand outside of all brackets. -/
def topCommas (cs : List Char) : List Nat :=
  (List.range cs.length).filter fun i => cs[i]? = some ',' ∧ IsTop (cs.take i)

/-- The places between pieces that are put together with commas. -/
def cutPlaces (ps : List (List Char)) : List Nat :=
  (List.range (ps.length - 1)).map fun n => ([','].intercalate (ps.take (n + 1))).length

/-! ## Depths as counts -/

theorem level_concat (opening closing : Char) (front : List Char) (c : Char) :
    level opening closing (front ++ [c]) =
      if c = opening then level opening closing front + 1
      else if c = closing then level opening closing front - 1
      else level opening closing front := by
  rw [level, List.foldl_append]
  rfl

theorem afterAll_concat (d : Depths) (front : List Char) (c : Char) :
    d.afterAll (front ++ [c]) = (d.afterAll front).after c := by
  rw [Depths.afterAll, List.foldl_append]
  rfl

/-- One more character changes each depth as it changes the level of its brackets. -/
theorem after_eq (d : Depths) (c : Char) :
    d.after c =
      { paren := if c = '(' then d.paren + 1 else if c = ')' then d.paren - 1 else d.paren
        angle := if c = '<' then d.angle + 1 else if c = '>' then d.angle - 1 else d.angle
        square := if c = '[' then d.square + 1 else if c = ']' then d.square - 1 else d.square
        brace := if c = '\x7b' then d.brace + 1 else if c = '\x7d' then d.brace - 1
          else d.brace } := by
  unfold Depths.after
  split <;> simp_all

/-- The depths behind a text are the levels of its brackets. -/
theorem afterAll_eq (front : List Char) :
    Depths.afterAll {} front =
      { paren := level '(' ')' front, angle := level '<' '>' front,
        square := level '[' ']' front, brace := level '\x7b' '\x7d' front } := by
  induction front using List.reverseRecOn with
  | nil => rfl
  | append_singleton front c ih =>
    rw [afterAll_concat, ih, after_eq]
    simp only [level_concat]

/-- As long as nothing is closed too often, the level of the parentheses is what is left open. -/
theorem level_paren {front : List Char} (h : NeverCloses front) :
    level '(' ')' front + front.count ')' = front.count '(' := by
  induction front using List.reverseRecOn with
  | nil => rfl
  | append_singleton front c ih =>
    have hfront := ih fun u hu => h u (hu.trans (List.prefix_append front [c]))
    have hwhole : ¬ Exceeds (front ++ [c]) := h _ (List.prefix_refl _)
    rw [Exceeds, List.count_append, List.count_append] at hwhole
    rw [level_concat, List.count_append, List.count_append]
    by_cases hopen : c = '('
    · subst hopen
      simp at hwhole ⊢
      omega
    · by_cases hclose : c = ')'
      · subst hclose
        simp at hwhole ⊢
        omega
      · simp [hopen, hclose]
        omega

/-- A place is outside of all brackets if all depths are zero there. -/
theorem isTop_afterAll_iff {front : List Char} (h : NeverCloses front) :
    (Depths.afterAll {} front).isTop = true ↔ IsTop front := by
  have hparen := level_paren h
  rw [afterAll_eq, Depths.isTop, IsTop]
  simp only [Bool.and_eq_true, beq_iff_eq, and_assoc]
  refine and_congr_left fun _ => ?_
  omega

/-- One more closing parenthesis is too much where no parenthesis is open. -/
theorem exceeds_close_iff {front : List Char} (h : NeverCloses front) :
    Exceeds (front ++ [')']) ↔ (Depths.afterAll {} front).paren = 0 := by
  have hparen := level_paren h
  have hopening : (front ++ [')']).count '(' = front.count '(' := by simp
  have hclosing : (front ++ [')']).count ')' = front.count ')' + 1 := by simp
  rw [Exceeds, hopening, hclosing, afterAll_eq]
  dsimp only
  omega

/-! ## The pieces so far -/

theorem cutPlaces_concat (ps : List (List Char)) (p : List Char) :
    cutPlaces (ps ++ [p]) =
      (List.range ps.length).map fun n => ([','].intercalate (ps.take (n + 1))).length := by
  rw [cutPlaces, List.length_append, List.length_singleton, Nat.add_sub_cancel]
  refine List.map_congr_left fun n hn => ?_
  rw [List.take_append_of_le_length (List.mem_range.mp hn)]

/-- A new piece adds the end of the text so far to the places. -/
theorem cutPlaces_concat_concat (ps : List (List Char)) (p q : List Char) :
    cutPlaces (ps ++ [p] ++ [q]) =
      cutPlaces (ps ++ [p]) ++ [([','].intercalate (ps ++ [p])).length] := by
  rw [cutPlaces_concat, cutPlaces_concat, List.length_append, List.length_singleton,
    List.range_succ, List.map_append, List.map_singleton]
  congr 1
  · refine List.map_congr_left fun n hn => ?_
    rw [List.take_append_of_le_length (List.mem_range.mp hn)]
  · rw [List.take_of_length_le (by simp)]

theorem topCommas_concat (front : List Char) (c : Char) :
    topCommas (front ++ [c]) =
      topCommas front ++ if c = ',' ∧ IsTop front then [front.length] else [] := by
  rw [topCommas, List.length_append, List.length_singleton, List.range_succ, List.filter_append]
  congr 1
  · refine List.filter_congr fun i hi => ?_
    rw [List.mem_range] at hi
    rw [List.getElem?_append_left hi, List.take_append_of_le_length hi.le]
  · rw [List.filter_singleton]
    simp

/-- The loop has read `front`: the depths are those behind it, and with commas between them the
pieces are `front`, cut at its top-level commas. -/
structure Reads (front : List Char) (d : Depths) (cur : List Char) (done : List (List Char)) :
    Prop where
  depths : d = Depths.afterAll {} front
  text : [','].intercalate (done.reverse ++ [cur.reverse]) = front
  places : cutPlaces (done.reverse ++ [cur.reverse]) = topCommas front

theorem reads_nil : Reads [] {} [] [] := ⟨rfl, by simp, rfl⟩

/-- A top-level comma ends the current piece. -/
theorem Reads.comma {front cur : List Char} {d : Depths} {done : List (List Char)}
    (h : Reads front d cur done) (htop : IsTop front) :
    Reads (front ++ [',']) d [] (cur.reverse :: done) where
  depths := by
    rw [afterAll_concat, ← h.depths]
    rfl
  text := by
    rw [List.reverse_cons, List.reverse_nil, Text.intercalate_concat, List.flatMap_append,
      List.flatMap_singleton, ← List.append_assoc, ← Text.intercalate_concat, h.text]
    simp
  places := by
    rw [List.reverse_cons, cutPlaces_concat_concat, h.places, h.text, topCommas_concat,
      if_pos ⟨rfl, htop⟩]

/-- All other characters go to the current piece. -/
theorem Reads.keep {front cur : List Char} {d : Depths} {done : List (List Char)}
    (h : Reads front d cur done) {c : Char} (hc : ¬ (c = ',' ∧ IsTop front)) :
    Reads (front ++ [c]) (d.after c) (c :: cur) done where
  depths := by rw [afterAll_concat, ← h.depths]
  text := by
    rw [List.reverse_cons, Text.intercalate_concat, ← List.append_assoc,
      ← Text.intercalate_concat, h.text]
  places := by
    rw [cutPlaces_concat, ← cutPlaces_concat _ cur.reverse, h.places, topCommas_concat, if_neg hc,
      List.append_nil]

/-- A character that closes nothing is read: a top-level comma ends the current piece, and all other
characters go to it. -/
theorem Reads.next {front cur : List Char} {d : Depths} {done : List (List Char)}
    (h : Reads front d cur done) {c : Char} (hnever : NeverCloses (front ++ [c])) :
    ∃ d' cur' done', Reads (front ++ [c]) d' cur' done' ∧
      ∀ cs, loop (c :: cs) d cur done = loop cs d' cur' done' := by
  have hfront : NeverCloses front := fun u hu => hnever u (hu.trans (List.prefix_append front [c]))
  have hopen : ¬ (c == ')' && d.paren == 0) = true := by
    rw [Bool.and_eq_true, beq_iff_eq, beq_iff_eq, h.depths]
    rintro ⟨rfl, hzero⟩
    exact hnever _ (List.prefix_refl _) ((exceeds_close_iff hfront).mpr hzero)
  have htop : (c == ',' && d.isTop) = true ↔ c = ',' ∧ IsTop front := by
    rw [Bool.and_eq_true, beq_iff_eq, h.depths, isTop_afterAll_iff hfront]
  by_cases hcut : c = ',' ∧ IsTop front
  · have hread := h.comma hcut.2
    rw [← hcut.1] at hread
    exact ⟨_, _, _, hread, fun cs => by rw [loop, if_neg hopen, if_pos (htop.mpr hcut)]⟩
  · exact ⟨_, _, _, h.keep hcut, fun cs => by rw [loop, if_neg hopen, if_neg (mt htop.mp hcut)]⟩

/-- **A text that closes nothing is cut at its top-level commas.**  The induction is on what the
loop has not read yet. -/
theorem loop_reads {cs : List Char} : ∀ {front cur : List Char} {d : Depths}
    {done : List (List Char)}, Reads front d cur done → NeverCloses (front ++ cs) →
    ∃ ps ≠ [], loop cs d cur done = (ps, false) ∧ [','].intercalate ps = front ++ cs ∧
      cutPlaces ps = topCommas (front ++ cs) := by
  induction cs with
  | nil =>
    intro front cur d done h _
    refine ⟨done.reverse ++ [cur.reverse], by simp, ?_, ?_, ?_⟩
    · rw [loop, List.reverse_cons]
    · rw [h.text, List.append_nil]
    · rw [h.places, List.append_nil]
  | cons c cs ih =>
    intro front cur d done h hnever
    have hsplit : front ++ c :: cs = front ++ [c] ++ cs := by simp
    rw [hsplit] at hnever ⊢
    obtain ⟨d', cur', done', hnext, hloop⟩ := h.next fun u hu =>
      hnever u (hu.trans (List.prefix_append _ cs))
    rw [hloop]
    exact ih hnext hnever

/-! ## The closing parenthesis -/

/-- At the closing parenthesis the pieces of the text in front of it are complete. -/
theorem loop_close (rest : List Char) {body : List Char} : ∀ {d : Depths} {cur : List Char}
    {done : List (List Char)},
    (∀ front back, body = front ++ ')' :: back → (d.afterAll front).paren ≠ 0) →
    (d.afterAll body).paren = 0 →
      loop (body ++ ')' :: rest) d cur done = ((loop body d cur done).1, true) := by
  induction body with
  | nil =>
    intro d cur done _ hend
    have hzero : d.paren = 0 := hend
    have hclose : (')' == ')' && d.paren == 0) = true := by rw [hzero]; rfl
    show loop (')' :: rest) d cur done = ((cur.reverse :: done).reverse, true)
    rw [loop, if_pos hclose]
  | cons c body ih =>
    intro d cur done hopen hend
    have hskip : ¬ (c == ')' && d.paren == 0) = true := by
      rw [Bool.and_eq_true, beq_iff_eq, beq_iff_eq]
      rintro ⟨rfl, hzero⟩
      exact hopen [] body rfl hzero
    rw [List.cons_append, loop, loop, if_neg hskip, if_neg hskip]
    split
    · next hcut =>
      have hc : c = ',' := beq_iff_eq.mp ((Bool.and_eq_true _ _).mp hcut).1
      subst hc
      refine ih (fun front back hbody => ?_) hend
      exact hopen (',' :: front) back (by rw [hbody]; rfl)
    · refine ih (fun front back hbody => ?_) hend
      exact hopen (c :: front) back (by rw [hbody]; rfl)

/-- The arguments end at the first parenthesis at which more have been closed than opened. -/
theorem loop_of_closesBehind {cs body : List Char} (h : ClosesBehind cs body) :
    loop cs {} [] [] = ((loop body {} [] []).1, true) := by
  obtain ⟨⟨rest, rfl⟩, hexceeds, hnever⟩ := h
  refine loop_close rest (fun front back hbody => ?_) ?_
  · have hfront : NeverCloses front := fun u hu =>
      hnever u (hu.trans ⟨')' :: back, hbody.symm⟩)
    refine mt (exceeds_close_iff hfront).mpr (hnever _ ⟨back, ?_⟩)
    rw [hbody, List.append_assoc]
    rfl
  · exact (exceeds_close_iff hnever).mp hexceeds

/-- A text closes somewhere or never. -/
theorem neverCloses_or_closesBehind (cs : List Char) :
    NeverCloses cs ∨ ∃ body, ClosesBehind cs body := by
  induction cs using List.reverseRecOn with
  | nil =>
    refine .inl fun front hfront => ?_
    rw [List.prefix_nil.mp hfront]
    exact Nat.lt_irrefl 0
  | append_singleton cs c ih =>
    rcases ih with hnever | ⟨body, ⟨rest, rfl⟩, hexceeds, hnever⟩
    · by_cases hexceeds : Exceeds (cs ++ [c])
      · right
        have hc : c = ')' := by
          have hcs := hnever cs (List.prefix_refl cs)
          by_contra hne
          rw [Exceeds, List.count_append, List.count_append] at hexceeds
          rw [Exceeds] at hcs
          simp [hne] at hexceeds
          omega
        subst hc
        exact ⟨cs, ⟨[], rfl⟩, hexceeds, hnever⟩
      · left
        intro front hfront
        rcases List.prefix_concat_iff.mp hfront with rfl | hfront
        · exact hexceeds
        · exact hnever front hfront
    · exact .inr ⟨body, ⟨rest ++ [c], by simp⟩, hexceeds, hnever⟩

theorem ClosesBehind.not_neverCloses {cs body : List Char} (h : ClosesBehind cs body) :
    ¬ NeverCloses cs := by
  obtain ⟨⟨rest, rfl⟩, hexceeds, -⟩ := h
  exact fun hnever => hnever _ ⟨rest, by simp⟩ hexceeds

/-! ## The arguments of a text -/

/-- The pieces of a text that closes nothing. -/
theorem pieces_of_neverCloses {cs : List Char} (h : NeverCloses cs) :
    ∃ ps ≠ [], pieces cs = (ps, false) ∧ [','].intercalate ps = cs ∧
      cutPlaces ps = topCommas cs :=
  loop_reads reads_nil h

/-- The pieces up to a closing parenthesis are those of the text in front of it. -/
theorem pieces_of_closesBehind {cs body : List Char} (h : ClosesBehind cs body) :
    pieces cs = ((pieces body).1, true) :=
  loop_of_closesBehind h

/-- **Arguments are cut without loss.**  A text closes if there is a parenthesis in it at which more
have been closed than opened; its body is then the text in front of the first such parenthesis, and
else the whole text.  The arguments are the trimmed pieces of the body, which put together with
commas give the body back, and which are cut at all its top-level commas and nowhere else.  What
stands behind the closing parenthesis plays no part. -/
theorem split_cuts (t : Text) :
    ∃ body ps,
      ((split t).2 = true ↔ ∃ front, ClosesBehind t.chars front) ∧
      (ClosesBehind t.chars body ∨
        (¬ ∃ front, ClosesBehind t.chars front) ∧ body = t.chars) ∧
      ([','].intercalate ps = body ∧ cutPlaces ps = topCommas body) ∧
      (split t).1 = ps.map (fun p => Text.ofChars (trimChars p)) ∧
      (split t).1.length = (topCommas body).length + 1 ∧
      ((split t).2 = true → ∀ u : Text, body ++ [')'] <+: u.chars → split u = split t) := by
  have hlength : ∀ {ps : List (List Char)} {body : List Char}, ps ≠ [] →
      cutPlaces ps = topCommas body → ps.length = (topCommas body).length + 1 := by
    intro ps body hne hplaces
    have hpos := List.length_pos_iff.mpr hne
    rw [← hplaces, cutPlaces, List.length_map, List.length_range]
    omega
  rcases neverCloses_or_closesBehind t.chars with hnever | ⟨body, hcloses⟩
  · obtain ⟨ps, hne, hpieces, htext, hplaces⟩ := pieces_of_neverCloses hnever
    have hnone : ¬ ∃ front, ClosesBehind t.chars front := by
      rintro ⟨front, hfront⟩
      exact hfront.not_neverCloses hnever
    have hsplit : split t = (ps.map fun p => Text.ofChars (trimChars p), false) := by
      rw [split, hpieces]
    rw [hsplit]
    refine ⟨t.chars, ps, ⟨fun h => absurd h (by simp), fun h => absurd h hnone⟩,
      .inr ⟨hnone, rfl⟩, ⟨htext, hplaces⟩, rfl, ?_, fun h => absurd h (by simp)⟩
    rw [List.length_map, hlength hne hplaces]
  · obtain ⟨ps, hne, hpieces, htext, hplaces⟩ := pieces_of_neverCloses hcloses.2.2
    have hsplit : ∀ u : Text, ClosesBehind u.chars body →
        split u = (ps.map fun p => Text.ofChars (trimChars p), true) := by
      intro u hu
      rw [split, pieces_of_closesBehind hu, hpieces]
    rw [hsplit t hcloses]
    refine ⟨body, ps, ⟨fun _ => ⟨body, hcloses⟩, fun _ => rfl⟩, .inl hcloses, ⟨htext, hplaces⟩, rfl,
      ?_, ?_⟩
    · rw [List.length_map, hlength hne hplaces]
    · rintro - u ⟨rest, hu⟩
      refine hsplit u ⟨⟨rest, ?_⟩, hcloses.2⟩
      rw [← hu, List.append_assoc]
      rfl

/-- Commas in angle brackets and in parentheses do not cut, and an arrow closes nothing. -/
example : split (lit "a<b, c>, f(x, y), p->q) g, h") =
    ([lit "a<b, c>", lit "f(x, y)", lit "p->q"], true) := by decide +kernel

end Arguments

end ReflectGen
