import Mathlib.Data.List.DropRight
import Mathlib.Data.List.Infix
import Mathlib.Data.List.TakeWhile
import ReflectGen.Proofs.Marker.Cut

/-!
# Texts that close what they open

A text is *balanced* in a kind of brackets if it closes each of them that it opens and no other: no
place has more closing than opening brackets in front of it, and in all there are as many of both.
Such a text can stand between the brackets of any other text without being told apart from nothing
at all.

* `Arguments.Balanced`: a text is balanced in one kind of brackets; concatenation, a pair of
  parentheses around it and trimming keep this.
* `Arguments.level_append_of_balanced`: behind a balanced text as many brackets are open as before.
* `Arguments.Balanced.closesBehind`, `Arguments.ClosesBehind.balanced`: a text is balanced in
  parentheses exactly if the next closing parenthesis behind it is the one that is not its own.
* `Arguments.split_balanced`: the arguments of a marker that is closed are balanced in parentheses.
-/

namespace ReflectGen

/-! ## What trimming leaves -/

/-- Trimming takes only what it is meant to from both ends. -/
theorem Text.exists_append_trimBy {α : Type} (p : α → Bool) (l : List α) :
    ∃ front back, l = front ++ Text.trimBy p l ++ back ∧ (∀ a ∈ front, p a = true) ∧
      ∀ a ∈ back, p a = true := by
  refine ⟨l.takeWhile p, ((l.dropWhile p).reverse.takeWhile p).reverse, ?_, ?_, ?_⟩
  · have hback := congrArg List.reverse
      (List.takeWhile_append_dropWhile (p := p) (l := (l.dropWhile p).reverse))
    rw [List.reverse_append, List.reverse_reverse] at hback
    rw [Text.trimBy, List.append_assoc, hback, List.takeWhile_append_dropWhile]
  · exact fun a ha => List.mem_takeWhile_imp ha
  · exact fun a ha => List.mem_takeWhile_imp (List.mem_reverse.mp ha)

/-- Behind trimming nothing is left to trim. -/
theorem Text.trimBy_trimBy {α : Type} (p : α → Bool) (l : List α) :
    Text.trimBy p (Text.trimBy p l) = Text.trimBy p l := by
  have hfront : (Text.trimBy p l).dropWhile p = Text.trimBy p l := by
    rw [List.dropWhile_eq_self_iff]
    intro hpos
    have hbegin : Text.trimBy p l <+: l.dropWhile p := List.rdropWhile_prefix p _
    have hne : l.dropWhile p ≠ [] := by
      intro hnil
      rw [hnil, List.prefix_nil] at hbegin
      simp [hbegin] at hpos
    rw [hbegin.getElem, ← List.head_eq_getElem hne]
    exact Bool.eq_false_iff.mp (List.head_dropWhile_not p hne)
  rw [Text.trimBy, hfront]
  exact List.rdropWhile_idempotent p (l.dropWhile p)

namespace Arguments

variable {opening closing : Char} {cs cs' front : List Char}

/-! ## Balanced texts -/

/-- No place of the text has more closing than opening brackets in front of it, and in all there are
as many of both. -/
structure Balanced (opening closing : Char) (cs : List Char) : Prop where
  count_le : ∀ front, front <+: cs → front.count closing ≤ front.count opening
  count_eq : cs.count opening = cs.count closing

theorem balanced_iff :
    Balanced opening closing cs ↔
      (∀ front ∈ cs.inits, front.count closing ≤ front.count opening) ∧
        cs.count opening = cs.count closing := by
  simp only [List.mem_inits]
  exact ⟨fun h => ⟨h.count_le, h.count_eq⟩, fun h => ⟨h.1, h.2⟩⟩

instance (opening closing : Char) : DecidablePred (Balanced opening closing) := fun _ =>
  decidable_of_iff' _ balanced_iff

theorem not_exceeds_iff : ¬ Exceeds cs ↔ cs.count ')' ≤ cs.count '(' := Nat.not_lt

theorem Balanced.neverCloses (h : Balanced '(' ')' cs) : NeverCloses cs := fun front hfront =>
  not_exceeds_iff.mpr (h.count_le front hfront)

theorem neverCloses_concat_iff {c : Char} :
    NeverCloses (cs ++ [c]) ↔ NeverCloses cs ∧ ¬ Exceeds (cs ++ [c]) := by
  constructor
  · intro h
    exact ⟨fun front hfront => h front (hfront.trans (List.prefix_append cs [c])),
      h _ (List.prefix_refl _)⟩
  · rintro ⟨h, hwhole⟩ front hfront
    rcases List.prefix_concat_iff.mp hfront with rfl | hfront
    · exact hwhole
    · exact h front hfront

theorem Balanced.append (h : Balanced opening closing cs) (h' : Balanced opening closing cs') :
    Balanced opening closing (cs ++ cs') where
  count_le front hfront := by
    obtain ⟨rest, hrest⟩ := hfront
    rcases List.append_eq_append_iff.mp hrest with ⟨mid, rfl, -⟩ | ⟨back, rfl, rfl⟩
    · exact h.count_le front (List.prefix_append front mid)
    · have hle := h'.count_le back (List.prefix_append back rest)
      have heq := h.count_eq
      rw [List.count_append, List.count_append]
      omega
  count_eq := by rw [List.count_append, List.count_append, h.count_eq, h'.count_eq]

/-- Characters that are no such brackets are balanced. -/
theorem balanced_of_notMem (hopening : opening ∉ cs) (hclosing : closing ∉ cs) :
    Balanced opening closing cs where
  count_le front hfront := by
    rw [List.count_eq_zero.mpr fun h => hclosing (hfront.subset h)]
    exact Nat.zero_le _
  count_eq := by rw [List.count_eq_zero.mpr hopening, List.count_eq_zero.mpr hclosing]

/-- What is left of a balanced text when blanks are taken from its ends. -/
theorem Balanced.trimChars (h : Balanced '(' ')' cs) : Balanced '(' ')' (trimChars cs) := by
  obtain ⟨front, back, heq, hfront, hback⟩ := Text.exists_append_trimBy isBlank cs
  have hopening : ∀ {l : List Char}, (∀ c ∈ l, isBlank c = true) → l.count '(' = 0 := fun hl =>
    List.count_eq_zero.mpr fun hmem => absurd (hl _ hmem) (by decide)
  have hclosing : ∀ {l : List Char}, (∀ c ∈ l, isBlank c = true) → l.count ')' = 0 := fun hl =>
    List.count_eq_zero.mpr fun hmem => absurd (hl _ hmem) (by decide)
  have hcount := h.count_eq
  rw [heq] at hcount
  simp only [List.count_append, hopening hfront, hopening hback, hclosing hfront,
    hclosing hback, Nat.zero_add, Nat.add_zero] at hcount
  refine ⟨fun u hu => ?_, hcount⟩
  have hbegin : front ++ u <+: cs := by
    rw [heq, List.append_assoc]
    exact (List.prefix_append_right_inj front).mpr (hu.trans (List.prefix_append _ back))
  have hle := h.count_le _ hbegin
  rwa [List.count_append, List.count_append, hopening hfront, hclosing hfront, Nat.zero_add,
    Nat.zero_add] at hle

/-! ## How deep a text is nested -/

/-- Where no place closes too many, the level counts the brackets that were opened and not
closed. -/
theorem level_append_add (hne : opening ≠ closing)
    (h : ∀ front, front <+: cs → front.count closing ≤ front.count opening)
    (front : List Char) :
    level opening closing (front ++ cs) + cs.count closing =
      level opening closing front + cs.count opening := by
  induction cs using List.reverseRecOn with
  | nil => simp
  | append_singleton cs c ih =>
    have hcs := ih fun u hu => h u (hu.trans (List.prefix_append cs [c]))
    have hwhole := h _ (List.prefix_refl (cs ++ [c]))
    rw [← List.append_assoc, level_concat]
    simp only [List.count_append] at hwhole ⊢
    by_cases hopen : c = opening
    · subst hopen
      simp [hne] at hwhole ⊢
      omega
    · by_cases hclose : c = closing
      · subst hclose
        simp [hopen] at hwhole ⊢
        omega
      · simp [hopen, hclose]
        omega

/-- Behind a balanced text as many brackets are open as before it. -/
theorem level_append_of_balanced (hne : opening ≠ closing) (h : Balanced opening closing cs)
    (front : List Char) :
    level opening closing (front ++ cs) = level opening closing front := by
  have hlevel := level_append_add hne h.count_le front
  have hcount := h.count_eq
  omega

/-! ## The closing parenthesis behind a balanced text -/

/-- Behind a balanced text the next closing parenthesis is one too many. -/
theorem Balanced.closesBehind (h : Balanced '(' ')' cs) (rest : List Char) :
    ClosesBehind (cs ++ ')' :: rest) cs := by
  refine ⟨⟨rest, rfl⟩, ?_, h.neverCloses⟩
  have hcount := h.count_eq
  rw [Exceeds, List.count_append, List.count_append]
  simp
  omega

/-- What stands in front of the first parenthesis that closes too many is balanced. -/
theorem ClosesBehind.balanced {body : List Char} (h : ClosesBehind cs body) :
    Balanced '(' ')' body where
  count_le front hfront := not_exceeds_iff.mp (h.2.2 front hfront)
  count_eq := by
    have hexceeds := h.2.1
    have hwhole := not_exceeds_iff.mp (h.2.2 body (List.prefix_refl body))
    rw [Exceeds, List.count_append, List.count_append] at hexceeds
    simp at hexceeds
    omega

/-! ## Pieces between top-level commas -/

/-- The loop keeps finished pieces balanced, and the current one open as deep as it stands.  The
induction is on what the loop has not read yet. -/
theorem loop_balanced {cs : List Char} : ∀ {d : Depths} {cur : List Char}
    {done ps : List (List Char)}, (∀ p ∈ done, Balanced '(' ')' p) → NeverCloses cur.reverse →
    cur.count '(' = cur.count ')' + d.paren → loop cs d cur done = (ps, true) →
    ∀ p ∈ ps, Balanced '(' ')' p := by
  induction cs with
  | nil =>
    intro d cur done ps _ _ _ h
    exact absurd (congrArg Prod.snd h) (by simp [loop])
  | cons c cs ih =>
    intro d cur done ps hdone hcur hopen h
    have hpiece : d.paren = 0 → Balanced '(' ')' cur.reverse := by
      intro hzero
      refine ⟨fun front hfront => not_exceeds_iff.mp (hcur front hfront), ?_⟩
      rw [List.count_reverse, List.count_reverse, hopen, hzero, Nat.add_zero]
    have hcons : d.paren = 0 → ∀ p ∈ cur.reverse :: done, Balanced '(' ')' p := fun hzero =>
      List.forall_mem_cons.mpr ⟨hpiece hzero, hdone⟩
    rw [loop] at h
    split at h
    · next hclose =>
      rw [Bool.and_eq_true, beq_iff_eq, beq_iff_eq] at hclose
      intro p hp
      rw [← (Prod.mk.inj h).1, List.mem_reverse] at hp
      exact hcons hclose.2 p hp
    · next hclose =>
      rw [Bool.and_eq_true, beq_iff_eq, beq_iff_eq] at hclose
      split at h
      · next hcut =>
        rw [Bool.and_eq_true, Depths.isTop] at hcut
        have hzero : d.paren = 0 := by simp_all
        refine ih (hcons hzero) ?_ ?_ h
        · exact (balanced_of_notMem List.not_mem_nil List.not_mem_nil).neverCloses
        · rw [hzero]
          rfl
      · -- one more character of the current piece; a closing parenthesis finds one to close
        have hnext : (c :: cur).count '(' = (c :: cur).count ')' + (d.after c).paren := by
          rw [after_eq, List.count_cons, List.count_cons]
          by_cases hc : c = '('
          · subst hc
            simp
            omega
          · by_cases hc' : c = ')'
            · subst hc'
              have hpos : d.paren ≠ 0 := fun hzero => hclose ⟨rfl, hzero⟩
              simp
              omega
            · simp [hc, hc', hopen]
        refine ih hdone ?_ hnext h
        rw [List.reverse_cons, neverCloses_concat_iff, not_exceeds_iff]
        refine ⟨hcur, ?_⟩
        rw [← List.reverse_cons, List.count_reverse, List.count_reverse, hnext]
        exact Nat.le_add_right _ _

/-- The arguments of a marker that is closed are balanced in parentheses. -/
theorem split_balanced {t : Text} (hclosed : (split t).2 = true) {arg : Text}
    (harg : arg ∈ (split t).1) : Balanced '(' ')' arg.chars := by
  obtain ⟨ps, closed, hpieces⟩ : ∃ ps closed, pieces t.chars = (ps, closed) := ⟨_, _, rfl⟩
  have hsplit : split t = (ps.map fun p => Text.ofChars (trimChars p), closed) := by
    rw [split, hpieces]
  rw [hsplit] at hclosed harg
  obtain rfl : closed = true := hclosed
  obtain ⟨p, hp, rfl⟩ := List.mem_map.mp harg
  rw [Text.chars_ofChars]
  refine (loop_balanced ?_ ?_ ?_ hpieces p hp).trimChars
  · exact fun p hp => absurd hp List.not_mem_nil
  · exact (balanced_of_notMem List.not_mem_nil List.not_mem_nil).neverCloses
  · rfl

end Arguments

end ReflectGen
