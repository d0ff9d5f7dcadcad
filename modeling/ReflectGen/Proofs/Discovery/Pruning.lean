import ReflectGen.Run.Setup
import ReflectGen.Proofs.Discovery.Exact
import ReflectGen.Proofs.Glob.Compiled

/-!
# Directories that are skipped

A directory is skipped when an exclude pattern matches the path of the directory with `/**` behind
it.  This is the pattern for all that lies in the directory, but it is matched as if it were a path,
in which the stars are characters like all others.  If every pattern that matches it also matches
the paths of what lies in the directory, nothing is lost, and discovery comes to the same as a look
at each file below the root.

So it is with every pattern of texts and stars that does not end in `/*`: the stars of the path can
only be matched by a star at the end of the pattern.  A double star matches the path of a file there
as well, and a single star is not reached, since it does not match the slash in front of the stars.

## Where files are lost

A pattern such as `a/*` is meant for what lies in `a` itself.  It matches the text `a/**`, so `a` is
skipped with all that lies in the directories below it.

* `Matcher.PrunesSoundly`: a matcher with which no file is lost.
* `Glob.prunesSoundly_compile`: patterns of texts and stars that do not end in `/*`.
* `Discovery.find_eq_filtered_iff`: when discovery is a look at each file.
* `Discovery.shallowTree_hides_file`: a pattern that ends in `/*`.
-/

namespace ReflectGen

/-! ## Patterns with which no file is lost -/

/-- What the matcher makes of the content of a directory holds of all that lies in it. -/
def Matcher.PrunesSoundly (m : Matcher) : Prop :=
  ∀ dir rest : Text, m.accepts (dir ++ lit "/**") = true →
    m.accepts (dir ++ [Path.slash] ++ rest) = true

namespace Glob

/-- What stands in front of the stars. -/
theorem prefix_of_prefix_content {u dir : Text} (hlast : ∀ b ∈ u.getLast?, b ≠ 0x2A)
    (h : u <+: dir ++ lit "/**") : u <+: dir ++ [Path.slash] := by
  have hnot : ∀ v : Text, u ≠ v ++ [0x2A] := by
    rintro v rfl
    exact hlast 0x2A (by simp) rfl
  have hcontent : dir ++ lit "/**" = dir ++ [Path.slash] ++ [0x2A] ++ [0x2A] := by
    simp [show lit "/**" = [Path.slash, 0x2A, 0x2A] by decide]
  rw [hcontent, List.prefix_concat_iff] at h
  exact (List.prefix_concat_iff.mp (h.resolve_left (hnot _))).resolve_left (hnot _)

/-- Texts and stars that do not end in a star match nothing that ends in one. -/
theorem getLast?_ne_star {gs : List Glob} (h : Alternates gs)
    (hend : gs = [] ∨ ∃ front x, gs = front ++ [.text x]) {u : Text} (hmatch : Matches gs u) :
    ∀ b ∈ u.getLast?, b ≠ 0x2A := by
  rcases hend with rfl | ⟨front, x, rfl⟩
  · obtain rfl : u = [] := hmatch
    simp
  · have hx : IsPlain x := h.isPart (.text x) (by simp)
    obtain ⟨a, _, rfl, -, rfl⟩ := matches_text_iff.mp hmatch
    rw [List.append_nil, List.getLast?_append_of_ne_nil _ hx.ne_nil]
    rintro b hb rfl
    exact hx.star_notMem (List.mem_of_mem_getLast? hb)

/-- A text at the end of a pattern is not matched by stars, so no directory is skipped. -/
theorem not_accepts_content_of_text {front : List Glob} {x : Text}
    (h : Alternates (front ++ [.text x])) (dir : Text) :
    ¬ (compile (.sequence (front ++ [.text x]))).accepts (dir ++ lit "/**") = true := by
  have hx : IsPlain x := h.isPart (.text x) (by simp)
  intro haccepts
  obtain ⟨u, hu⟩ := suffix_of_accepts h (List.getLast?_concat ..) haccepts
  have hlast := congrArg List.getLast? hu
  rw [List.getLast?_append_of_ne_nil _ hx.ne_nil,
    List.getLast?_append_of_ne_nil _ (by decide)] at hlast
  exact hx.star_notMem (List.mem_of_mem_getLast? (hlast.trans (by decide)))

/-- A double star at the end stands for the stars of the content as for all else in a directory. -/
theorem prunesSoundly_of_super {front : List Glob} (h : Alternates (front ++ [.super])) :
    (compile (.sequence (front ++ [.super]))).PrunesSoundly := by
  have hmatches := accepts_iff_matches h (.inr ⟨.super, by simp, rfl⟩)
  intro dir rest haccepts
  rw [hmatches, matches_append_iff] at haccepts ⊢
  obtain ⟨a, b, hcontent, ha, -⟩ := haccepts
  obtain ⟨c, hc⟩ : a <+: dir ++ [Path.slash] := by
    refine prefix_of_prefix_content ?_ ⟨b, hcontent.symm⟩
    exact getLast?_ne_star (h.of_isInfix (List.prefix_append _ _).isInfix) (h.before_star rfl) ha
  refine ⟨a, c ++ rest, ?_, ha, matches_singleton_iff.mpr trivial⟩
  rw [← hc, List.append_assoc]

/-- A single star at the end does not stand for the slash in front of the stars of a content, so
what comes before it ends in this slash. -/
theorem endsWith_of_accepts_content {front : List Glob} (h : Alternates (front ++ [.any]))
    {dir : Text} (haccepts : (compile (.sequence (front ++ [.any]))).accepts (dir ++ lit "/**") = true) :
    lit "/*" <:+ writtenAll (front ++ [.any]) := by
  rw [accepts_iff_matches h (.inr ⟨.any, by simp, rfl⟩), matches_append_iff] at haccepts
  obtain ⟨a, b, hcontent, ha, hb⟩ := haccepts
  have hslash : Path.slash ∉ b := matches_singleton_iff.mp hb
  have hends := h.before_star rfl
  have hprefix : a <+: dir ++ [Path.slash] := by
    refine prefix_of_prefix_content ?_ ⟨b, hcontent.symm⟩
    exact getLast?_ne_star (h.of_isInfix (List.prefix_append _ _).isInfix) hends ha
  obtain rfl : a = dir ++ [Path.slash] := by
    refine (List.prefix_concat_iff.mp hprefix).resolve_right ?_
    rintro ⟨c, rfl⟩
    rw [List.append_assoc, List.append_cancel_left_eq] at hcontent
    rw [← hcontent, List.mem_append, not_or] at hslash
    exact hslash.2 (by decide)
  rcases hends with rfl | ⟨init, x, rfl⟩
  · exact absurd ha (by simp [Matches])
  · have hx : IsPlain x := h.isPart (.text x) (by simp)
    obtain ⟨c, _, hdir, -, rfl⟩ := matches_text_iff.mp ha
    have hlast := congrArg List.getLast? hdir
    rw [List.append_nil, List.getLast?_append_of_ne_nil _ hx.ne_nil, List.getLast?_concat] at hlast
    obtain ⟨y, rfl⟩ := List.getLast?_eq_some_iff.mp hlast.symm
    refine ⟨writtenAll init ++ y, ?_⟩
    simp [writtenAll, written, show lit "/*" = Path.slash :: lit "*" by decide]

/-- **Texts and stars that do not end in `/*` prune soundly.** -/
theorem prunesSoundly_compile {gs : List Glob} (h : Alternates gs)
    (hend : ¬ lit "/*" <:+ writtenAll gs) : (compile (.sequence gs)).PrunesSoundly := by
  rcases List.eq_nil_or_concat gs with rfl | ⟨front, g, rfl⟩
  · intro dir rest haccepts
    have hempty : (dir ++ lit "/**").isEmpty = true := haccepts
    exact absurd hempty (by simp [lit])
  · rw [List.concat_eq_append] at *
    rcases isPart_cases (h.isPart g (by simp)) with hstar | ⟨x, -, rfl⟩
    · rcases isStar_iff.mp hstar with rfl | rfl
      · exact fun dir rest haccepts => absurd (endsWith_of_accepts_content h haccepts) hend
      · exact prunesSoundly_of_super h
    · exact fun dir rest haccepts => absurd haccepts (not_accepts_content_of_text h dir)

end Glob

namespace Pattern

/-- A pattern of texts and stars that does not end in `/*` prunes soundly. -/
theorem prunesSoundly_of_read {text : Text} {p : Pattern} (h : Glob.IsStarPattern text)
    (hend : ¬ lit "/*" <:+ text) (hread : read text = .ok p) : p.matcher.PrunesSoundly := by
  obtain ⟨gs, hgs, rfl⟩ := h
  rw [read_writtenAll hgs] at hread
  rw [← Except.ok.inj hread]
  exact Glob.prunesSoundly_compile hgs hend

/-- Every pattern of a list that can be read is one of its texts. -/
theorem exists_read_of_mem {ts : List Text} {ps : List Pattern} (h : readAll ts = .ok ps)
    {p : Pattern} (hp : p ∈ ps) : ∃ text ∈ ts, read text = .ok p := by
  rw [readAll] at h
  induction ts generalizing ps with
  | nil =>
    obtain rfl : [] = ps := Except.ok.inj h
    exact absurd hp List.not_mem_nil
  | cons text ts ih =>
    rw [List.mapM_cons] at h
    cases hread : read text with
    | error e =>
      rw [hread] at h
      exact absurd h (by simp [bind, Except.bind])
    | ok q =>
      cases hrest : ts.mapM read with
      | error e =>
        rw [hread, hrest] at h
        exact absurd h (by simp [bind, Except.bind])
      | ok qs =>
        rw [hread, hrest] at h
        obtain rfl : q :: qs = ps := Except.ok.inj h
        rcases List.mem_cons.mp hp with rfl | hq
        · exact ⟨text, List.mem_cons_self, hread⟩
        · obtain ⟨text', htext, hread'⟩ := ih hrest hq
          exact ⟨text', List.mem_cons_of_mem text htext, hread'⟩

end Pattern

namespace Discovery

variable {t : FileTree} {root : Text} {top : Location} {inc exc : List Pattern} {ns : List Text}

/-- The files below a directory that are selected, in whatever directories they lie. -/
def filtered (t : FileTree) (root : Text) (top : Location) (included excluded : List Pattern) :
    List Text :=
  Text.sort ((t.below top).filterMap
    (kept? (fun ns => isSelected included excluded (Text.join [Path.slash] ns)) root))

/-- A selected file in a directory that is skipped. -/
def IsHidden (t : FileTree) (top : Location) (included excluded : List Pattern) (ns : List Text) :
    Prop :=
  IsRegular t top ns ∧ isSelected included excluded (Text.join [Path.slash] ns) = true ∧
    ∃ front ≠ [], front <+: ns ∧ front ≠ ns ∧
      isSkipped excluded (Text.join [Path.slash] front) = true

/-- The path of what lies in a directory. -/
theorem join_append {front rest : List Text} (hfront : front ≠ []) (hrest : rest ≠ []) :
    Text.join [Path.slash] (front ++ rest) =
      Text.join [Path.slash] front ++ [Path.slash] ++ Text.join [Path.slash] rest := by
  obtain ⟨dirs, d, rfl⟩ := (List.eq_nil_or_concat front).resolve_left hfront
  obtain ⟨others, n, rfl⟩ := (List.eq_nil_or_concat rest).resolve_left hrest
  simp only [List.concat_eq_append]
  rw [← List.append_assoc, Path.join_concat, Path.join_concat, Path.join_concat]
  simp

/-- A directory is skipped for a pattern that matches its content. -/
theorem isSkipped_iff {dir : Text} :
    isSkipped exc dir = true ↔ ∃ p ∈ exc, p.matcher.accepts (dir ++ lit "/**") = true := by
  have hslash : (dir ++ lit "/**").contains Path.slash = true := by
    rw [List.contains_eq_mem, decide_eq_true_eq]
    exact List.mem_append_right dir (by decide)
  rw [isSkipped, Pattern.selects]
  show (_ || (!(dir ++ lit "/**").contains Path.slash && _)) = true ↔ _
  rw [hslash, Bool.not_true, Bool.false_and, Bool.or_false, List.any_eq_true]

/-- If all patterns prune soundly, no selected file lies in a directory that is skipped. -/
theorem not_isHidden (hsound : ∀ p ∈ exc, p.matcher.PrunesSoundly) :
    ¬ IsHidden t top inc exc ns := by
  rintro ⟨-, hsel, front, hfront, ⟨rest, rfl⟩, hproper, hskip⟩
  have hrest : rest ≠ [] := fun hnil => hproper (by rw [hnil, List.append_nil])
  obtain ⟨p, hp, haccepts⟩ := isSkipped_iff.mp hskip
  have hmatch := hsound p hp _ (Text.join [Path.slash] rest) haccepts
  rw [← join_append hfront hrest] at hmatch
  have hexc : Pattern.selects exc (Text.join [Path.slash] (front ++ rest)) = true := by
    rw [Pattern.selects, List.any_eq_true.mpr ⟨p, hp, hmatch⟩, Bool.true_or]
  rw [isSelected, hexc, Bool.not_true, Bool.false_and] at hsel
  exact absurd hsel (by simp)

/-- A selected file is a candidate unless it is hidden. -/
theorem isCandidate_iff_not_isHidden (h : IsRegular t top ns) :
    isCandidate inc exc ns = true ↔
      isSelected inc exc (Text.join [Path.slash] ns) = true ∧ ¬ IsHidden t top inc exc ns := by
  rw [isCandidate_iff h.ne_nil, isSelected, Bool.and_eq_true, Bool.not_eq_true']
  constructor
  · rintro ⟨hinc, hexc, hskipped⟩
    refine ⟨⟨hexc, hinc⟩, ?_⟩
    rintro ⟨-, -, front, hfront, hpre, hproper, hskip⟩
    exact absurd (hskip.symm.trans (hskipped front hfront hpre hproper)) (by simp)
  · rintro ⟨⟨hexc, hinc⟩, hhidden⟩
    refine ⟨hinc, hexc, fun front hfront hpre hproper => ?_⟩
    rw [← Bool.not_eq_true]
    refine fun hskip => hhidden ⟨h, ?_, front, hfront, hpre, hproper, hskip⟩
    rw [isSelected, hexc, hinc]
    rfl

/-- Files below a directory with one path are the same. -/
theorem eq_of_join_eq (hwf : t.WellFormed) (hroot : root ≠ []) {ns ns' : List Text}
    (h : ns ≠ [] ∧ ∃ content, t.entry? (top ++ ns) = some (.file content))
    (h' : ns' ≠ [] ∧ ∃ content, t.entry? (top ++ ns') = some (.file content))
    (heq : Path.join root (Text.join [Path.slash] ns) =
      Path.join root (Text.join [Path.slash] ns')) : ns = ns' := by
  obtain ⟨hne, _, hfile⟩ := h
  obtain ⟨hne', _, hfile'⟩ := h'
  rw [← place_of_ne_nil root hne, ← place_of_ne_nil root hne'] at heq
  exact place_inj hroot hne hne'
    (fun n hn => hwf.isName_of_entry? hfile n (List.mem_append_right _ hn))
    (fun n hn => hwf.isName_of_entry? hfile' n (List.mem_append_right _ hn)) heq

/-- **Discovery is a look at each file**, exactly if no selected file lies in a directory that is
skipped. -/
theorem find_eq_filtered_iff (t : FileTree) (root : Text) (top : Location)
    (included excluded : List Text) (inc exc : List Pattern) (hwf : t.WellFormed)
    (hinc : Pattern.readAll included = .ok inc) (hexc : Pattern.readAll excluded = .ok exc)
    (hreal : t.lstat root = .ok (top, .directory))
    (hopened : ∀ ns ≠ [], t.entry? (top ++ ns) = some .directory → ¬ IsPruned exc ns →
      t.stat (Path.join root (Text.join [Path.slash] ns)) = .ok (top ++ ns, .directory)) :
    (find t root included excluded = .ok (filtered t root top inc exc) ↔
      ∀ ns, ¬ IsHidden t top inc exc ns) ∧
    ((∀ text ∈ excluded, Glob.IsStarPattern text ∧ ¬ lit "/*" <:+ text) →
      find t root included excluded = .ok (filtered t root top inc exc)) := by
  have hroot := ne_nil_of_lstat hreal
  have hiff : find t root included excluded = .ok (filtered t root top inc exc) ↔
      ∀ ns, ¬ IsHidden t top inc exc ns := by
    rw [find_of_entered hwf (entered_of_opened hreal hopened) hinc hexc, Except.ok.injEq]
    constructor
    · intro heq ns hhidden
      -- The hidden file is one of those selected, so it must be a candidate.
      have hfile := (isRegular_iff hwf).mp hhidden.1
      have hmem : Path.join root (Text.join [Path.slash] ns) ∈ filtered t root top inc exc := by
        rw [filtered, Text.mem_sort, mem_kept_iff hwf]
        exact ⟨ns, hfile.1, hfile.2, hhidden.2.1, rfl⟩
      rw [← heq, Text.mem_sort, mem_kept_iff hwf] at hmem
      obtain ⟨ns', hne', hfile', hcandidate, hpath⟩ := hmem
      obtain rfl := eq_of_join_eq hwf hroot hfile ⟨hne', hfile'⟩ hpath
      exact ((isCandidate_iff_not_isHidden hhidden.1).mp hcandidate).2 hhidden
    · intro hnone
      refine Text.sort_eq_of_mem_iff (nodup_kept hwf hroot _) (nodup_kept hwf hroot _) ?_
      intro path
      rw [mem_kept_iff hwf, mem_kept_iff hwf]
      refine exists_congr fun ns => and_congr_right fun hne => and_congr_right fun hfile => ?_
      rw [isCandidate_iff_not_isHidden ((isRegular_iff hwf).mpr ⟨hne, hfile⟩),
        and_iff_left (hnone ns)]
  refine ⟨hiff, fun hpatterns => hiff.mpr fun ns => not_isHidden fun p hp => ?_⟩
  obtain ⟨text, htext, hread⟩ := Pattern.exists_read_of_mem hexc hp
  obtain ⟨hstar, hend⟩ := hpatterns text htext
  exact Pattern.prunesSoundly_of_read hstar hend hread

/-- With the standard exclude patterns discovery is a look at each file, also where a directory is
skipped. -/
theorem tangledTree_find_filtered :
    tangledTree.WellFormed ∧
      tangledTree.lstat (lit "src") = .ok ([lit "src"], .directory) ∧
      (∀ text ∈ standardExcludes, Glob.IsStarPattern text ∧ ¬ lit "/*" <:+ text) ∧
      find tangledTree (lit "src") [lit "**/*.h", lit "**/*.cpp"] standardExcludes =
        .ok [lit "src/a-b.h", lit "src/a/x.h"] := by
  have hwf : tangledTree.WellFormed := by decide +kernel
  have hreal : tangledTree.lstat (lit "src") = .ok ([lit "src"], .directory) := by decide +kernel
  have hpatterns : ∀ text ∈ standardExcludes, Glob.IsStarPattern text ∧ ¬ lit "/*" <:+ text := by
    simp only [standardExcludes, List.forall_mem_cons, List.not_mem_nil, IsEmpty.forall_iff,
      implies_true, and_true]
    refine ⟨⟨⟨[.super, .text (lit "/"), .any, .text (lit "_reflection.cpp")], ?_, ?_⟩, ?_⟩,
      ⟨[.text (lit ".git/"), .super], ?_, ?_⟩, ?_⟩
    all_goals decide +kernel
  refine ⟨hwf, hreal, hpatterns, ?_⟩
  have hfind := (find_eq_filtered_iff tangledTree (lit "src") [lit "src"]
    [lit "**/*.h", lit "**/*.cpp"] standardExcludes _ _ hwf (readAll_eq_ok (by decide +kernel))
    (readAll_eq_ok (by decide +kernel)) hreal (opened_of_below (by decide +kernel))).2 hpatterns
  rw [hfind, filtered]
  exact congrArg Except.ok (Text.sort_eq_of_perm (by decide +kernel) (by decide +kernel))

/-- A header two directories below `src`. -/
def shallowTree : FileTree where
  entries := [
    ([lit "src"], .directory), ([lit "src", lit "a"], .directory),
    ([lit "src", lit "a", lit "b"], .directory),
    ([lit "src", lit "a", lit "b", lit "c.h"], .file [])]
  workdir := []

/-- The pattern `a/*` does not match `a/b/c.h`, but the file is not discovered. -/
theorem shallowTree_hides_file :
    shallowTree.WellFormed ∧
      shallowTree.lstat (lit "src") = .ok ([lit "src"], .directory) ∧
      ∃ inc exc, Pattern.readAll [lit "**/*.h"] = .ok inc ∧ Pattern.readAll [lit "a/*"] = .ok exc ∧
        (Pattern.selects inc (lit "a/b/c.h") = true ∧ Pattern.selects exc (lit "a/b/c.h") = false) ∧
        filtered shallowTree (lit "src") [lit "src"] inc exc = [lit "src/a/b/c.h"] ∧
        find shallowTree (lit "src") [lit "**/*.h"] [lit "a/*"] = .ok [] := by
  have hreal : shallowTree.lstat (lit "src") = .ok ([lit "src"], .directory) := by decide +kernel
  refine ⟨by decide +kernel, hreal, _, _, readAll_eq_ok (by decide +kernel),
    readAll_eq_ok (by decide +kernel), ⟨by decide +kernel, by decide +kernel⟩, ?_, ?_⟩
  · exact Text.sort_eq_of_perm (by decide +kernel) (by decide +kernel)
  · exact find_of_sorted (by decide +kernel) (by decide +kernel) hreal (by decide +kernel)
      List.Pairwise.nil

end Discovery

end ReflectGen
